import Marreta.Doc.Mongo
import Marreta.Foundation.Ensures

namespace Marreta

open Foundation

/-! What an aggregation means.

The database is given by what it does in each kind of stage.  A chain of steps
should mean its steps one after another; the driver instead sends the few stages it
keeps of them, in an order of its own. -/

/-- What a document database does to a list of documents. -/
structure DocEngine (Doc : Type) where
  filter : MongoCondition → List Doc → List Doc
  project : List String → List Doc → List Doc
  sort : String → SortDirection → List Doc → List Doc
  limit : Int64 → List Doc → List Doc
  skip : Int64 → List Doc → List Doc
  group : Table String GroupExpr → List Doc → List Doc

namespace DocEngine

variable {Doc : Type} (engine : DocEngine Doc)

/-- Conditions of one stage all have to hold. -/
def runStage (docs : List Doc) : MongoStage → List Doc
  | .match conditions => conditions.foldl (fun docs condition => engine.filter condition docs) docs
  | .group fields => engine.group fields docs
  | .sort field direction => engine.sort field direction docs
  | .limit bound => engine.limit bound docs

/-- The rows of an aggregation. -/
def aggregate (query : DocQuery) (docs : List Doc) : List Doc :=
  (queryAggregate query).foldl engine.runStage docs

/-- One step after another.  The first step of the grouping groups, the others
belong to it. -/
def applySteps (fields : Table String GroupExpr) : Bool → List DocStep → List Doc → List Doc
  | _, [], docs => docs
  | grouped, .filter condition :: steps, docs =>
      applySteps fields grouped steps (engine.filter (conditionOf condition) docs)
  | grouped, .pick names :: steps, docs =>
      applySteps fields grouped steps (engine.project names docs)
  | grouped, .order field direction :: steps, docs =>
      applySteps fields grouped steps (engine.sort field direction docs)
  | grouped, .limit bound :: steps, docs =>
      applySteps fields grouped steps (engine.limit bound docs)
  | grouped, .offset bound :: steps, docs =>
      applySteps fields grouped steps (engine.skip bound docs)
  | grouped, .groupBy _ :: steps, docs | grouped, .accumulate _ :: steps, docs =>
      applySteps fields true steps (if grouped then docs else engine.group fields docs)

end DocEngine

/-! ## Chains -/

namespace DocStep

def groupBy? : DocStep → Option String
  | .groupBy field => some field
  | _ => none

def accumulator? : DocStep → Option Accumulator
  | .accumulate accumulator => some accumulator
  | _ => none

end DocStep

def chainKeys (steps : List DocStep) : List String :=
  steps.filterMap DocStep.groupBy?

def chainAccumulators (steps : List DocStep) : List Accumulator :=
  steps.filterMap DocStep.accumulator?

/-- The grouping that a chain describes; a second key is an error. -/
def chainGroup (steps : List DocStep) : Option (Table String GroupExpr) :=
  match chainKeys steps with
  | [] => some (groupDoc none (chainAccumulators steps))
  | [key] => some (groupDoc (some key) (chainAccumulators steps))
  | _ => none

inductive RowTerminal where
  | all | first
deriving DecidableEq

def RowTerminal.rows {Doc : Type} : RowTerminal → List Doc → List Doc
  | .all, docs => docs
  | .first, docs => docs.head?.toList

/-- A chain is rejected, or its rows are those of its steps in order. -/
def MeansItsSteps (position : Position) (collection : String) (steps : List DocStep)
    (terminal : RowTerminal) : Prop :=
  match runDocSteps position steps (DocQueryState.new collection) with
  | .error _ => True
  | .ok query =>
      query.isAggregate = true ∧ ∃ fields, chainGroup steps = some fields ∧
        ∀ {Doc : Type} (engine : DocEngine Doc) (docs : List Doc),
          terminal.rows (engine.aggregate query docs) =
            terminal.rows (engine.applySteps fields false steps docs)

/-! ## Events

Every step and every stage is a list of events for the database, and the rows are
the same for every database only when the events are. -/

inductive DocEvent where
  | filter (condition : MongoCondition)
  | project (fields : List String)
  | sort (field : String) (direction : SortDirection)
  | limit (bound : Int64)
  | skip (bound : Int64)
  | group (fields : Table String GroupExpr)

def DocEvent.isGroup : DocEvent → Bool
  | .group _ => true
  | _ => false

namespace DocEngine

variable {Doc : Type} (engine : DocEngine Doc)

def runEvent (docs : List Doc) : DocEvent → List Doc
  | .filter condition => engine.filter condition docs
  | .project fields => engine.project fields docs
  | .sort field direction => engine.sort field direction docs
  | .limit bound => engine.limit bound docs
  | .skip bound => engine.skip bound docs
  | .group fields => engine.group fields docs

end DocEngine

/-- The event of a step outside of the grouping. -/
def DocStep.event? : DocStep → Option DocEvent
  | .filter condition => some (.filter (conditionOf condition))
  | .pick fields => some (.project fields)
  | .order field direction => some (.sort field direction)
  | .limit bound => some (.limit bound)
  | .offset bound => some (.skip bound)
  | .groupBy _ | .accumulate _ => none

def stepEvents (fields : Table String GroupExpr) : Bool → List DocStep → List DocEvent
  | _, [] => []
  | grouped, step :: steps =>
      if step.isGrouping then
        (if grouped then [] else [.group fields]) ++ stepEvents fields true steps
      else step.event?.toList ++ stepEvents fields grouped steps

def queryEvents (query : DocQuery) : List DocEvent :=
  (buildQueryFilter query).map DocEvent.filter ++
    (DocEvent.group (groupDoc query.groupBy query.accumulators) ::
      ((query.postSort.map fun (field, direction) => DocEvent.sort field direction).toList ++
        (query.postLimit.map DocEvent.limit).toList))

theorem applySteps_eq {Doc : Type} (engine : DocEngine Doc) (fields : Table String GroupExpr)
    (grouped : Bool) (steps : List DocStep) (docs : List Doc) :
    engine.applySteps fields grouped steps docs =
      (stepEvents fields grouped steps).foldl engine.runEvent docs := by
  induction steps generalizing grouped docs with
  | nil => rfl
  | cons step steps ih =>
      cases step with
      | filter condition => exact ih grouped (engine.filter (conditionOf condition) docs)
      | pick names => exact ih grouped (engine.project names docs)
      | order field direction => exact ih grouped (engine.sort field direction docs)
      | limit bound => exact ih grouped (engine.limit bound docs)
      | offset bound => exact ih grouped (engine.skip bound docs)
      | groupBy field | accumulate accumulator =>
          cases grouped with
          | true => exact ih true docs
          | false => exact ih true (engine.group fields docs)

theorem aggregate_eq {Doc : Type} (engine : DocEngine Doc) (query : DocQuery) (docs : List Doc) :
    engine.aggregate query docs = (queryEvents query).foldl engine.runEvent docs := by
  have filtered (docs : List Doc) :
      (if (buildQueryFilter query).isEmpty then []
        else [MongoStage.match (buildQueryFilter query)]).foldl engine.runStage docs =
      ((buildQueryFilter query).map DocEvent.filter).foldl engine.runEvent docs := by
    rw [List.foldl_map]
    cases buildQueryFilter query with
    | nil => rfl
    | cons condition conditions => rfl
  unfold DocEngine.aggregate queryAggregate queryEvents
  rw [List.foldl_append, List.foldl_append, List.foldl_append, filtered, List.foldl_append]
  cases query.postSort <;> cases query.postLimit <;> rfl

/-- A database that writes down what it is asked for. -/
def traceEngine : DocEngine (List DocEvent) where
  filter condition docs := docs.map (· ++ [.filter condition])
  project fields docs := docs.map (· ++ [.project fields])
  sort field direction docs := docs.map (· ++ [.sort field direction])
  limit bound docs := docs.map (· ++ [.limit bound])
  skip bound docs := docs.map (· ++ [.skip bound])
  group fields docs := docs.map (· ++ [.group fields])

theorem foldl_traceEngine (events trace : List DocEvent) :
    events.foldl traceEngine.runEvent [trace] = [trace ++ events] := by
  induction events generalizing trace with
  | nil => simp
  | cons event events ih =>
      have step : traceEngine.runEvent [trace] event = [trace ++ [event]] := by
        cases event <;> rfl
      rw [List.foldl_cons, step, ih, List.append_assoc, List.singleton_append]

theorem rows_eq_iff (terminal : RowTerminal) (one other : List DocEvent) :
    (∀ {Doc : Type} (engine : DocEngine Doc) (docs : List Doc),
      terminal.rows (one.foldl engine.runEvent docs) =
        terminal.rows (other.foldl engine.runEvent docs)) ↔ one = other := by
  constructor
  · intro same
    have traces := same traceEngine [[]]
    rw [foldl_traceEngine, foldl_traceEngine] at traces
    cases terminal with
    | all | first => simpa [RowTerminal.rows] using traces
  · rintro rfl Doc engine docs
    rfl

/-! ## Accepted chains -/

/-- Steps that are not taken after one another. -/
def DocStep.Excludes : DocStep → DocStep → Prop
  | .accumulate _, .groupBy _ | .groupBy _, .pick _ | .accumulate _, .pick _ => True
  | _, _ => False

/-- Some step is rejected: a key after an accumulator, or `pick` after the grouping
has started. -/
def StepsRejected (steps : List DocStep) : Prop :=
  ¬ steps.Pairwise fun one other => ¬ one.Excludes other

namespace DocStep

def filter? : DocStep → Option (DocFilter Value)
  | .filter condition => some condition
  | _ => none

def order? : DocStep → Option (String × SortDirection)
  | .order field direction => some (field, direction)
  | _ => none

def limit? : DocStep → Option Int64
  | .limit bound => some bound
  | _ => none

end DocStep

/-- What the steps after the first one of the grouping make of a query. -/
structure Extends (query next : DocQuery) (steps : List DocStep) : Prop where
  aggregate : next.isAggregate = true
  filters : next.filters = query.filters ++ steps.filterMap DocStep.filter?
  groupBy : next.groupBy = ((chainKeys steps).getLast?.or query.groupBy)
  accumulators : next.accumulators = query.accumulators ++ chainAccumulators steps
  postSort : next.postSort = ((steps.filterMap DocStep.order?).getLast?.or query.postSort)
  postLimit : next.postLimit = ((steps.filterMap DocStep.limit?).getLast?.or query.postLimit)

theorem getLast?_cons_or {α : Type} (value : α) (values : List α) (other : Option α) :
    (value :: values).getLast?.or other = values.getLast?.or (some value) := by
  rw [List.getLast?_cons]
  cases values.getLast? <;> rfl

theorem Extends.step {position : Position} {query between next : DocQuery} {step : DocStep}
    {steps : List DocStep} (grouped : query.isAggregate = true)
    (applied : applyDocStep position step query = .ok between)
    (later : between.isAggregate = true → Extends between next steps) :
    Extends query next (step :: steps) := by
  cases step with
  | filter condition =>
      obtain rfl := Except.ok.inj applied
      obtain ⟨aggregate, filters, groupBy, accumulators, postSort, postLimit⟩ := later grouped
      refine ⟨aggregate, ?_, groupBy, accumulators, postSort, postLimit⟩
      rw [filters, List.append_assoc]
      rfl
  | pick fields =>
      rw [applyDocStep, if_pos grouped] at applied
      cases applied
  | order field direction =>
      rw [applyDocStep, if_pos grouped] at applied
      obtain rfl := Except.ok.inj applied
      obtain ⟨aggregate, filters, groupBy, accumulators, postSort, postLimit⟩ := later grouped
      refine ⟨aggregate, filters, groupBy, accumulators, ?_, postLimit⟩
      rw [postSort]
      exact (getLast?_cons_or _ _ _).symm
  | limit bound =>
      rw [applyDocStep, if_pos grouped] at applied
      obtain rfl := Except.ok.inj applied
      obtain ⟨aggregate, filters, groupBy, accumulators, postSort, postLimit⟩ := later grouped
      refine ⟨aggregate, filters, groupBy, accumulators, postSort, ?_⟩
      rw [postLimit]
      exact (getLast?_cons_or _ _ _).symm
  | offset bound =>
      obtain rfl := Except.ok.inj applied
      obtain ⟨aggregate, filters, groupBy, accumulators, postSort, postLimit⟩ := later grouped
      exact ⟨aggregate, filters, groupBy, accumulators, postSort, postLimit⟩
  | groupBy field =>
      rw [applyDocStep] at applied
      split at applied
      · cases applied
      · obtain rfl := Except.ok.inj applied
        obtain ⟨aggregate, filters, groupBy, accumulators, postSort, postLimit⟩ := later rfl
        refine ⟨aggregate, filters, ?_, accumulators, postSort, postLimit⟩
        rw [groupBy]
        exact (getLast?_cons_or _ _ _).symm
  | accumulate accumulator =>
      obtain rfl := Except.ok.inj applied
      obtain ⟨aggregate, filters, groupBy, accumulators, postSort, postLimit⟩ := later rfl
      refine ⟨aggregate, filters, groupBy, ?_, postSort, postLimit⟩
      rw [accumulators, List.append_assoc]
      rfl

theorem extends_of_runDocSteps {position : Position} {query next : DocQuery}
    {steps : List DocStep} (grouped : query.isAggregate = true)
    (applied : runDocSteps position steps query = .ok next) : Extends query next steps := by
  induction steps generalizing query with
  | nil =>
      obtain rfl := Except.ok.inj applied
      exact ⟨grouped, by simp, rfl, by simp [chainAccumulators], rfl, rfl⟩
  | cons step steps ih =>
      rw [runDocSteps, List.foldlM_cons, bind_eq_ok] at applied
      obtain ⟨between, first, rest⟩ := applied
      exact Extends.step grouped first fun grouped => ih grouped rest

/-- A step is rejected by a query exactly when it does not go with what the query
already has. -/
theorem applyDocStep_ok {position : Position} {query : DocQuery} {step : DocStep} :
    (∃ next, applyDocStep position step query = .ok next) ↔
      (query.isAggregate = true → ∀ fields, step ≠ .pick fields) ∧
        (query.accumulators ≠ [] → ∀ field, step ≠ .groupBy field) := by
  cases step with
  | filter condition | offset bound | accumulate accumulator => simp [applyDocStep]
  | order field direction | limit bound =>
      cases grouped : query.isAggregate <;> simp [applyDocStep, grouped]
  | pick fields => cases grouped : query.isAggregate <;> simp [applyDocStep, grouped]
  | groupBy field => cases known : query.accumulators <;> simp [applyDocStep, known]

/-- What a step leaves for the steps after it. -/
theorem applyDocStep_modes {position : Position} {query next : DocQuery} {step : DocStep}
    (applied : applyDocStep position step query = .ok next) :
    (next.isAggregate = true ↔ query.isAggregate = true ∨ step.isGrouping = true) ∧
      (next.accumulators ≠ [] ↔
        query.accumulators ≠ [] ∨ ∃ accumulator, step = .accumulate accumulator) := by
  cases step with
  | filter condition | offset bound =>
      obtain rfl := Except.ok.inj applied
      simp [DocStep.isGrouping, DocQueryState.isAggregate]
  | pick fields | order field direction | limit bound =>
      rw [applyDocStep] at applied
      split at applied
      all_goals
        cases applied
        try simp [DocStep.isGrouping, DocQueryState.isAggregate]
  | groupBy field =>
      rw [applyDocStep] at applied
      split at applied
      · cases applied
      · obtain rfl := Except.ok.inj applied
        simp [DocStep.isGrouping, DocQueryState.isAggregate]
  | accumulate accumulator =>
      obtain rfl := Except.ok.inj applied
      simp [DocStep.isGrouping, DocQueryState.isAggregate]

theorem excludes_iff {one other : DocStep} :
    one.Excludes other ↔
      one.isGrouping = true ∧ (∃ fields, other = .pick fields) ∨
        (∃ accumulator, one = .accumulate accumulator) ∧ ∃ field, other = .groupBy field := by
  cases one <;> cases other <;> simp [DocStep.Excludes, DocStep.isGrouping]

theorem runDocSteps_ok {position : Position} {query : DocQuery} {steps : List DocStep} :
    (∃ next, runDocSteps position steps query = .ok next) ↔
      (query.isAggregate = true → ∀ fields, .pick fields ∉ steps) ∧
        (query.accumulators ≠ [] → ∀ field, .groupBy field ∉ steps) ∧
        steps.Pairwise fun one other => ¬ one.Excludes other := by
  induction steps generalizing query with
  | nil => simp [runDocSteps, pure, Except.pure]
  | cons step steps ih =>
      have peel : (∃ next, runDocSteps position (step :: steps) query = .ok next) ↔
          ∃ between, applyDocStep position step query = .ok between ∧
            ∃ next, runDocSteps position steps between = .ok next := by
        simp only [runDocSteps, List.foldlM_cons, bind_eq_ok]
        constructor
        · rintro ⟨next, between, first, rest⟩
          exact ⟨between, first, next, rest⟩
        · rintro ⟨between, first, next, rest⟩
          exact ⟨next, between, first, rest⟩
      rw [peel, List.pairwise_cons]
      simp only [ih, excludes_iff]
      constructor
      · rintro ⟨between, first, picks, keys, apart⟩
        obtain ⟨aggregate, accumulated⟩ := applyDocStep_modes first
        obtain ⟨notPick, notKey⟩ := (applyDocStep_ok).mp ⟨between, first⟩
        refine ⟨fun grouped fields => ?_, fun some field => ?_, fun other member => ?_, apart⟩
        · rw [List.mem_cons, not_or]
          exact ⟨(notPick grouped fields).symm, picks (aggregate.mpr (.inl grouped)) fields⟩
        · rw [List.mem_cons, not_or]
          exact ⟨(notKey some field).symm, keys (accumulated.mpr (.inl some)) field⟩
        · rintro (⟨grouping, fields, rfl⟩ | ⟨accumulates, field, rfl⟩)
          · exact picks (aggregate.mpr (.inr grouping)) fields member
          · exact keys (accumulated.mpr (.inr accumulates)) field member
      · rintro ⟨picks, keys, first, apart⟩
        have accepted : ∃ between, applyDocStep position step query = .ok between := by
          refine (applyDocStep_ok).mpr ⟨fun grouped fields same => ?_, fun some field same => ?_⟩
          · exact picks grouped fields (same ▸ List.mem_cons_self)
          · exact keys some field (same ▸ List.mem_cons_self)
        obtain ⟨between, applied⟩ := accepted
        obtain ⟨aggregate, accumulated⟩ := applyDocStep_modes applied
        refine ⟨between, applied, fun grouped fields member => ?_, fun some field member => ?_, apart⟩
        · rcases aggregate.mp grouped with before | grouping
          · exact picks before fields (List.mem_cons_of_mem _ member)
          · exact first _ member (.inl ⟨grouping, fields, rfl⟩)
        · rcases accumulated.mp some with before | accumulates
          · exact keys before field (List.mem_cons_of_mem _ member)
          · exact first _ member (.inr ⟨accumulates, field, rfl⟩)

/-! ## Chains in the order of their stages -/

def orderSteps (order : Option (String × SortDirection)) (limit : Option Int64) : List DocStep :=
  (order.map fun entry => DocStep.order entry.1 entry.2).toList ++
    (limit.map DocStep.limit).toList

/-- Only filters stand before the grouping.  After it there is at most one `order`
and then at most one `limit`, and no second key. -/
def InOrder (steps : List DocStep) : Prop :=
  ∃ (filters : List (DocFilter Value)) (first : DocStep) (later : List DocStep)
    (order : Option (String × SortDirection)) (limit : Option Int64),
    steps = filters.map DocStep.filter ++ first :: later ∧ first.isGrouping = true ∧
      chainKeys later = [] ∧
      later.filter (fun step => !step.isGrouping) = orderSteps order limit

theorem runDocSteps_before {position : Position} {steps : List DocStep}
    (plain : ∀ step ∈ steps, step.isGrouping = false) {query : DocQuery}
    (fetches : query.isAggregate = false) :
    ∃ next, runDocSteps position steps query = .ok next ∧ next.isAggregate = false ∧
      next.filters = query.filters ++ steps.filterMap DocStep.filter? ∧
      next.groupBy = query.groupBy ∧ next.accumulators = query.accumulators ∧
      next.postSort = query.postSort ∧ next.postLimit = query.postLimit := by
  induction steps generalizing query with
  | nil => exact ⟨query, rfl, fetches, by simp, rfl, rfl, rfl, rfl⟩
  | cons step steps ih =>
      have own := plain step List.mem_cons_self
      have later (query : DocQuery) (fetches : query.isAggregate = false) :=
        @ih (fun other member => plain other (List.mem_cons_of_mem _ member)) query fetches
      have step_ok : ∃ between, applyDocStep position step query = .ok between ∧
          between.isAggregate = false ∧
          between.filters = query.filters ++ step.filter?.toList ∧
          between.groupBy = query.groupBy ∧ between.accumulators = query.accumulators ∧
          between.postSort = query.postSort ∧ between.postLimit = query.postLimit := by
        cases step with
        | filter condition | offset bound =>
            exact ⟨_, rfl, fetches, by simp [DocStep.filter?], rfl, rfl, rfl, rfl⟩
        | pick fields | order field direction | limit bound =>
            rw [applyDocStep, if_neg (by simp [fetches])]
            exact ⟨_, rfl, fetches, by simp [DocStep.filter?], rfl, rfl, rfl, rfl⟩
        | groupBy field | accumulate accumulator => cases own
      obtain ⟨between, applied, mode, filters, key, accumulators, sort, limit⟩ := step_ok
      obtain ⟨next, rest, aggregate, allFilters, keys, all, sorts, limits⟩ := later between mode
      refine ⟨next, ?_, aggregate, ?_, keys.trans key, all.trans accumulators, sorts.trans sort,
        limits.trans limit⟩
      · rw [runDocSteps, List.foldlM_cons, applied]
        exact rest
      · rw [allFilters, filters, List.append_assoc]
        cases found : step.filter? with
        | none => rw [List.filterMap_cons_none found]; rfl
        | some condition => rw [List.filterMap_cons_some found]; rfl

theorem stepEvents_before (fields : Table String GroupExpr) {before : List DocStep}
    (plain : ∀ step ∈ before, step.isGrouping = false) (grouped : Bool) (rest : List DocStep) :
    stepEvents fields grouped (before ++ rest) =
      before.filterMap DocStep.event? ++ stepEvents fields grouped rest := by
  induction before with
  | nil => rfl
  | cons step before ih =>
      have own := plain step List.mem_cons_self
      have later := ih fun other member => plain other (List.mem_cons_of_mem _ member)
      rw [List.cons_append, stepEvents, if_neg (by simp [own]), later]
      cases found : step.event? with
      | none => rw [List.filterMap_cons_none found]; rfl
      | some event => rw [List.filterMap_cons_some found]; rfl

theorem stepEvents_grouped (fields : Table String GroupExpr) (steps : List DocStep) :
    stepEvents fields true steps = steps.filterMap DocStep.event? := by
  induction steps with
  | nil => rfl
  | cons step steps ih =>
      rw [stepEvents]
      cases step with
      | groupBy field | accumulate accumulator => exact ih
      | filter condition | pick names | order field direction | limit bound | offset bound =>
          exact congrArg (List.cons _) ih

/-- Lists are cut at their first group. -/
theorem cut_at_group {one other : List DocEvent} {first second : DocEvent}
    {rest otherRest : List DocEvent} (plain : ∀ event ∈ one, event.isGroup = false)
    (otherPlain : ∀ event ∈ other, event.isGroup = false) (group : first.isGroup = true)
    (otherGroup : second.isGroup = true) :
    one ++ first :: rest = other ++ second :: otherRest ↔
      one = other ∧ first = second ∧ rest = otherRest := by
  induction one generalizing other with
  | nil =>
      cases other with
      | nil => simp
      | cons event other =>
          have differs : first ≠ event := by
            rintro rfl
            rw [otherPlain first List.mem_cons_self] at group
            cases group
          simp [differs]
  | cons event one ih =>
      cases other with
      | nil =>
          have differs : event ≠ second := by
            rintro rfl
            rw [plain event List.mem_cons_self] at otherGroup
            cases otherGroup
          simp [differs]
      | cons otherEvent other =>
          have later := @ih other (fun event member => plain event (List.mem_cons_of_mem _ member))
            (fun event member => otherPlain event (List.mem_cons_of_mem _ member))
          simp [later, and_assoc]

theorem event?_plain {steps : List DocStep} :
    ∀ event ∈ steps.filterMap DocStep.event?, event.isGroup = false := by
  intro event member
  obtain ⟨step, -, found⟩ := List.mem_filterMap.mp member
  cases step <;> cases found <;> rfl

/-- The events before the grouping are those of all filters. -/
theorem before_eq_iff {before later : List DocStep}
    (plain : ∀ step ∈ before, step.isGrouping = false) :
    before.filterMap DocStep.event? =
        ((before.filterMap DocStep.filter? ++ later.filterMap DocStep.filter?).map
          conditionOf).map DocEvent.filter ↔
      (∃ filters : List (DocFilter Value), before = filters.map DocStep.filter) ∧
        later.filterMap DocStep.filter? = [] := by
  constructor
  · intro same
    have filters : ∀ step ∈ before, ∃ condition, step = .filter condition := by
      intro step member
      have own := plain step member
      have event : ∀ event, step.event? = some event → ∃ condition, event = .filter condition := by
        intro event found
        have inside : event ∈ before.filterMap DocStep.event? :=
          List.mem_filterMap.mpr ⟨step, member, found⟩
        rw [same, List.mem_map] at inside
        obtain ⟨condition, -, rfl⟩ := inside
        exact ⟨condition, rfl⟩
      cases step with
      | filter condition => exact ⟨condition, rfl⟩
      | groupBy field | accumulate accumulator => cases own
      | pick fields | order field direction | limit bound | offset bound =>
          obtain ⟨condition, other⟩ := event _ rfl
          cases other
    have listed : ∃ filters : List (DocFilter Value), before = filters.map DocStep.filter := by
      clear same plain
      induction before with
      | nil => exact ⟨[], rfl⟩
      | cons step before ih =>
          obtain ⟨condition, rfl⟩ := filters step List.mem_cons_self
          obtain ⟨conditions, rfl⟩ := ih fun other member =>
            filters other (List.mem_cons_of_mem _ member)
          exact ⟨condition :: conditions, rfl⟩
    refine ⟨listed, ?_⟩
    obtain ⟨conditions, rfl⟩ := listed
    have lengths := congrArg List.length same
    simp only [List.filterMap_map, List.length_map, List.length_append] at lengths
    have all : (conditions.filterMap (DocStep.event? ∘ DocStep.filter)).length =
        conditions.length := by
      simp [Function.comp_def, DocStep.event?]
    have kept : (conditions.filterMap (DocStep.filter? ∘ DocStep.filter)).length =
        conditions.length := by
      simp [Function.comp_def, DocStep.filter?]
    rw [all, kept] at lengths
    exact List.length_eq_zero_iff.mp (by omega)
  · rintro ⟨⟨filters, rfl⟩, none⟩
    rw [none, List.append_nil]
    simp [List.filterMap_map, Function.comp_def, DocStep.event?, DocStep.filter?]

def orderEvents (order : Option (String × SortDirection)) (limit : Option Int64) :
    List DocEvent :=
  (order.map fun (field, direction) => DocEvent.sort field direction).toList ++
    (limit.map DocEvent.limit).toList

/-- The step of an event after the grouping. -/
def DocEvent.orderStep? : DocEvent → Option DocStep
  | .sort field direction => some (.order field direction)
  | .limit bound => some (.limit bound)
  | _ => none

theorem filter_eq_of_events {later : List DocStep}
    (ordered : ∀ event ∈ later.filterMap DocStep.event?, event.orderStep?.isSome = true) :
    later.filter (fun step => !step.isGrouping) =
      (later.filterMap DocStep.event?).filterMap DocEvent.orderStep? := by
  induction later with
  | nil => rfl
  | cons step later ih =>
      cases step with
      | groupBy field | accumulate accumulator => exact ih ordered
      | order field direction | limit bound =>
          exact congrArg (List.cons _)
            (ih fun event member => ordered event (List.mem_cons_of_mem _ member))
      | filter condition | pick fields | offset bound =>
          have own := ordered _ List.mem_cons_self
          cases own

theorem events_of_filter {later rest : List DocStep}
    (same : later.filter (fun step => !step.isGrouping) = rest) :
    later.filterMap DocStep.event? = rest.filterMap DocStep.event? ∧
      later.filterMap DocStep.filter? = rest.filterMap DocStep.filter? ∧
      later.filterMap DocStep.order? = rest.filterMap DocStep.order? ∧
      later.filterMap DocStep.limit? = rest.filterMap DocStep.limit? := by
  subst same
  refine ⟨?_, ?_, ?_, ?_⟩ <;> rw [List.filterMap_filter] <;> congr 1 <;> funext step <;>
    cases step <;> rfl

theorem ordered_orderEvents {order : Option (String × SortDirection)} {limit : Option Int64} :
    ∀ event ∈ orderEvents order limit, event.orderStep?.isSome = true := by
  intro event member
  rcases List.mem_append.mp member with member | member
  · rw [Option.mem_toList, Option.map_eq_some_iff] at member
    obtain ⟨entry, -, rfl⟩ := member
    rfl
  · rw [Option.mem_toList, Option.map_eq_some_iff] at member
    obtain ⟨bound, -, rfl⟩ := member
    rfl

/-- The events after the grouping are those of the last `order` and the last
`limit`. -/
theorem later_eq_iff {later : List DocStep} :
    (later.filterMap DocStep.filter? = [] ∧ later.filterMap DocStep.event? =
        orderEvents (later.filterMap DocStep.order?).getLast?
          (later.filterMap DocStep.limit?).getLast?) ↔
      ∃ order limit, later.filter (fun step => !step.isGrouping) = orderSteps order limit := by
  constructor
  · rintro ⟨-, same⟩
    refine ⟨(later.filterMap DocStep.order?).getLast?, (later.filterMap DocStep.limit?).getLast?, ?_⟩
    rw [filter_eq_of_events, same]
    · unfold orderEvents orderSteps
      cases (later.filterMap DocStep.order?).getLast? <;>
        cases (later.filterMap DocStep.limit?).getLast? <;> rfl
    · rw [same]
      exact ordered_orderEvents
  · rintro ⟨order, limit, same⟩
    obtain ⟨events, filters, orders, limits⟩ := events_of_filter same
    rw [events, filters, orders, limits]
    unfold orderEvents orderSteps
    cases order <;> cases limit <;> exact ⟨rfl, rfl⟩

theorem chainKeys_before {before : List DocStep}
    (plain : ∀ step ∈ before, step.isGrouping = false) :
    chainKeys before = [] ∧ chainAccumulators before = [] := by
  have none : ∀ step ∈ before, step.groupBy? = none ∧ step.accumulator? = none := by
    intro step member
    have own := plain step member
    cases step with
    | groupBy field | accumulate accumulator => cases own
    | filter condition | pick fields | order field direction | limit bound | offset bound =>
        exact ⟨rfl, rfl⟩
  exact ⟨List.filterMap_eq_nil_iff.mpr fun step member => (none step member).1,
    List.filterMap_eq_nil_iff.mpr fun step member => (none step member).2⟩

/-- The query of an accepted chain, cut at the first step of the grouping. -/
theorem query_of_accepted {position : Position} {collection : String}
    {before later : List DocStep} {first : DocStep} {query : DocQuery}
    (plain : ∀ step ∈ before, step.isGrouping = false) (grouping : first.isGrouping = true)
    (accepted : runDocSteps position (before ++ first :: later)
      (DocQueryState.new collection) = .ok query) :
    query.isAggregate = true ∧
      query.filters = before.filterMap DocStep.filter? ++ later.filterMap DocStep.filter? ∧
      query.groupBy = (chainKeys later).getLast?.or first.groupBy? ∧
      query.accumulators = first.accumulator?.toList ++ chainAccumulators later ∧
      query.postSort = (later.filterMap DocStep.order?).getLast? ∧
      query.postLimit = (later.filterMap DocStep.limit?).getLast? := by
  obtain ⟨between, ran, -, filters, key, accumulators, sort, limit⟩ :=
    @runDocSteps_before position before plain (DocQueryState.new collection) rfl
  rw [runDocSteps, List.foldlM_append, ← runDocSteps, ran] at accepted
  change runDocSteps position (first :: later) between = .ok query at accepted
  rw [runDocSteps, List.foldlM_cons, bind_eq_ok] at accepted
  obtain ⟨grouped, applied, rest⟩ := accepted
  have start : grouped.isAggregate = true ∧ grouped.filters = between.filters ∧
      grouped.groupBy = first.groupBy? ∧ grouped.accumulators = first.accumulator?.toList ∧
      grouped.postSort = none ∧ grouped.postLimit = none := by
    cases first with
    | groupBy field =>
        rw [applyDocStep, accumulators] at applied
        obtain rfl := Except.ok.inj applied
        exact ⟨rfl, rfl, rfl, rfl, sort, limit⟩
    | accumulate accumulator =>
        obtain rfl := Except.ok.inj applied
        refine ⟨rfl, rfl, key, ?_, sort, limit⟩
        rw [accumulators]
        rfl
    | filter condition | pick fields | order field direction | limit bound | offset bound =>
        cases grouping
  obtain ⟨mode, ownFilters, ownKey, own, ownSort, ownLimit⟩ := start
  obtain ⟨aggregate, allFilters, keys, all, sorts, limits⟩ := extends_of_runDocSteps mode rest
  refine ⟨aggregate, ?_, ?_, ?_, ?_, ?_⟩
  · rw [allFilters, ownFilters, filters]
    rfl
  · rw [keys, ownKey]
  · rw [all, own]
  · rw [sorts, ownSort, Option.or_none]
  · rw [limits, ownLimit, Option.or_none]

/-- The events of an accepted chain are those of its query exactly when the chain
is in order. -/
theorem events_eq_iff {position : Position} {collection : String} {before later : List DocStep}
    {first : DocStep} {query : DocQuery} (plain : ∀ step ∈ before, step.isGrouping = false)
    (grouping : first.isGrouping = true)
    (accepted : runDocSteps position (before ++ first :: later)
      (DocQueryState.new collection) = .ok query) :
    (∃ fields, chainGroup (before ++ first :: later) = some fields ∧
        queryEvents query = stepEvents fields false (before ++ first :: later)) ↔
      (∃ filters : List (DocFilter Value), before = filters.map DocStep.filter) ∧
        chainKeys later = [] ∧
        ∃ order limit, later.filter (fun step => !step.isGrouping) = orderSteps order limit := by
  obtain ⟨-, filters, key, accumulators, sort, limit⟩ := query_of_accepted plain grouping accepted
  have chainKeys_eq : chainKeys (before ++ first :: later) =
      first.groupBy?.toList ++ chainKeys later := by
    rw [chainKeys, List.filterMap_append, ← chainKeys, (chainKeys_before plain).1]
    cases first <;> rfl
  have chainAccumulators_eq : chainAccumulators (before ++ first :: later) =
      query.accumulators := by
    rw [chainAccumulators, List.filterMap_append, ← chainAccumulators,
      (chainKeys_before plain).2, accumulators]
    cases first <;> rfl
  -- a second key is rejected after an accumulator, and no grouping otherwise
  have grouped : ∀ fields, chainGroup (before ++ first :: later) = some fields ↔
      chainKeys later = [] ∧ fields = groupDoc query.groupBy query.accumulators := by
    intro fields
    rw [chainGroup, chainKeys_eq, chainAccumulators_eq, key]
    cases keys : chainKeys later with
    | nil => cases first <;> simp [DocStep.groupBy?, eq_comm]
    | cons again more =>
        have inside : DocStep.groupBy again ∈ later := by
          have member : again ∈ chainKeys later := by
            rw [keys]
            exact List.mem_cons_self
          obtain ⟨step, known, found⟩ := List.mem_filterMap.mp member
          cases step <;> cases found
          exact known
        cases first with
        | groupBy field => simp [DocStep.groupBy?]
        | accumulate accumulator =>
            obtain ⟨-, -, apart⟩ := (runDocSteps_ok).mp ⟨query, accepted⟩
            have together := (List.pairwise_append.mp apart).2.1
            exact absurd trivial ((List.pairwise_cons.mp together).1 _ inside)
        | filter condition | pick fields | order field direction | limit bound | offset bound =>
            cases grouping
  have events (fields : Table String GroupExpr) :
      stepEvents fields false (before ++ first :: later) =
        before.filterMap DocStep.event? ++ .group fields :: later.filterMap DocStep.event? := by
    rw [stepEvents_before fields plain, stepEvents, if_pos grouping, stepEvents_grouped]
    rfl
  have cut (fields : Table String GroupExpr) :
      queryEvents query = stepEvents fields false (before ++ first :: later) ↔
        before.filterMap DocStep.event? = ((before.filterMap DocStep.filter? ++
            later.filterMap DocStep.filter?).map conditionOf).map DocEvent.filter ∧
          fields = groupDoc query.groupBy query.accumulators ∧
          later.filterMap DocStep.event? = orderEvents (later.filterMap DocStep.order?).getLast?
            (later.filterMap DocStep.limit?).getLast? := by
    have own : queryEvents query = ((before.filterMap DocStep.filter? ++
        later.filterMap DocStep.filter?).map conditionOf).map DocEvent.filter ++
          .group (groupDoc query.groupBy query.accumulators) ::
            orderEvents (later.filterMap DocStep.order?).getLast?
              (later.filterMap DocStep.limit?).getLast? := by
      rw [queryEvents, buildQueryFilter, filters, sort, limit, orderEvents]
    have filtered (conditions : List MongoCondition) :
        ∀ event ∈ conditions.map DocEvent.filter, event.isGroup = false := by
      intro event member
      obtain ⟨condition, -, rfl⟩ := List.mem_map.mp member
      rfl
    rw [own, events, eq_comm, cut_at_group event?_plain (filtered _) rfl rfl]
    simp only [DocEvent.group.injEq]
  simp only [grouped, cut, before_eq_iff plain, ← later_eq_iff]
  constructor
  · rintro ⟨fields, ⟨keys, -⟩, ⟨listed, unfiltered⟩, -, ordered⟩
    exact ⟨listed, keys, unfiltered, ordered⟩
  · rintro ⟨listed, keys, unfiltered, ordered⟩
    exact ⟨_, ⟨keys, rfl⟩, ⟨listed, unfiltered⟩, rfl, ordered⟩

theorem exists_grouping {steps : List DocStep} (grouped : ∃ step ∈ steps, step.isGrouping = true) :
    ∃ before first later, steps = before ++ first :: later ∧
      (∀ step ∈ before, step.isGrouping = false) ∧ first.isGrouping = true := by
  obtain ⟨step, member, grouping⟩ := grouped
  have found : (steps.find? DocStep.isGrouping).isSome = true :=
    List.find?_isSome.mpr ⟨step, member, grouping⟩
  obtain ⟨first, same⟩ := Option.isSome_iff_exists.mp found
  obtain ⟨own, before, later, parts, plain⟩ := List.find?_eq_some_iff_append.mp same
  exact ⟨before, first, later, parts, fun step member => by simpa using plain step member, own⟩

def ordersTotals : List DocStep :=
  [.filter (.eq "status" (.string "paid")), .groupBy "city", .accumulate (.sum "amount" "total"),
    .order "total" .desc, .limit 5]

/-- `doc.orders >> group_by("city") >> where("city" == "Lisbon") >> fetch`. -/
def filteredGroups : List DocStep :=
  [.groupBy "city", .filter (.eq "city" (.string "Lisbon"))]

end Marreta
