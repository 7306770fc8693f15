import Marreta.Tooling.Doctor

namespace Marreta

open Foundation

/-! Providers that a project uses.

Every run of the project's code is followed, call by call, back to the code it begins with.
What a run uses is named there, and a visit finds it if it reads that place. -/

namespace Doctor

/-! ## Code of a project -/

/-- Code that a run of the call can come to: parts, bodies of tasks and code in strings. -/
inductive Within : Call → Call → Prop
  | self (call : Call) : Within call call
  | part {call part inner : Call} (member : part ∈ call.parts) (within : Within part inner) :
      Within call inner
  | body {name : String} {params : List ParamDef} {body : TaskBody} {line column : Nat}
      {part inner : Call} (member : part ∈ body.parts) (within : Within part inner) :
      Within (.statement (.taskDef name params body line column)) inner
  | text {text : String} {hole : List Char} {value : Expression} {inner : Call}
      (member : hole ∈ templateHoles text) (parsed : sourceExpression hole = .ok (some value))
      (within : Within (.expression value) inner) :
      Within (.expression (.stringLiteral text)) inner

/-- The call takes the provider in hand by itself. -/
def Names : Provider → Call → Prop
  | .db, .expression (.identifier name) => name = "db"
  | .db, .statement (.transaction ..) => True
  | .doc, .expression (.identifier name) => name = "doc"
  | .cache, .expression (.identifier name) => name = "cache"
  | .queue, .expression (.queuePush ..) | .queue, .expression (.topicPublish ..) => True
  | _, _ => False

/-- Running the call uses the provider.  A stage that pushes, publishes or writes to the cache
is run with its pipeline. -/
inductive Uses (provider : Provider) : Call → Prop
  | names {call : Call} (names : Names provider call) : Uses provider call
  | stage {input value : Expression} {stages : List PipelineStage}
      (member : .expression value ∈ stages) (names : Names provider (.expression value)) :
      Uses provider (.expression (.pipeline input stages))
  | cacheSet {input : Expression} {stages : List PipelineStage} {arguments : List Argument}
      (member : .expression (.methodCall (.identifier "cache") "set" arguments) ∈ stages)
      (cache : provider = .cache) : Uses provider (.expression (.pipeline input stages))

/-- Where the runs of a project begin: with the startup statements of its files, with the
routes and with the consumers. -/
inductive Entry (merged : MergedModules) : Call → Prop
  | startup {module : ModuleDefinition} {statement : Statement}
      (member : module ∈ merged.modules) (inside : statement ∈ module.startupStmts) :
      Entry merged (.statement statement)
  | allow {route : RouteDefinition} {value : Expression} (member : route ∈ merged.routes)
      (inside : value ∈ route.allow) : Entry merged (.expression value)
  | route {route : RouteDefinition} {statement : Statement} (member : route ∈ merged.routes)
      (inside : statement ∈ route.body) : Entry merged (.statement statement)
  | target {consumer : ConsumerDefinition} (member : consumer ∈ merged.consumers) :
      Entry merged (.expression consumer.target)
  | consumer {consumer : ConsumerDefinition} {statement : Statement}
      (member : consumer ∈ merged.consumers) (inside : statement ∈ consumer.body) :
      Entry merged (.statement statement)

/-- The calls of a run of the project, from any state, when each of them meets a condition. -/
inductive ProjectRun (host : Host) (meets : CallRun → Prop) (merged : MergedModules) :
    CallRun → Prop
  | entry {call : Call} (entry : Entry merged call) (depth : Nat) (state : Interpreter)
      (holds : meets ⟨depth, call, state⟩) : ProjectRun host meets merged ⟨depth, call, state⟩
  | step {before after : CallRun} (run : ProjectRun host meets merged before)
      (leads : before.Leads host after) (holds : meets after) :
      ProjectRun host meets merged after

/-! ## Code that is visited -/

/-- The entries that `discover_project_intent` visits. -/
inductive VisitedEntry (registry : RouteRegistry) : Call → Prop
  | startup {statement : Statement} (member : statement ∈ registry.startupStmts) :
      VisitedEntry registry (.statement statement)
  | route {route : RouteDefinition} {statement : Statement} (member : route ∈ registry.routes)
      (inside : statement ∈ route.body) : VisitedEntry registry (.statement statement)
  | target {consumer : ConsumerDefinition} (member : consumer ∈ registry.consumers) :
      VisitedEntry registry (.expression consumer.target)
  | consumer {consumer : ConsumerDefinition} {statement : Statement}
      (member : consumer ∈ registry.consumers) (inside : statement ∈ consumer.body) :
      VisitedEntry registry (.statement statement)

/-- The provider is named where a visit reads it, or the declarations show it. -/
inductive InSight (provider : Provider) (registry : RouteRegistry) : Prop
  | code {entry inner : Call} (visited : VisitedEntry registry entry) (read : Read entry inner)
      (marks : Marks provider inner)
  | schema (db : provider = .db) (persistent : registry.persistentSchemas ≠ [])
  | consumer (queue : provider = .queue) (some : registry.consumers ≠ [])

/-- A provider that the code of the project names is named in sight. -/
def Disclosed (provider : Provider) (merged : MergedModules) : Prop :=
  (∃ entry inner, Entry merged entry ∧ Within entry inner ∧ Names provider inner) →
    InSight provider (registryOf merged)

/-- No code of the call names the provider. -/
def Free (provider : Provider) (call : Call) : Prop :=
  ∀ inner, Within call inner → ¬ Names provider inner

/-- A text that is sent with `db.native_query` names the provider in none of its holes, unless
it is named in sight. -/
def DisclosedText (provider : Provider) (host : Host) (merged : MergedModules)
    (reached : CallRun) : Prop :=
  ∀ text, FillsTemplate host reached.depth reached.call reached.state text →
    ∀ hole ∈ templateHoles text, ∀ value, sourceExpression hole = .ok (some value) →
      Free provider (.expression value) ∨ InSight provider (registryOf merged)

section

variable {provider : Provider} {registry : RouteRegistry}

theorem visitStatements_of_mem {statements : List Statement} {statement : Statement}
    (member : statement ∈ statements) (visited : visitStatement provider statement = true) :
    visitStatements provider statements = true := by
  rw [visitStatements_eq]
  exact List.any_eq_true.mpr ⟨_, List.mem_map_of_mem member, visited⟩

theorem visitsProject_of_entry {entry : Call} (visited : VisitedEntry registry entry)
    (found : visitCall provider entry = true) : visitsProject provider registry = true := by
  unfold visitsProject
  rw [Bool.or_eq_true, Bool.or_eq_true]
  cases visited with
  | startup member => exact .inl (.inl (visitStatements_of_mem member found))
  | route member inside =>
      exact .inl (.inr (List.any_eq_true.mpr ⟨_, member, visitStatements_of_mem inside found⟩))
  | target member =>
      refine .inr (List.any_eq_true.mpr ⟨_, member, ?_⟩)
      have target : visitExpression provider _ = true := found
      simp [target]
  | consumer member inside =>
      refine .inr (List.any_eq_true.mpr ⟨_, member, ?_⟩)
      simp [visitStatements_of_mem inside found]

theorem shows_of_visitsProject (visits : visitsProject provider registry = true) :
    (discoverProjectIntent registry).shows provider = true := by
  cases provider with
  | db => simp [discoverProjectIntent, DoctorIntent.shows, visits]
  | doc | cache | queue => exact visits

/-- What is in sight sets the flag. -/
theorem shows_of_inSight (sight : InSight provider registry) :
    (discoverProjectIntent registry).shows provider = true := by
  cases sight with
  | code visited read marks =>
      apply shows_of_visitsProject
      exact visitsProject_of_entry visited (visitCall_of_read read marks)
  | schema db persistent =>
      rw [db]
      simpa [discoverProjectIntent, DoctorIntent.shows] using .inl persistent
  | consumer queue some =>
      rw [queue]
      obtain ⟨consumer, member⟩ := List.exists_mem_of_ne_nil _ some
      apply shows_of_visitsProject
      unfold visitsProject
      rw [Bool.or_eq_true]
      exact .inr (List.any_eq_true.mpr ⟨consumer, member, by simp⟩)

/-- A report without errors has checked the providers whose flags are set. -/
theorem validated_of_shows {toLowercase : String → String} {config : MarretaConfig}
    {others : OtherSections} (shows : (discoverProjectIntent registry).shows provider = true)
    (clean : (buildDoctorReport toLowercase config others registry).hasErrors = false) :
    ∃ lines, validateConfig toLowercase config provider = .ok lines := by
  unfold buildDoctorReport at clean
  dsimp only at clean
  rw [Bool.or_eq_false_iff, Bool.or_eq_false_iff, List.any_eq_false] at clean
  have listed : provider ∈ [Provider.db, .doc, .cache, .queue] := by
    cases provider <;> decide
  have passed := clean.1.2 (checkEntries (validateConfig toLowercase config provider))
    (List.mem_map_of_mem (List.mem_filter.mpr ⟨listed, shows⟩))
  cases result : validateConfig toLowercase config provider with
  | ok lines => exact ⟨lines, rfl⟩
  | error lines =>
      rw [result] at passed
      exact absurd rfl passed

end

/-! ## Runs -/

section

variable {provider : Provider}

theorem hereditary_free : Hereditary (Free provider) := by
  constructor
  intro call free part member inner within
  exact free inner (.part member within)

theorem within_stage {input value : Expression} {stages : List PipelineStage}
    (member : .expression value ∈ stages) :
    .expression value ∈ (Call.expression (.pipeline input stages)).parts := by
  apply List.mem_cons_of_mem
  exact List.mem_flatMap.mpr ⟨_, member, List.mem_singleton_self _⟩

/-- What a call uses is named in its code. -/
theorem not_uses_of_free {call : Call} (free : Free provider call) : ¬ Uses provider call := by
  intro uses
  cases uses with
  | names names => exact free _ (.self _) names
  | stage member names => exact free _ (.part (within_stage member) (.self _)) names
  | cacheSet member cache =>
      apply free (.expression (.identifier "cache"))
      · exact .part (within_stage member) (.part List.mem_cons_self (.self _))
      · rw [cache]
        rfl

/-- A run whose entries do not name the provider never comes to code that does. -/
theorem free_of_projectRun {host : Host} {merged : MergedModules} {reached : CallRun}
    (hidden : ¬ InSight provider (registryOf merged))
    (entries : ∀ entry, Entry merged entry → Free provider entry)
    (run : ProjectRun host (DisclosedText provider host merged) merged reached) :
    Free provider reached.call := by
  induction run with
  | entry entry depth state holds => exact entries _ entry
  | step run leads holds induction =>
      have texts := holdsAt run
      refine allowed_of_leads hereditary_free induction ?_ ?_ ?_ leads
      · intro name params body line column free part member inner within
        exact free inner (.body member within)
      · intro text literal hole member value parsed inner within
        rw [literal] at induction
        exact induction inner (.text member parsed within)
      · intro text fills hole member value parsed
        exact (texts text fills hole member value parsed).resolve_right hidden
where
  holdsAt {host : Host} {meets : CallRun → Prop} {merged : MergedModules} {reached : CallRun}
      (run : ProjectRun host meets merged reached) : meets reached := by
    cases run with
    | entry entry depth state holds => exact holds
    | step run leads holds => exact holds

theorem inSight_of_uses {host : Host} {merged : MergedModules} {reached : CallRun}
    (disclosed : Disclosed provider merged)
    (run : ProjectRun host (DisclosedText provider host merged) merged reached)
    (uses : Uses provider reached.call) : InSight provider (registryOf merged) := by
  by_contra hidden
  have entries : ∀ entry, Entry merged entry → Free provider entry := by
    intro entry begins inner within names
    exact hidden (disclosed ⟨entry, inner, begins, within, names⟩)
  exact not_uses_of_free (free_of_projectRun hidden entries run) uses

end

/-- In every run of a project that discloses the provider, a use of it has set the flag, and a
report without errors has checked its configuration. -/
theorem shows_of_run (toLowercase : String → String) (host : Host) (merged : MergedModules)
    (provider : Provider) (disclosed : Disclosed provider merged) (reached : CallRun)
    (run : ProjectRun host (DisclosedText provider host merged) merged reached)
    (uses : Uses provider reached.call) :
    (discoverProjectIntent (registryOf merged)).shows provider = true ∧
      ∀ config others,
        (buildDoctorReport toLowercase config others (registryOf merged)).hasErrors = false →
          ∃ lines, validateConfig toLowercase config provider = .ok lines := by
  have shows := shows_of_inSight (inSight_of_uses disclosed run uses)
  exact ⟨shows, fun config others clean => validated_of_shows shows clean⟩

/-- A route that reads the cache in sight. -/
def shelfRoute : RouteDefinition :=
  { greeting with body := [.expressionStatement (.identifier "cache") 2 1] }

def shelf : MergedModules :=
  { MergedModules.empty with routes := [shelfRoute] }

theorem shows_of_shelf :
    (discoverProjectIntent (registryOf shelf)).shows .cache = true ∧
      ∀ config others,
        (buildDoctorReport id config others (registryOf shelf)).hasErrors = false →
          ∃ lines, validateConfig id config .cache = .ok lines := by
  let start := Interpreter.new Environment.new none
  let moved := { start with line := 2, column := 1 }
  have sight : InSight .cache (registryOf shelf) :=
    .code (.route List.mem_cons_self List.mem_cons_self)
      (.part (List.mem_singleton_self _) (.self (.expression (.identifier "cache")))) rfl
  have statement : ProjectRun emptyHost (DisclosedText .cache emptyHost shelf) shelf
      ⟨1, .statement (.expressionStatement (.identifier "cache") 2 1), start⟩ := by
    apply ProjectRun.entry
    · exact .route List.mem_cons_self List.mem_cons_self
    · intro text fills
      cases fills
  have identifier : ProjectRun emptyHost (DisclosedText .cache emptyHost shelf) shelf
      ⟨0, .expression (.identifier "cache"), moved⟩ := by
    apply ProjectRun.step statement
    · exact .call (.inr ⟨(), moved, rfl, rfl, rfl⟩)
    · intro text fills
      cases fills
  exact shows_of_run id emptyHost shelf .cache (fun _ => sight) _ identifier (.names rfl)

/-! ## A transaction -/

/-- A route that opens a transaction and says nothing else about the database. -/
def tillProject : ProjectFiles where
  files := []
  entrypoint := namedEntrypoint
    "route POST \"/sales\"\n    transaction\n        total = 1\n    reply 201, total\n"
  distinct := by decide

def isTransaction : Statement → Bool
  | .transaction .. => true
  | _ => false

def opensTransaction (merged : MergedModules) : Bool :=
  merged.routes.any fun route => route.body.any isTransaction

def emptyConfig : MarretaConfig where
  configErrors := []
  db := none
  doc := none
  cache := none
  queue := none

def noOtherSections : OtherSections where
  project := { title := "Project", entries := [okEntry "project loads successfully"] }
  declarations := { sections := [], hasErrors := false }
  rest := { sections := [], hasErrors := false }

/-- What `doctor` makes of a project without providers. -/
structure TillChecks where
  opens : Bool
  shows : Bool
  hasErrors : Bool
deriving DecidableEq

def tillChecks (merged : MergedModules) : TillChecks where
  opens := opensTransaction merged
  shows := (discoverProjectIntent (registryOf merged)).shows .db
  hasErrors := (buildDoctorReport id emptyConfig noOtherSections (registryOf merged)).hasErrors

set_option maxRecDepth 1000 in
theorem exists_till :
    ∃ loaded merged, loadProject plainContext tillProject = .ok loaded ∧
      mergeFiles tillProject = .ok merged ∧
      tillChecks merged = { opens := true, shows := false, hasErrors := false } := by
  obtain ⟨loaded, loads, checks⟩ := @ProjectFiles.exists_loaded plainContext tillProject _
    (fun project _ => (mergeFiles project).toOption.map tillChecks)
    (some { opens := true, shows := false, hasErrors := false }) _ _ .nil
    (toList_append_spelled String.toList_ofList String.toList_ofList) (by decide +kernel)
  obtain ⟨merged, merges, same⟩ := Option.map_eq_some_iff.mp checks
  exact ⟨loaded, merged, loads, eq_ok_of_toOption merges, same⟩

theorem till_not_shown :
    ∃ loaded merged, loadProject plainContext tillProject = .ok loaded ∧
      mergeFiles tillProject = .ok merged ∧
      (∃ reached, ProjectRun emptyHost (fun _ => True) merged reached ∧
        Uses .db reached.call) ∧
      (discoverProjectIntent (registryOf merged)).shows .db = false ∧
      (buildDoctorReport id emptyConfig noOtherSections (registryOf merged)).hasErrors = false ∧
      ¬ ∃ lines, validateConfig id emptyConfig .db = .ok lines := by
  have ⟨loaded, merged, loads, merges, checks⟩ := exists_till
  rw [tillChecks, TillChecks.mk.injEq] at checks
  refine ⟨loaded, merged, loads, merges, ?_, checks.2.1, checks.2.2, ?_⟩
  · have ⟨route, member, body⟩ := List.any_eq_true.mp checks.1
    have ⟨statement, inside, opens⟩ := List.any_eq_true.mp body
    refine ⟨⟨0, .statement statement, Interpreter.new Environment.new none⟩, ?_, ?_⟩
    · exact .entry (.route member inside) _ _ trivial
    · cases statement with
      | transaction body line column => exact .names trivial
      | _ => cases opens
  · intro valid
    have ⟨lines, same⟩ := valid
    cases same

end Doctor
end Marreta
