import Marreta.Runtime.Transactions

namespace Marreta

open Foundation

/-! Scopes across runs: how many there are at the end of a run, which names they
bind, and which of their variables a run can have written. -/

namespace ValueMap

def names (entries : ValueMap) : List String :=
  entries.map (·.1)

/-- Writing a variable that exists binds no new name. -/
theorem names_insert {entries : ValueMap} {name : String}
    (bound : (entries.get? name).isSome) (value : Value) :
    (entries.insert name value).names = entries.names := by
  induction entries with
  | nil => simp [get?] at bound
  | cons entry rest induction =>
      obtain ⟨key, old⟩ := entry
      by_cases same : key = name
      · simp [insert, same, names]
      · have restBound : (get? rest name).isSome := by
          have different : (name == key) = false := by simpa using Ne.symm same
          simpa [get?, List.lookup, different] using bound
        simpa [insert, same, names] using induction restBound

end ValueMap

namespace Environment

variable {env : Environment}

/-- The `count` outermost scopes. -/
def outermost (env : Environment) (count : Nat) : List ValueMap :=
  env.scopes.drop (env.depth - count)

theorem outermost_depth (env : Environment) : env.outermost env.depth = env.scopes := by
  simp [outermost]

theorem depth_pushScope (env : Environment) : env.pushScope.depth = env.depth + 1 := rfl

theorem outermost_pushScope {count : Nat} (inside : count ≤ env.depth) :
    env.pushScope.outermost count = env.outermost count := by
  have dropped : env.depth + 1 - count = (env.depth - count) + 1 := by omega
  rw [outermost, depth_pushScope, dropped]
  rfl

theorem outermost_set {count : Nat} (inside : count < env.depth) (name : String)
    (value : Value) : (env.set name value).outermost count = env.outermost count := by
  have same : (env.set name value).depth = env.depth := rfl
  obtain ⟨dropped, equal⟩ : ∃ dropped, env.depth - count = dropped + 1 :=
    ⟨env.depth - count - 1, by omega⟩
  rw [outermost, outermost, same, equal]
  rfl

/-- `setAll` only writes the innermost scope. -/
theorem setAll_spec (env : Environment) (bindings : List (String × Value)) :
    (env.setAll bindings).depth = env.depth ∧
      (env.setAll bindings).journal = env.journal ∧
      (env.setAll bindings).base = env.base ∧
      ∀ count < env.depth, (env.setAll bindings).outermost count = env.outermost count := by
  induction bindings generalizing env with
  | nil => exact ⟨rfl, rfl, rfl, fun _ _ => rfl⟩
  | cons binding rest induction =>
      obtain ⟨depth, journal, base, kept⟩ := induction (env.set binding.1 binding.2)
      refine ⟨depth, journal, base, fun count inside => ?_⟩
      exact (kept count inside).trans (outermost_set inside _ _)

/-- The environment of a body that gets a scope of its own. -/
theorem enter_spec (env : Environment) (bindings : List (String × Value)) :
    (env.pushScope.setAll bindings).depth = env.depth + 1 ∧
      (env.pushScope.setAll bindings).journal = env.journal ∧
      (env.pushScope.setAll bindings).base = env.base ∧
      ∀ count ≤ env.depth,
        (env.pushScope.setAll bindings).outermost count = env.outermost count := by
  obtain ⟨depth, journal, base, kept⟩ := setAll_spec env.pushScope bindings
  refine ⟨depth, journal, base, fun count inside => ?_⟩
  exact (kept count (Nat.lt_succ_of_le inside)).trans (outermost_pushScope inside)

theorem depth_popScope (nested : 1 < env.depth) : env.popScope.depth = env.depth - 1 := by
  unfold popScope
  cases outer : env.outer with
  | nil => simp [depth, scopes, outer] at nested
  | cons scope rest => simp [depth, scopes, outer]

theorem journal_popScope (env : Environment) : env.popScope.journal = env.journal := by
  unfold popScope
  cases env.outer <;> rfl

theorem base_popScope (env : Environment) : env.popScope.base = env.base := by
  unfold popScope
  cases env.outer <;> rfl

theorem outermost_popScope {count : Nat} (inside : count < env.depth) :
    env.popScope.outermost count = env.outermost count := by
  unfold popScope
  cases outer : env.outer with
  | nil => rfl
  | cons scope rest =>
      have dropped : rest.length + 2 - count = (rest.length + 1 - count) + 1 := by
        simp only [depth, scopes, outer, List.length_cons] at inside
        omega
      simp [outermost, depth, scopes, outer, dropped]

theorem updateScopes_spec {name : String} {value : Value} {scopes updated : List ValueMap}
    {height : Nat} (found : updateScopes name value scopes = some (updated, height)) :
    updated.length = scopes.length ∧ height < scopes.length ∧
      updated.map ValueMap.names = scopes.map ValueMap.names ∧
      ∀ count ≤ height,
        updated.drop (scopes.length - count) = scopes.drop (scopes.length - count) := by
  induction scopes generalizing updated height with
  | nil => simp [updateScopes] at found
  | cons scope outer induction =>
      rw [updateScopes] at found
      by_cases bound : (scope.get? name).isSome
      · rw [if_pos bound, Option.some.injEq, Prod.mk.injEq] at found
        obtain ⟨rfl, rfl⟩ := found
        refine ⟨rfl, by simp, by simp [ValueMap.names_insert bound], fun count inside => ?_⟩
        have dropped : outer.length + 1 - count = (outer.length - count) + 1 := by omega
        simp [dropped]
      · rw [if_neg bound, Option.map_eq_some_iff] at found
        obtain ⟨⟨inner, innerHeight⟩, innerFound, same⟩ := found
        obtain ⟨rfl, rfl⟩ := Prod.mk.inj same
        obtain ⟨length, lower, names, kept⟩ := induction innerFound
        refine ⟨by simp [length], by simp; omega, by simp [names], fun count inside => ?_⟩
        have dropped : outer.length + 1 - count = (outer.length - count) + 1 := by omega
        simpa [dropped] using kept count inside

/-! ## Environments across a run -/

/-- What a run can do to an environment, given what it added to the journal. -/
structure RunWith (added : List EnvEvent) (before after : Environment) : Prop where
  journal : after.journal = added ++ before.journal
  base : after.base = before.base
  depth : after.depth = before.depth + added.count .abandoned
  names : ∀ count < before.depth,
    (after.outermost count).map ValueMap.names = (before.outermost count).map ValueMap.names
  kept : ∀ count < before.depth,
    (∀ height name, .wrote height name ∈ added → count ≤ height) →
    after.outermost count = before.outermost count

namespace RunWith

variable {before between after : Environment} {added first second : List EnvEvent}

theorem refl (env : Environment) : RunWith [] env env where
  journal := rfl
  base := rfl
  depth := by simp
  names _ _ := rfl
  kept _ _ _ := rfl

theorem trans (head : RunWith first before between) (tail : RunWith second between after) :
    RunWith (second ++ first) before after where
  journal := by rw [tail.journal, head.journal, List.append_assoc]
  base := tail.base.trans head.base
  depth := by rw [tail.depth, head.depth, List.count_append]; omega
  names count inside := by
    have deeper : count < between.depth := by rw [head.depth]; omega
    exact (tail.names count deeper).trans (head.names count inside)
  kept count inside higher := by
    have deeper : count < between.depth := by rw [head.depth]; omega
    rw [tail.kept count deeper fun height name member =>
      higher height name (List.mem_append_left _ member)]
    exact head.kept count inside fun height name member =>
      higher height name (List.mem_append_right _ member)

theorem set (env : Environment) (name : String) (value : Value) :
    RunWith [] env (env.set name value) where
  journal := rfl
  base := rfl
  depth := rfl
  names count inside := by rw [outermost_set inside]
  kept count inside _ := outermost_set inside name value

theorem update (env : Environment) (name : String) (value : Value) :
    ∃ added, RunWith added env (env.update name value) := by
  unfold Environment.update
  rcases found : updateScopes name value env.scopes with _ | ⟨_ | ⟨scope, outer⟩, height⟩
  · exact ⟨[], .set env name value⟩
  · exact ⟨[], .set env name value⟩
  · obtain ⟨length, -, names, kept⟩ := updateScopes_spec found
    have depth : (scope :: outer).length = env.depth := length
    refine ⟨[.wrote height name], rfl, rfl, depth, ?_, ?_⟩
    · intro count inside
      change ((scope :: outer).drop ((scope :: outer).length - count)).map _ = _
      rw [List.map_drop, names, depth, ← List.map_drop]
      rfl
    · intro count inside higher
      change (scope :: outer).drop ((scope :: outer).length - count) = _
      rw [depth]
      exact kept count (higher height name (List.mem_singleton_self _))

section Scope

variable {bindings : List (String × Value)}
variable (holds : RunWith added (before.pushScope.setAll bindings) after)

include holds

/-- The depth inside a body that has a scope of its own. -/
theorem depth_inside : after.depth = before.depth + 1 + added.count .abandoned := by
  rw [holds.depth, (enter_spec before bindings).1]

theorem names_inside {count : Nat} (inside : count ≤ before.depth) :
    (after.outermost count).map ValueMap.names =
      (before.outermost count).map ValueMap.names := by
  obtain ⟨depth, -, -, entered⟩ := enter_spec before bindings
  rw [holds.names count (by omega), entered count inside]

theorem kept_inside {count : Nat} (inside : count ≤ before.depth)
    (higher : ∀ height name, .wrote height name ∈ added → count ≤ height) :
    after.outermost count = before.outermost count := by
  obtain ⟨depth, -, -, entered⟩ := enter_spec before bindings
  rw [holds.kept count (by omega) higher, entered count inside]

/-- The run seen from outside, when the scope has been removed. -/
theorem leave : RunWith added before after.popScope := by
  obtain ⟨-, journal, base, -⟩ := enter_spec before bindings
  have ended := holds.depth_inside
  have positive : 0 < before.depth := by simp [Environment.depth, scopes]
  refine ⟨?_, ?_, ?_, fun count inside => ?_, fun count inside higher => ?_⟩
  · rw [journal_popScope, holds.journal, journal]
  · rw [base_popScope, holds.base, base]
  · rw [depth_popScope (by omega), ended]
    omega
  · rw [outermost_popScope (by omega), holds.names_inside (by omega)]
  · rw [outermost_popScope (by omega), holds.kept_inside (by omega) higher]

/-- The run seen from outside, when the scope stays behind. -/
theorem abandon : RunWith (.abandoned :: added) before after.abandon := by
  obtain ⟨-, journal, base, -⟩ := enter_spec before bindings
  refine ⟨?_, holds.base.trans base, ?_, fun count inside => ?_,
    fun count inside higher => ?_⟩
  · change EnvEvent.abandoned :: after.journal = _
    rw [holds.journal, journal]
    rfl
  · change after.depth = _
    rw [holds.depth_inside, List.count_cons_self]
    omega
  · exact holds.names_inside (by omega)
  · exact holds.kept_inside (by omega) fun height name member =>
      higher height name (List.mem_cons_of_mem _ member)

variable (balanced : .abandoned ∉ added)

include balanced

/-- When no scope stayed behind, the scopes around the body are all there is. -/
theorem scopes_leave : after.popScope.scopes = after.outermost before.depth := by
  have ended := holds.depth_inside
  rw [List.count_eq_zero.mpr balanced] at ended
  have positive : 0 < before.depth := by simp [Environment.depth, scopes]
  have left : after.popScope.depth = before.depth := by
    rw [depth_popScope (by omega), ended]
    omega
  rw [← outermost_depth, left, outermost_popScope (by omega)]

/-- Then the scopes bind the names they bound before. -/
theorem names_leave :
    after.popScope.scopes.map ValueMap.names = before.scopes.map ValueMap.names := by
  rw [holds.scopes_leave balanced, holds.names_inside (Nat.le_refl _), outermost_depth]

/-- And when no assignment reached them, they are as they were before. -/
theorem get_leave
    (higher : ∀ height name, .wrote height name ∈ added → before.depth ≤ height)
    (name : String) : after.popScope.get name = before.get name := by
  have same : after.popScope.scopes = before.scopes := by
    rw [holds.scopes_leave balanced, holds.kept_inside (Nat.le_refl _) higher,
      outermost_depth]
  have base : after.popScope.base = before.base := by
    rw [base_popScope, holds.base, (enter_spec before bindings).2.2.1]
  rw [get, get, same, base]

end Scope
end RunWith
end Environment

/-! ## Runs -/

/-- The environments at the ends of a run that returned or raised an error. -/
def Scoped (before : Interpreter) (ending : Option Fault) (after : Interpreter) : Prop :=
  Settled ending → ∃ added, Environment.RunWith added before.env after.env

theorem scoped_same {before after : Interpreter} {ending : Option Fault}
    (same : after.env = before.env) : Scoped before ending after :=
  fun _ => ⟨[], same ▸ .refl before.env⟩

theorem scoped_admissible : Admissible Scoped where
  sequential :=
    { idle := fun _ => scoped_same rfl
      seq := fun head tail settled =>
        have ⟨_, headRuns⟩ := head settled_none
        have ⟨_, tailRuns⟩ := tail settled
        ⟨_, headRuns.trans tailRuns⟩
      stop := fun _ _ => scoped_same rfl }
  forgets holds _ := holds (settled_error _)
  moves _ _ _ := scoped_same rfl
  assigns state name value _ := Environment.RunWith.update state.env name value
  defines state name value _ := ⟨[], .set state.env name value⟩
  stops _ _ := scoped_same rfl
  asks _ _ := scoped_same rfl
  sends _ _ := scoped_same rfl
  branches _ := scoped_same rfl
  elementReturns holds settled := (holds settled).imp fun _ runs => runs.leave
  elementFails holds settled :=
    have ⟨_, runs⟩ := holds settled
    ⟨_, runs.abandon⟩
  rescues holds settled := (holds settled).imp fun _ runs => runs.leave
  tasks holds settled := (holds settled).imp fun _ runs => runs.leave
  forks _ _ := scoped_same rfl
  copies _ _ := scoped_same rfl
  joins _ _ := scoped_same rfl
  beginFails _ := scoped_same rfl
  commits _ holds _ := holds
  rollsBack _ holds _ := holds
  unwinds _ _ abnormal settled := (not_settled rfl abnormal settled).elim
  emptied _ _ _ _ settled := (not_settled rfl (by simp) settled).elim

/-! ## Task calls -/

section Calls

variable (host : Host) (depth : Nat) {α : Type}

theorem idle_typeError (message : String) :
    Run.Idle (runAction host depth (Action.typeError message : Action α)) :=
  fun _ => rfl

theorem idle_coerceArgument (task : TaskValue) (schemas : Schemas) (param : ParamDef)
    (argument : Value) :
    Run.Idle (runAction host depth (coerceArgument host task schemas param argument)) := by
  unfold coerceArgument
  split
  · exact .pure _
  · split
    · exact idle_typeError host depth _
    · split
      · exact .pure _
      · exact idle_typeError host depth _

theorem idle_coerceArguments (task : TaskValue) (schemas : Schemas)
    (pairs : List (ParamDef × Value)) :
    Run.Idle (runAction host depth (coerceArguments host task schemas pairs)) := by
  induction pairs with
  | nil => exact .pure _
  | cons pair rest induction =>
      exact .bind (idle_coerceArgument host depth task schemas pair.1 pair.2) fun value =>
        .bind induction fun bindings => .pure _

/-- The caller's environment after a task call: untouched, or left by a body that
ran in one more scope. -/
def Bracketed (before : Interpreter) (ending : Option Fault) (after : Interpreter) : Prop :=
  Settled ending → after.env = before.env ∨
    ∃ bindings added inner,
      Environment.RunWith added (before.env.pushScope.setAll bindings) inner ∧
      after.env = inner.popScope

theorem bracketed_idle {body : Run Interpreter Fault α} (idle : Run.Idle body) :
    Run.Satisfies Bracketed body :=
  fun state _ => .inl (by rw [idle state])

theorem bracketed_stop (state : Interpreter) (fault : Fault) :
    Bracketed state (some fault) state :=
  fun _ => .inl rfl

theorem callTaskValue_bracketed (callee : Value) (arguments : List Value)
    (callName : String) :
    Run.Satisfies Bracketed
      (runAction host depth (callTaskValue host callee arguments callName)) := by
  unfold callTaskValue
  cases callee with
  | task task =>
      by_cases arity : task.params.length ≠ arguments.length
      · simp only [if_pos arity]
        exact bracketed_idle fun _ => rfl
      · simp only [if_neg arity]
        refine Run.Idle.satisfies_bind bracketed_stop (.reads _) fun currentModule => ?_
        refine Run.Idle.satisfies_bind bracketed_stop
          (idle_coerceArguments host depth task _ _) fun bindings => ?_
        refine Run.Idle.satisfies_bind bracketed_stop (.reads _) fun callDepth => ?_
        by_cases tooDeep : host.maxRecursionDepth ≤ callDepth
        · simp only [if_pos tooDeep]
          exact bracketed_idle fun _ => rfl
        · simp only [if_neg tooDeep]
          cases crossesInto task currentModule with
          | some owner => exact fun state _ => .inl rfl
          | none =>
              intro state settled
              have body := scoped_admissible.runAction_satisfies host depth
                (runBody task.body) (state.enterTask (taskEntry task bindings)) settled
              exact body.elim fun added runs => .inr ⟨bindings, added, _, runs, rfl⟩
  | _ => exact bracketed_idle fun _ => rfl

/-- A call into another module runs on a fork. -/
theorem env_callTaskValue_of_crosses {task : TaskValue} {state : Interpreter}
    {owner : String} (crosses : crossesInto task state.currentModule = some owner)
    (arguments : List Value) (callName : String) :
    (runAction host depth (callTaskValue host (.task task) arguments callName) state).2.env =
      state.env := by
  unfold callTaskValue
  by_cases arity : task.params.length ≠ arguments.length
  · simp only [if_pos arity]
    rfl
  · simp only [if_neg arity, runAction, Action.run_bind, Run.bind_run, Action.run,
      Run.reads_run]
    have idle := idle_coerceArguments host depth task
      (schemaRegistryFor host (task.ownerModule <|> state.currentModule))
      (task.params.zip arguments) state
    rw [runAction] at idle
    rcases run : Action.run host (perform host depth) (coerceArguments host task
      (schemaRegistryFor host (task.ownerModule <|> state.currentModule))
      (task.params.zip arguments)) state with ⟨result, between⟩
    rw [run] at idle
    obtain rfl : between = state := idle
    cases result with
    | error fault => rfl
    | ok bindings =>
        by_cases tooDeep : host.maxRecursionDepth ≤ between.callDepth
        · simp only [if_pos tooDeep]
          rfl
        · simp only [if_neg tooDeep, crosses]
          rfl

end Calls

/-! ## Balance -/

/-- The names bound in each scope, innermost scope first. -/
def Environment.boundNames (env : Environment) : List (List String) :=
  env.scopes.map ValueMap.names

/-- A run that returned or raised an error leaves one more scope for each element
of a map or reduce stage whose body failed, and no other; without such a failure,
the names a task call leaves bound are those that were bound before it. -/
theorem depth_eq_iff_no_scope_abandoned (host : Host) (depth : Nat) (state : Interpreter) :
    (∀ target, let ended := perform host depth target state
      Settled (Run.ending ended.1) → ∃ added,
        ended.2.env.journal = added ++ state.env.journal ∧
        (ended.2.env.depth = state.env.depth ↔ .abandoned ∉ added)) ∧
    (∀ callee arguments callName,
      let ended := runAction host depth (callTaskValue host callee arguments callName) state
      Settled (Run.ending ended.1) → ∃ added,
        ended.2.env.journal = added ++ state.env.journal ∧
        (.abandoned ∉ added → ended.2.env.boundNames = state.env.boundNames)) := by
  constructor
  · intro target ended settled
    obtain ⟨added, runs⟩ := scoped_admissible.perform_satisfies host depth target state settled
    refine ⟨added, runs.journal, ?_⟩
    have counted : ended.2.env.depth = _ := runs.depth
    rw [counted, ← List.count_eq_zero]
    omega
  · intro callee arguments callName ended settled
    rcases callTaskValue_bracketed host depth callee arguments callName state settled with
      same | ⟨bindings, added, inner, runs, left⟩
    · have unchanged : ended.2.env = state.env := same
      exact ⟨[], by rw [unchanged]; rfl, fun _ => by rw [unchanged]⟩
    · have leaves : ended.2.env = inner.popScope := left
      rw [leaves]
      exact ⟨added, runs.leave.journal, fun balanced => runs.names_leave balanced⟩

/-- `y = [1] >> map x` with a body that raises, rescued. -/
def rescuedMap : Statement :=
  .assignment "y"
    (.pipeline (.list [.integer 1])
      [.map "x" [.statement (.raise (.stringLiteral "boom") none 2 5),
          .keep (.identifier "x") none],
        .rescue (.inline (.integer 0))]) 1 1

/-- The element of the failed map stage is still bound after the statement. -/
theorem rescuedMap_leaves_scope :
    let start := Interpreter.new Environment.new none
    let ended := perform emptyHost 10 (.statement rescuedMap) start
    Settled (Run.ending ended.1) ∧ start.env.depth = 1 ∧ ended.2.env.depth = 2 ∧
      start.env.get "x" = none ∧ ended.2.env.get "x" = some (.integer 1) :=
  ⟨.inl rfl, rfl, rfl, rfl, rfl⟩

/-! ## Variables of the caller -/

namespace EnvEvent

/-- The event leaves the scopes below a height alone. -/
def StaysAbove (height : Nat) : EnvEvent → Prop
  | .wrote written _ => height ≤ written
  | .abandoned => False

end EnvEvent

/-- A task call changes no variable of its caller, unless an assignment in it
reaches one of the caller's scopes or an element of a map or reduce stage fails in
it.  A call into another module never does. -/
theorem callTaskValue_keeps_variables (host : Host) (depth : Nat) (callee : Value)
    (arguments : List Value) (callName : String) (state : Interpreter) :
    let ended := runAction host depth (callTaskValue host callee arguments callName) state
    (Settled (Run.ending ended.1) → ∃ added,
      ended.2.env.journal = added ++ state.env.journal ∧
      ((∀ event ∈ added, event.StaysAbove state.env.depth) →
        ∀ name, ended.2.env.get name = state.env.get name)) ∧
    (∀ task, callee = .task task → (crossesInto task state.currentModule).isSome →
      ∀ name, ended.2.env.get name = state.env.get name) := by
  intro ended
  constructor
  · intro settled
    rcases callTaskValue_bracketed host depth callee arguments callName state settled with
      same | ⟨bindings, added, inner, runs, left⟩
    · have unchanged : ended.2.env = state.env := same
      exact ⟨[], by rw [unchanged]; rfl, fun _ name => by rw [unchanged]⟩
    · have leaves : ended.2.env = inner.popScope := left
      rw [leaves]
      refine ⟨added, runs.leave.journal, fun above name => ?_⟩
      refine runs.get_leave (fun member => above _ member) (fun height written member => ?_) name
      exact above _ member
  · intro task same crosses name
    obtain ⟨owner, crosses⟩ := Option.isSome_iff_exists.mp crosses
    subst same
    have unchanged : ended.2.env = state.env :=
      env_callTaskValue_of_crosses host depth crosses arguments callName
    rw [unchanged]

/-- `task t` that assigns `x`. -/
def assigningTask : TaskValue :=
  { name := "t", params := [], body := .block [.assignment "x" (.integer 2) 2 5] .null
    ownerModule := none, sourceModule := none, line := 1, column := 1 }

/-- The task writes the variable `x` of its caller. -/
theorem assigningTask_writes_caller :
    let start := Interpreter.new (Environment.new.set "x" (.integer 1)) none
    let ended := runAction emptyHost 10 (callTaskValue emptyHost (.task assigningTask) [] "t")
      start
    Settled (Run.ending ended.1) ∧ start.env.get "x" = some (.integer 1) ∧
      ended.2.env.get "x" = some (.integer 2) :=
  ⟨.inl rfl, rfl, rfl⟩

end Marreta
