import Marreta.Runtime.Scopes
import Marreta.Runtime.Simulation

namespace Marreta

open Foundation
open Environment (lookupScopes)

/-! Names in a task that another module calls.

The task runs over the environment of its own module, but the local variables of
the caller lie in between.  They take the place of definitions of the module with
the same name; a call that uses no such name does not depend on its caller. -/

/-! ## Resolution -/

/-- Below the parameters come the caller's local variables, then the module. -/
theorem get_enterFork (state : Interpreter) (owner : String) (base : Environment)
    (entry : TaskEntry) {name : String} (free : name ∉ entry.bindings.map Prod.fst) :
    (state.enterFork owner base entry).env.get name =
      (state.env.localVariables.get? name).or (base.get name) := by
  have unbound : (ValueMap.insertAll [] entry.bindings).get? name = none := by
    rw [ValueMap.get?_insertAll, Option.or_eq_none_iff]
    refine ⟨?_, rfl⟩
    rw [List.lookup_eq_none_iff]
    intro binding member
    rw [bne_iff_ne]
    rintro rfl
    exact free (List.mem_map_of_mem (List.mem_reverse.mp member))
  rw [Environment.get_eq, Interpreter.enterFork, Environment.scopes_enter,
    Environment.scopes_enter, Environment.base_enter, Environment.base_enter,
    Environment.lookupScopes_cons, Environment.lookupScopes_cons, unbound, Option.none_or,
    Environment.get?_insertAll_localVariables, Option.or_assoc, ← Environment.get_eq,
    Environment.get?_localVariables]

/-! ## Callers -/

/-- A call from a caller with no variables, next to one from a caller in `env`. -/
def Ground.outside (base env : Environment) : Ground where
  floor := base.depth + 1
  height := base.depth + 2
  hidden name := (env.localVariables.get? name).isSome = true
  loose name := (env.localVariables.get? name).isSome = true

theorem alike_outside (base env : Environment) (bindings : List (String × Value)) :
    Alike (.outside base env)
      ((base.pushScope.setAll Environment.new.localVariables).pushScope.setAll bindings)
      ((base.pushScope.setAll env.localVariables).pushScope.setAll bindings) := by
  let bound : String → Prop := fun name => (env.localVariables.get? name).isSome = true
  have unbound {name : String} (free : bound name → false = true) :
      lookupScopes env.scopes name = none := by
    rw [← Environment.get?_localVariables]
    exact Option.not_isSome_iff_eq_none.mp fun is => absurd (free is) Bool.false_ne_true
  have callers : Alike ⟨0, 1, bound, bound⟩ { env with scope := [], outer := [] } env := by
    refine ⟨[], [[]], [], env.scopes, rfl, rfl, by simp, by simp [Environment.scopes], rfl, rfl,
      fun name visible => ?_, fun name firm => ?_⟩
    · rw [unbound visible]
      rfl
    · rw [unbound firm]
      rfl
  have related : SameModule True base base := ⟨fun _ => rfl, fun _ => rfl⟩
  refine Alike.mono (callers.fork related bindings) rfl rfl ?_ ?_
  · rintro name ⟨-, is | ⟨is, -⟩⟩ <;> exact is
  · rintro name ⟨-, is | is | ⟨differs, -⟩⟩
    · exact is
    · exact is
    · exact absurd trivial differs

/-- The task does not depend on the local variables of a caller in `env`: in a run
for a caller without variables, the names that it reads, and those that it assigns
in nested bodies, are its own or no variables of that caller. -/
def IndependentOf (host : Host) (depth : Nat) (task : TaskValue) (owner : String)
    (base : Environment) (bindings : List (String × Value)) (state : Interpreter)
    (env : Environment) : Prop :=
  Action.Along True host (perform host depth) (AlongRun True host depth) (runBody task.body)
    (.outside base env)
    (Interpreter.enterFork { state with env := Environment.new } owner base
      (taskEntry task bindings))

/-- The body ends as it does for a caller without variables. -/
theorem IndependentOf.result_eq {host : Host} {depth : Nat} {task : TaskValue} {owner : String}
    {base : Environment} {bindings : List (String × Value)} {state : Interpreter}
    {env : Environment}
    (independent : IndependentOf host depth task owner base bindings state env)
    (module : Option String) :
    (runAction host depth (runBody task.body)
      (Interpreter.enterFork { state with env := Environment.new } owner base
        (taskEntry task bindings))).1 =
    (runAction host depth (runBody task.body)
      (Interpreter.enterFork { state with env, currentModule := module } owner base
        (taskEntry task bindings))).1 := by
  have agree : Agree (.outside base env)
      (Interpreter.enterFork { state with env := Environment.new } owner base
        (taskEntry task bindings))
      (Interpreter.enterFork { state with env, currentModule := module } owner base
        (taskEntry task bindings)) :=
    ⟨rfl, alike_outside base env bindings⟩
  have ends := @runAction_alike True host host.project
    (fun target => .refl (actionOf host target)) depth _ _ _ _ (.refl _) _ _ agree independent
  exact ends.1

/-! ## Calls -/

/-- Arguments are checked alike wherever the call stands. -/
theorem coerceArgument_run (host : Host) (depth : Nat) (task : TaskValue) (schemas : Schemas)
    (param : ParamDef) (argument : Value) :
    ∃ outcome : Position → Except Fault Value, ∀ state,
      runAction host depth (coerceArgument host task schemas param argument) state =
        (outcome state.position, state) := by
  have fails (message : String) : ∃ outcome : Position → Except Fault Value, ∀ state,
      runAction host depth (Action.typeError message) state = (outcome state.position, state) :=
    ⟨fun position => .error (.error (position.typeError message)), fun _ => rfl⟩
  unfold coerceArgument
  split
  · exact ⟨fun _ => .ok argument, fun _ => rfl⟩
  · split
    · exact fails _
    · split
      · rename_i coerced _
        exact ⟨fun _ => .ok coerced, fun _ => rfl⟩
      · exact fails _

theorem coerceArguments_run (host : Host) (depth : Nat) (task : TaskValue) (schemas : Schemas)
    (arguments : List (ParamDef × Value)) :
    ∃ outcome : Position → Except Fault (List (String × Value)), ∀ state,
      runAction host depth (coerceArguments host task schemas arguments) state =
        (outcome state.position, state) := by
  induction arguments with
  | nil => exact ⟨fun _ => .ok [], fun _ => rfl⟩
  | cons pair rest ih =>
      obtain ⟨first, firstRuns⟩ := coerceArgument_run host depth task schemas pair.1 pair.2
      obtain ⟨later, laterRun⟩ := ih
      refine ⟨fun position => do
        let value ← first position
        let bindings ← later position
        return (pair.1.name, value) :: bindings, fun state => ?_⟩
      rw [runAction] at firstRuns laterRun ⊢
      rw [coerceArguments, Action.run_bind, Run.bind_run, firstRuns]
      change _ = ((do
        let value ← first state.position
        let bindings ← later state.position
        return (pair.1.name, value) :: bindings), state)
      cases first state.position with
      | error fault => rfl
      | ok value =>
          simp only [Action.run_bind, Run.bind_run, laterRun]
          cases later state.position <;> rfl

/-- The parameters of a task, bound to the arguments of a call. -/
def coercedBindings (host : Host) (depth : Nat) (task : TaskValue) (arguments : List Value)
    (state : Interpreter) : Except Fault (List (String × Value)) :=
  (runAction host depth (coerceArguments host task (schemaRegistryFor host task.ownerModule)
    (task.params.zip arguments)) state).1

/-- They do not depend on where the call stands. -/
theorem coercedBindings_caller (host : Host) (depth : Nat) (task : TaskValue)
    (arguments : List Value) (state : Interpreter) (env : Environment) (module : Option String) :
    coercedBindings host depth task arguments { state with env, currentModule := module } =
      coercedBindings host depth task arguments state := by
  obtain ⟨outcome, runs⟩ := coerceArguments_run host depth task
    (schemaRegistryFor host task.ownerModule) (task.params.zip arguments)
  rw [coercedBindings, coercedBindings, runs, runs]
  rfl

/-- A call into another module. -/
theorem callTaskValue_result_of_crosses {host : Host} {project : ProjectRuntime} {depth : Nat}
    {task : TaskValue} {owner : String} {state : Interpreter}
    (served : host.project = some project) (owned : task.ownerModule = some owner)
    (outside : state.currentModule ≠ some owner) (arguments : List Value) (callName : String) :
    (runAction host depth (callTaskValue host (.task task) arguments callName) state).1 =
      if task.params.length ≠ arguments.length then
        .error (.error (.wrongArity task.name task.params.length arguments.length
          state.line state.column))
      else
        match coercedBindings host depth task arguments state with
        | .error fault => .error fault
        | .ok bindings =>
            if host.maxRecursionDepth ≤ state.callDepth then
              .error (.error (.runtimeError "maximum recursion depth exceeded"
                state.line state.column))
            else
              (runAction host depth (runBody task.body)
                (state.enterFork owner (project.envForModule (some owner))
                  (taskEntry task bindings))).1 := by
  have crosses : crossesInto task state.currentModule = some owner := by
    simp [crossesInto, owned, outside]
  have registry : schemaRegistryFor host (task.ownerModule <|> state.currentModule) =
      schemaRegistryFor host task.ownerModule := by
    rw [owned]
    rfl
  obtain ⟨outcome, runs⟩ := coerceArguments_run host depth task
    (schemaRegistryFor host task.ownerModule) (task.params.zip arguments)
  rw [coercedBindings, runs]
  unfold callTaskValue
  by_cases arity : task.params.length ≠ arguments.length
  · simp only [if_pos arity]
    rfl
  · rw [runAction] at runs
    simp only [if_neg arity, runAction, Action.run_bind, Run.bind_run, Action.run, Run.reads_run,
      registry, runs]
    cases outcome state.position with
    | error fault => rfl
    | ok bindings =>
        by_cases tooDeep : host.maxRecursionDepth ≤ state.callDepth
        · simp only [if_pos tooDeep]
          rfl
        · simp only [if_neg tooDeep, crosses, served]
          rfl

/-- A definition of the module is what a name stands for in an exported task just
when no local variable of the caller takes its place.  Two callers whose local
variables the task does not depend on get the same result. -/
theorem exported_task_resolves_lexically (host : Host) (project : ProjectRuntime)
    (served : host.project = some project) (task : TaskValue) (owner : String)
    (owned : task.ownerModule = some owner) :
    let base := project.envForModule (some owner)
    (∀ (state : Interpreter) (bindings : List (String × Value)),
      (∀ name value, name ∉ bindings.map Prod.fst → base.get name = some value →
        (state.enterFork owner base (taskEntry task bindings)).env.get name = some value) ↔
      (∀ name value shadow, name ∉ bindings.map Prod.fst → base.get name = some value →
        state.env.localVariables.get? name = some shadow → shadow = value)) ∧
    (∀ (depth : Nat) (state : Interpreter) (env env' : Environment)
      (module module' : Option String) (arguments : List Value) (callName : String),
      module ≠ some owner → module' ≠ some owner →
      (∀ bindings, coercedBindings host depth task arguments state = .ok bindings →
        IndependentOf host depth task owner base bindings state env ∧
        IndependentOf host depth task owner base bindings state env') →
      (runAction host depth (callTaskValue host (.task task) arguments callName)
        { state with env, currentModule := module }).1 =
      (runAction host depth (callTaskValue host (.task task) arguments callName)
        { state with env := env', currentModule := module' }).1) := by
  intro base
  constructor
  · intro state bindings
    constructor
    · intro resolves name value shadow free defined bound
      have got := resolves name value free defined
      rw [get_enterFork state owner base (taskEntry task bindings) free, bound] at got
      exact Option.some.inj got
    · intro clear name value free defined
      rw [get_enterFork state owner base (taskEntry task bindings) free, defined]
      cases bound : state.env.localVariables.get? name with
      | none => rfl
      | some shadow => rw [clear name value shadow free defined bound, Option.some_or]
  · intro depth state env env' module module' arguments callName outside outside' independent
    rw [callTaskValue_result_of_crosses served owned outside,
      callTaskValue_result_of_crosses served owned outside',
      coercedBindings_caller host depth task arguments state env module,
      coercedBindings_caller host depth task arguments state env' module']
    cases bound : coercedBindings host depth task arguments state with
    | error fault => rfl
    | ok bindings =>
        obtain ⟨here, there⟩ := independent bindings bound
        have same := (here.result_eq module).symm.trans (there.result_eq module')
        simp only [base] at same
        simp only [same]

/-- `rate = 1` and `export task fee() => rate` in the file `fees`. -/
def feeTask : TaskValue :=
  { name := "fee", params := [], body := .inline (.identifier "rate")
    ownerModule := some "fees", sourceModule := some "fees", line := 2, column := 1 }

def feesProject : ProjectRuntime where
  globalEnv := Environment.new
  modules :=
    [("fees", { env := (Environment.new.set "rate" (.integer 1)).set "fee" (.task feeTask)
                visibleSchemas := [] })]
  publicSchemas := []
  persistentSchemas := []
  featureFlags := { flags := [] }
  taskNamespaces := [("fees", [("fee", .task feeTask)])]
  dbColumns := []

def feesHost : Host :=
  { emptyHost with project := some feesProject }

/-- A caller with a variable `rate` of its own gets that one. -/
theorem feeTask_reads_caller :
    let base := feesProject.envForModule (some "fees")
    let caller := Interpreter.new (Environment.new.set "rate" (.integer 2)) (some "orders")
    let fee := callTaskValue feesHost (.task feeTask) [] "fee"
    base.get "rate" = some (.integer 1) ∧
      (runAction feesHost 10 fee caller).1 = .ok (.integer 2) ∧
      (runAction feesHost 10 fee { caller with env := Environment.new }).1 = .ok (.integer 1) :=
  ⟨rfl, rfl, rfl⟩

/-- A caller with other variables gets the rate of the file. -/
theorem feeTask_resolves_lexically :
    let caller := Interpreter.new Environment.new (some "orders")
    let fee := callTaskValue feesHost (.task feeTask) [] "fee"
    (runAction feesHost 10 fee caller).1 =
      (runAction feesHost 10 fee
        { caller with env := Environment.new.set "total" (.integer 2) }).1 := by
  intro caller fee
  have resolved := (exported_task_resolves_lexically feesHost feesProject rfl feeTask "fees" rfl).2
  refine resolved 10 caller Environment.new (Environment.new.set "total" (.integer 2))
    (some "orders") (some "orders") [] "fee" (by decide) (by decide) ?_
  intro bindings bound
  obtain rfl : [] = bindings := Except.ok.inj bound
  have independent (env : Environment) (free : env.localVariables.get? "rate" = none) :
      IndependentOf feesHost 10 feeTask "fees" (feesProject.envForModule (some "fees")) []
        caller env := by
    have may : (Ground.outside (feesProject.envForModule (some "fees")) env).MayRead
        (Interpreter.enterFork { caller with env := Environment.new } "fees"
          (feesProject.envForModule (some "fees")) (taskEntry feeTask [])).env "rate" := by
      intro hidden
      have shadowed : (env.localVariables.get? "rate").isSome = true := hidden
      rw [free] at shadowed
      cases shadowed
    exact @along_evaluateIdentifier True feesHost (perform feesHost 9)
      (AlongRun True feesHost 9) _ _ "rate" may
  exact ⟨independent _ rfl, independent _ rfl⟩

end Marreta
