import Marreta.Runtime.Names
import Marreta.Runtime.Scopes

namespace Marreta

open Foundation

/-! Runs that spare a variable.

A run is followed step by step: no assignment or definition of the name reaches the
outermost scopes, and no element of a map or reduce stage leaves its scope behind.
Then the variable has the same value at the end. -/

namespace Environment

variable {name : String} {height : Nat} {env before between after : Environment}

/-- The `height` outermost scopes give the name the same value, under as many scopes. -/
structure Keeps (name : String) (height : Nat) (before after : Environment) : Prop where
  depth : after.depth = before.depth
  base : after.base = before.base
  value : lookupScopes (after.outermost height) name =
    lookupScopes (before.outermost height) name

/-- An assignment writes a scope above the `height` outermost ones. -/
def WritesAbove (env : Environment) (height : Nat) (name : String) (value : Value) : Prop :=
  match updateScopes name value env.scopes with
  | some (_, level) => height ≤ level
  | none => height < env.depth

namespace Keeps

theorem refl (env : Environment) : Keeps name height env env :=
  ⟨rfl, rfl, rfl⟩

theorem trans (head : Keeps name height before between) (tail : Keeps name height between after) :
    Keeps name height before after where
  depth := tail.depth.trans head.depth
  base := tail.base.trans head.base
  value := tail.value.trans head.value

theorem set (other : String) (value : Value)
    (spared : other = name → height < env.depth) : Keeps name height env (env.set other value) where
  depth := rfl
  base := rfl
  value := by
    by_cases inside : height < env.depth
    · rw [outermost_set inside]
    · have different : name ≠ other := fun same => inside (spared same.symm)
      have whole : env.depth - height = 0 := by omega
      have same : (env.set other value).depth = env.depth := rfl
      rw [outermost, outermost, same, whole, List.drop_zero, List.drop_zero]
      show lookupScopes (env.scope.insert other value :: env.outer) name =
        lookupScopes (env.scope :: env.outer) name
      rw [lookupScopes_cons, lookupScopes_cons, ValueMap.get?_insert, if_neg different]

theorem lookup_drop_updateScopes {other : String} {value : Value}
    {scopes updated : List ValueMap} {level : Nat} (different : name ≠ other)
    (found : updateScopes other value scopes = some (updated, level)) (count : Nat) :
    lookupScopes (updated.drop count) name = lookupScopes (scopes.drop count) name := by
  induction scopes generalizing updated level count with
  | nil => simp [updateScopes] at found
  | cons scope outer induction =>
      cases count with
      | zero =>
          have lookups := (lookup_updateScopes found).2 name
          rwa [if_neg different] at lookups
      | succ count =>
          rw [updateScopes] at found
          split at found
          · obtain ⟨rfl, -⟩ := Prod.mk.inj (Option.some.inj found)
            rfl
          · obtain ⟨⟨inner, innerLevel⟩, innerFound, same⟩ := Option.map_eq_some_iff.mp found
            obtain ⟨rfl, -⟩ := Prod.mk.inj same
            exact induction innerFound count

theorem update (other : String) (value : Value)
    (spared : other = name → env.WritesAbove height other value) :
    Keeps name height env (env.update other value) := by
  unfold Environment.update
  rcases found : updateScopes other value env.scopes with _ | ⟨_ | ⟨scope, outer⟩, level⟩
  · refine .set other value fun same => ?_
    have above := spared same
    rwa [WritesAbove, found] at above
  · have length := (updateScopes_spec found).1
    simp [scopes] at length
  · obtain ⟨length, -, -, kept⟩ := updateScopes_spec found
    have depth : (scope :: outer).length = env.depth := length
    refine ⟨depth, rfl, ?_⟩
    show lookupScopes ((scope :: outer).drop ((scope :: outer).length - height)) name = _
    rw [depth]
    by_cases different : name = other
    · have above := spared different.symm
      rw [WritesAbove, found] at above
      rw [show (scope :: outer).drop (env.depth - height) = env.outermost height from
        kept height above]
    · exact lookup_drop_updateScopes different found _

/-- A body with a scope of its own, seen from outside. -/
theorem leave {bindings : List (String × Value)} (inside : height ≤ before.depth)
    (keeps : Keeps name height (before.pushScope.setAll bindings) after) :
    Keeps name height before after.popScope := by
  obtain ⟨depth, -, base, entered⟩ := enter_spec before bindings
  have positive : 0 < before.depth := by simp [Environment.depth, scopes]
  have deep : after.depth = before.depth + 1 := keeps.depth.trans depth
  refine ⟨?_, ?_, ?_⟩
  · rw [depth_popScope (by omega), deep]
    rfl
  · rw [base_popScope, keeps.base, base]
  · rw [outermost_popScope (by omega), keeps.value, entered height inside]

end Keeps

/-- A name that the outermost scopes bind keeps its value. -/
theorem Keeps.get_eq (keeps : Keeps name before.depth before after) :
    after.get name = before.get name := by
  have value := keeps.value
  rw [← keeps.depth, outermost_depth, keeps.depth, outermost_depth] at value
  rw [Environment.get_eq, Environment.get_eq, value, keeps.base]

end Environment

/-! ## Actions -/

namespace Action

section

variable (name : String) (height : Nat) (host : Host) (calls : Call → Run Interpreter Fault Value)
  (visits : Call → Interpreter → Prop)

/-- The run of an action spares the name in the `height` outermost scopes.  Bodies that
run on an environment of their own cannot reach it. -/
def Spares : {α : Type} → Action α → Interpreter → Prop
  | _, .bind first next, state =>
      Spares first state ∧
        match run host calls first state with
        | (.ok value, after) => Spares (next value) after
        | (.error _, _) => True
  | _, .assign written value, state =>
      written = name → state.env.WritesAbove height written value
  | _, .define written _, state => written = name → height < state.env.depth
  | _, .attempt body, state => Spares body state
  | _, .element bindings body, state =>
      Spares body (state.enterScope bindings) ∧
        isReturn (run host calls body (state.enterScope bindings)).1 = true
  | _, .rescue frames error body, state => Spares body (state.enterRescue frames error)
  | _, .task entry body, state => Spares body (state.enterTask entry)
  | _, .transaction body, state => Spares body state.enterTransaction
  | _, .call target, state => visits target state
  | _, _, _ => True

end

section

variable {name : String} {height : Nat} {host : Host}
  {calls : Call → Run Interpreter Fault Value} {visits : Call → Interpreter → Prop}

theorem env_runCopy {α : Type} (body : Run Interpreter Fault α) (state : Interpreter) :
    (runCopy body state).2.env = state.env := by
  unfold runCopy
  split <;> rfl

theorem env_joinThread {α : Type} (body : Run Interpreter Fault α) (state : Interpreter) :
    (joinThread body state).2 = (body state).2 := by
  unfold joinThread
  rcases body state with ⟨(_ | _ | _) | _, after⟩ <;> rfl

theorem env_finishTransaction (host : Host) (outcome : Except Fault Unit × Interpreter) :
    (finishTransaction host outcome).2.env = outcome.2.env := by
  obtain ⟨(error | cause | _) | _, after⟩ := outcome
  · rw [finishTransaction]
    cases after.activeTx <;> rfl
  · rfl
  · rfl
  · rw [finishTransaction]
    cases after.activeTx with
    | none => rfl
    | some id => cases host.commit after.log <;> rfl

theorem env_runTransaction (host : Host) (body : Run Interpreter Fault Unit)
    (state : Interpreter) :
    (runTransaction host body state).2.env = state.env ∨
      (runTransaction host body state).2.env = (body state.enterTransaction).2.env := by
  unfold runTransaction
  split
  · exact .inl rfl
  · split
    · exact .inl rfl
    · split
      · exact .inl rfl
      · exact .inr (env_finishTransaction host _)

theorem env_runDb (host : Host) (op : DbOp) (state : Interpreter) :
    (runDb host op state).2.env = state.env := by
  unfold runDb
  split
  · rfl
  · split <;> rfl

/-- A run that spares a name keeps it. -/
theorem keeps_of_spares
    (callsKeep : ∀ target state, visits target state → height ≤ state.env.depth →
      state.env.Keeps name height (calls target state).2.env)
    {α : Type} (action : Action α) (state : Interpreter)
    (spares : action.Spares name height host calls visits state)
    (inside : height ≤ state.env.depth) :
    state.env.Keeps name height (run host calls action state).2.env := by
  induction action generalizing state with
  | pure value => exact .refl _
  | raise error => exact .refl _
  | abort cause => exact .refl _
  | stop signal => exact .refl _
  | reads part => exact .refl _
  | moveTo line column => exact .refl _
  | ask request => exact .refl _
  | branch body => exact .refl _
  | fork owner base entry body => exact .refl _
  | assign written value => exact .update written value spares
  | define written value => exact .set written value spares
  | db op =>
      rw [run, env_runDb]
      exact .refl _
  | isolated body =>
      rw [run, env_runCopy]
      exact .refl _
  | spawned body =>
      rw [run, env_joinThread, env_runCopy]
      exact .refl _
  | call target => exact callsKeep target state spares inside
  | bind first next firstKeeps nextKeeps =>
      rw [Spares] at spares
      obtain ⟨head, tail⟩ := spares
      have kept := firstKeeps state head inside
      show state.env.Keeps name height
        ((run host calls first >>= fun value => run host calls (next value)) state).2.env
      rw [Run.bind_run]
      rcases ran : run host calls first state with ⟨fault | value, after⟩
      · rwa [ran] at kept
      · rw [ran] at kept tail
        exact kept.trans (nextKeeps value after tail (by rw [kept.depth]; exact inside))
  | attempt body bodyKeeps =>
      have kept := bodyKeeps state spares inside
      rw [run, Run.attempt]
      rcases ran : run host calls body state with ⟨(_ | _ | _) | _, after⟩ <;> rwa [ran] at kept
  | element bindings body bodyKeeps =>
      rw [Spares] at spares
      obtain ⟨spares, returns⟩ := spares
      have entered : height ≤ (state.enterScope bindings).env.depth := by
        show height ≤ (state.env.pushScope.setAll bindings).depth
        rw [(Environment.enter_spec state.env bindings).1]
        omega
      have kept := bodyKeeps (state.enterScope bindings) spares entered
      simp only [run]
      rcases ran : run host calls body (state.enterScope bindings) with ⟨result, after⟩
      rw [ran] at kept returns
      rw [if_pos returns]
      exact kept.leave inside
  | rescue frames error body bodyKeeps =>
      have entered : height ≤ (state.enterRescue frames error).env.depth := by
        show height ≤ (state.env.pushScope.setAll [("error", error)]).depth
        rw [(Environment.enter_spec state.env _).1]
        omega
      exact (bodyKeeps (state.enterRescue frames error) spares entered).leave inside
  | task entry body bodyKeeps =>
      have entered : height ≤ (state.enterTask entry).env.depth := by
        show height ≤ (state.env.pushScope.setAll entry.bindings).depth
        rw [(Environment.enter_spec state.env _).1]
        omega
      exact (bodyKeeps (state.enterTask entry) spares entered).leave inside
  | transaction body bodyKeeps =>
      have kept := bodyKeeps state.enterTransaction spares inside
      rw [run]
      rcases env_runTransaction host (run host calls body) state with same | same
      · rw [same]
        exact .refl _
      · rw [same]
        exact kept

end

end Action

/-- `Spares` for calls, as deep as the interpreter recurses. -/
def SparesRun (name : String) (height : Nat) (host : Host) : Nat → Call → Interpreter → Prop
  | 0, _, _ => True
  | depth + 1, target, state =>
      (actionOf host target).Spares name height host (perform host depth)
        (SparesRun name height host depth) state

theorem perform_keeps {name : String} {height : Nat} {host : Host} (depth : Nat) (target : Call)
    (state : Interpreter) (spares : SparesRun name height host depth target state)
    (inside : height ≤ state.env.depth) :
    state.env.Keeps name height (perform host depth target state).2.env := by
  induction depth generalizing target state with
  | zero => exact .refl _
  | succ depth induction => exact Action.keeps_of_spares induction _ state spares inside

end Marreta
