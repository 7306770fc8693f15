import Marreta.Foundation.Ensures
import Marreta.Runtime.Transactions

namespace Marreta

open Foundation

/-! Rejections on their way to the consumer.

A `nack` travels as an error.  It ends everything it passes, up to whoever runs the
handler, unless something on the way catches errors. -/

namespace Action

/-! ## The parts of a run -/

section

variable (host : Host) (calls : Call → Run Interpreter Fault Value)

/-- Running the first action runs the second one on the way. -/
inductive Visits : {α β : Type} → Action α → Interpreter → Action β → Interpreter → Prop where
  | here {α : Type} {action : Action α} {state : Interpreter} : Visits action state action state
  | first {α β γ : Type} {first : Action α} {next : α → Action β} {inner : Action γ}
      {state inside : Interpreter} (visits : Visits first state inner inside) :
      Visits (.bind first next) state inner inside
  | next {α β γ : Type} {first : Action α} {next : α → Action β} {inner : Action γ}
      {state between inside : Interpreter} {value : α}
      (returns : run host calls first state = (.ok value, between))
      (visits : Visits (next value) between inner inside) :
      Visits (.bind first next) state inner inside
  | attempt {α γ : Type} {body : Action α} {inner : Action γ} {state inside : Interpreter}
      (visits : Visits body state inner inside) : Visits (.attempt body) state inner inside
  | branch {α γ : Type} {body : Action α} {inner : Action γ} {state inside : Interpreter}
      (visits : Visits body state inner inside) : Visits (.branch body) state inner inside
  | element {α γ : Type} {bindings : List (String × Value)} {body : Action α} {inner : Action γ}
      {state inside : Interpreter} (visits : Visits body (state.enterScope bindings) inner inside) :
      Visits (.element bindings body) state inner inside
  | rescue {α γ : Type} {frames : Nat} {error : Value} {body : Action α} {inner : Action γ}
      {state inside : Interpreter}
      (visits : Visits body (state.enterRescue frames error) inner inside) :
      Visits (.rescue frames error body) state inner inside
  | task {α γ : Type} {entry : TaskEntry} {body : Action α} {inner : Action γ}
      {state inside : Interpreter} (visits : Visits body (state.enterTask entry) inner inside) :
      Visits (.task entry body) state inner inside
  | fork {α γ : Type} {owner : String} {base : Option Environment} {entry : TaskEntry}
      {body : Action α} {inner : Action γ} {state inside : Interpreter}
      (visits : Visits body (state.enterFork owner (base.getD state.env) entry) inner inside) :
      Visits (.fork owner base entry body) state inner inside
  | isolated {α γ : Type} {body : Action α} {inner : Action γ} {state inside : Interpreter}
      (outside : state.insideTransaction = false)
      (visits : Visits body state.enterBranch inner inside) :
      Visits (.isolated body) state inner inside
  | spawned {α γ : Type} {body : Action α} {inner : Action γ} {state inside : Interpreter}
      (outside : state.insideTransaction = false)
      (visits : Visits body state.enterBranch inner inside) :
      Visits (.spawned body) state inner inside
  | transaction {γ : Type} {body : Action Unit} {inner : Action γ} {state inside : Interpreter}
      (outside : state.insideTransaction = false) (configured : host.hasDb = true)
      (begins : ∃ reply, host.begin state.log = .ok reply)
      (visits : Visits body state.enterTransaction inner inside) :
      Visits (.transaction body) state inner inside

/-- The run ends with the rejection. -/
def Rejects {α : Type} (requeue : Bool) (action : Action α) (state : Interpreter) : Prop :=
  (run host calls action state).1 = .error (.error (.nackSignal requeue))

/-- On the way a body that ended with the rejection became a value. -/
inductive Catches {α : Type} (requeue : Bool) (action : Action α) (state : Interpreter) : Prop where
  | attempt {β : Type} {body : Action β} {inside : Interpreter}
      (visits : Visits host calls action state (.attempt body) inside)
      (rejects : Rejects host calls requeue body inside)
  | spawned {β : Type} {body : Action β} {inside : Interpreter}
      (visits : Visits host calls action state (.spawned body) inside)
      (rejects : Rejects host calls requeue (.isolated body) inside)

end

/-- On the way the rejection was raised.  Calls are judged by `nacks`. -/
inductive Raises (host : Host) (calls : Call → Run Interpreter Fault Value)
    (nacks : Call → Interpreter → Prop) {α : Type} (requeue : Bool) (action : Action α)
    (state : Interpreter) : Prop where
  | raise {β : Type} {inside : Interpreter}
      (visits : Visits host calls action state (@Action.raise β (.nackSignal requeue)) inside)
  | db {op : DbOp} {inside : Interpreter} (visits : Visits host calls action state (.db op) inside)
      (rejects : Rejects host calls requeue (.db op) inside)
  | call {target : Call} {inside : Interpreter}
      (visits : Visits host calls action state (.call target) inside) (nacks : nacks target inside)

section

variable {host : Host} {calls : Call → Run Interpreter Fault Value} {α β : Type}
  {requeue : Bool} {action : Action α} {whole : Action β} {state start : Interpreter}

theorem Catches.lift (catches : Catches host calls requeue action state)
    (wrap : ∀ {γ : Type} {inner : Action γ} {inside : Interpreter},
      Visits host calls action state inner inside → Visits host calls whole start inner inside) :
    Catches host calls requeue whole start := by
  cases catches with
  | attempt visits rejects => exact .attempt (wrap visits) rejects
  | spawned visits rejects => exact .spawned (wrap visits) rejects

theorem Raises.lift {nacks : Call → Interpreter → Prop}
    (raises : Raises host calls nacks requeue action state)
    (wrap : ∀ {γ : Type} {inner : Action γ} {inside : Interpreter},
      Visits host calls action state inner inside → Visits host calls whole start inner inside) :
    Raises host calls nacks requeue whole start := by
  cases raises with
  | raise visits => exact .raise (wrap visits)
  | db visits rejects => exact .db (wrap visits) rejects
  | call visits nacks => exact .call (wrap visits) nacks

/-! ## Where a rejection comes from -/

/-- The error of a run is one of those its parts can give. -/
theorem rejects_runCopy {body : Run Interpreter Fault α}
    (rejects : (runCopy body state).1 = .error (.error (.nackSignal requeue))) :
    state.insideTransaction = false ∧
      (body state.enterBranch).1 = .error (.error (.nackSignal requeue)) := by
  unfold runCopy at rejects
  split at rejects
  · cases Except.error.inj rejects
  · rename_i outside
    exact ⟨by simpa using outside, rejects⟩

theorem rejects_runTransaction {body : Run Interpreter Fault Unit}
    (rejects : (runTransaction host body state).1 = .error (.error (.nackSignal requeue))) :
    state.insideTransaction = false ∧ host.hasDb = true ∧
      (∃ reply, host.begin state.log = .ok reply) ∧
      (body state.enterTransaction).1 = .error (.error (.nackSignal requeue)) := by
  unfold runTransaction at rejects
  split at rejects
  · cases Except.error.inj rejects
  rename_i outside
  split at rejects
  · cases Except.error.inj rejects
  rename_i configured
  split at rejects
  · cases Except.error.inj rejects
  rename_i reply begins
  refine ⟨by simpa using outside, by simpa using configured, ⟨reply, begins⟩, ?_⟩
  generalize body state.enterTransaction = outcome at rejects ⊢
  rcases outcome with ⟨(error | cause | _) | _, after⟩
  · rw [finishTransaction] at rejects
    split at rejects
    · cases Except.error.inj rejects
    · exact rejects
  · cases Except.error.inj rejects
  · cases Except.error.inj rejects
  · rw [finishTransaction] at rejects
    split at rejects
    · cases Except.error.inj rejects
    · split at rejects
      · cases rejects
      · cases Except.error.inj rejects

/-- A run that ends with a rejection raised it. -/
theorem raises_of_rejects {nacks : Call → Interpreter → Prop}
    (callsRaise : ∀ target state,
      (calls target state).1 = .error (.error (.nackSignal requeue)) → nacks target state)
    (rejects : Rejects host calls requeue action state) :
    Raises host calls nacks requeue action state := by
  unfold Rejects at rejects
  induction action generalizing state with
  | raise error =>
      have same : error = .nackSignal requeue := by
        simpa [run, Run.raise] using rejects
      subst same
      exact .raise .here
  | abort cause =>
      cases cause <;> cases Except.error.inj rejects
  | stop signal =>
      cases signal <;> cases Except.error.inj rejects
  | db op => exact .db .here rejects
  | call target => exact .call .here (callsRaise target state rejects)
  | bind first next firstRaises nextRaises =>
      simp only [run, Run.bind_run] at rejects
      rcases ran : run host calls first state with ⟨fault | value, between⟩
      · rw [ran] at rejects
        refine (firstRaises ?_).lift .first
        rw [ran]
        exact congrArg Except.error (Except.error.inj rejects)
      · rw [ran] at rejects
        exact (nextRaises value rejects).lift (.next ran)
  | attempt body _ =>
      simp only [run, Run.attempt] at rejects
      generalize run host calls body state = outcome at rejects
      rcases outcome with ⟨(error | cause | _) | value, after⟩ <;> cases rejects
  | branch body bodyRaises => exact (bodyRaises rejects).lift .branch
  | element bindings body bodyRaises => exact (bodyRaises rejects).lift .element
  | rescue frames error body bodyRaises => exact (bodyRaises rejects).lift .rescue
  | task entry body bodyRaises => exact (bodyRaises rejects).lift .task
  | fork owner base entry body bodyRaises => exact (bodyRaises rejects).lift .fork
  | isolated body bodyRaises =>
      obtain ⟨outside, rejects⟩ := rejects_runCopy rejects
      exact (bodyRaises rejects).lift (.isolated outside)
  | spawned body _ =>
      simp only [run, joinThread] at rejects
      generalize runCopy (run host calls body) state = outcome at rejects
      rcases outcome with ⟨(error | cause | _) | value, after⟩ <;> cases rejects
  | transaction body bodyRaises =>
      obtain ⟨outside, configured, begins, rejects⟩ := rejects_runTransaction rejects
      exact (bodyRaises rejects).lift (.transaction outside configured begins)
  | pure value => cases rejects
  | reads part => cases rejects
  | moveTo line column => cases rejects
  | assign name value => cases rejects
  | define name value => cases rejects
  | ask request => cases rejects

/-! ## What a rejection passes -/

theorem rejects_bind {first : Action α} {next : α → Action β}
    (rejects : Rejects host calls requeue first state) :
    Rejects host calls requeue (.bind first next) state := by
  unfold Rejects at rejects ⊢
  rw [run, Run.bind_run]
  rcases ran : run host calls first state with ⟨fault | value, after⟩
  · rw [ran] at rejects
    exact congrArg Except.error (Except.error.inj rejects)
  · rw [ran] at rejects
    cases rejects

theorem rejects_isolated (outside : state.insideTransaction = false)
    (rejects : Rejects host calls requeue action state.enterBranch) :
    Rejects host calls requeue (.isolated action) state := by
  unfold Rejects at rejects ⊢
  rw [run, runCopy, if_neg (by simp [outside])]
  exact rejects

/-- The transaction is rolled back and the rejection goes on. -/
theorem rejects_transaction {depth : Nat} {body : Action Unit}
    (outside : state.insideTransaction = false) (configured : host.hasDb = true)
    (begins : ∃ reply, host.begin state.log = .ok reply)
    (rejects : Rejects host (perform host depth) requeue body state.enterTransaction) :
    Rejects host (perform host depth) requeue (.transaction body) state := by
  obtain ⟨reply, begins⟩ := begins
  have holds := runAction_transactional host depth body (Interpreter.coherent_enterTransaction state)
  unfold Rejects at rejects ⊢
  rw [run, runTransaction, if_neg (by simp [outside]), if_neg (by simp [configured]), begins]
  rcases ran : run host (perform host depth) body state.enterTransaction with ⟨result, after⟩
  rw [runAction, ran] at holds
  rw [ran] at rejects
  obtain rfl : result = _ := rejects
  have active := holds.activeTx_eq (settled_error _)
  simp only [finishTransaction]
  rw [active]

/-- A part that ends with a rejection ends the whole run with it, unless the
rejection is caught. -/
theorem rejects_or_catches {depth : Nat} {inside : Interpreter} {inner : Action β}
    (visits : Visits host (perform host depth) action state inner inside)
    (rejects : Rejects host (perform host depth) requeue inner inside) :
    Rejects host (perform host depth) requeue action state ∨
      Catches host (perform host depth) requeue action state := by
  induction visits with
  | here => exact .inl rejects
  | first _ ih =>
      rcases ih rejects with rejects | catches
      · left
        exact rejects_bind rejects
      · exact .inr (catches.lift .first)
  | next returns _ ih =>
      rcases ih rejects with rejects | catches
      · left
        unfold Rejects at rejects ⊢
        rw [run, Run.bind_run, returns]
        exact rejects
      · exact .inr (catches.lift (.next returns))
  | attempt _ ih =>
      right
      rcases ih rejects with rejects | catches
      · exact .attempt .here rejects
      · exact catches.lift .attempt
  | branch _ ih => exact (ih rejects).imp id fun catches => catches.lift .branch
  | element _ ih => exact (ih rejects).imp id fun catches => catches.lift .element
  | rescue _ ih => exact (ih rejects).imp id fun catches => catches.lift .rescue
  | task _ ih => exact (ih rejects).imp id fun catches => catches.lift .task
  | fork _ ih => exact (ih rejects).imp id fun catches => catches.lift .fork
  | isolated outside _ ih =>
      rcases ih rejects with rejects | catches
      · exact .inl (rejects_isolated outside rejects)
      · exact .inr (catches.lift (.isolated outside))
  | spawned outside _ ih =>
      right
      rcases ih rejects with rejects | catches
      · exact .spawned .here (rejects_isolated outside rejects)
      · exact catches.lift (.spawned outside)
  | transaction outside configured begins _ ih =>
      rcases ih rejects with rejects | catches
      · exact .inl (rejects_transaction outside configured begins rejects)
      · exact .inr (catches.lift (.transaction outside configured begins))

end

/-- Whoever catches a rejection on the way ends with it all the same.  Calls are judged
by `passes`. -/
structure PassesOn (host : Host) (calls : Call → Run Interpreter Fault Value)
    (passes : Call → Interpreter → Prop) {α : Type} (action : Action α) (state : Interpreter) :
    Prop where
  caught : ∀ requeue, Catches host calls requeue action state →
    Rejects host calls requeue action state
  inner : ∀ target inside, Visits host calls action state (.call target) inside →
    passes target inside

end Action

/-! ## Whole runs -/

/-- The rejection is raised somewhere in the run of a call. -/
def NacksRun (host : Host) (requeue : Bool) : Nat → Call → Interpreter → Prop
  | 0, _, _ => False
  | depth + 1, target, state =>
      (actionOf host target).Raises host (perform host depth) (NacksRun host requeue depth)
        requeue state

/-- No part of the run of a call keeps a rejection for itself. -/
def PassesRun (host : Host) : Nat → Call → Interpreter → Prop
  | 0, _, _ => True
  | depth + 1, target, state =>
      (actionOf host target).PassesOn host (perform host depth) (PassesRun host depth) state

/-- An action raises a rejection, in the calls it makes too. -/
def Action.Nacks (host : Host) (depth : Nat) {α : Type} (requeue : Bool) (action : Action α)
    (state : Interpreter) : Prop :=
  action.Raises host (perform host depth) (NacksRun host requeue depth) requeue state

def Action.PassesNacks (host : Host) (depth : Nat) {α : Type} (action : Action α)
    (state : Interpreter) : Prop :=
  action.PassesOn host (perform host depth) (PassesRun host depth) state

namespace Action

variable {host : Host} {depth : Nat} {requeue : Bool} {α : Type} {action : Action α}
  {state : Interpreter}

/-- An action whose calls end with what they raise does so too. -/
theorem rejects_of_raises
    (callsReject : ∀ target inside, PassesRun host depth target inside →
      NacksRun host requeue depth target inside →
        (perform host depth target inside).1 = .error (.error (.nackSignal requeue)))
    (passes : action.PassesNacks host depth state) (nacks : action.Nacks host depth requeue state) :
    action.Rejects host (perform host depth) requeue state := by
  have ends : action.Rejects host (perform host depth) requeue state ∨
      action.Catches host (perform host depth) requeue state := by
    cases nacks with
    | raise visits => exact rejects_or_catches visits rfl
    | db visits rejects => exact rejects_or_catches visits rejects
    | call visits nacks =>
        exact rejects_or_catches visits (callsReject _ _ (passes.inner _ _ visits) nacks)
  exact ends.elim id (passes.caught requeue)

end Action

section

variable {host : Host} {requeue : Bool}

theorem perform_rejects {depth : Nat} {target : Call} {state : Interpreter}
    (passes : PassesRun host depth target state) (nacks : NacksRun host requeue depth target state) :
    (perform host depth target state).1 = .error (.error (.nackSignal requeue)) := by
  induction depth generalizing target state with
  | zero => exact nacks.elim
  | succ depth induction =>
      exact Action.rejects_of_raises (fun _ _ => induction) passes nacks

theorem nacksRun_of_perform {depth : Nat} {target : Call} {state : Interpreter}
    (rejects : (perform host depth target state).1 = .error (.error (.nackSignal requeue))) :
    NacksRun host requeue depth target state := by
  induction depth generalizing target state with
  | zero => cases Except.error.inj rejects
  | succ depth induction =>
      exact Action.raises_of_rejects (fun _ _ => induction) rejects

namespace Action

variable {depth : Nat} {α : Type} {action : Action α} {state : Interpreter}

/-- A run that ends with a rejection has raised it. -/
theorem nacks_of_rejects
    (rejects : (runAction host depth action state).1 = .error (.error (.nackSignal requeue))) :
    action.Nacks host depth requeue state :=
  raises_of_rejects (fun _ _ => nacksRun_of_perform) rejects

/-- A run in which nothing keeps a rejection ends with the one it raises. -/
theorem rejects_of_nacks (passes : action.PassesNacks host depth state)
    (nacks : action.Nacks host depth requeue state) :
    (runAction host depth action state).1 = .error (.error (.nackSignal requeue)) :=
  rejects_of_raises (fun _ _ => perform_rejects) passes nacks

end Action
end

/-! ## Counting rejections -/

namespace Action

/-- The rejections that a run raises, in their order. -/
def raised (host : Host) (calls : Call → Run Interpreter Fault Value)
    (inner : Call → Interpreter → List Bool) : {α : Type} → Action α → Interpreter → List Bool
  | _, .raise (.nackSignal requeue), _ => [requeue]
  | _, .bind first next, state =>
      raised host calls inner first state ++
        match run host calls first state with
        | (.ok value, after) => raised host calls inner (next value) after
        | (.error _, _) => []
  | _, .attempt body, state | _, .branch body, state => raised host calls inner body state
  | _, .element bindings body, state => raised host calls inner body (state.enterScope bindings)
  | _, .rescue frames error body, state =>
      raised host calls inner body (state.enterRescue frames error)
  | _, .task entry body, state => raised host calls inner body (state.enterTask entry)
  | _, .fork owner base entry body, state =>
      raised host calls inner body (state.enterFork owner (base.getD state.env) entry)
  | _, .isolated body, state | _, .spawned body, state =>
      if state.insideTransaction then [] else raised host calls inner body state.enterBranch
  | _, .transaction body, state =>
      if state.insideTransaction || !host.hasDb || (host.begin state.log).toOption.isNone then []
      else raised host calls inner body state.enterTransaction
  | _, .call target, state => inner target state
  | _, _, _ => []

theorem raises_of_mem_raised {host : Host} {calls : Call → Run Interpreter Fault Value}
    {inner : Call → Interpreter → List Bool} {nacks : Call → Interpreter → Prop} {requeue : Bool}
    (callsRaise : ∀ target state, requeue ∈ inner target state → nacks target state)
    {α : Type} {action : Action α} {state : Interpreter}
    (member : requeue ∈ action.raised host calls inner state) :
    action.Raises host calls nacks requeue state := by
  induction action generalizing state with
  | raise error =>
      cases error <;> simp only [raised, List.not_mem_nil, List.mem_singleton] at member
      rw [member]
      exact .raise .here
  | bind first next firstRaises nextRaises =>
      rw [raised] at member
      rcases List.mem_append.mp member with member | member
      · exact (firstRaises member).lift .first
      · split at member
        · rename_i value after ran
          exact (nextRaises value member).lift (.next ran)
        · cases member
  | attempt body bodyRaises => exact (bodyRaises member).lift .attempt
  | branch body bodyRaises => exact (bodyRaises member).lift .branch
  | element bindings body bodyRaises => exact (bodyRaises member).lift .element
  | rescue frames error body bodyRaises => exact (bodyRaises member).lift .rescue
  | task entry body bodyRaises => exact (bodyRaises member).lift .task
  | fork owner base entry body bodyRaises => exact (bodyRaises member).lift .fork
  | isolated body bodyRaises =>
      rw [raised] at member
      split at member
      · cases member
      · rename_i outside
        exact (bodyRaises member).lift (.isolated (by simpa using outside))
  | spawned body bodyRaises =>
      rw [raised] at member
      split at member
      · cases member
      · rename_i outside
        exact (bodyRaises member).lift (.spawned (by simpa using outside))
  | transaction body bodyRaises =>
      rw [raised] at member
      split at member
      · cases member
      · rename_i opens
        simp only [Bool.or_eq_true, Bool.not_eq_true', not_or, Bool.not_eq_true,
          Bool.not_eq_false] at opens
        obtain ⟨⟨outside, configured⟩, begins⟩ := opens
        have reply := returns_of_toOption (by simpa using begins)
        exact (bodyRaises member).lift (.transaction outside configured reply)
  | call target => exact .call .here (callsRaise target state member)
  | pure | abort | stop | reads | moveTo | assign | define | ask | db => cases member

end Action

def raisedRun (host : Host) : Nat → Call → Interpreter → List Bool
  | 0, _, _ => []
  | depth + 1, target, state =>
      (actionOf host target).raised host (perform host depth) (raisedRun host depth) state

theorem nacksRun_of_mem_raisedRun {host : Host} {requeue : Bool} {depth : Nat} {target : Call}
    {state : Interpreter} (member : requeue ∈ raisedRun host depth target state) :
    NacksRun host requeue depth target state := by
  induction depth generalizing target state with
  | zero => cases member
  | succ depth induction =>
      exact Action.raises_of_mem_raised (fun _ _ => induction) member

theorem Action.nacks_of_mem_raised {host : Host} {requeue : Bool} {depth : Nat} {α : Type}
    {action : Action α} {state : Interpreter}
    (member : requeue ∈ action.raised host (perform host depth) (raisedRun host depth) state) :
    action.Nacks host depth requeue state :=
  Action.raises_of_mem_raised (fun _ _ => nacksRun_of_mem_raisedRun) member

namespace Action

/-! ## Runs that catch nothing -/

/-- The run meets no place that catches errors.  Calls are judged by `inner`. -/
def quiet (host : Host) (calls : Call → Run Interpreter Fault Value)
    (inner : Call → Interpreter → Bool) : {α : Type} → Action α → Interpreter → Bool
  | _, .attempt _, _ | _, .spawned _, _ => false
  | _, .bind first next, state =>
      quiet host calls inner first state &&
        match run host calls first state with
        | (.ok value, after) => quiet host calls inner (next value) after
        | (.error _, _) => true
  | _, .branch body, state => quiet host calls inner body state
  | _, .element bindings body, state => quiet host calls inner body (state.enterScope bindings)
  | _, .rescue frames error body, state =>
      quiet host calls inner body (state.enterRescue frames error)
  | _, .task entry body, state => quiet host calls inner body (state.enterTask entry)
  | _, .fork owner base entry body, state =>
      quiet host calls inner body (state.enterFork owner (base.getD state.env) entry)
  | _, .isolated body, state => quiet host calls inner body state.enterBranch
  | _, .transaction body, state => quiet host calls inner body state.enterTransaction
  | _, .call target, state => inner target state
  | _, _, _ => true

theorem quiet_of_visits {host : Host} {calls : Call → Run Interpreter Fault Value}
    {inner : Call → Interpreter → Bool} {α β : Type} {action : Action α} {part : Action β}
    {state inside : Interpreter} (visits : Visits host calls action state part inside)
    (still : action.quiet host calls inner state = true) :
    part.quiet host calls inner inside = true := by
  induction visits with
  | here => exact still
  | first _ ih =>
      rw [quiet, Bool.and_eq_true] at still
      exact ih still.1
  | next returns _ ih =>
      rw [quiet, Bool.and_eq_true, returns] at still
      exact ih still.2
  | attempt _ _ => cases still
  | spawned _ _ _ => cases still
  | branch _ ih => exact ih still
  | element _ ih => exact ih still
  | rescue _ ih => exact ih still
  | task _ ih => exact ih still
  | fork _ ih => exact ih still
  | isolated _ _ ih => exact ih still
  | transaction _ _ _ _ ih => exact ih still

theorem passesOn_of_quiet {host : Host} {calls : Call → Run Interpreter Fault Value}
    {inner : Call → Interpreter → Bool} {passes : Call → Interpreter → Prop}
    (callsPass : ∀ target state, inner target state = true → passes target state)
    {α : Type} {action : Action α} {state : Interpreter}
    (still : action.quiet host calls inner state = true) :
    action.PassesOn host calls passes state where
  caught requeue catches := by
    cases catches with
    | attempt visits _ => exact nomatch quiet_of_visits visits still
    | spawned visits _ => exact nomatch quiet_of_visits visits still
  inner target inside visits := callsPass target inside (quiet_of_visits visits still)

end Action

def quietRun (host : Host) : Nat → Call → Interpreter → Bool
  | 0, _, _ => true
  | depth + 1, target, state =>
      (actionOf host target).quiet host (perform host depth) (quietRun host depth) state

theorem passesRun_of_quietRun {host : Host} {depth : Nat} {target : Call} {state : Interpreter}
    (still : quietRun host depth target state = true) : PassesRun host depth target state := by
  induction depth generalizing target state with
  | zero => trivial
  | succ depth induction => exact Action.passesOn_of_quiet (fun _ _ => induction) still

theorem Action.passesNacks_of_quiet {host : Host} {depth : Nat} {α : Type} {action : Action α}
    {state : Interpreter}
    (still : action.quiet host (perform host depth) (quietRun host depth) state = true) :
    action.PassesNacks host depth state :=
  Action.passesOn_of_quiet (fun _ _ => passesRun_of_quietRun) still

end Marreta
