import Marreta.Runtime.Invariance

namespace Marreta

open Foundation

/-! Atomicity of `transaction` blocks. -/

namespace Interpreter

/-- There is a transaction in the holder exactly while a block is running. -/
def Coherent (state : Interpreter) : Prop :=
  state.activeTx.isSome = state.insideTransaction

theorem Coherent.activeTx_eq_none {state : Interpreter} (coherent : state.Coherent)
    (outside : state.insideTransaction = false) : state.activeTx = none := by
  rw [Coherent, outside] at coherent
  exact Option.not_isSome_iff_eq_none.mp (by simp [coherent])

theorem coherent_enterTransaction (state : Interpreter) :
    state.enterTransaction.Coherent := rfl

theorem Coherent.enterBranch {state : Interpreter}
    (outside : state.insideTransaction = false) : state.enterBranch.Coherent := by
  simp [Coherent, Interpreter.enterBranch, Interpreter.record, outside]

end Interpreter

namespace Event

/-- Events inside an open transaction: relational operations go through it, and
neither a transaction nor a broadcast starts or ends. -/
def Within (id : Nat) : Event → Prop
  | .sent channel _ => channel = .transaction id
  | .stopped _ | .asked _ => True
  | .copied | .beginFailed | .begun _ | .committed _ | .rolledBack _ => False

/-- The event ends a transaction. -/
def Closes (id : Nat) : Event → Prop
  | .committed other | .rolledBack other => other = id
  | .sent .. | .stopped _ | .asked _ | .copied | .beginFailed | .begun _ => False

theorem Within.not_closes {event : Event} {id other : Nat} (within : event.Within id) :
    ¬ event.Closes other := by
  cases event <;> simp_all [Within, Closes]

/-- What a run that starts in a state may add to the log. -/
structure Allowed (before : Interpreter) (event : Event) : Prop where
  within : ∀ id, before.activeTx = some id → event.Within id
  closes : ∀ id, event.Closes id → before.log.length ≤ id

end Event

/-- The run returned or raised an error, as opposed to a panic. -/
def Settled (ending : Option Fault) : Prop :=
  ending = none ∨ ∃ error, ending = some (.error error)

theorem settled_none : Settled none := .inl rfl

theorem settled_error (error : MarretaError) : Settled (some (.error error)) :=
  .inr ⟨error, rfl⟩

theorem not_settled {ending : Option Fault} {fault : Fault} (same : ending = some fault)
    (abnormal : ∀ error, fault ≠ .error error) : ¬ Settled ending := by
  rintro (returned | ⟨error, raised⟩)
  · rw [same] at returned
    cases returned
  · rw [same] at raised
    exact abnormal error (Option.some.inj raised)

/-- The invariant of every run: a run that ends has put the transaction back that
it found, and everything it did in between was allowed. -/
structure Transactional (before : Interpreter) (ending : Option Fault)
    (after : Interpreter) : Prop where
  held : ending ≠ some (.panic .emptyHolder)
  history : ∃ added, after.log = added ++ before.log ∧
    ∀ event ∈ added, event.Allowed before
  holder : Settled ending → after.activeTx = before.activeTx
  inside : Settled ending → after.insideTransaction = before.insideTransaction

namespace Transactional

variable {before between after : Interpreter} {ending : Option Fault}

theorem coherent (holds : Transactional before ending after) (settled : Settled ending)
    (coherent : before.Coherent) : after.Coherent := by
  rw [Interpreter.Coherent, holds.holder settled, holds.inside settled]
  exact coherent

theorem idle (state : Interpreter) : Transactional state none state where
  held := by simp
  history := ⟨[], rfl, by simp⟩
  holder _ := rfl
  inside _ := rfl

theorem seq (head : Transactional before none between)
    (tail : Transactional between ending after) : Transactional before ending after where
  held := tail.held
  history := by
    obtain ⟨first, firstLog, firstAllowed⟩ := head.history
    obtain ⟨second, secondLog, secondAllowed⟩ := tail.history
    refine ⟨second ++ first, by rw [secondLog, firstLog, List.append_assoc], ?_⟩
    intro event member
    rcases List.mem_append.mp member with member | member
    · have allowed := secondAllowed event member
      refine ⟨fun id held => allowed.within id ?_, fun id closes => ?_⟩
      · rw [head.holder settled_none, held]
      · have later := allowed.closes id closes
        rw [firstLog, List.length_append] at later
        omega
    · exact firstAllowed event member
  holder settled := (tail.holder settled).trans (head.holder settled_none)
  inside settled := (tail.inside settled).trans (head.inside settled_none)

/-- Only the transaction and the log matter. -/
theorem congr {before' after' : Interpreter} (holds : Transactional before ending after)
    (beforeTx : before'.activeTx = before.activeTx)
    (beforeInside : before'.insideTransaction = before.insideTransaction)
    (beforeLog : before'.log = before.log) (afterTx : after'.activeTx = after.activeTx)
    (afterInside : after'.insideTransaction = after.insideTransaction)
    (afterLog : after'.log = after.log) : Transactional before' ending after' where
  held := holds.held
  history := by
    obtain ⟨added, log, allowed⟩ := holds.history
    refine ⟨added, by rw [afterLog, log, beforeLog], fun event member => ?_⟩
    have eventAllowed := allowed event member
    refine ⟨fun id held => eventAllowed.within id ?_, fun id closes => ?_⟩
    · rw [← beforeTx, held]
    · rw [beforeLog]
      exact eventAllowed.closes id closes
  holder settled := by rw [afterTx, holds.holder settled, beforeTx]
  inside settled := by rw [afterInside, holds.inside settled, beforeInside]

/-- A run in a fork, seen from the interpreter that was forked. -/
theorem leaveFork {state : Interpreter} {owner : String} {base : Environment}
    {entry : TaskEntry} {failed : Bool}
    (holds : Transactional (state.enterFork owner base entry) ending after) :
    Transactional state ending (state.leaveFork after failed) :=
  have seen : Transactional state ending after := holds.congr rfl rfl rfl rfl rfl rfl
  { held := seen.held
    history := seen.history
    holder := seen.holder
    inside := fun _ => rfl }

theorem record {state : Interpreter} {event : Event} (allowed : event.Allowed state) :
    Transactional state none (state.record event) where
  held := by simp
  history := ⟨[event], rfl, by simpa using allowed⟩
  holder _ := rfl
  inside _ := rfl

/-- A run on a copy made outside a transaction. -/
theorem copy {state : Interpreter} (outside : state.insideTransaction = false)
    (coherent : state.Coherent) (holds : Transactional state.enterBranch ending after)
    {ending' : Option Fault} (held : ending' ≠ some (.panic .emptyHolder)) :
    Transactional state ending' (state.leaveBranch after) where
  held := held
  history := by
    obtain ⟨added, log, allowed⟩ := holds.history
    refine ⟨added ++ [.copied], by simp [Interpreter.leaveBranch, log,
      Interpreter.enterBranch, Interpreter.record], ?_⟩
    intro event member
    refine ⟨fun id active => ?_, fun id closes => ?_⟩
    · rw [(coherent).activeTx_eq_none outside] at active
      cases active
    · rcases List.mem_append.mp member with member | member
      · exact Nat.le_of_succ_le ((allowed event member).closes id closes)
      · obtain rfl := List.mem_singleton.mp member
        exact closes.elim
  holder _ := rfl
  inside _ := rfl

section Closing

variable {state : Interpreter} (outside : state.insideTransaction = false)
variable (holds : Transactional state.enterTransaction ending after)

include holds in
/-- The body finds the transaction that was opened for it. -/
theorem activeTx_eq (settled : Settled ending) :
    after.activeTx = some state.log.length :=
  holds.holder settled

include holds in
/-- The log at the end of a body. -/
theorem bodyHistory : ∃ during,
    after.log = during ++ .begun state.log.length :: state.log ∧
      ∀ event ∈ during, event.Within state.log.length := by
  obtain ⟨during, log, allowed⟩ := holds.history
  exact ⟨during, log, fun event member => (allowed event member).within _ rfl⟩

include outside holds in
/-- A transaction that has been closed. -/
theorem close (coherent : state.Coherent) {close : Nat → Event}
    (closesOwn : ∀ id other, (close id).Closes other → other = id)
    {id : Nat} (settled : Settled ending) (active : after.activeTx = some id)
    (held : ending ≠ some (.panic .emptyHolder)) :
    Transactional state ending (after.closeTransaction close id) where
  held := held
  history := by
    obtain ⟨during, log, within⟩ := holds.bodyHistory
    refine ⟨close id :: (during ++ [.begun state.log.length]), by
      simp [Interpreter.closeTransaction, Interpreter.record, log], ?_⟩
    have own : state.log.length = id := by
      have body := holds.activeTx_eq settled
      rw [active] at body
      exact (Option.some.inj body).symm
    intro event member
    refine ⟨fun other tx => ?_, fun other closes => ?_⟩
    · rw [(coherent).activeTx_eq_none outside] at tx
      cases tx
    · rcases List.mem_cons.mp member with rfl | member
      · rw [closesOwn id other closes, own]
      · rcases List.mem_append.mp member with member | member
        · exact absurd closes (within event member).not_closes
        · obtain rfl := List.mem_singleton.mp member
          exact closes.elim
  holder _ := ((coherent).activeTx_eq_none outside).symm
  inside _ := outside.symm

include outside holds in
/-- A transaction left open by a panic. -/
theorem unwind {fault : Fault} (coherent : state.Coherent) (same : ending = some fault)
    (abnormal : ∀ error, fault ≠ .error error) : Transactional state ending after where
  held := holds.held
  history := by
    obtain ⟨during, log, within⟩ := holds.bodyHistory
    refine ⟨during ++ [.begun state.log.length], by simp [log], fun event member => ?_⟩
    refine ⟨fun other tx => ?_, fun other closes => ?_⟩
    · rw [(coherent).activeTx_eq_none outside] at tx
      cases tx
    · rcases List.mem_append.mp member with member | member
      · exact absurd closes (within event member).not_closes
      · obtain rfl := List.mem_singleton.mp member
        exact closes.elim
  holder settled := (not_settled same abnormal settled).elim
  inside settled := (not_settled same abnormal settled).elim

end Closing
end Transactional

theorem closes_committed (id other : Nat) (closes : (Event.committed id).Closes other) :
    other = id := closes.symm

theorem closes_rolledBack (id other : Nat) (closes : (Event.rolledBack id).Closes other) :
    other = id := closes.symm

theorem allowed_sent (state : Interpreter) (op : DbOp) :
    (Event.sent state.channel op).Allowed state where
  within id held := by simp [Event.Within, Interpreter.channel, held]
  closes _ closes := closes.elim

/-- Runs of coherent interpreters are transactional. -/
theorem transactional_admissible :
    Admissible fun before ending after =>
      before.Coherent → Transactional before ending after where
  sequential :=
    { idle := fun state _ => .idle state
      seq := fun head tail coherent =>
        (head coherent).seq (tail ((head coherent).coherent settled_none coherent))
      stop := fun state raised _ =>
        { held := by simpa [Raised] using raised
          history := ⟨[], rfl, by simp⟩
          holder := fun _ => rfl
          inside := fun _ => rfl } }
  forgets holds coherent :=
    { held := by simp
      history := (holds coherent).history
      holder := fun _ => (holds coherent).holder (settled_error _)
      inside := fun _ => (holds coherent).inside (settled_error _) }
  moves state _ _ _ := (Transactional.idle state).congr rfl rfl rfl rfl rfl rfl
  assigns state _ _ _ := (Transactional.idle state).congr rfl rfl rfl rfl rfl rfl
  defines state _ _ _ := (Transactional.idle state).congr rfl rfl rfl rfl rfl rfl
  stops _ _ _ := .record ⟨fun _ _ => trivial, fun _ closes => closes.elim⟩
  asks _ _ _ := .record ⟨fun _ _ => trivial, fun _ closes => closes.elim⟩
  sends state op _ := .record (allowed_sent state op)
  branches holds coherent := (holds coherent).congr rfl rfl rfl rfl rfl rfl
  elementReturns holds coherent := (holds coherent).congr rfl rfl rfl rfl rfl rfl
  elementFails holds coherent := (holds coherent).congr rfl rfl rfl rfl rfl rfl
  rescues holds coherent := (holds coherent).congr rfl rfl rfl rfl rfl rfl
  tasks holds coherent := (holds coherent).congr rfl rfl rfl rfl rfl rfl
  forks _ holds coherent := (holds coherent).leaveFork
  copies outside holds coherent :=
    (holds (.enterBranch outside)).copy outside coherent (holds (.enterBranch outside)).held
  joins outside holds coherent :=
    (holds (.enterBranch outside)).copy outside coherent (by simp)
  beginFails outside coherent :=
    .record ⟨fun _ active => by simp [(coherent).activeTx_eq_none outside] at active,
      fun _ closes => closes.elim⟩
  commits outside holds active coherent :=
    (holds (Interpreter.coherent_enterTransaction _)).close outside coherent
      closes_committed settled_none active (by simp)
  rollsBack outside holds active coherent :=
    (holds (Interpreter.coherent_enterTransaction _)).close outside coherent
      closes_rolledBack (settled_error _) active (by simp)
  unwinds outside holds abnormal coherent :=
    (holds (Interpreter.coherent_enterTransaction _)).unwind outside coherent rfl abnormal
  emptied _ holds empty settled _ := by
    have body := (holds (Interpreter.coherent_enterTransaction _)).activeTx_eq settled
    rw [empty] at body
    cases body

/-! ## Transaction blocks -/

/-- Every run of a coherent interpreter is transactional. -/
theorem runAction_transactional (host : Host) (depth : Nat) {α : Type}
    (action : Action α) {state : Interpreter} (coherent : state.Coherent) :
    Transactional state (Run.ending (runAction host depth action state).1)
      (runAction host depth action state).2 :=
  transactional_admissible.runAction_satisfies host depth action state coherent

/-- The transaction opened in `before` has been closed, once and for all. -/
structure ClosedBy (close : Nat → Event) (before after : Interpreter) : Prop where
  history : ∃ during,
    after.log = close before.log.length ::
      (during ++ .begun before.log.length :: before.log) ∧
    ∀ event ∈ during, event.Within before.log.length
  holder : after.activeTx = none
  outside : after.insideTransaction = false
  final : ∀ (host : Host) (depth : Nat) {α : Type} (action : Action α), ∃ added,
    (runAction host depth action after).2.log = added ++ after.log ∧
    ∀ event ∈ added, ¬ event.Closes before.log.length

/-- What runs on a coherent interpreter closes no transaction of its past. -/
theorem not_closes_past (host : Host) (depth : Nat) {α : Type} (action : Action α)
    {state : Interpreter} (coherent : state.Coherent) {id : Nat}
    (past : id < state.log.length) : ∃ added,
      (runAction host depth action state).2.log = added ++ state.log ∧
      ∀ event ∈ added, ¬ event.Closes id := by
  obtain ⟨added, log, allowed⟩ :=
    (runAction_transactional host depth action coherent).history
  refine ⟨added, log, fun event member closes => ?_⟩
  have later := (allowed event member).closes id closes
  omega

theorem closedBy_closeTransaction (close : Nat → Event) {state after : Interpreter}
    {ending : Option Fault} (holds : Transactional state.enterTransaction ending after) :
    ClosedBy close state (after.closeTransaction close state.log.length) where
  history := by
    obtain ⟨during, log, within⟩ := holds.bodyHistory
    exact ⟨during, by simp [Interpreter.closeTransaction, Interpreter.record, log], within⟩
  holder := rfl
  outside := rfl
  final host depth _ action := by
    refine not_closes_past host depth action (by simp [Interpreter.Coherent,
      Interpreter.closeTransaction]) ?_
    obtain ⟨during, log, -⟩ := holds.bodyHistory
    simp only [Interpreter.closeTransaction, Interpreter.record, log, List.length_cons,
      List.length_append]
    omega

theorem perform_transaction (host : Host) (depth : Nat) (body : List Statement)
    (line column : Nat) (state : Interpreter) :
    perform host (depth + 1) (.statement (.transaction body line column)) state =
      match Action.runTransaction host (runAction host depth (Action.block body))
        { state with line, column } with
      | (.ok _, after) => (.ok .null, after)
      | (.error fault, after) => (.error fault, after) := by
  rw [perform, runAction]
  simp only [actionOf, executeStatement, Statement.position?, executeKind,
    executeTransaction, Action.run, Action.run_bind, Run.bind_run, Run.modify_run]
  rcases Action.runTransaction host
    (Action.run host (perform host depth) (Action.block body))
    { state with line, column } with ⟨_ | _, _⟩ <;> rfl

/-- What the block does once its transaction is open. -/
theorem perform_transaction_opened (host : Host) (depth : Nat) (body : List Statement)
    (line column : Nat) (state : Interpreter)
    (outside : state.insideTransaction = false) (configured : host.hasDb = true)
    (begins : host.begin state.log = .ok ()) {ran : Except Fault Unit × Interpreter}
    (runs : runAction host depth (Action.block body)
      (Interpreter.enterTransaction { state with line, column }) = ran) :
    perform host (depth + 1) (.statement (.transaction body line column)) state =
      match Action.finishTransaction host ran with
      | (.ok _, after) => (.ok .null, after)
      | (.error fault, after) => (.error fault, after) := by
  subst runs
  rw [perform_transaction]
  simp [Action.runTransaction, outside, configured, begins]

/-- A block that was opened runs its body inside the transaction it opened, and
commits exactly when the body returned and rolls back exactly when it raised an
error. -/
theorem transaction_atomic (host : Host) (depth : Nat) (body : List Statement)
    (line column : Nat) (state : Interpreter)
    (outside : state.insideTransaction = false) (configured : host.hasDb = true)
    (begins : host.begin state.log = .ok ()) :
    let ran := runAction host depth (Action.block body)
      (Interpreter.enterTransaction { state with line, column })
    let ended := perform host (depth + 1) (.statement (.transaction body line column)) state
    (∃ during, ran.2.log = during ++ .begun state.log.length :: state.log ∧
      ∀ event ∈ during, event.Within state.log.length) ∧
    (ran.1 = .ok () → ClosedBy .committed state ended.2) ∧
    (∀ error, ran.1 = .error (.error error) →
      ended.1 = .error (.error error) ∧ ClosedBy .rolledBack state ended.2) ∧
    (∀ fault, ran.1 = .error fault → (∀ error, fault ≠ .error error) →
      fault ≠ .panic .emptyHolder ∧ ended.1 = .error fault ∧ ended.2 = ran.2) ∧
    ended.1 ≠ .error (.panic .emptyHolder) := by
  intro ran ended
  have holds : Transactional (Interpreter.enterTransaction { state with line, column })
      (Run.ending ran.1) ran.2 :=
    runAction_transactional host depth (Action.block body) rfl
  have ends : ended = _ := perform_transaction_opened host depth body line column state outside
    configured begins (rfl : _ = ran)
  have closed : ∀ close : Nat → Event,
      ClosedBy close state (ran.2.closeTransaction close state.log.length) := by
    intro close
    exact { closedBy_closeTransaction close holds with }
  refine ⟨holds.bodyHistory, ?_⟩
  rw [ends]
  clear_value ran ended
  obtain ⟨result, after⟩ := ran
  rcases result with (error | cause | _) | _
  · have held : after.activeTx = _ := holds.activeTx_eq (settled_error error)
    simp only [Action.finishTransaction, held]
    refine ⟨by simp, fun raised same => ?_, ?_, by simp⟩
    · obtain rfl := Stop.error.inj (Except.error.inj same)
      exact ⟨rfl, closed .rolledBack⟩
    intro fault same abnormal
    exact absurd (Except.error.inj same).symm (abnormal error)
  · have notEmpty : cause ≠ .emptyHolder := by simpa using holds.held
    simp only [Action.finishTransaction]
    refine ⟨by simp, by simp, ?_, by simpa using notEmpty⟩
    intro fault same abnormal
    obtain rfl := Except.error.inj same
    exact ⟨by simpa using notEmpty, rfl, trivial⟩
  · simp only [Action.finishTransaction]
    refine ⟨by simp, by simp, ?_, by simp⟩
    intro fault same abnormal
    obtain rfl := Except.error.inj same
    exact ⟨by simp, rfl, trivial⟩
  · have held : after.activeTx = _ := holds.activeTx_eq settled_none
    simp only [Action.finishTransaction, held]
    cases host.commit after.log with
    | ok _ => exact ⟨fun _ => closed .committed, by simp, by simp, by simp⟩
    | error error =>
        refine ⟨fun _ => closed .committed, by simp, by simp, ?_⟩
        intro same
        cases same

/-- A block whose body saves a row and then raises. -/
theorem transaction_atomic_rollback :
    let body : List Statement :=
      [.expressionStatement (.methodCall (.propertyAccess (.identifier "db") "users") "save"
        [.positional (.mapLiteral [("name", .stringLiteral "ana")])]) 2 5,
        .raise (.stringLiteral "no") none 3 5]
    let start := Interpreter.new Environment.new none
    let ran := runAction emptyHost 9 (Action.block body)
      (Interpreter.enterTransaction { start with line := 1, column := 1 })
    let ended := perform emptyHost 10 (.statement (.transaction body 1 1)) start
    ran.1 = .error (.error (.raiseError "no")) ∧
      ended.1 = .error (.error (.raiseError "no")) ∧ ClosedBy .rolledBack start ended.2 := by
  intro body start ran ended
  have raised : ran.1 = .error (.error (.raiseError "no")) := by rfl
  exact ⟨raised, (transaction_atomic emptyHost 9 body 1 1 start rfl rfl rfl).2.2.1 _ raised⟩

end Marreta
