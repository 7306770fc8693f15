import Marreta.Runtime.Evaluate

namespace Marreta

open Foundation

/-! Relations that every run keeps.

A relation between the ends of a run holds of every expression and every
statement when it holds of each action: the induction over actions and over the
recursion depth is done here once. -/

abbrev StateRelation := Interpreter → Option Fault → Interpreter → Prop

/-- Ends the program never reaches by raising an error. -/
def Raised (fault : Fault) : Prop :=
  fault ≠ .panic .emptyHolder

/-- What each action must do to a relation. -/
structure Admissible (relation : StateRelation) : Prop where
  sequential : Run.Sequential relation Raised
  forgets : Run.Forgets relation
  moves : ∀ state line column, relation state none { state with line, column }
  assigns : ∀ state name value,
    relation state none { state with env := state.env.update name value }
  defines : ∀ state name value,
    relation state none { state with env := state.env.set name value }
  stops : ∀ state signal, relation state none (state.record (.stopped signal))
  asks : ∀ state request, relation state none (state.record (.asked request))
  sends : ∀ state op, relation state none (state.record (.sent state.channel op))
  branches : ∀ {state ending after}, relation state ending after →
    relation state ending { after with env := state.env }
  elementReturns : ∀ {state bindings after},
    relation (state.enterScope bindings) none after →
    relation state none after.leaveScope
  elementFails : ∀ {state bindings fault after},
    relation (state.enterScope bindings) (some fault) after →
    relation state (some fault) after.abandonScope
  rescues : ∀ {state frames error ending after},
    relation (state.enterRescue frames error) ending after →
    relation state ending after.leaveScope
  tasks : ∀ {state entry ending after},
    relation (state.enterTask entry) ending after →
    relation state ending (after.leaveTask state ending.isNone)
  forks : ∀ {state owner base entry ending after} (failed : Bool),
    relation (state.enterFork owner base entry) ending after →
    relation state ending (state.leaveFork after failed)
  copies : ∀ {state ending after}, state.insideTransaction = false →
    relation state.enterBranch ending after →
    relation state ending (state.leaveBranch after)
  joins : ∀ {state cause after}, state.insideTransaction = false →
    relation state.enterBranch (some (.panic cause)) after →
    relation state none (state.leaveBranch after)
  beginFails : ∀ {state}, state.insideTransaction = false →
    relation state none (state.record .beginFailed)
  commits : ∀ {state after id}, state.insideTransaction = false →
    relation state.enterTransaction none after → after.activeTx = some id →
    relation state none (after.closeTransaction .committed id)
  rollsBack : ∀ {state error after id}, state.insideTransaction = false →
    relation state.enterTransaction (some (.error error)) after →
    after.activeTx = some id →
    relation state (some (.error error)) (after.closeTransaction .rolledBack id)
  unwinds : ∀ {state fault after}, state.insideTransaction = false →
    relation state.enterTransaction (some fault) after →
    (∀ error, fault ≠ .error error) → relation state (some fault) after
  emptied : ∀ {state ending after}, state.insideTransaction = false →
    relation state.enterTransaction ending after → after.activeTx = none →
    (ending = none ∨ ∃ error, ending = some (.error error)) →
    relation state (some (.panic .emptyHolder)) after

namespace Admissible

variable {relation : StateRelation} (admissible : Admissible relation)
variable {α : Type}

include admissible

theorem fails {before after : Interpreter} (error : MarretaError)
    (holds : relation before none after) :
    relation before (some (.error error)) after :=
  admissible.sequential.seq holds (admissible.sequential.stop after (by simp [Raised]))

theorem raises (error : MarretaError) (state : Interpreter) :
    relation state (some (.error error)) state :=
  admissible.fails error (admissible.sequential.idle state)

/-! ## Operations with a driver -/

theorem runDb_satisfies (host : Host) (op : DbOp) :
    Run.Satisfies relation (Action.runDb host op) := by
  intro state
  unfold Action.runDb
  cases state.channel.sends op with
  | error error => exact admissible.raises error state
  | ok sent =>
      cases host.answerDb state.log state.channel op with
      | ok reply => exact admissible.sends state op
      | error error => exact admissible.fails error (admissible.sends state op)

theorem finishTransaction_satisfies (host : Host) {state : Interpreter}
    (outside : state.insideTransaction = false)
    {result : Except Fault Unit} {after : Interpreter}
    (holds : relation state.enterTransaction (Run.ending result) after) :
    relation state (Run.ending (Action.finishTransaction host (result, after)).1)
      (Action.finishTransaction host (result, after)).2 := by
  rcases result with (error | cause | _) | _
  · cases held : after.activeTx with
    | none =>
        simp only [Action.finishTransaction, held]
        exact admissible.emptied outside holds held (.inr ⟨error, rfl⟩)
    | some id =>
        simp only [Action.finishTransaction, held]
        exact admissible.rollsBack outside holds held
  · exact admissible.unwinds outside holds (by simp)
  · exact admissible.unwinds outside holds (by simp)
  · cases held : after.activeTx with
    | none =>
        simp only [Action.finishTransaction, held]
        exact admissible.emptied outside holds held (.inl rfl)
    | some id =>
        have committed := admissible.commits outside holds held
        simp only [Action.finishTransaction, held]
        cases host.commit after.log with
        | ok _ => exact committed
        | error error => exact admissible.fails _ committed

theorem runTransaction_satisfies (host : Host)
    {body : Run Interpreter Fault Unit} (holds : Run.Satisfies relation body) :
    Run.Satisfies relation (Action.runTransaction host body) := by
  intro state
  unfold Action.runTransaction
  cases outside : state.insideTransaction with
  | true => exact admissible.raises _ state
  | false =>
      cases host.hasDb with
      | false => exact admissible.raises _ state
      | true =>
          cases host.begin state.log with
          | error error => exact admissible.fails _ (admissible.beginFails outside)
          | ok _ =>
              exact admissible.finishTransaction_satisfies host outside
                (holds state.enterTransaction)

/-! ## Copies -/

theorem runCopy_satisfies {body : Run Interpreter Fault α}
    (holds : Run.Satisfies relation body) :
    Run.Satisfies relation (Action.runCopy body) := by
  intro state
  unfold Action.runCopy
  cases outside : state.insideTransaction with
  | true => exact admissible.raises _ state
  | false => exact admissible.copies outside (holds state.enterBranch)

theorem spawned_satisfies {body : Run Interpreter Fault α}
    (holds : Run.Satisfies relation body) :
    Run.Satisfies relation (Action.joinThread (Action.runCopy body)) := by
  intro state
  unfold Action.joinThread Action.runCopy
  cases outside : state.insideTransaction with
  | true => exact admissible.sequential.idle state
  | false =>
      have bodyHolds := holds state.enterBranch
      rcases run : body state.enterBranch with ⟨result, after⟩
      rw [run] at bodyHolds
      simp only [Bool.false_eq_true, if_false]
      rcases result with (error | cause | _) | value
      · exact admissible.forgets (admissible.copies outside bodyHolds)
      · exact admissible.joins outside bodyHolds
      · exact admissible.copies outside bodyHolds
      · exact admissible.copies outside bodyHolds

/-! ## Actions -/

/-- Every action keeps the relation, when the calls it makes do. -/
theorem run_satisfies (host : Host) {calls : Call → Run Interpreter Fault Value}
    (callsHold : ∀ target, Run.Satisfies relation (calls target))
    (action : Action α) : Run.Satisfies relation (Action.run host calls action) := by
  induction action with
  | pure value => exact Run.Satisfies.pure admissible.sequential value
  | bind first next firstHolds nextHolds =>
      exact Run.Satisfies.bind admissible.sequential firstHolds nextHolds
  | raise error => exact admissible.raises error
  | abort cause =>
      intro state
      refine admissible.sequential.stop state ?_
      cases cause <;> simp [Raised, Abort.fault]
  | stop signal => exact fun state => admissible.fails _ (admissible.stops state signal)
  | reads part => exact Run.Satisfies.reads admissible.sequential part
  | moveTo line column => exact fun state => admissible.moves state line column
  | assign name value => exact fun state => admissible.assigns state name value
  | define name value => exact fun state => admissible.defines state name value
  | ask request => exact fun state => admissible.asks state request
  | db op => exact admissible.runDb_satisfies host op
  | attempt body bodyHolds => exact Run.Satisfies.attempt admissible.forgets bodyHolds
  | branch body bodyHolds => exact fun state => admissible.branches (bodyHolds state)
  | element bindings body bodyHolds =>
      intro state
      have holds := bodyHolds (state.enterScope bindings)
      simp only [Action.run]
      rcases run : Action.run host calls body (state.enterScope bindings) with
        ⟨result, after⟩
      rw [run] at holds
      cases result with
      | ok value => exact admissible.elementReturns holds
      | error fault => exact admissible.elementFails holds
  | rescue frames error body bodyHolds =>
      exact fun state => admissible.rescues (bodyHolds (state.enterRescue frames error))
  | task entry body bodyHolds =>
      intro state
      have holds := admissible.tasks (bodyHolds (state.enterTask entry))
      simp only [Action.run]
      rcases run : Action.run host calls body (state.enterTask entry) with ⟨result, after⟩
      rw [run] at holds
      cases result with
      | ok value => exact holds
      | error fault => exact holds
  | fork owner base entry body bodyHolds =>
      exact fun state => admissible.forks _
        (bodyHolds (state.enterFork owner (base.getD state.env) entry))
  | isolated body bodyHolds => exact admissible.runCopy_satisfies bodyHolds
  | spawned body bodyHolds => exact admissible.spawned_satisfies bodyHolds
  | transaction body bodyHolds => exact admissible.runTransaction_satisfies host bodyHolds
  | call target => exact callsHold target

/-- Every part of a program keeps the relation. -/
theorem perform_satisfies (host : Host) (depth : Nat) (target : Call) :
    Run.Satisfies relation (perform host depth target) := by
  induction depth generalizing target with
  | zero => exact fun state => admissible.sequential.stop state (by simp [Raised])
  | succ depth induction => exact admissible.run_satisfies host induction _

theorem runAction_satisfies (host : Host) (depth : Nat) (action : Action α) :
    Run.Satisfies relation (runAction host depth action) :=
  admissible.run_satisfies host (admissible.perform_satisfies host depth) action

end Admissible
end Marreta
