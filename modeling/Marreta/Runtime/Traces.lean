import Marreta.Foundation.Ensures
import Marreta.Runtime.Evaluate

namespace Marreta

open Foundation

/-! The trace of running tasks.

A task that fails leaves its frame on the trace, so that an error nobody handles
shows where it came from.  Whoever absorbs an error has to cut the trace back.  A
rescue does; a string that shows a failed expression as null does not. -/

namespace Action

/-- The action goes on with an error as a value. -/
def absorbs : {α : Type} → Action α → α → Bool
  | _, .attempt _, .error _ => true
  | _, _, _ => false

/-- The number of frames the trace should have: those to cut back to, when an
absorbed error left some, and otherwise those that are there. -/
def baseline (pending : Option Nat) (state : Interpreter) : Nat :=
  pending.getD state.traceFrames.length

/-- What an absorbed error leaves to be cut back. -/
def remaining (frames : Nat) (absorbed : Bool) (state : Interpreter) : Option Nat :=
  if absorbed && state.traceFrames.length ≠ frames then some frames else none

section

variable (host : Host) (calls : Call → Run Interpreter Fault Value)
  (visits : Call → Interpreter → Prop)

/-- In the run of the action, no error is absorbed that left frames, unless what
follows raises an error again or cuts the trace back to where it was.  `direct`
says that the next action gets the result, and `pending` that there are frames to
be cut back. -/
def Swept : {α : Type} → Action α → (direct : Bool) → (pending : Option Nat) →
    Interpreter → Prop
  | _, .raise _, _, _, _ | _, .abort _, _, _, _ | _, .stop _, _, _, _ => True
  | _, .bind first next, _, pending, state =>
      Swept first true pending state ∧
        match run host calls first state with
        | (.ok value, after) =>
            Swept (next value) false
              (remaining (baseline pending state) (absorbs first value) after) after
        | (.error _, _) => True
  | _, .attempt body, direct, pending, state =>
      Swept body false pending state ∧
        match direct, run host calls body state with
        | false, (.error (.error _), after) =>
            after.traceFrames.length = baseline pending state
        | _, _ => True
  | _, .rescue frames error body, _, pending, state =>
      frames = baseline pending state ∧ Swept body false none (state.enterRescue frames error)
  | _, .branch body, _, pending, state => pending = none ∧ Swept body false none state
  | _, .element bindings body, _, pending, state =>
      pending = none ∧ Swept body false none (state.enterScope bindings)
  | _, .task entry body, _, pending, state =>
      pending = none ∧ Swept body false none (state.enterTask entry)
  | _, .fork owner base entry body, _, pending, state =>
      pending = none ∧
        Swept body false none (state.enterFork owner (base.getD state.env) entry)
  | _, .isolated body, _, pending, state | _, .spawned body, _, pending, state =>
      pending = none ∧ Swept body false none state.enterBranch
  | _, .transaction body, _, pending, state =>
      pending = none ∧ Swept body false none state.enterTransaction
  | _, .call target, _, pending, state => pending = none ∧ visits target state
  | _, .pure _, _, pending, _ | _, .reads _, _, pending, _ | _, .moveTo _ _, _, pending, _
  | _, .assign _ _, _, pending, _ | _, .define _ _, _, pending, _ | _, .ask _, _, pending, _
  | _, .db _, _, pending, _ => pending = none

/-- The tasks that an error of the run leaves unfinished, outermost first. -/
def active (running : Call → Interpreter → List MarretaFrame) :
    {α : Type} → Action α → (pending : Option Nat) → Interpreter → List MarretaFrame
  | _, .raise _, pending, state | _, .stop _, pending, state =>
      state.traceFrames.drop (baseline pending state)
  | _, .bind first next, pending, state =>
      match run host calls first state with
      | (.ok value, after) =>
          active running (next value)
            (remaining (baseline pending state) (absorbs first value) after) after
      | (.error _, _) => active running first pending state
  | _, .rescue frames error body, _, state =>
      active running body none (state.enterRescue frames error)
  | _, .branch body, _, state => active running body none state
  | _, .element bindings body, _, state => active running body none (state.enterScope bindings)
  | _, .task entry body, _, state =>
      entry.frame :: active running body none (state.enterTask entry)
  | _, .fork owner base entry body, _, state =>
      entry.frame ::
        active running body none (state.enterFork owner (base.getD state.env) entry)
  | _, .transaction body, _, state =>
      match run host calls body state.enterTransaction with
      | (.ok _, _) => []
      | (.error _, _) =>
          -- An error of `BEGIN` leaves nothing.
          if state.insideTransaction || !host.hasDb || (host.begin state.log).toOption.isNone
          then [] else active running body none state.enterTransaction
  | _, .call target, _, state => running target state
  | _, _, _, _ => []

end

/-! ## One action -/

/-- The trace has at least the frames it should have, and no more unless some are
still to be cut back. -/
def Stands (frames : List MarretaFrame) (pending : Option Nat) (state : Interpreter) : Prop :=
  match pending with
  | none => state.traceFrames = frames
  | some count => count = frames.length ∧ frames <+: state.traceFrames

/-- The trace after a run that started with some frames and left others. -/
def Traced {α : Type} (frames left : List MarretaFrame) :
    Except Fault α × Interpreter → Prop
  | (.ok _, after) => after.traceFrames = frames
  | (.error (.error _), after) => after.traceFrames = frames ++ left
  | (.error _, _) => True

theorem Stands.baseline {frames : List MarretaFrame} {pending : Option Nat}
    {state : Interpreter} (stands : Stands frames pending state) :
    baseline pending state = frames.length := by
  cases pending with
  | none => exact congrArg List.length stands
  | some count => exact stands.1

theorem Stands.isPrefix {frames : List MarretaFrame} {pending : Option Nat}
    {state : Interpreter} (stands : Stands frames pending state) :
    frames <+: state.traceFrames := by
  cases pending with
  | none => exact (show state.traceFrames = frames from stands) ▸ List.prefix_rfl
  | some count => exact stands.2

theorem Stands.split {frames : List MarretaFrame} {pending : Option Nat}
    {state : Interpreter} (stands : Stands frames pending state) :
    state.traceFrames = frames ++ state.traceFrames.drop (Action.baseline pending state) := by
  rw [stands.baseline]
  obtain ⟨rest, same⟩ := stands.isPrefix
  rw [← same, List.drop_left]

/-- After an error was absorbed. -/
theorem stands_remaining {frames : List MarretaFrame} {after : Interpreter}
    (grows : frames <+: after.traceFrames) :
    Stands frames (remaining frames.length true after) after := by
  unfold remaining
  by_cases same : after.traceFrames.length = frames.length
  · simp only [same, Bool.true_and, ne_eq, not_true, decide_false, Bool.false_eq_true, if_false]
    exact (grows.eq_of_length same.symm).symm
  · simp only [same, Bool.true_and, ne_eq, not_false_eq_true, decide_true, if_true]
    exact ⟨rfl, grows⟩

/-- The trace after an action whose result may be an absorbed error. -/
def Ends {α : Type} (action : Action α) (direct : Bool) (frames left : List MarretaFrame) :
    Except Fault α × Interpreter → Prop
  | (.ok value, after) =>
      if direct && absorbs action value then frames <+: after.traceFrames
      else after.traceFrames = frames
  | (.error (.error _), after) => after.traceFrames = frames ++ left
  | (.error _, _) => True

theorem ends_iff {α : Type} {action : Action α} {direct : Bool}
    (plain : ∀ value, (direct && absorbs action value) = false) {frames left : List MarretaFrame}
    {outcome : Except Fault α × Interpreter} :
    Ends action direct frames left outcome ↔ Traced frames left outcome := by
  rcases outcome with ⟨(_ | _ | _) | value, after⟩
  · rfl
  · rfl
  · rfl
  · simp [Ends, Traced, plain value]

section

variable {host : Host} {calls : Call → Run Interpreter Fault Value}
  {visits : Call → Interpreter → Prop} {running : Call → Interpreter → List MarretaFrame}
  {α : Type}

/-- A copy has a trace of its own. -/
theorem runCopy_traceFrames (body : Run Interpreter Fault α) (state : Interpreter) :
    (runCopy body state).2.traceFrames = state.traceFrames := by
  unfold runCopy
  split <;> rfl

theorem traced_of_eq {outcome : Except Fault α × Interpreter} {frames : List MarretaFrame}
    (same : outcome.2.traceFrames = frames) : Traced frames [] outcome := by
  rcases outcome with ⟨(_ | _ | _) | value, after⟩
  · simpa [Traced] using same
  · trivial
  · trivial
  · exact same

theorem joinThread_state (body : Run Interpreter Fault α) (state : Interpreter) :
    (joinThread body state).2 = (body state).2 := by
  unfold joinThread
  rcases body state with ⟨(_ | _ | _) | value, after⟩ <;> rfl

theorem finishTransaction_traced (host : Host) {outcome : Except Fault Unit × Interpreter}
    {frames left : List MarretaFrame} (traced : Traced frames left outcome) :
    Traced frames (if isReturn outcome.1 then [] else left) (finishTransaction host outcome) := by
  rcases outcome with ⟨(error | cause | _) | value, after⟩
  · have same : after.traceFrames = frames ++ left := traced
    cases held : after.activeTx with
    | none => simp [finishTransaction, held, Traced]
    | some id =>
        simpa [finishTransaction, held, Traced, isReturn, Interpreter.closeTransaction,
          Interpreter.record] using same
  · trivial
  · trivial
  · have same : after.traceFrames = frames := traced
    cases held : after.activeTx with
    | none => simp [finishTransaction, held, Traced]
    | some id =>
        cases done : host.commit after.log with
        | ok _ =>
            simpa [finishTransaction, held, done, Traced, Interpreter.closeTransaction,
              Interpreter.record] using same
        | error error =>
            simpa [finishTransaction, held, done, Traced, typeErrorAt, isReturn,
              Interpreter.closeTransaction, Interpreter.record] using same

/-- The frames of an action that is swept: those it started with when it returns,
followed by the unfinished tasks when it raises an error. -/
theorem run_ends
    (callsTraced : ∀ target state, visits target state →
      Traced state.traceFrames (running target state) (calls target state))
    (action : Action α) :
    ∀ (direct : Bool) (pending : Option Nat) (state : Interpreter) (frames : List MarretaFrame),
      Stands frames pending state → Swept host calls visits action direct pending state →
        Ends action direct frames (active host calls running action pending state)
          (run host calls action state) := by
  induction action with
  | pure value | reads part | moveTo line column | assign name value | define name value
  | ask request =>
      intro direct pending state frames stands swept
      obtain rfl : pending = none := swept
      exact (ends_iff (by simp [absorbs])).mpr stands
  | raise error | stop signal =>
      intro direct pending state frames stands swept
      exact stands.split
  | abort cause =>
      intro direct pending state frames stands swept
      cases cause <;> trivial
  | db op =>
      intro direct pending state frames stands swept
      obtain rfl : pending = none := swept
      obtain rfl : state.traceFrames = frames := stands
      rw [ends_iff (by simp [absorbs])]
      simp only [run, runDb]
      cases state.channel.sends op with
      | error error => simp [Traced, active]
      | ok sent =>
          cases host.answerDb state.log state.channel op <;>
            simp [Traced, active, Interpreter.record]
  | bind first next firstEnds nextEnds =>
      intro direct pending state frames stands swept
      rw [Swept] at swept
      obtain ⟨firstSwept, nextSwept⟩ := swept
      have firstDone := firstEnds true pending state frames stands firstSwept
      rw [ends_iff (by simp [absorbs])]
      simp only [run, Run.bind_run, active]
      rcases ran : run host calls first state with ⟨(fault | value), after⟩
      · rw [ran] at firstDone
        cases fault <;> exact firstDone
      · rw [ran] at firstDone nextSwept
        -- What is left to be cut back depends on whether an error was absorbed.
        have stands' : Stands frames
            (remaining (baseline pending state) (absorbs first value) after) after := by
          rw [stands.baseline]
          cases absorbed : absorbs first value with
          | true =>
              simp only [Ends, absorbed, Bool.true_and, if_true] at firstDone
              exact stands_remaining firstDone
          | false =>
              simpa [Ends, absorbed, remaining, Stands] using firstDone
        exact (ends_iff (by simp)).mp (nextEnds value false _ after frames stands' nextSwept)
  | attempt body bodyEnds =>
      intro direct pending state frames stands swept
      obtain ⟨bodySwept, closed⟩ := swept
      have bodyDone := (ends_iff (by simp)).mp
        (bodyEnds false pending state frames stands bodySwept)
      simp only [run, Run.attempt]
      rcases ran : run host calls body state with ⟨(error | cause | _) | value, after⟩
      · rw [ran] at bodyDone closed
        have grows : frames <+: after.traceFrames := ⟨_, (show _ = _ from bodyDone).symm⟩
        cases direct with
        | true => simpa [Ends, absorbs] using grows
        | false =>
            simp only [stands.baseline] at closed
            simpa [Ends] using (grows.eq_of_length closed.symm).symm
      · trivial
      · trivial
      · rw [ran] at bodyDone
        simpa [Ends, absorbs, Traced] using bodyDone
  | branch body bodyEnds =>
      intro direct pending state frames stands swept
      obtain ⟨rfl, bodySwept⟩ := swept
      rw [ends_iff (by simp [absorbs])]
      have bodyDone := (ends_iff (by simp)).mp (bodyEnds false none state frames stands bodySwept)
      simp only [run]
      rcases ran : run host calls body state with ⟨(error | cause | _) | value, after⟩ <;>
        rw [ran] at bodyDone <;> exact bodyDone
  | element bindings body bodyEnds =>
      intro direct pending state frames stands swept
      obtain ⟨rfl, bodySwept⟩ := swept
      rw [ends_iff (by simp [absorbs])]
      have bodyDone := (ends_iff (by simp)).mp
        (bodyEnds false none (state.enterScope bindings) frames stands bodySwept)
      simp only [run]
      rcases ran : run host calls body (state.enterScope bindings) with
        ⟨(error | cause | _) | value, after⟩ <;>
        rw [ran] at bodyDone <;> exact bodyDone
  | rescue count error body bodyEnds =>
      intro direct pending state frames stands swept
      obtain ⟨rfl, bodySwept⟩ := swept
      rw [ends_iff (by simp [absorbs])]
      have cut : Stands frames none (state.enterRescue (baseline pending state) error) := by
        obtain ⟨rest, same⟩ := stands.isPrefix
        change state.traceFrames.take (baseline pending state) = frames
        rw [stands.baseline, ← same, List.take_left]
      have bodyDone := (ends_iff (by simp)).mp (bodyEnds false none _ frames cut bodySwept)
      simp only [run]
      rcases ran : run host calls body (state.enterRescue (baseline pending state) error) with
        ⟨(error | cause | _) | value, after⟩ <;>
        rw [ran] at bodyDone <;> exact bodyDone
  | task entry body bodyEnds =>
      intro direct pending state frames stands swept
      obtain ⟨rfl, bodySwept⟩ := swept
      obtain rfl : state.traceFrames = frames := stands
      rw [ends_iff (by simp [absorbs])]
      have bodyDone := (ends_iff (by simp)).mp (bodyEnds false none (state.enterTask entry)
        (state.traceFrames ++ [entry.frame]) rfl bodySwept)
      simp only [run]
      rcases ran : run host calls body (state.enterTask entry) with
        ⟨(error | cause | _) | value, after⟩ <;> rw [ran] at bodyDone
      · simpa [Traced, active, Interpreter.leaveTask, isReturn] using bodyDone
      · trivial
      · trivial
      · have same : after.traceFrames = state.traceFrames ++ [entry.frame] := bodyDone
        simp [Traced, Interpreter.leaveTask, isReturn, same]
  | fork owner base entry body bodyEnds =>
      intro direct pending state frames stands swept
      obtain ⟨rfl, bodySwept⟩ := swept
      obtain rfl : state.traceFrames = frames := stands
      rw [ends_iff (by simp [absorbs])]
      have bodyDone := (ends_iff (by simp)).mp (bodyEnds false none
        (state.enterFork owner (base.getD state.env) entry)
        (state.traceFrames ++ [entry.frame]) rfl bodySwept)
      simp only [run]
      rcases ran : run host calls body (state.enterFork owner (base.getD state.env) entry) with
        ⟨(error | cause | _) | value, after⟩ <;> rw [ran] at bodyDone
      · simpa [Traced, active, Interpreter.leaveFork, isFailure] using bodyDone
      · trivial
      · trivial
      · simp [Traced, Interpreter.leaveFork, isFailure]
  | isolated body bodyEnds =>
      intro direct pending state frames stands swept
      obtain rfl := swept.1
      obtain rfl : state.traceFrames = frames := stands
      exact (ends_iff (by simp [absorbs])).mpr (traced_of_eq (runCopy_traceFrames _ _))
  | spawned body bodyEnds =>
      intro direct pending state frames stands swept
      obtain rfl := swept.1
      obtain rfl : state.traceFrames = frames := stands
      refine (ends_iff (by simp [absorbs])).mpr (traced_of_eq ?_)
      simp only [run, joinThread_state, runCopy_traceFrames]
  | transaction body bodyEnds =>
      intro direct pending state frames stands swept
      obtain ⟨rfl, bodySwept⟩ := swept
      obtain rfl : state.traceFrames = frames := stands
      rw [ends_iff (by simp [absorbs])]
      have bodyDone := (ends_iff (by simp)).mp
        (bodyEnds false none state.enterTransaction state.traceFrames rfl bodySwept)
      simp only [run, runTransaction, active]
      cases inside : state.insideTransaction with
      | true => cases run host calls body state.enterTransaction with
        | mk result after => cases result <;> simp [Traced, typeErrorAt]
      | false =>
          cases db : host.hasDb with
          | false => cases run host calls body state.enterTransaction with
            | mk result after => cases result <;> simp [Traced, typeErrorAt]
          | true =>
              cases begun : host.begin state.log with
              | error error => cases run host calls body state.enterTransaction with
                | mk result after =>
                    cases result <;>
                      simp [Traced, typeErrorAt, Interpreter.record, Except.toOption]
              | ok _ =>
                  have finished := finishTransaction_traced host bodyDone
                  revert finished
                  cases run host calls body state.enterTransaction with
                  | mk result after => cases result <;> simp [Except.toOption, isReturn]
  | call target =>
      intro direct pending state frames stands swept
      obtain ⟨rfl, visited⟩ := swept
      obtain rfl : state.traceFrames = frames := stands
      exact (ends_iff (by simp [absorbs])).mpr (callsTraced target state visited)

end
end Action

/-! ## Expressions and statements -/

section

variable (host : Host)

/-- No error is absorbed in the run of a part of a program that leaves frames
behind. -/
def SweptRun : Nat → Call → Interpreter → Prop
  | 0, _, _ => True
  | depth + 1, target, state =>
      Action.Swept host (perform host depth) (SweptRun depth) (actionOf host target) false none
        state

/-- The tasks that are unfinished when a part of a program raises an error. -/
def activeTasks : Nat → Call → Interpreter → List MarretaFrame
  | 0, _, _ => []
  | depth + 1, target, state =>
      Action.active host (perform host depth) (activeTasks depth) (actionOf host target) none
        state

theorem perform_traced (depth : Nat) (target : Call) (state : Interpreter)
    (swept : SweptRun host depth target state) :
    Action.Traced state.traceFrames (activeTasks host depth target state)
      (perform host depth target state) := by
  induction depth generalizing target state with
  | zero => trivial
  | succ depth ih =>
      exact (Action.ends_iff (by simp)).mp
        (Action.run_ends ih (actionOf host target) false none state _ rfl swept)

end

/-! ## Whole runs -/

/-- In a run in which no error is absorbed that left frames, every expression and
every statement that returns leaves the trace as it was, and an error finds on it
what was there before and the tasks that are still active. -/
theorem traceFrames_of_sweptRun (host : Host) (depth : Nat) (target : Call) (state : Interpreter)
    (swept : SweptRun host depth target state) :
    (∀ value after, perform host depth target state = (.ok value, after) →
      after.traceFrames = state.traceFrames) ∧
    (∀ error after, perform host depth target state = (.error (.error error), after) →
      after.traceFrames = state.traceFrames ++ activeTasks host depth target state) := by
  have traced := perform_traced host depth target state swept
  constructor
  · intro value after returned
    rw [returned] at traced
    exact traced
  · intro error after raised
    rw [raised] at traced
    exact traced

/-- `task boom() raise "oops"`, defined on the top level. -/
def boomTask : Value :=
  .task
    { name := "boom", params := []
      body := .block [.raise (.stringLiteral "oops") none 2 5] .null
      ownerModule := none, sourceModule := none, line := 1, column := 1 }

def boomStart : Interpreter :=
  Interpreter.new (Environment.new.set "boom" boomTask) none

theorem traceFrames_rescued :
    let ended := perform emptyHost 8
      (.expression (.rescue (.functionCall "boom" []) (.integer 0))) boomStart
    ended.1 = .ok (.integer 0) ∧ ended.2.traceFrames = boomStart.traceFrames := by
  intro ended
  have returned : ended.1 = .ok (.integer 0) := rfl
  have keeps := (traceFrames_of_sweptRun emptyHost 8
    (.expression (.rescue (.functionCall "boom" []) (.integer 0))) boomStart ?_).1
  · exact ⟨returned, keeps (.integer 0) ended.2 (Prod.ext returned rfl)⟩
  -- Every step of the run is one that keeps the trace.
  repeat' first
    | exact trivial
    | exact rfl
    | apply And.intro

def boomText : Expression :=
  .stringLiteral "#\x7bboom()\x7d"

/-- The text shows null, and the frame of the task stays. -/
theorem traceFrames_interpolated :
    ∃ value after, perform emptyHost 8 (.expression boomText) boomStart = (.ok value, after) ∧
      after.traceFrames ≠ boomStart.traceFrames := by
  have returns : (perform emptyHost 8 (.expression boomText) boomStart).1.toOption.isSome =
      true := by decide +kernel
  have frames : (perform emptyHost 8 (.expression boomText) boomStart).2.traceFrames ≠
      boomStart.traceFrames := by decide +kernel
  generalize perform emptyHost 8 (.expression boomText) boomStart = outcome at returns frames
  obtain ⟨result, after⟩ := outcome
  obtain ⟨value, rfl⟩ := returns_of_toOption returns
  exact ⟨value, after, rfl, frames⟩

end Marreta
