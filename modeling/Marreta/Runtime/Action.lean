import Marreta.Foundation.Run
import Marreta.Runtime.Host

namespace Marreta

open Foundation

/-! What an interpreter can do.

The state of an interpreter is changed by a fixed set of actions: moving to
another position, writing a variable, asking the outside world, and running a
body inside one of the brackets below.  The functions of the interpreter are
written as `Action`s, so everything they can do to the state is listed here. -/

inductive FrameLabel where
  | route (verb : HttpVerb) (path : String)
  | task (name : String)
  | consumer (kind target : String)
  | op (name : String)
  | raw (text : String)
deriving DecidableEq

structure MarretaFrame where
  label : FrameLabel
  sourceModule : Option String
  line : Option Nat
  column : Option Nat
deriving DecidableEq

structure Interpreter where
  env : Environment
  line : Nat
  column : Nat
  callDepth : Nat
  currentModule : Option String
  insideTransaction : Bool
  /-- The transaction in the holder, by its number. -/
  activeTx : Option Nat
  /-- Oldest first. -/
  traceFrames : List MarretaFrame
  log : Log

namespace Interpreter

def new (env : Environment) (currentModule : Option String) : Interpreter :=
  { env, line := 0, column := 0, callDepth := 0, currentModule
    insideTransaction := false, activeTx := none, traceFrames := [], log := [] }

def position (state : Interpreter) : Position :=
  { line := state.line, column := state.column }

def record (state : Interpreter) (event : Event) : Interpreter :=
  { state with log := event :: state.log }

/-- Relational operations go through the held transaction, if there is one. -/
def channel (state : Interpreter) : Channel :=
  match state.activeTx with
  | some id => .transaction id
  | none => .pool

end Interpreter

/-- A task about to run, with its parameters bound. -/
structure TaskEntry where
  frame : MarretaFrame
  bindings : List (String × Value)

namespace Interpreter

variable (state : Interpreter)

/-! ## Entering and leaving bodies -/

def enterScope (bindings : List (String × Value)) : Interpreter :=
  { state with env := state.env.pushScope.setAll bindings }

def leaveScope : Interpreter :=
  { state with env := state.env.popScope }

def abandonScope : Interpreter :=
  { state with env := state.env.abandon }

/-- A task of the current module runs in a new scope of the caller's own
environment. -/
def enterTask (task : TaskEntry) : Interpreter :=
  { state.enterScope task.bindings with
    callDepth := state.callDepth + 1
    traceFrames := state.traceFrames ++ [task.frame] }

/-- The frame stays on the trace when the task failed. -/
def leaveTask (before : Interpreter) (returned : Bool) : Interpreter :=
  { state.leaveScope with
    callDepth := state.callDepth - 1
    traceFrames :=
      if returned then state.traceFrames.take before.traceFrames.length
      else state.traceFrames }

/-- A task of another module runs in a fork over the environment of that module,
with the caller's local definitions and the parameters on top. -/
def enterFork (owner : String) (base : Environment) (task : TaskEntry) :
    Interpreter :=
  { state with
    env := (base.pushScope.setAll state.env.localVariables).pushScope.setAll
      task.bindings
    currentModule := some owner
    callDepth := state.callDepth + 1
    traceFrames := state.traceFrames ++ [task.frame] }

/-- The caller shares the transaction holder with the fork, and takes over its
trace when the task failed. -/
def leaveFork (forked : Interpreter) (failed : Bool) : Interpreter :=
  { state with
    activeTx := forked.activeTx
    log := forked.log
    traceFrames := if failed then forked.traceFrames else state.traceFrames }

/-- A branch of a broadcast gets a copy of the interpreter with an empty
transaction holder. -/
def enterBranch : Interpreter :=
  { state.record .copied with activeTx := none }

def leaveBranch (branch : Interpreter) : Interpreter :=
  { state with log := branch.log }

def enterRescue (frames : Nat) (error : Value) : Interpreter :=
  { state.enterScope [("error", error)] with
    traceFrames := state.traceFrames.take frames }

def enterTransaction : Interpreter :=
  { state.record (.begun state.log.length) with
    activeTx := some state.log.length
    insideTransaction := true }

/-- Take the transaction out of the holder and close it with an event. -/
def closeTransaction (close : Nat → Event) (id : Nat) : Interpreter :=
  { state.record (close id) with
    activeTx := none
    insideTransaction := false }

end Interpreter

/-! ## Actions -/

/-- A part of a program the interpreter recurses into. -/
inductive Call where
  | expression (value : Expression)
  | statement (value : Statement)

/-- Abnormal ends that no handler of the program sees. -/
inductive Abort where
  | lexer | library | exhausted
deriving DecidableEq

namespace Abort

def fault : Abort → Fault
  | .lexer => .panic .lexer
  | .library => .panic .library
  | .exhausted => .exhausted

end Abort

inductive Action : Type → Type 1 where
  | pure {α : Type} (value : α) : Action α
  | bind {α β : Type} (first : Action α) (next : α → Action β) : Action β
  | raise {α : Type} (error : MarretaError) : Action α
  | abort {α : Type} (cause : Abort) : Action α
  | stop {α : Type} (signal : StopSignal) : Action α
  | reads {α : Type} (part : Interpreter → α) : Action α
  | moveTo (line column : Nat) : Action Unit
  /-- `Environment::update`. -/
  | assign (name : String) (value : Value) : Action Unit
  /-- `Environment::set`. -/
  | define (name : String) (value : Value) : Action Unit
  | ask (request : Request) : Action request.Reply
  | db (op : DbOp) : Action op.Reply
  | attempt {α : Type} (body : Action α) : Action (Except MarretaError α)
  /-- A body whose changes to the environment are undone. -/
  | branch {α : Type} (body : Action α) : Action α
  /-- A body for one element of a list.  Its scope is only removed when the body
  returned. -/
  | element {α : Type} (bindings : List (String × Value)) (body : Action α) :
      Action α
  | rescue {α : Type} (frames : Nat) (error : Value) (body : Action α) : Action α
  | task {α : Type} (entry : TaskEntry) (body : Action α) : Action α
  | fork {α : Type} (owner : String) (base : Option Environment)
      (entry : TaskEntry) (body : Action α) : Action α
  /-- A broadcast branch run on this thread. -/
  | isolated {α : Type} (body : Action α) : Action α
  /-- A broadcast branch run on a thread of its own: `none` when it panicked. -/
  | spawned {α : Type} (body : Action α) : Action (Option (Except MarretaError α))
  | transaction (body : Action Unit) : Action Unit
  | call (target : Call) : Action Value

namespace Action

instance : Monad Action where
  pure := Action.pure
  bind := Action.bind

/-! ## Running actions -/

def typeErrorAt (state : Interpreter) (message : String) : Fault :=
  .error (state.position.typeError message)

def isReturn {α : Type} : Except Fault α → Bool
  | .ok _ => true
  | .error _ => false

def isFailure {α : Type} : Except Fault α → Bool
  | .error (.error _) => true
  | _ => false

def noDbConfigured : String :=
  "db.* called but no DB is configured (set MARRETA_DB_PROVIDER, MARRETA_DB_HOST, " ++
    "MARRETA_DB_PORT, MARRETA_DB_NAME, MARRETA_DB_USER, and optional " ++
    "MARRETA_DB_PASSWORD)"

/-- Take the transaction out of its holder and close it: commit after a body that
returned, roll back after an error.  A panic of the body leaves it open. -/
def finishTransaction (host : Host) :
    Except Fault Unit × Interpreter → Except Fault Unit × Interpreter
  | (.ok _, after) =>
      match after.activeTx with
      | none => (.error (.panic .emptyHolder), after)
      | some id =>
          let closed := after.closeTransaction .committed id
          match host.commit after.log with
          | .ok _ => (.ok (), closed)
          | .error error =>
              (.error (typeErrorAt closed
                ("transaction COMMIT failed: " ++ error.display)), closed)
  | (.error (.error error), after) =>
      match after.activeTx with
      | none => (.error (.panic .emptyHolder), after)
      | some id => (.error (.error error), after.closeTransaction .rolledBack id)
  | (.error fault, after) => (.error fault, after)

/-- Open a transaction, unless there is one already, and run the body in it. -/
def runTransaction (host : Host) (body : Run Interpreter Fault Unit) :
    Run Interpreter Fault Unit :=
  fun state =>
    if state.insideTransaction then
      (.error (typeErrorAt state "nested transaction blocks are not allowed"), state)
    else if !host.hasDb then (.error (typeErrorAt state noDbConfigured), state)
    else
      match host.begin state.log with
      | .error error =>
          (.error (typeErrorAt state ("transaction BEGIN failed: " ++ error.display)),
            state.record .beginFailed)
      | .ok _ => finishTransaction host (body state.enterTransaction)

def broadcastInTransaction : String :=
  "*>> (broadcast) is not allowed inside a transaction block"

/-- Run a body on a copy of the interpreter.  Copies are only made outside a
transaction. -/
def runCopy {α : Type} (body : Run Interpreter Fault α) : Run Interpreter Fault α :=
  fun state =>
    if state.insideTransaction then
      (.error (typeErrorAt state broadcastInTransaction), state)
    else
      let (result, after) := body state.enterBranch
      (result, state.leaveBranch after)

/-- What the thread that waits for another one sees of its end. -/
def joinThread {α : Type} (body : Run Interpreter Fault α) :
    Run Interpreter Fault (Option (Except MarretaError α)) :=
  fun state =>
    match body state with
    | (.ok value, after) => (.ok (some (.ok value)), after)
    | (.error (.error error), after) => (.ok (some (.error error)), after)
    | (.error (.panic _), after) => (.ok none, after)
    | (.error .exhausted, after) => (.error .exhausted, after)

/-- Send an operation to the relational driver. -/
def runDb (host : Host) (op : DbOp) : Run Interpreter Fault op.Reply :=
  fun state =>
    match state.channel.sends op with
    | .error error => (.error (.error error), state)
    | .ok _ =>
        match host.answerDb state.log state.channel op with
        | .ok reply => (.ok reply, state.record (.sent state.channel op))
        | .error error =>
            (.error (.error error), state.record (.sent state.channel op))

def run (host : Host) (calls : Call → Run Interpreter Fault Value) {α : Type} :
    Action α → Run Interpreter Fault α
  | .pure value => Pure.pure value
  | .bind first next => run host calls first >>= fun value => run host calls (next value)
  | .raise error => Run.raise (.error error)
  | .abort cause => Run.raise cause.fault
  | .stop signal =>
      fun state => (.error (.error signal.error), state.record (.stopped signal))
  | .reads part => Run.reads part
  | .moveTo line column => Run.modify fun state => { state with line, column }
  | .assign name value =>
      Run.modify fun state => { state with env := state.env.update name value }
  | .define name value =>
      Run.modify fun state => { state with env := state.env.set name value }
  | .ask request =>
      fun state =>
        (.ok (host.answer state.log request), state.record (.asked request))
  | .db op => runDb host op
  | .attempt body => Run.attempt (run host calls body)
  | .branch body =>
      fun state =>
        let (result, after) := run host calls body state
        (result, { after with env := state.env })
  | .element bindings body =>
      fun state =>
        let (result, after) := run host calls body (state.enterScope bindings)
        (result, if isReturn result then after.leaveScope else after.abandonScope)
  | .rescue frames error body =>
      fun state =>
        let (result, after) := run host calls body (state.enterRescue frames error)
        (result, after.leaveScope)
  | .task entry body =>
      fun state =>
        let (result, after) := run host calls body (state.enterTask entry)
        (result, after.leaveTask state (isReturn result))
  | .fork owner base entry body =>
      fun state =>
        let (result, after) :=
          run host calls body (state.enterFork owner (base.getD state.env) entry)
        (result, state.leaveFork after (isFailure result))
  | .isolated body => runCopy (run host calls body)
  | .spawned body => joinThread (runCopy (run host calls body))
  | .transaction body => runTransaction host (run host calls body)
  | .call target => calls target

section Run

variable (host : Host) (calls : Call → Run Interpreter Fault Value) {α β : Type}

@[simp] theorem run_pure (value : α) :
    run host calls (Pure.pure value) = Pure.pure value := rfl

@[simp] theorem run_bind (first : Action α) (next : α → Action β) :
    run host calls (first >>= next) =
      run host calls first >>= fun value => run host calls (next value) := rfl

theorem run_mapM (values : List α) (turn : α → Action β) :
    run host calls (values.mapM turn) =
      values.mapM fun value => run host calls (turn value) := by
  have loop : ∀ results,
      run host calls (List.mapM.loop turn values results) =
        List.mapM.loop (fun value => run host calls (turn value)) values results := by
    induction values with
    | nil => exact fun _ => rfl
    | cons value rest induction =>
        intro results
        simp only [List.mapM.loop, run_bind, induction]
  exact loop []

end Run

/-! ## Small actions -/

def eval (value : Expression) : Action Value :=
  .call (.expression value)

def exec (value : Statement) : Action Value :=
  .call (.statement value)

/-- Run statements in order, for their effects. -/
def block (statements : List Statement) : Action Unit :=
  statements.forM fun statement => do let _ ← exec statement

def position : Action Position :=
  .reads Interpreter.position

def ofExcept {α : Type} : Except MarretaError α → Action α
  | .ok value => .pure value
  | .error error => .raise error

def ofLibrary {α : Type} : Except LibraryFault α → Action α
  | .ok value => .pure value
  | .error (.error error) => .raise error
  | .error .panic => .abort .library

def typeError {α : Type} (message : String) : Action α := do
  let position ← position
  .raise (position.typeError message)

def runtimeError {α : Type} (message : String) : Action α := do
  let position ← position
  .raise (.runtimeError message position.line position.column)

def wrongArity {α : Type} (taskName : String) (expected got : Nat) : Action α := do
  let position ← position
  .raise (.wrongArity taskName expected got position.line position.column)

def propertyNotFound {α : Type} (objectType property : String) : Action α := do
  let position ← position
  .raise (.propertyNotFound objectType property position.line position.column)

/-- The value of an option, or a type error. -/
def orTypeError {α : Type} (message : String) : Option α → Action α
  | some value => .pure value
  | none => typeError message

end Action
end Marreta
