import Marreta.Runtime.CallsMade
import Marreta.Runtime.Nacks

namespace Marreta

open Foundation

/-! Runs at two log levels.

A program is run twice, once at the log level of the host and once at a stricter one.  The
stricter run leaves out the log lines between the levels.  The numbers of transactions count
events, so they differ too. -/

/-- The same host with another `MARRETA_LOG_LEVEL`. -/
def Host.withLogLevel (host : Host) (logLevel : LogLevel) : Host :=
  { host with logLevel }

/-! ## Logs without some lines -/

/-- Transactions of two runs that are the same one. -/
abbrev TxPairs := List (Nat × Nat)

inductive SameTx (pairs : TxPairs) : Option Nat → Option Nat → Prop
  | none : SameTx pairs none none
  | some {id id' : Nat} (member : (id, id') ∈ pairs) : SameTx pairs (some id) (some id')

inductive SameChannel (pairs : TxPairs) : Channel → Channel → Prop
  | pool : SameChannel pairs .pool .pool
  | transaction {id id' : Nat} (member : (id, id') ∈ pairs) :
      SameChannel pairs (.transaction id) (.transaction id')

section

variable (host : Host) (strict : LogLevel)

/-- The line of a log statement. -/
def logEvent (level : LogLevel) (now : Int) (data : String) : Event :=
  .asked (.writeLine (host.library.logLine level now host.traceContext data))

/-- Events that have nothing to do with log lines and transactions. -/
def PlainEvent : Event → Prop
  | .asked request => Action.Unlogged (Action.Lines.printed host) request
  | .stopped _ | .copied | .beginFailed => True
  | .sent .. | .begun _ | .committed _ | .rolledBack _ => False

/-- The second log is the first one without the lines of log statements below the level, up to
the numbers of transactions. -/
inductive Thinned : Log → Log → TxPairs → Prop
  | start (log : Log) (ids : List Nat) : Thinned log log (ids.map fun id => (id, id))
  | plain {log other : Log} {pairs : TxPairs} {event : Event} (plain : PlainEvent host event)
      (thinned : Thinned log other pairs) : Thinned (event :: log) (event :: other) pairs
  | sent {log other : Log} {pairs : TxPairs} {channel channel' : Channel}
      (same : SameChannel pairs channel channel') (op : DbOp)
      (thinned : Thinned log other pairs) :
      Thinned (.sent channel op :: log) (.sent channel' op :: other) pairs
  | begun {log other : Log} {pairs : TxPairs} (thinned : Thinned log other pairs) :
      Thinned (.begun log.length :: log) (.begun other.length :: other)
        ((log.length, other.length) :: pairs)
  | committed {log other : Log} {pairs : TxPairs} {id id' : Nat} (member : (id, id') ∈ pairs)
      (thinned : Thinned log other pairs) :
      Thinned (.committed id :: log) (.committed id' :: other) pairs
  | rolledBack {log other : Log} {pairs : TxPairs} {id id' : Nat} (member : (id, id') ∈ pairs)
      (thinned : Thinned log other pairs) :
      Thinned (.rolledBack id :: log) (.rolledBack id' :: other) pairs
  | kept {log other : Log} {pairs : TxPairs} {level : LogLevel} (now : Int) (data : String)
      (passes : strict.rank ≤ level.rank) (thinned : Thinned log other pairs) :
      Thinned (logEvent host level now data :: log) (logEvent host level now data :: other) pairs
  | dropped {log other : Log} {pairs : TxPairs} {level : LogLevel} (now : Int) (data : String)
      (below : level.rank < strict.rank) (thinned : Thinned log other pairs) :
      Thinned (logEvent host level now data :: .asked .now :: log) other pairs

/-- The outside world does not look at the lines left out, nor at numbers of transactions. -/
structure Oblivious : Prop where
  answer {log other : Log} {pairs : TxPairs} (thinned : Thinned host strict log other pairs)
    (request : Request) : host.answer log request = host.answer other request
  answerDb {log other : Log} {pairs : TxPairs} (thinned : Thinned host strict log other pairs)
    {channel channel' : Channel} (same : SameChannel pairs channel channel') (op : DbOp) :
    host.answerDb log channel op = host.answerDb other channel' op
  begin {log other : Log} {pairs : TxPairs} (thinned : Thinned host strict log other pairs) :
    host.begin log = host.begin other
  commit {log other : Log} {pairs : TxPairs} (thinned : Thinned host strict log other pairs) :
    host.commit log = host.commit other

/-- The second interpreter differs from the first one by what its log leaves out. -/
def Shadows (pairs : TxPairs) (one other : Interpreter) : Prop :=
  ∃ activeTx log, other = { one with activeTx, log } ∧
    Thinned host strict one.log log pairs ∧ SameTx pairs one.activeTx activeTx

/-- The ends of two runs. -/
def EndsThinned {α : Type} (pairs : TxPairs) (one other : Except Fault α × Interpreter) : Prop :=
  one.1 = other.1 ∧ ∃ later, pairs ⊆ later ∧ Shadows host strict later one.2 other.2

/-! ## What the laxer run alone writes -/

/-- The value of a log statement between the levels is serializable, and its line is written. -/
def LogsCleanly (level : LogLevel) (value : Value) (state : Interpreter) : Prop :=
  host.logLevel.rank ≤ level.rank → level.rank < strict.rank →
    ∃ data, host.library.valueToJsonStrict value = .ok data ∧
      let now := host.answer state.log .now
      host.answer (.asked .now :: state.log)
        (.writeLine (host.library.logLine level now host.traceContext data)) = .ok ()

/-- All log statements of a run do so.  Calls are judged by `inner`. -/
structure CleanLogs (calls : Call → Run Interpreter Fault Value) (inner : Call → Interpreter → Prop)
    {α : Type} (action : Action α) (state : Interpreter) : Prop where
  logs {level : LogLevel} {value : Value} {inside : Interpreter}
    (visits : action.Visits host calls state (emitLogValue host level value) inside) :
    LogsCleanly host strict level value inside
  calls {target : Call} {inside : Interpreter}
    (visits : action.Visits host calls state (.call target) inside) : inner target inside

def CleanRun : Nat → Call → Interpreter → Prop
  | 0, _, _ => True
  | depth + 1, target, state =>
      CleanLogs host strict (perform host depth) (CleanRun depth) (actionOf host target) state

/-! ## Actions that differ in log statements -/

open Marreta.Action in
/-- The same action at two log levels. -/
inductive Thins : {α : Type} → Action α → Action α → Prop
  | pure {α : Type} (value : α) : Thins (.pure value) (.pure value)
  | bind {α β : Type} {first first' : Action α} {next next' : α → Action β}
      (head : Thins first first') (tail : ∀ value, Thins (next value) (next' value)) :
      Thins (.bind first next) (.bind first' next')
  | raise {α : Type} (error : MarretaError) : Thins (.raise error : Action α) (.raise error)
  | abort {α : Type} (cause : Abort) : Thins (.abort cause : Action α) (.abort cause)
  | stop {α : Type} (signal : StopSignal) : Thins (.stop signal : Action α) (.stop signal)
  | reads {α : Type} {part : Interpreter → α} (blind : Blind part) :
      Thins (.reads part) (.reads part)
  | moveTo (line column : Nat) : Thins (.moveTo line column) (.moveTo line column)
  | assign (name : String) (value : Value) : Thins (.assign name value) (.assign name value)
  | define (name : String) (value : Value) : Thins (.define name value) (.define name value)
  | ask {request : Request} (unlogged : Unlogged (Lines.printed host) request) :
      Thins (.ask request) (.ask request)
  | db (op : DbOp) : Thins (.db op) (.db op)
  | attempt {α : Type} {body body' : Action α} (inside : Thins body body') :
      Thins (.attempt body) (.attempt body')
  | branch {α : Type} {body body' : Action α} (inside : Thins body body') :
      Thins (.branch body) (.branch body')
  | element {α : Type} {body body' : Action α} (bindings : List (String × Value))
      (inside : Thins body body') : Thins (.element bindings body) (.element bindings body')
  | rescue {α : Type} {body body' : Action α} (frames : Nat) (error : Value)
      (inside : Thins body body') : Thins (.rescue frames error body) (.rescue frames error body')
  | task {α : Type} {body body' : Action α} (entry : TaskEntry) (inside : Thins body body') :
      Thins (.task entry body) (.task entry body')
  | fork {α : Type} {body body' : Action α} (owner : String) (base : Option Environment)
      (entry : TaskEntry) (inside : Thins body body') :
      Thins (.fork owner base entry body) (.fork owner base entry body')
  | isolated {α : Type} {body body' : Action α} (inside : Thins body body') :
      Thins (.isolated body) (.isolated body')
  | spawned {α : Type} {body body' : Action α} (inside : Thins body body') :
      Thins (.spawned body) (.spawned body')
  | transaction {body body' : Action Unit} (inside : Thins body body') :
      Thins (.transaction body) (.transaction body')
  | call (target : Call) : Thins (.call target) (.call target)
  | emit (level : LogLevel) (value : Value) :
      Thins (emitLogValue host level value) (emitLogValue (host.withLogLevel strict) level value)

end

/-- An action without log statements is the same at every level. -/
theorem thins_of_built {host : Host} {strict : LogLevel} {α : Type} {action : Action α}
    (built : action.Built (Action.Lines.printed host) fun _ => True) :
    Thins host strict action action := by
  induction action with
  | pure value => exact .pure value
  | bind first next head tail => exact .bind (head built.1) fun value => tail value (built.2 value)
  | raise error => exact .raise error
  | abort cause => exact .abort cause
  | stop signal => exact .stop signal
  | reads part => exact .reads built
  | moveTo line column => exact .moveTo line column
  | assign name value => exact .assign name value
  | define name value => exact .define name value
  | ask request => exact .ask built
  | db op => exact .db op
  | attempt body inside => exact .attempt (inside built)
  | branch body inside => exact .branch (inside built)
  | element bindings body inside => exact .element bindings (inside built)
  | rescue frames error body inside => exact .rescue frames error (inside built)
  | task entry body inside => exact .task entry (inside built)
  | fork owner base entry body inside => exact .fork owner base entry (inside built)
  | isolated body inside => exact .isolated (inside built)
  | spawned body inside => exact .spawned (inside built)
  | transaction body inside => exact .transaction (inside built)
  | call target => exact .call target

/-! ## Steps that keep the logs together -/

section

variable {pairs later : TxPairs}

theorem SameTx.mono {id id' : Option Nat} (within : pairs ⊆ later) (same : SameTx pairs id id') :
    SameTx later id id' := by
  cases same with
  | none => exact .none
  | some member => exact .some (within member)

theorem SameTx.channel {one other : Interpreter}
    (same : SameTx pairs one.activeTx other.activeTx) :
    SameChannel pairs one.channel other.channel := by
  unfold Interpreter.channel
  generalize one.activeTx = id at same
  generalize other.activeTx = id' at same
  cases same with
  | none => exact .pool
  | some member => exact .transaction member

/-- An operation is refused on both channels with the same error, or sent on both. -/
theorem SameChannel.sends {channel channel' : Channel} (same : SameChannel pairs channel channel')
    (op : DbOp) :
    (∃ error, channel.sends op = .error error ∧ channel'.sends op = .error error) ∨
      ∃ sent sent', channel.sends op = .ok sent ∧ channel'.sends op = .ok sent' := by
  cases built : statementOf op with
  | error error =>
      left
      exists error
      cases same <;>
        simp [Channel.sends, PostgresDriver.sends, PgTransaction.sends, built, Bind.bind,
          Except.bind]
  | ok statement =>
      right
      cases same <;>
        simp [Channel.sends, PostgresDriver.sends, PgTransaction.sends, built, Bind.bind,
          Except.bind]

end

section

variable {host : Host} {strict : LogLevel} {pairs : TxPairs} {one other : Interpreter}

namespace Shadows

theorem thinned (follows : Shadows host strict pairs one other) :
    Thinned host strict one.log other.log pairs := by
  obtain ⟨activeTx, log, rfl, thinned, -⟩ := follows
  exact thinned

theorem sameTx (follows : Shadows host strict pairs one other) :
    SameTx pairs one.activeTx other.activeTx := by
  obtain ⟨activeTx, log, rfl, -, same⟩ := follows
  exact same

theorem position_eq (follows : Shadows host strict pairs one other) :
    other.position = one.position := by
  obtain ⟨activeTx, log, rfl, -, -⟩ := follows
  rfl

theorem insideTransaction_eq (follows : Shadows host strict pairs one other) :
    other.insideTransaction = one.insideTransaction := by
  obtain ⟨activeTx, log, rfl, -, -⟩ := follows
  rfl

theorem typeErrorAt_eq (follows : Shadows host strict pairs one other) (message : String) :
    Action.typeErrorAt other message = Action.typeErrorAt one message := by
  unfold Action.typeErrorAt
  rw [follows.position_eq]

/-- Both record an event. -/
theorem record (follows : Shadows host strict pairs one other) {event event' : Event}
    (recorded : Thinned host strict (event :: one.log) (event' :: other.log) pairs) :
    Shadows host strict pairs (one.record event) (other.record event') := by
  obtain ⟨activeTx, log, rfl, -, same⟩ := follows
  exact ⟨activeTx, event' :: log, rfl, recorded, same⟩

theorem plain (follows : Shadows host strict pairs one other) {event : Event}
    (plain : PlainEvent host event) :
    Shadows host strict pairs (one.record event) (other.record event) :=
  follows.record (.plain plain follows.thinned)

/-- Both change what lies outside their logs and transactions. -/
theorem change (follows : Shadows host strict pairs one other)
    (change : Interpreter → Interpreter)
    (kept : ∀ state activeTx log,
      change { state with activeTx, log } = { change state with activeTx, log }) :
    Shadows host strict pairs (change one) (change other) := by
  obtain ⟨activeTx, log, rfl, thinned, held⟩ := follows
  have parts : change one = { change one with activeTx := one.activeTx, log := one.log } :=
    kept one one.activeTx one.log
  have tx : (change one).activeTx = one.activeTx := by rw [parts]
  have logs : (change one).log = one.log := by rw [parts]
  refine ⟨activeTx, log, kept one activeTx log, ?_, ?_⟩
  · rwa [logs]
  · rwa [tx]

theorem enterBranch (follows : Shadows host strict pairs one other) :
    Shadows host strict pairs one.enterBranch other.enterBranch := by
  obtain ⟨activeTx, log, rfl, thinned, -⟩ := follows
  exact ⟨none, .copied :: log, rfl, .plain trivial thinned, .none⟩

theorem enterTransaction (follows : Shadows host strict pairs one other) :
    Shadows host strict ((one.log.length, other.log.length) :: pairs) one.enterTransaction
      other.enterTransaction := by
  obtain ⟨activeTx, log, rfl, thinned, -⟩ := follows
  exact ⟨some log.length, .begun log.length :: log, rfl, .begun thinned,
    .some (List.mem_cons_self ..)⟩

end Shadows

namespace EndsThinned

variable {α : Type} {outcome outcome' : Except Fault α × Interpreter}

theorem same (follows : Shadows host strict pairs one other) (result : Except Fault α) :
    EndsThinned host strict pairs (result, one) (result, other) :=
  ⟨rfl, pairs, List.Subset.refl pairs, follows⟩

theorem mono {earlier : TxPairs} (within : earlier ⊆ pairs)
    (ends : EndsThinned host strict pairs outcome outcome') :
    EndsThinned host strict earlier outcome outcome' := by
  obtain ⟨results, later, more, follows⟩ := ends
  exact ⟨results, later, List.Subset.trans within more, follows⟩

theorem attempt {body body' : Run Interpreter Fault α}
    (ends : EndsThinned host strict pairs (body one) (body' other)) :
    EndsThinned host strict pairs (Run.attempt body one) (Run.attempt body' other) := by
  unfold Run.attempt
  rcases ran : body one with ⟨result, after⟩
  rcases ran' : body' other with ⟨result', after'⟩
  rw [ran, ran'] at ends
  obtain ⟨results, later, within, follows⟩ := ends
  obtain rfl : result = result' := results
  rcases result with (error | cause | _) | value <;> exact ⟨rfl, later, within, follows⟩

theorem join {body body' : Run Interpreter Fault α}
    (ends : EndsThinned host strict pairs (body one) (body' other)) :
    EndsThinned host strict pairs (Action.joinThread body one) (Action.joinThread body' other) := by
  unfold Action.joinThread
  rcases ran : body one with ⟨result, after⟩
  rcases ran' : body' other with ⟨result', after'⟩
  rw [ran, ran'] at ends
  obtain ⟨results, later, within, follows⟩ := ends
  obtain rfl : result = result' := results
  rcases result with (error | cause | _) | value <;> exact ⟨rfl, later, within, follows⟩

theorem copy {body body' : Run Interpreter Fault α} (follows : Shadows host strict pairs one other)
    (ends : one.insideTransaction = false →
      EndsThinned host strict pairs (body one.enterBranch) (body' other.enterBranch)) :
    EndsThinned host strict pairs (Action.runCopy body one) (Action.runCopy body' other) := by
  unfold Action.runCopy
  rw [follows.insideTransaction_eq, follows.typeErrorAt_eq]
  cases inside : one.insideTransaction with
  | true => exact .same follows _
  | false =>
      obtain ⟨results, later, within, after⟩ := ends inside
      refine ⟨results, later, within, ?_⟩
      obtain ⟨activeTx, log, rfl, -, held⟩ := follows
      exact ⟨activeTx, _, rfl, after.thinned, held.mono within⟩

theorem finish {outcome outcome' : Except Fault Unit × Interpreter}
    (oblivious : Oblivious host strict) (ends : EndsThinned host strict pairs outcome outcome') :
    EndsThinned host strict pairs (Action.finishTransaction host outcome)
      (Action.finishTransaction (host.withLogLevel strict) outcome') := by
  obtain ⟨result, after⟩ := outcome
  obtain ⟨result', after'⟩ := outcome'
  obtain ⟨results, later, within, follows⟩ := ends
  obtain rfl : result = result' := results
  apply mono within
  obtain ⟨activeTx, log, rfl, thinned, held⟩ := follows
  generalize holds : after.activeTx = holder at held
  rcases result with (error | cause | _) | value
  · cases held with
    | none =>
        simp only [Action.finishTransaction, holds]
        exact .same ⟨none, log, rfl, thinned, by rw [holds]; exact .none⟩ _
    | some member =>
        simp only [Action.finishTransaction, holds]
        exact .same ⟨none, _, rfl, .rolledBack member thinned, .none⟩ _
  · exact .same ⟨activeTx, log, rfl, thinned, by rwa [holds]⟩ _
  · exact .same ⟨activeTx, log, rfl, thinned, by rwa [holds]⟩ _
  · cases held with
    | none =>
        simp only [Action.finishTransaction, holds]
        exact .same ⟨none, log, rfl, thinned, by rw [holds]; exact .none⟩ _
    | some member =>
        simp only [Action.finishTransaction, holds, Host.withLogLevel, oblivious.commit thinned]
        cases host.commit log <;>
          exact .same ⟨none, _, rfl, .committed member thinned, .none⟩ _

theorem transaction {body body' : Run Interpreter Fault Unit} (oblivious : Oblivious host strict)
    (follows : Shadows host strict pairs one other)
    (ends : one.insideTransaction = false → host.hasDb = true →
      (∃ reply, host.begin one.log = .ok reply) →
      EndsThinned host strict ((one.log.length, other.log.length) :: pairs)
        (body one.enterTransaction) (body' other.enterTransaction)) :
    EndsThinned host strict pairs (Action.runTransaction host body one)
      (Action.runTransaction (host.withLogLevel strict) body' other) := by
  unfold Action.runTransaction
  rw [follows.insideTransaction_eq, follows.typeErrorAt_eq, follows.typeErrorAt_eq]
  cases inside : one.insideTransaction with
  | true => exact .same follows _
  | false =>
      simp only [Host.withLogLevel, Bool.false_eq_true, if_false, ← oblivious.begin follows.thinned]
      cases configured : host.hasDb with
      | false => exact .same follows _
      | true =>
          cases begins : host.begin one.log with
          | error error =>
              simp only [follows.typeErrorAt_eq]
              exact .same (follows.plain (show PlainEvent host .beginFailed from trivial)) _
          | ok reply =>
              apply mono (List.subset_cons_self _ _)
              exact (ends inside configured ⟨reply, begins⟩).finish oblivious

end EndsThinned

end

/-! ## A log statement -/

/-- How a log statement ends with the reply to its line. -/
def lineOutcome (level : LogLevel) (reply : Except String Unit) (wrote : Interpreter) :
    Except Fault Unit × Interpreter :=
  match reply with
  | .ok _ => (.ok (), wrote)
  | .error message =>
      (.error (.error (.runtimeError ("log." ++ level.asStr ++ "() failed: " ++ message)
        wrote.line wrote.column)), wrote)

/-- What a log statement does when its level passes. -/
theorem run_emitLogValue {host : Host} {calls : Call → Run Interpreter Fault Value}
    {level : LogLevel} (passes : host.logLevel.rank ≤ level.rank) (value : Value)
    (state : Interpreter) :
    Action.run host calls (emitLogValue host level value) state =
      let asked := state.record (.asked .now)
      match host.library.valueToJsonStrict value with
      | .error message =>
          (.error (Action.typeErrorAt state ("log." ++ level.asStr ++ "() " ++ message)), asked)
      | .ok data =>
          let line :=
            host.library.logLine level (host.answer state.log .now) host.traceContext data
          lineOutcome level (host.answer asked.log (.writeLine line))
            (asked.record (.asked (.writeLine line))) := by
  unfold emitLogValue
  rw [if_neg (Nat.not_lt.mpr passes), Action.run_bind, Run.bind_run]
  simp only [Action.run]
  cases host.library.valueToJsonStrict value with
  | error message => rfl
  | ok data =>
      have wrote (line : String) (asked : Interpreter) :
          Action.run host calls (.ask (.writeLine line)) asked =
            (.ok (host.answer asked.log (.writeLine line)),
              asked.record (.asked (.writeLine line))) := rfl
      simp only
      rw [Action.run_bind, Run.bind_run, wrote]
      cases host.answer (state.record (.asked .now)).log _ <;> rfl

theorem run_emitLogValue_of_lt {host : Host} {calls : Call → Run Interpreter Fault Value}
    {level : LogLevel} (below : level.rank < host.logLevel.rank) (value : Value)
    (state : Interpreter) :
    Action.run host calls (emitLogValue host level value) state = (.ok (), state) := by
  unfold emitLogValue
  rw [if_pos below]
  rfl

section

variable {host : Host} {strict : LogLevel} {pairs : TxPairs} {one other : Interpreter}

theorem EndsThinned.line (follows : Shadows host strict pairs one other) (level : LogLevel)
    (reply : Except String Unit) :
    EndsThinned host strict pairs (lineOutcome level reply one)
      (lineOutcome level reply other) := by
  cases reply with
  | ok _ => exact .same follows _
  | error message =>
      obtain ⟨activeTx, log, rfl, rest⟩ := follows
      exact .same ⟨activeTx, log, rfl, rest⟩ _

theorem emit_thinned {calls calls' : Call → Run Interpreter Fault Value}
    (oblivious : Oblivious host strict) (stricter : host.logLevel.rank ≤ strict.rank)
    (follows : Shadows host strict pairs one other) {level : LogLevel} {value : Value}
    (clean : LogsCleanly host strict level value one) :
    EndsThinned host strict pairs (Action.run host calls (emitLogValue host level value) one)
      (Action.run (host.withLogLevel strict) calls'
        (emitLogValue (host.withLogLevel strict) level value) other) := by
  by_cases passes : host.logLevel.rank ≤ level.rank
  · rw [run_emitLogValue passes]
    by_cases kept : strict.rank ≤ level.rank
    · -- Both runs write the line, or fail in the same way.
      rw [@run_emitLogValue (host.withLogLevel strict) _ _ kept]
      have asked := follows.plain (show PlainEvent host (.asked .now) from trivial)
      simp only [Host.withLogLevel, follows.typeErrorAt_eq]
      rw [← oblivious.answer follows.thinned]
      cases host.library.valueToJsonStrict value with
      | error message => exact .same asked _
      | ok data =>
          simp only
          rw [← oblivious.answer asked.thinned]
          apply EndsThinned.line
          exact asked.record (.kept (host.answer one.log .now) data kept asked.thinned)
    · -- Only the laxer run writes the line.
      have below := Nat.lt_of_not_le kept
      rw [@run_emitLogValue_of_lt (host.withLogLevel strict) _ _ below]
      obtain ⟨data, serializable, written⟩ := clean passes below
      have reply : host.answer (one.record (.asked .now)).log (.writeLine (host.library.logLine
          level (host.answer one.log .now) host.traceContext data)) = .ok () := written
      simp only [serializable, reply, lineOutcome]
      obtain ⟨activeTx, log, rfl, thinned, held⟩ := follows
      have after : Shadows host strict pairs
          ((one.record (.asked .now)).record (logEvent host level (host.answer one.log .now) data))
          { one with activeTx, log } :=
        ⟨activeTx, log, rfl, .dropped _ data below thinned, held⟩
      exact .same after _
  · have silent := Nat.lt_of_not_le passes
    rw [run_emitLogValue_of_lt silent,
      @run_emitLogValue_of_lt (host.withLogLevel strict) _ _ (silent.trans_le stricter)]
    exact .same follows _

end

/-! ## Whole runs -/

section

variable {host : Host} {strict : LogLevel} {calls calls' : Call → Run Interpreter Fault Value}
  {inner : Call → Interpreter → Prop}

theorem CleanLogs.lift {α β : Type} {action : Action α} {whole : Action β}
    {state start : Interpreter}
    (clean : CleanLogs host strict calls inner whole start)
    (wrap : ∀ {γ : Type} {part : Action γ} {inside : Interpreter},
      action.Visits host calls state part inside → whole.Visits host calls start part inside) :
    CleanLogs host strict calls inner action state where
  logs visits := clean.logs (wrap visits)
  calls visits := clean.calls (wrap visits)

/-- What is left open is the same in both runs. -/
theorem run_thinned (oblivious : Oblivious host strict)
    (stricter : host.logLevel.rank ≤ strict.rank)
    (callsThinned : ∀ pairs target one other, Shadows host strict pairs one other →
      inner target one → EndsThinned host strict pairs (calls target one) (calls' target other))
    {α : Type} {action action' : Action α} (thins : Thins host strict action action')
    (pairs : TxPairs) (one other : Interpreter) (follows : Shadows host strict pairs one other)
    (clean : CleanLogs host strict calls inner action one) :
    EndsThinned host strict pairs (Action.run host calls action one)
      (Action.run (host.withLogLevel strict) calls' action' other) := by
  induction thins generalizing pairs one other with
  | pure value => exact .same follows _
  | raise error => exact .same follows _
  | abort cause => exact .same follows _
  | stop signal =>
      exact .same (follows.plain (show PlainEvent host (.stopped signal) from trivial)) _
  | reads blind =>
      obtain ⟨activeTx, log, rfl, rest⟩ := follows
      have read := blind one activeTx log
      exact ⟨congrArg Except.ok read.symm, pairs, List.Subset.refl pairs, activeTx, log, rfl, rest⟩
  | moveTo line column =>
      exact .same (follows.change (fun state => { state with line, column }) fun _ _ _ => rfl) _
  | assign name value =>
      exact .same (follows.change (fun state => { state with env := state.env.update name value })
        fun _ _ _ => rfl) _
  | define name value =>
      exact .same (follows.change (fun state => { state with env := state.env.set name value })
        fun _ _ _ => rfl) _
  | @ask request unlogged =>
      have asked := follows.plain (show PlainEvent host (.asked request) from unlogged)
      simp only [Action.run, Host.withLogLevel, ← oblivious.answer follows.thinned request]
      exact .same asked _
  | db op =>
      have same := follows.sameTx.channel
      have recorded := follows.record (.sent same op follows.thinned)
      simp only [Action.run, Action.runDb, Host.withLogLevel]
      obtain ⟨error, refused, refused'⟩ | ⟨sent, sent', passed, passed'⟩ := same.sends op
      · rw [refused, refused']
        exact .same follows _
      · rw [passed, passed']
        simp only [← oblivious.answerDb follows.thinned same op]
        cases host.answerDb one.log one.channel op with
        | ok reply => exact .same recorded _
        | error error => exact .same recorded _
  | @bind _ _ first first' next next' head tail headThinned tailThinned =>
      have ends := headThinned pairs one other follows (clean.lift fun visits => .first visits)
      simp only [Action.run, Run.bind_run]
      rcases ran : Action.run host calls first one with ⟨result, after⟩
      rcases ran' : Action.run (host.withLogLevel strict) calls' first' other with
        ⟨result', after'⟩
      rw [ran, ran'] at ends
      obtain ⟨results, later, within, followsAfter⟩ := ends
      obtain rfl : result = result' := results
      cases result with
      | error fault => exact ⟨rfl, later, within, followsAfter⟩
      | ok value =>
          apply EndsThinned.mono within
          exact tailThinned value later after after' followsAfter
            (clean.lift fun visits => .next ran visits)
  | attempt inside bodyThinned =>
      apply EndsThinned.attempt
      exact bodyThinned pairs one other follows (clean.lift fun visits => .attempt visits)
  | branch inside bodyThinned =>
      obtain ⟨results, later, within, after⟩ :=
        bodyThinned pairs one other follows (clean.lift fun visits => .branch visits)
      obtain ⟨activeTx, log, rfl, -⟩ := follows
      exact ⟨results, later, within,
        after.change (fun state => { state with env := one.env }) fun _ _ _ => rfl⟩
  | element bindings inside bodyThinned =>
      have entered := follows.change (fun state => state.enterScope bindings) fun _ _ _ => rfl
      obtain ⟨results, later, within, after⟩ :=
        bodyThinned pairs _ _ entered (clean.lift fun visits => .element visits)
      refine ⟨results, later, within, ?_⟩
      simp only [Action.run, ← results]
      split
      · exact after.change Interpreter.leaveScope fun _ _ _ => rfl
      · exact after.change Interpreter.abandonScope fun _ _ _ => rfl
  | rescue frames error inside bodyThinned =>
      have entered := follows.change (fun state => state.enterRescue frames error) fun _ _ _ => rfl
      obtain ⟨results, later, within, after⟩ :=
        bodyThinned pairs _ _ entered (clean.lift fun visits => .rescue visits)
      exact ⟨results, later, within, after.change Interpreter.leaveScope fun _ _ _ => rfl⟩
  | task entry inside bodyThinned =>
      have entered := follows.change (fun state => state.enterTask entry) fun _ _ _ => rfl
      obtain ⟨results, later, within, after⟩ :=
        bodyThinned pairs _ _ entered (clean.lift fun visits => .task visits)
      refine ⟨results, later, within, ?_⟩
      simp only [Action.run, ← results]
      obtain ⟨activeTx, log, rfl, -⟩ := follows
      exact after.change (fun state => state.leaveTask one _) fun _ _ _ => rfl
  | fork owner base entry inside bodyThinned =>
      have entered := follows.change
        (fun state => state.enterFork owner (base.getD state.env) entry) fun _ _ _ => rfl
      obtain ⟨results, later, within, after⟩ :=
        bodyThinned pairs _ _ entered (clean.lift fun visits => .fork visits)
      refine ⟨results, later, within, ?_⟩
      simp only [Action.run, ← results]
      obtain ⟨activeTx, log, rfl, -⟩ := follows
      obtain ⟨activeTx', log', same, thinned, held⟩ := after
      rw [same]
      exact ⟨activeTx', log', rfl, thinned, held⟩
  | isolated inside bodyThinned =>
      apply EndsThinned.copy follows
      intro outside
      exact bodyThinned pairs _ _ follows.enterBranch
        (clean.lift fun visits => .isolated outside visits)
  | spawned inside bodyThinned =>
      apply EndsThinned.join
      apply EndsThinned.copy follows
      intro outside
      exact bodyThinned pairs _ _ follows.enterBranch
        (clean.lift fun visits => .spawned outside visits)
  | transaction inside bodyThinned =>
      apply EndsThinned.transaction oblivious follows
      intro outside configured begins
      exact bodyThinned _ _ _ follows.enterTransaction
        (clean.lift fun visits => .transaction outside configured begins visits)
  | call target => exact callsThinned pairs target one other follows (clean.calls .here)
  | emit level value => exact emit_thinned oblivious stricter follows (clean.logs .here)

end

end Marreta
