import Marreta.Runtime.JsonText
import Marreta.Runtime.LogCalls
import Marreta.Server.Responses

namespace Marreta

open Foundation

/-! Requests at two log levels.

The same request is handled by two servers that differ in `MARRETA_LOG_LEVEL` only. -/

def ServerContext.withLogLevel (server : ServerContext) (logLevel : LogLevel) : ServerContext :=
  { server with host := server.host.withLogLevel logLevel }

section

variable (server : ServerContext) (runtime : ProjectRuntime) (strict : LogLevel)

/-- What comes of a request at both levels. -/
inductive SameEnd (pairs : TxPairs) :
    Except Refusal (Except Fault Unit × Interpreter) →
      Except Refusal (Except Fault Unit × Interpreter) → Prop
  | refused (refusal : Refusal) : SameEnd pairs (.error refusal) (.error refusal)
  | ran {ended ended' : Except Fault Unit × Interpreter}
      (ends : EndsThinned (server.hostFor runtime) strict pairs ended ended') :
      SameEnd pairs (.ok ended) (.ok ended')

/-- The conditions of a route write what only the laxer level writes. -/
def CleanAllow : List Expression → Interpreter → Prop
  | [], _ => True
  | allow :: rest, state =>
      CleanProgram (server.hostFor runtime) strict server.depth (Action.eval allow) state ∧
        ∀ value after,
          runAction (server.hostFor runtime) server.depth (Action.eval allow) state =
            (.ok value, after) → CleanAllow rest after

/-- So do the conditions and the body. -/
structure CleanRequest (route : RouteDefinition) (request : RouteRequest) : Prop where
  allow (auth : Value) : authenticateRoute server route request = .ok (some auth) →
    CleanAllow server runtime strict route.allow
      ((((Interpreter.new (runtime.envForModule route.moduleId) route.moduleId).enterRoute
        route).bindRequest request).envSet "auth" auth)
  body (start : Interpreter) : startRoute server runtime route request = .ok start →
    CleanProgram (server.hostFor runtime) strict server.depth (Action.block route.body) start

/-- The states in which two servers go on, or why both refuse. -/
inductive SameStart (pairs : TxPairs) :
    Except Refusal Interpreter → Except Refusal Interpreter → Prop
  | refused (refusal : Refusal) : SameStart pairs (.error refusal) (.error refusal)
  | starts {later : TxPairs} {one other : Interpreter} (within : pairs ⊆ later)
      (follows : Shadows (server.hostFor runtime) strict later one other) :
      SameStart pairs (.ok one) (.ok other)

end

section

variable {server : ServerContext} {runtime : ProjectRuntime} {strict : LogLevel}
  {pairs : TxPairs} {one other : Interpreter}

theorem SameStart.mono {later : TxPairs} (within : pairs ⊆ later)
    {starts starts' : Except Refusal Interpreter}
    (same : SameStart server runtime strict later starts starts') :
    SameStart server runtime strict pairs starts starts' := by
  cases same with
  | refused refusal => exact .refused refusal
  | starts more follows => exact .starts (List.Subset.trans within more) follows

theorem SameStart.bind {starts starts' : Except Refusal Interpreter}
    (same : SameStart server runtime strict pairs starts starts')
    {next next' : Interpreter → Except Refusal Interpreter}
    (each : ∀ later one other, Shadows (server.hostFor runtime) strict later one other →
      SameStart server runtime strict later (next one) (next' other)) :
    SameStart server runtime strict pairs (starts >>= next) (starts' >>= next') := by
  cases same with
  | refused refusal => exact .refused refusal
  | starts within follows => exact (each _ _ _ follows).mono within

theorem checkAllow_withLogLevel (allow : Expression) (rest : List Expression)
    (state : Interpreter) :
    checkAllow (server.withLogLevel strict) runtime (allow :: rest) state =
      match runAction ((server.hostFor runtime).withLogLevel strict) server.depth
        (Action.eval allow) state with
      | (.ok value, after) =>
          if value.isTruthy then checkAllow (server.withLogLevel strict) runtime rest after
          else .error .forbidden
      | (.error fault, _) => .error (.failed fault) := rfl

theorem sameStart_checkAllow (oblivious : Oblivious (server.hostFor runtime) strict)
    (stricter : server.host.logLevel.rank ≤ strict.rank) (allows : List Expression)
    (follows : Shadows (server.hostFor runtime) strict pairs one other)
    (clean : CleanAllow server runtime strict allows one) :
    SameStart server runtime strict pairs (checkAllow server runtime allows one)
      (checkAllow (server.withLogLevel strict) runtime allows other) := by
  induction allows generalizing pairs one other with
  | nil => exact .starts (List.Subset.refl pairs) follows
  | cons allow rest induction =>
      have ends := runAction_thinned oblivious stricter server.depth (.call (.expression allow))
        follows clean.1
      rw [checkAllow_withLogLevel, checkAllow]
      rcases ran : runAction (server.hostFor runtime) server.depth (Action.eval allow) one with
        ⟨result, after⟩
      rcases ran' : runAction ((server.hostFor runtime).withLogLevel strict) server.depth
        (Action.eval allow) other with ⟨result', after'⟩
      have cleanRest := clean.2
      rw [ran] at cleanRest
      change EndsThinned _ _ _ (runAction _ _ (Action.eval allow) _)
        (runAction _ _ (Action.eval allow) _) at ends
      rw [ran, ran'] at ends
      obtain ⟨results, later, within, followsAfter⟩ := ends
      obtain rfl : result = result' := results
      cases result with
      | error fault => exact .refused _
      | ok value =>
          simp only
          split
          · exact (induction followsAfter (cleanRest value after rfl)).mono within
          · exact .refused _

theorem sameStart_takes (moduleId : Option String) (request : RouteRequest)
    (takes : List TakeBinding) (follows : Shadows (server.hostFor runtime) strict pairs one other) :
    SameStart server runtime strict pairs
      (takes.foldlM (bindTake server runtime moduleId request) one)
      (takes.foldlM (bindTake (server.withLogLevel strict) runtime moduleId request) other) := by
  induction takes generalizing pairs one other with
  | nil => exact .starts (List.Subset.refl pairs) follows
  | cons take rest induction =>
      simp only [List.foldlM_cons]
      apply SameStart.bind
      · unfold bindTake
        have values : takeValue (server.withLogLevel strict) runtime moduleId request take =
            takeValue server runtime moduleId request take := rfl
        rw [values]
        cases takeValue server runtime moduleId request take with
        | error refusal => exact .refused refusal
        | ok value =>
            exact .starts (List.Subset.refl pairs)
              (follows.change (fun state => state.envSet take.name value) fun _ _ _ => rfl)
      · exact fun later one other follows => induction follows

theorem sameStart_startRoute (oblivious : Oblivious (server.hostFor runtime) strict)
    (stricter : server.host.logLevel.rank ≤ strict.rank) {route : RouteDefinition}
    {request : RouteRequest} (clean : CleanRequest server runtime strict route request) :
    SameStart server runtime strict [] (startRoute server runtime route request)
      (startRoute (server.withLogLevel strict) runtime route request) := by
  have auths : authenticateRoute (server.withLogLevel strict) route request =
      authenticateRoute server route request := rfl
  unfold startRoute
  rw [auths]
  cases authenticated : authenticateRoute server route request with
  | error refusal => exact .refused refusal
  | ok auth =>
      change SameStart server runtime strict [] (authorizeRoute server runtime route auth _ >>= _)
        (authorizeRoute (server.withLogLevel strict) runtime route auth _ >>= _)
      apply SameStart.bind
      · cases auth with
        | none => exact .starts (List.Subset.refl []) (.refl _)
        | some auth =>
            exact sameStart_checkAllow oblivious stricter route.allow (.refl _)
              (clean.allow auth authenticated)
      · exact fun later one other follows => sameStart_takes _ _ _ follows

theorem sameEnd_executeRoute (oblivious : Oblivious (server.hostFor runtime) strict)
    (stricter : server.host.logLevel.rank ≤ strict.rank) {route : RouteDefinition}
    {request : RouteRequest} (clean : CleanRequest server runtime strict route request) :
    SameEnd server runtime strict [] (executeRoute server runtime route request)
      (executeRoute (server.withLogLevel strict) runtime route request) := by
  have starts := sameStart_startRoute oblivious stricter clean
  unfold executeRoute
  cases started : startRoute server runtime route request with
  | error refusal =>
      rw [started] at starts
      generalize startRoute (server.withLogLevel strict) runtime route request = started' at starts
      cases starts
      exact .refused refusal
  | ok start =>
      have body := clean.body start started
      rw [started] at starts
      generalize startRoute (server.withLogLevel strict) runtime route request = started' at starts
      cases starts with
      | starts within follows =>
          have thins : Thins (server.hostFor runtime) strict (Action.block route.body)
              (Action.block route.body) := thins_of_built (Action.built_block fun _ _ => trivial)
          have ends := runAction_thinned oblivious stricter server.depth thins follows body
          exact .ran (ends.mono within)

/-- When the values that only the laxer level writes can be written, programs and requests end
alike at both levels, and the log differs in the lines between them. -/
theorem logLevel_observational (oblivious : Oblivious (server.hostFor runtime) strict)
    (stricter : server.host.logLevel.rank ≤ strict.rank) :
    (∀ (depth : Nat) (program : Program) (state : Interpreter),
      CleanProgram (server.hostFor runtime) strict depth (execute program) state →
        EndsThinned (server.hostFor runtime) strict
          (state.activeTx.toList.map fun id => (id, id))
          (runAction (server.hostFor runtime) depth (execute program) state)
          (runAction ((server.hostFor runtime).withLogLevel strict) depth (execute program)
            state)) ∧
      ∀ (route : RouteDefinition) (request : RouteRequest),
        CleanRequest server runtime strict route request →
          SameEnd server runtime strict [] (executeRoute server runtime route request)
            (executeRoute (server.withLogLevel strict) runtime route request) := by
  constructor
  · intro depth program state clean
    have thins : Thins (server.hostFor runtime) strict (execute program) (execute program) :=
      thins_of_built (built_execute fun _ _ => trivial)
    exact runAction_thinned oblivious stricter depth thins (.refl state) clean
  · exact fun route request clean => sameEnd_executeRoute oblivious stricter clean

end

/-! ## A server that logs everything -/

def debugServer (library : Library) : ServerContext :=
  { replyServer with host := { emptyHost with library, logLevel := .debug } }

/-- `log.debug(value)`. -/
def debugLine (value : Expression) : Statement :=
  .expressionStatement (.methodCall (.identifier "log") "debug" [.positional value]) 2 5

theorem oblivious_debugServer (library : Library) (strict : LogLevel) :
    Oblivious ((debugServer library).hostFor noModules) strict where
  answer _ _ := rfl
  answerDb _ _ _ _ _ := rfl
  begin _ := rfl
  commit _ := rfl

/-- `log.debug(1)`, as a program and in a route. -/
theorem logLevel_observational_integer :
    EndsThinned ((debugServer scalarLibrary).hostFor noModules) .error []
        (runAction ((debugServer scalarLibrary).hostFor noModules) 4
          (execute [debugLine (.integer 1)]) (.new .new none))
        (runAction (((debugServer scalarLibrary).hostFor noModules).withLogLevel .error) 4
          (execute [debugLine (.integer 1)]) (.new .new none)) ∧
      SameEnd (debugServer scalarLibrary) noModules .error []
        (executeRoute (debugServer scalarLibrary) noModules (replyRoute (debugLine (.integer 1)))
          emptyRequest)
        (executeRoute ((debugServer scalarLibrary).withLogLevel .error) noModules
          (replyRoute (debugLine (.integer 1))) emptyRequest) := by
  have holds := @logLevel_observational (debugServer scalarLibrary) noModules .error
    (oblivious_debugServer scalarLibrary .error) (by decide)
  have writes (level : LogLevel) (value : Value) (state : Interpreter) :
      LogsCleanly ((debugServer scalarLibrary).hostFor noModules) .error level value state :=
    fun _ _ => ⟨_, rfl, rfl⟩
  constructor
  · exact holds.1 4 _ _ (cleanProgram_of_writes writes _ _ _)
  · apply holds.2
    constructor
    · exact fun auth authenticated => nomatch authenticated
    · exact fun start _ => cleanProgram_of_writes writes _ _ _

/-- The values of log statements as JSON. -/
def jsonLibrary : Library :=
  { scalarLibrary with
    valueToJsonStrict := fun value => do
      let json ← valueToJsonStrict noTexts value
      return json.toText noTexts }

def routeReturned : Except Refusal (Except Fault Unit × Interpreter) → Bool
  | .ok (.ok _, _) => true
  | _ => false

theorem SameEnd.routeReturned_eq {server : ServerContext} {runtime : ProjectRuntime}
    {strict : LogLevel} {pairs : TxPairs}
    {ended ended' : Except Refusal (Except Fault Unit × Interpreter)}
    (same : SameEnd server runtime strict pairs ended ended') :
    routeReturned ended = routeReturned ended' := by
  cases same with
  | refused refusal => rfl
  | @ran ended ended' ends =>
      obtain ⟨result, after⟩ := ended
      obtain ⟨result', after'⟩ := ended'
      obtain rfl : result = result' := ends.1
      cases result <;> rfl

/-- `log.debug(db)` fails at one level and passes at the other. -/
theorem logLevel_not_observational :
    ¬ ∀ (server : ServerContext) (runtime : ProjectRuntime) (strict : LogLevel)
        (route : RouteDefinition) (request : RouteRequest),
      Oblivious (server.hostFor runtime) strict → server.host.logLevel.rank ≤ strict.rank →
        SameEnd server runtime strict [] (executeRoute server runtime route request)
          (executeRoute (server.withLogLevel strict) runtime route request) := by
  intro observational
  have same := observational (debugServer jsonLibrary) noModules .error
    (replyRoute (debugLine (.identifier "db"))) emptyRequest
    (oblivious_debugServer jsonLibrary .error) (by decide)
  have fails : routeReturned (executeRoute (debugServer jsonLibrary) noModules
      (replyRoute (debugLine (.identifier "db"))) emptyRequest) = false := by
    decide +kernel
  have passes : routeReturned (executeRoute ((debugServer jsonLibrary).withLogLevel .error)
      noModules (replyRoute (debugLine (.identifier "db"))) emptyRequest) = true := by
    decide +kernel
  rw [same.routeReturned_eq, passes] at fails
  cases fails

end Marreta
