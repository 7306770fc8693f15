import Marreta.Lint.UnusedDeclarations
import Marreta.OpenApi.Outcomes
import Marreta.Server.Responses

namespace Marreta

open Foundation

/-! The statuses that a route answers with, and those that its operation lists.

A response comes from a check of the route, or from a construct that is written in the body.
The checks are read off the declaration of the route; the constructs are those that the
collection of outcomes gets to. -/

namespace Action

/-- What the run of an action gets to: a call, a response, or an error. -/
inductive Point where
  | call (target : Call) (state : Interpreter)
  | stop (signal : StopSignal)
  | raise (error : MarretaError)

/-- The run of the action from a state gets to the point, also inside of tasks. -/
def GetsTo (host : Host) (calls : Call → Run Interpreter Fault Value) :
    {α : Type} → Action α → Interpreter → Point → Prop
  | _, .bind first next, state, point =>
      GetsTo host calls first state point ∨
        ∃ value after, run host calls first state = (.ok value, after) ∧
          GetsTo host calls (next value) after point
  | _, .attempt body, state, point | _, .branch body, state, point =>
      GetsTo host calls body state point
  | _, .element bindings body, state, point =>
      GetsTo host calls body (state.enterScope bindings) point
  | _, .rescue frames error body, state, point =>
      GetsTo host calls body (state.enterRescue frames error) point
  | _, .task entry body, state, point => GetsTo host calls body (state.enterTask entry) point
  | _, .fork owner base entry body, state, point =>
      GetsTo host calls body (state.enterFork owner (base.getD state.env) entry) point
  | _, .isolated body, state, point | _, .spawned body, state, point =>
      state.insideTransaction = false ∧ GetsTo host calls body state.enterBranch point
  | _, .transaction body, state, point =>
      state.insideTransaction = false ∧ host.hasDb = true ∧
        (∃ opened, host.begin state.log = .ok opened) ∧
        GetsTo host calls body state.enterTransaction point
  | _, .call target, state, point => point = .call target state
  | _, .stop signal, _, point => point = .stop signal
  | _, .raise error, _, point => point = .raise error
  | _, _, _, _ => False

section GetsTo

variable {host : Host} {calls : Call → Run Interpreter Fault Value} {state : Interpreter}

/-- A response is not given by the parts that are evaluated. -/
theorem not_stop_of_eval {value : Expression} {signal : StopSignal} :
    ¬ GetsTo host calls (eval value) state (.stop signal) := nofun

theorem not_stop_of_evaluateArgs {arguments : List Argument} {signal : StopSignal} :
    ¬ GetsTo host calls (evaluateArgs arguments) state (.stop signal) := by
  have loop : ∀ (values : List Value) (state : Interpreter), ¬ GetsTo host calls
      (List.mapM.loop (fun argument : Argument => eval argument.value) arguments values) state
      (.stop signal) := by
    induction arguments with
    | nil => exact fun _ _ => nofun
    | cons argument rest induction =>
        intro values state gets
        rcases gets with evaluates | ⟨value, after, -, gets⟩
        · exact not_stop_of_eval evaluates
        · exact induction _ _ gets
  exact loop [] state

end GetsTo
end Action

def StopSignal.code : StopSignal → UInt16
  | .require statusCode _ | .reject statusCode _ => statusCode.toUInt64.toUInt16
  | .fail statusCode _ | .failExpression statusCode _ | .reply statusCode .. => statusCode

namespace OpenApi

/-! ## Constructs -/

/-- The status that is written in a construct. -/
def literalCode : Call → Option Int64
  | .statement (.reply (.integer code) _ _ _ _ _ _) | .statement (.fail code _ _ _)
  | .statement (.require _ code _ _ _) | .statement (.reject _ code _ _ _) => some code
  | .expression (.functionCall name (.positional (.integer code) :: _)) =>
      if name = "__fail__" then some code else none
  | _ => none

/-- A `fail` that is a stage of a pipeline, or a target of a broadcast. -/
inductive FailStage : Call → Prop
  | stage {input : Expression} {stages : List PipelineStage} {code : Int64}
      {rest : List Argument}
      (member : .expression (.functionCall "__fail__" (.positional (.integer code) :: rest)) ∈
        stages) :
      FailStage (.expression (.pipeline input stages))
  | target {input : Expression} {targets : List Expression} {code : Int64}
      {rest : List Argument}
      (member : .functionCall "__fail__" (.positional (.integer code) :: rest) ∈ targets) :
      FailStage (.expression (.broadcast input targets))

/-- The call is a construct, and its run ends with the response of the construct. -/
inductive Fires (host : Host) (depth : Nat) : Call → Interpreter → MarretaError → Prop
  | signal {call : Call} {state : Interpreter} {signal : StopSignal}
      (literal : (literalCode call).isSome = true ∨ FailStage call)
      (gets : (actionOf host call).GetsTo host (perform host depth) state (.stop signal)) :
      Fires host depth call state signal.error
  | raise {message : Expression} {condition : Option Expression} {line column : Nat}
      {state : Interpreter} {error : MarretaError}
      (gets : (actionOf host (.statement (.raise message condition line column))).GetsTo host
        (perform host depth) state (.raise error)) :
      Fires host depth (.statement (.raise message condition line column)) state error

section Fires

variable {host : Host} {depth : Nat} {call : Call} {state : Interpreter} {signal : StopSignal}

theorem getsTo_statement {statement : Statement} {point : Action.Point}
    (gets : (actionOf host (.statement statement)).GetsTo host (perform host depth) state point) :
    ∃ after, (executeKind host statement).GetsTo host (perform host depth) after point := by
  unfold actionOf executeStatement at gets
  dsimp only at gets
  split at gets
  · rcases gets with moves | ⟨_, after, -, gets⟩
    · cases moves
    · exact ⟨after, gets⟩
  · exact ⟨state, gets⟩

theorem code_of_reply {statusCode : Int64} {body : Expression} {contentType : ReplyContentType}
    {responseSchema : Option String} {extraHeaders : Option Expression}
    (gets : (executeReply host (.integer statusCode) contentType body responseSchema
      extraHeaders).GetsTo host (perform host depth) state (.stop signal)) :
    signal.code = statusCode.toUInt64.toUInt16 := by
  rcases gets with evaluates | ⟨value, atBody, numbered, gets⟩
  · cases evaluates
  · cases depth with
    | zero => cases numbered
    | succ depth =>
        cases numbered
        rcases gets with evaluates | ⟨value, atSchema, -, gets⟩
        · cases evaluates
        rcases gets with reads | ⟨currentModule, atHeaders, -, gets⟩
        · cases reads
        rcases gets with collects | ⟨headers, after, -, gets⟩
        · cases extraHeaders with
          | none => cases collects
          | some expression =>
              rcases collects with evaluates | ⟨value, after, -, collects⟩
              · cases evaluates
              · cases value <;> cases collects
        · cases gets
          rfl

theorem head_of_evaluateArgs {code : Int64} {rest : List Argument} {values : List Value}
    {after : Interpreter}
    (evaluated : (evaluateArgs (.positional (.integer code) :: rest)).run host (perform host depth)
      state = (.ok values, after)) : values.head? = some (.integer code) := by
  simp only [evaluateArgs, Action.run_mapM, List.mapM_cons, Run.bind_run, Argument.value]
    at evaluated
  cases depth with
  | zero => cases evaluated
  | succ depth =>
      have numbered : Action.run host (perform host (depth + 1)) (Action.eval (.integer code))
        state = (.ok (.integer code), state) := rfl
      rw [numbered] at evaluated
      dsimp only at evaluated
      split at evaluated
      · cases evaluated
        rfl
      · cases evaluated

theorem code_of_failExpression {code : Int64} {rest : List Argument}
    (gets : (actionOf host (.expression (.functionCall "__fail__"
      (.positional (.integer code) :: rest)))).GetsTo host (perform host depth) state
        (.stop signal)) :
    signal.code = code.toUInt64.toUInt16 := by
  rcases gets with evaluates | ⟨values, after, evaluated, gets⟩
  · exact absurd evaluates Action.not_stop_of_evaluateArgs
  · have first := head_of_evaluateArgs evaluated
    have stops : callFunction host "__fail__" values = failExpression host values := rfl
    dsimp only at gets
    rw [stops, failExpression, first] at gets
    cases gets
    rfl

/-- A construct answers with the low bits of the status that is written in it. -/
theorem code_of_getsTo {code : Int64} (literal : literalCode call = some code)
    (gets : (actionOf host call).GetsTo host (perform host depth) state (.stop signal)) :
    signal.code = code.toUInt64.toUInt16 := by
  unfold literalCode at literal
  split at literal
  · cases literal
    obtain ⟨after, gets⟩ := getsTo_statement gets
    exact code_of_reply gets
  · cases literal
    obtain ⟨after, gets⟩ := getsTo_statement gets
    rcases gets with evaluates | ⟨value, after, -, gets⟩
    · cases evaluates
    · cases gets
      rfl
  · cases literal
    obtain ⟨after, gets⟩ := getsTo_statement gets
    rcases gets with evaluates | ⟨value, after, -, gets⟩
    · cases evaluates
    · dsimp only at gets
      split at gets
      · cases gets
      · cases gets
        rfl
  · cases literal
    obtain ⟨after, gets⟩ := getsTo_statement gets
    rcases gets with evaluates | ⟨value, after, -, gets⟩
    · cases evaluates
    · dsimp only at gets
      split at gets
      · cases gets
        rfl
      · cases gets
  · split at literal
    · rename_i same
      cases literal
      rw [same] at gets
      exact code_of_failExpression gets
    · cases literal
  · cases literal

theorem error_of_raise {message : Expression} {condition : Option Expression} {line column : Nat}
    {error : MarretaError}
    (gets : (actionOf host (.statement (.raise message condition line column))).GetsTo host
      (perform host depth) state (.raise error)) :
    ∃ text, error = .raiseError text := by
  obtain ⟨after, gets⟩ := getsTo_statement gets
  rcases gets with tests | ⟨holds, ready, -, gets⟩
  · cases condition with
    | none => cases tests
    | some condition =>
        rcases tests with evaluates | ⟨value, after, -, tests⟩
        · cases evaluates
        · cases tests
  · dsimp only at gets
    split at gets
    · rcases gets with evaluates | ⟨value, after, -, gets⟩
      · cases evaluates
      · cases gets
        exact ⟨_, rfl⟩
    · cases gets

end Fires

/-! ## Answers -/

/-- A run of the body that fails, as does every call on the way to the one that is reached.
All these calls are written in the body. -/
inductive FailsAt (host : Host) (body : List Statement) (depth : Nat) (start : Interpreter)
    (fault : Fault) : CallRun → Prop
  | body {made : Call} {reached after : Interpreter}
      (gets : (Action.block body).GetsTo host (perform host depth) start (.call made reached))
      (written : Lint.InCode body made)
      (fails : perform host depth made reached = (.error fault, after)) :
      FailsAt host body depth start fault ⟨depth, made, reached⟩
  | part {inner : Nat} {call made : Call} {state reached after : Interpreter}
      (run : FailsAt host body depth start fault ⟨inner + 1, call, state⟩)
      (gets : (actionOf host call).GetsTo host (perform host inner) state (.call made reached))
      (written : Lint.InCode body made)
      (fails : perform host inner made reached = (.error fault, after)) :
      FailsAt host body depth start fault ⟨inner, made, reached⟩

/-- What a response is due to. -/
inductive Cause where
  | auth
  | allow
  | schema
  | construct (call : Call) (error : MarretaError)

/-- The status that goes with a refused input. -/
def unprocessable : StatusCode := ⟨422, by decide⟩

section Answers

variable (server : ServerContext) (kit : HeaderKit) (runtime : ProjectRuntime)
  (route : RouteDefinition)

/-- A request is answered for a cause. -/
inductive Answers (request : RouteRequest) : Cause → Response → Prop
  | auth (refused : executeRoute server runtime route request = .error .unauthorized) :
      Answers request .auth (unauthorizedResponse server.host.library)
  | allow (refused : executeRoute server runtime route request = .error .forbidden) :
      Answers request .allow (forbiddenResponse server.host.library)
  | schema {error : MarretaError}
      (refused : executeRoute server runtime route request = .error (.invalid (.error error)))
      (status : (errorToResponse server.host.library kit error).status = unprocessable) :
      Answers request .schema (errorToResponse server.host.library kit error)
  | construct {start final : Interpreter} {depth : Nat} {call : Call} {state : Interpreter}
      {error : MarretaError} (started : startRoute server runtime route request = .ok start)
      (ends : executeRoute server runtime route request = .ok (.error (.error error), final))
      (fails : FailsAt (server.hostFor runtime) route.body server.depth start (.error error)
        ⟨depth + 1, call, state⟩)
      (fires : Fires (server.hostFor runtime) depth call state error) :
      Answers request (.construct call error) (errorToResponse server.host.library kit error)

/-- The response builder is used for the error, and refuses its headers. -/
def BuilderRefuses : MarretaError → Prop
  | .httpResponse statusCode _ contentType extraHeaders _ =>
      ¬ (StatusCode.ofCode statusCode).HasNoBody ∧
        kit.build (("Content-Type", contentType) :: extraHeaders) = none
  | _ => False

/-- The causes that the operation may know nothing about: a construct where the collection
does not get to, a `fail` that takes its status from the input of a stage, an error under a
number that is no status, headers that are refused, and a schema of an input that is not the
first of its kind. -/
inductive Escapes : Cause → Prop
  | schema (later : ∀ kind ∈ [TakeKind.payload, .query, .headers],
      bindingSchema route.take kind = none) : Escapes .schema
  | place {call : Call} {error : MarretaError} (missed : ¬ Collected route.body call) :
      Escapes (.construct call error)
  | stage {call : Call} {error : MarretaError} (stage : FailStage call) :
      Escapes (.construct call error)
  | number {call : Call} {error : MarretaError} {code : UInt16}
      (own : .errorCode code ∈ ownOutcomes call) (none : StatusCode.fromU16 code = none) :
      Escapes (.construct call error)
  | headers {call : Call} {error : MarretaError} (refuses : BuilderRefuses kit error) :
      Escapes (.construct call error)

end Answers

/-! ## Refusals -/

section Refusals

variable {server : ServerContext} {runtime : ProjectRuntime} {route : RouteDefinition}
  {request : RouteRequest}

/-- A take refuses only an input that does not fit. -/
theorem invalid_of_takeValue {moduleId : Option String} {binding : TakeBinding} {refusal : Refusal}
    (refuses : takeValue server runtime moduleId request binding = .error refusal) :
    ∃ fault, refusal = .invalid fault := by
  have mapped {ε α : Type} {wrap : ε → Refusal} {result : Except ε α}
      (fails : Except.mapError wrap result = .error refusal) : ∃ fault, refusal = wrap fault := by
    cases result with
    | ok value => cases fails
    | error fault => exact ⟨fault, (Except.error.inj fails).symm⟩
  unfold takeValue at refuses
  dsimp only at refuses
  split at refuses
  · exact mapped refuses
  · cases refuses
  · exact mapped refuses
  · cases refuses
  · exact mapped refuses
  · cases refuses
  · cases refuses
  · cases refuses

theorem invalid_of_takes {moduleId : Option String} {takes : List TakeBinding} {refusal : Refusal}
    {state : Interpreter}
    (refuses : takes.foldlM (bindTake server runtime moduleId request) state = .error refusal) :
    ∃ fault, refusal = .invalid fault := by
  induction takes generalizing state with
  | nil => cases refuses
  | cons binding rest induction =>
      rw [List.foldlM_cons] at refuses
      cases taken : takeValue server runtime moduleId request binding with
      | error other =>
          rw [bindTake, taken] at refuses
          cases refuses
          exact invalid_of_takeValue taken
      | ok value =>
          rw [bindTake, taken] at refuses
          exact induction refuses

theorem refused_of_executeRoute {refusal : Refusal}
    (refused : executeRoute server runtime route request = .error refusal) :
    startRoute server runtime route request = .error refusal := by
  unfold executeRoute at refused
  cases started : startRoute server runtime route request with
  | error other =>
      rw [started] at refused
      cases refused
      rfl
  | ok start =>
      rw [started] at refused
      cases refused

/-- Only a route that requires auth answers that there is none. -/
theorem requires_of_unauthorized
    (refused : executeRoute server runtime route request = .error .unauthorized) :
    route.auth.isSome = true := by
  have started := refused_of_executeRoute refused
  cases required : route.auth with
  | some auth => rfl
  | none =>
      have authentic : authenticateRoute server route request = .ok none := by
        unfold authenticateRoute
        rw [required]
      unfold startRoute at started
      rw [authentic] at started
      obtain ⟨fault, same⟩ := invalid_of_takes started
      cases same

/-- Only an `allow` forbids. -/
theorem restricts_of_forbidden
    (refused : executeRoute server runtime route request = .error .forbidden) :
    route.allow ≠ [] := by
  intro unrestricted
  have started := refused_of_executeRoute refused
  have allowed (auth : Option Value) (state : Interpreter) :
      ∃ after, authorizeRoute server runtime route auth state = .ok after := by
    cases auth with
    | none => exact ⟨state, rfl⟩
    | some auth =>
        rw [authorizeRoute, unrestricted]
        exact ⟨_, rfl⟩
  unfold startRoute at started
  cases authentic : authenticateRoute server route request with
  | error refusal =>
      rw [authentic] at started
      cases started
      unfold authenticateRoute at authentic
      split at authentic <;> cases authentic
  | ok auth =>
      rw [authentic] at started
      obtain ⟨after, passes⟩ := allowed auth
        (((Interpreter.new (runtime.envForModule route.moduleId) route.moduleId).enterRoute
          route).bindRequest request)
      have rest : (authorizeRoute server runtime route auth
          (((Interpreter.new (runtime.envForModule route.moduleId) route.moduleId).enterRoute
            route).bindRequest request) >>= fun state =>
          route.take.foldlM (bindTake server runtime route.moduleId request) state) =
        .error .forbidden := started
      rw [passes] at rest
      obtain ⟨fault, same⟩ := invalid_of_takes rest
      cases same

end Refusals

/-! ## Documented statuses -/

theorem code_ofStatus {code : UInt16} (known : StatusCode.fromU16 code ≠ none) :
    (StatusCode.ofCode code).code = code := by
  unfold StatusCode.ofCode StatusCode.fromU16
  unfold StatusCode.fromU16 at known
  split
  · rfl
  · rename_i outside
    rw [dif_neg outside] at known
    exact absurd rfl known

theorem statusForError_signal (signal : StopSignal) :
    statusForError signal.error = .ofCode signal.code := by
  cases signal <;> rfl

/-- A builder that does not refuse the headers answers with the status of the error. -/
theorem status_of_accepted {library : Library} {kit : HeaderKit} {error : MarretaError}
    (accepts : ¬ BuilderRefuses kit error) :
    (errorToResponse library kit error).status = statusForError error := by
  cases error with
  | httpResponse statusCode body contentType extraHeaders isError =>
      simp only [errorToResponse, statusForError]
      split
      · rfl
      · rename_i full
        split
        · rfl
        · rename_i refused
          exact absurd ⟨full, refused⟩ accepts
  | _ => rfl

theorem toUInt16_of_range {code : Int64} (low : 100 ≤ code) (high : code ≤ 599) :
    StatusCode.fromU16 code.toUInt64.toUInt16 ≠ none := by
  rw [Int64.le_iff_toInt_le] at low high
  have least : (100 : Int64).toInt = 100 := rfl
  have greatest : (599 : Int64).toInt = 599 := rfl
  have number : code.toInt = code.toBitVec.toInt := rfl
  rw [least, number, BitVec.toInt_eq_toNat_cond] at low
  rw [greatest, number, BitVec.toInt_eq_toNat_cond] at high
  have size := code.toBitVec.isLt
  have bits : code.toUInt64.toUInt16.toNat = code.toBitVec.toNat % 2 ^ 16 := rfl
  have inside : 100 ≤ code.toUInt64.toUInt16 ∧ code.toUInt64.toUInt16 ≤ 999 := by
    rw [UInt16.le_iff_toNat_le, UInt16.le_iff_toNat_le, bits]
    change 100 ≤ _ ∧ _ ≤ 999
    split at low <;> omega
  rw [StatusCode.fromU16, dif_pos inside]
  exact Option.some_ne_none _

/-- The status of a construct with a literal status is that of its own outcome, or every
status is documented. -/
theorem key_of_literal {call : Call} {code : Int64} (literal : literalCode call = some code) :
    (∃ outcome ∈ ownOutcomes call, outcome.key = .default) ∨
      (∃ outcome ∈ ownOutcomes call, outcome.key = .code code.toUInt64.toUInt16) ∧
        (.errorCode code.toUInt64.toUInt16 ∈ ownOutcomes call ∨
          StatusCode.fromU16 code.toUInt64.toUInt16 ≠ none) := by
  unfold literalCode at literal
  split at literal
  · rename_i statusCode contentType body responseSchema extraHeaders line column
    cases literal
    by_cases inside : 100 ≤ code ∧ code ≤ 599
    · right
      have own : ownOutcomes (.statement (.reply (.integer code) contentType body responseSchema
          extraHeaders line column)) =
        [.response { code := some code.toUInt64.toUInt16, schemaName := responseSchema
                     contentType, body }] := by
        simp [ownOutcomes, collectStatementOutcomes, literalStatusCode, inside]
      rw [own]
      exact ⟨⟨_, List.mem_singleton_self _, rfl⟩, .inr (toUInt16_of_range inside.1 inside.2)⟩
    · left
      refine ⟨_, List.mem_singleton_self _, ?_⟩
      simp [Outcome.key, literalStatusCode, inside, responseKey]
  · cases literal
    exact .inr ⟨⟨_, List.mem_singleton_self _, rfl⟩, .inl (List.mem_singleton_self _)⟩
  · cases literal
    exact .inr ⟨⟨_, List.mem_singleton_self _, rfl⟩, .inl (List.mem_singleton_self _)⟩
  · cases literal
    exact .inr ⟨⟨_, List.mem_singleton_self _, rfl⟩, .inl (List.mem_singleton_self _)⟩
  · rename_i name statusCode rest
    split at literal
    · rename_i same
      cases literal
      have own : ownOutcomes (.expression (.functionCall name
          (.positional (.integer code) :: rest))) = [.errorCode code.toUInt64.toUInt16] := by
        simp [ownOutcomes, failedStatus, same]
      rw [own]
      exact .inr ⟨⟨_, List.mem_singleton_self _, rfl⟩, .inl (List.mem_singleton_self _)⟩
    · cases literal
  · cases literal

section Answered

variable {server : ServerContext} {kit : HeaderKit} {runtime : ProjectRuntime}
  {route : RouteDefinition} {request : RouteRequest}

/-- The status is named in the route, or every status is. -/
def NamesStatus (route : RouteDefinition) (status : UInt16) : Prop :=
  Named route (.code status) ∨ Named route .default

theorem documents_iff {status : UInt16} : Documents route status ↔ NamesStatus route status :=
  or_congr lookup_buildResponses lookup_buildResponses

/-- The collected construct names the status that it answers with. -/
theorem names_of_literal {call : Call} {signal : StopSignal} {library : Library}
    (collected : Collected route.body call) {code : Int64} (literal : literalCode call = some code)
    (same : signal.code = code.toUInt64.toUInt16)
    (numbers : ∀ code, .errorCode code ∈ ownOutcomes call → StatusCode.fromU16 code ≠ none)
    (accepts : ¬ BuilderRefuses kit signal.error) :
    NamesStatus route (errorToResponse library kit signal.error).status.code := by
  rw [status_of_accepted accepts, statusForError_signal, same]
  rcases key_of_literal literal with ⟨outcome, own, key⟩ | ⟨⟨outcome, own, key⟩, numbered⟩
  · right
    rw [← key]
    exact .collected collected own
  · left
    have known : StatusCode.fromU16 code.toUInt64.toUInt16 ≠ none := by
      rcases numbered with error | known
      · exact numbers _ error
      · exact known
    rw [code_ofStatus known, ← key]
    exact .collected collected own

/-- The inputs are checked if the first of some kind has a schema. -/
theorem checksInput_of_bound {kind : TakeKind}
    (member : kind ∈ [TakeKind.payload, .query, .headers])
    (bound : bindingSchema route.take kind ≠ none) : checksInput route = true := by
  have some := Option.isSome_iff_ne_none.mpr bound
  simp only [List.mem_cons, List.not_mem_nil, or_false] at member
  rw [checksInput]
  rcases member with rfl | rfl | rfl
  · have present : (route.take.any (·.kind = .payload)) = true := by
      obtain ⟨schema, bound⟩ := Option.isSome_iff_exists.mp some
      obtain ⟨binding, found, -⟩ := Option.bind_eq_some_iff.mp bound
      have named := List.find?_some found
      exact List.any_eq_true.mpr ⟨binding, List.mem_of_find?_eq_some found, named⟩
    rw [present, some]
    rfl
  · rw [some, Bool.or_true]
    rfl
  · rw [some, Bool.or_true]

/-- A response for a cause that does not escape has a status that the route names. -/
theorem names_of_not_escapes {cause : Cause} {response : Response}
    (answers : Answers server kit runtime route request cause response)
    (caught : ¬ Escapes kit route cause) : NamesStatus route response.status.code := by
  cases answers with
  | auth refused => exact .inl (.auth (requires_of_unauthorized refused))
  | allow refused => exact .inl (.allow (restricts_of_forbidden refused))
  | schema refused status =>
      have checked : checksInput route = true := by
        by_contra unchecked
        apply caught
        apply Escapes.schema
        intro kind member
        by_contra bound
        exact unchecked (checksInput_of_bound member bound)
      left
      rw [status]
      exact .input checked
  | @construct start final depth call state error started ends fails fires =>
      have collected : Collected route.body call := by
        by_contra missed
        exact caught (.place missed)
      have accepts : ¬ BuilderRefuses kit error := fun refuses => caught (.headers refuses)
      cases fires with
      | signal literal gets =>
          rcases literal with literal | stage
          · obtain ⟨code, literal⟩ := Option.isSome_iff_exists.mp literal
            apply names_of_literal collected literal (code_of_getsTo literal gets) _ accepts
            exact fun code own none => caught (.number own none)
          · exact absurd (.stage stage) caught
      | @raise message condition line column _ _ gets =>
          obtain ⟨text, rfl⟩ := error_of_raise gets
          have own : Outcome.errorCode 500 ∈
              ownOutcomes (.statement (.raise message condition line column)) :=
            List.mem_singleton_self _
          exact .inl (Named.collected collected own)

/-- Every response of the route, by its own text and its checks, is documented. -/
def AnswersDocumented (server : ServerContext) (kit : HeaderKit) (runtime : ProjectRuntime)
    (route : RouteDefinition) : Prop :=
  ∀ request cause response, Answers server kit runtime route request cause response →
    Documents route response.status.code

end Answered

/-- In every run of a route, an answer whose cause does not escape has a status that the
operation documents. -/
theorem documented_of_not_escapes {server : ServerContext} {kit : HeaderKit}
    {runtime : ProjectRuntime} {route : RouteDefinition} {request : RouteRequest} {cause : Cause}
    {response : Response} (answers : Answers server kit runtime route request cause response)
    (caught : ¬ Escapes kit route cause) : Documents route response.status.code :=
  documents_iff.mpr (names_of_not_escapes answers caught)

/-- The state in which the body of a route starts. -/
def routeStart (route : RouteDefinition) : Interpreter :=
  ((Interpreter.new Environment.new none).enterRoute route).bindRequest emptyRequest

/-- What `fail 404, "gone"` stops with. -/
def goneError : MarretaError :=
  .httpResponse 404 "\x7b\"error\":\"gone\"\x7d" "application/json" [] true

/-- A route with the body `fail 404, "gone"`. -/
def failedRoute : RouteDefinition :=
  replyRoute (.fail 404 (.stringLiteral "gone") 2 5)

theorem failedRoute_documented : Documents failedRoute 404 := by
  let host := replyServer.hostFor noModules
  let statement : Statement := .fail 404 (.stringLiteral "gone") 2 5
  have inBody : Lint.InCode failedRoute.body (.statement statement) :=
    ⟨.written, .statement List.mem_cons_self⟩
  have gets : (Action.block failedRoute.body).GetsTo host (perform host 4) (routeStart failedRoute)
      (.call (.statement statement) (routeStart failedRoute)) := Or.inl (Or.inl rfl)
  have fails : FailsAt host failedRoute.body 4 (routeStart failedRoute) (.error goneError)
      ⟨3 + 1, .statement statement, routeStart failedRoute⟩ := .body gets inBody rfl
  have answers : Answers replyServer lowercaseKit noModules failedRoute emptyRequest _ _ :=
    .construct rfl rfl fails
      (.signal (.inl rfl) (Or.inr ⟨_, _, rfl, Or.inr ⟨_, _, rfl, rfl⟩⟩))
  apply documented_of_not_escapes answers
  intro escapes
  cases escapes with
  | place missed => exact missed (.statement List.mem_cons_self)
  | stage stage => cases stage
  | number own none =>
      obtain rfl := Outcome.errorCode.inj (List.mem_singleton.mp own)
      exact absurd none (by decide)
  | headers refuses => exact absurd refuses.2 (by decide)

/-- `fail 404, "gone"` in an expression. -/
def goneExpression : Expression :=
  .functionCall "__fail__" [.positional (.integer 404), .positional (.stringLiteral "gone")]

/-- A route with the body `reply 200, (fail 404, "gone")`. -/
def goneRoute : RouteDefinition :=
  replyRoute (.reply (.integer 200) .json goneExpression none none 2 5)

/-- The body of a reply is not looked into. -/
theorem answers_not_documented :
    ¬ AnswersDocumented replyServer lowercaseKit noModules goneRoute := by
  intro documented
  let host := replyServer.hostFor noModules
  let statement : Statement := .reply (.integer 200) .json goneExpression none none 2 5
  have inBody : Lint.InCode goneRoute.body (.statement statement) :=
    ⟨.written, .statement List.mem_cons_self⟩
  have inReply : Lint.InCode goneRoute.body (.expression goneExpression) :=
    (Lint.hereditary_inCode _).parts _ inBody _ (List.mem_cons_of_mem _ List.mem_cons_self)
  let start := routeStart goneRoute
  have first : (Action.block goneRoute.body).GetsTo host (perform host 4) start
      (.call (.statement statement) start) := Or.inl (Or.inl rfl)
  have second : (actionOf host (.statement statement)).GetsTo host (perform host 3) start
      (.call (.expression goneExpression) (start.moveTo 2 5)) :=
    Or.inr ⟨_, _, rfl, Or.inr ⟨_, _, rfl, Or.inl rfl⟩⟩
  have fails : FailsAt host goneRoute.body 4 start (.error goneError)
      ⟨2 + 1, .expression goneExpression, start.moveTo 2 5⟩ :=
    .part (.body first inBody rfl) second inReply rfl
  have answers : Answers replyServer lowercaseKit noModules goneRoute emptyRequest _ _ :=
    .construct rfl rfl fails (.signal (.inl rfl) (Or.inr ⟨_, _, rfl, rfl⟩))
  rcases documented _ _ _ answers with found | found
  · exact absurd found (by decide)
  · exact absurd found (by decide)

end OpenApi
end Marreta
