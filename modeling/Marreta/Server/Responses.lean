import Marreta.Runtime.Replies
import Marreta.Server.Bindings

namespace Marreta

open Foundation

/-! The responses that end a request.

A construct of the language writes a status as a 64-bit integer.  The interpreter
keeps its low 16 bits, and the server makes a status code of those. -/

/-- A status code of the HTTP library. -/
structure StatusCode where
  code : UInt16
  inRange : 100 ≤ code ∧ code ≤ 999
deriving DecidableEq

namespace StatusCode

def fromU16 (code : UInt16) : Option StatusCode :=
  if inRange : 100 ≤ code ∧ code ≤ 999 then some { code, inRange } else none

def noContent : StatusCode := ⟨204, by decide⟩
def notModified : StatusCode := ⟨304, by decide⟩
def badRequest : StatusCode := ⟨400, by decide⟩
def unauthorized : StatusCode := ⟨401, by decide⟩
def forbidden : StatusCode := ⟨403, by decide⟩
def conflict : StatusCode := ⟨409, by decide⟩
def internalServerError : StatusCode := ⟨500, by decide⟩

/-- Numbers that are no status code count as a server error. -/
def ofCode (code : UInt16) : StatusCode :=
  (fromU16 code).getD internalServerError

/-- A response with this status has no body. -/
def HasNoBody (status : StatusCode) : Prop :=
  status = noContent ∨ status = notModified

instance (status : StatusCode) : Decidable status.HasNoBody :=
  inferInstanceAs (Decidable (_ ∨ _))

end StatusCode

/-- The header map of the HTTP library. -/
structure HeaderKit where
  /-- The field of a header, if its name and its value are allowed. -/
  field : String → String → Option (String × String)
  /-- A header map can hold these fields. -/
  fits : List (String × String) → Bool

structure Response where
  status : StatusCode
  headers : List (String × String)
  body : String

namespace Response

/-- Only a status. -/
def bare (status : StatusCode) : Response :=
  { status, headers := [], body := "" }

def json (status : StatusCode) (body : String) : Response :=
  { status, headers := [("content-type", "application/json")], body }

end Response

section

variable (library : Library) (kit : HeaderKit)

/-- `{"error": message}`. -/
def errorObject (message : String) : String :=
  "\x7b\"error\":" ++ library.jsonString message ++ "\x7d"

/-- `{"error": message, "code": code}`. -/
def codedErrorObject (message code : String) : String :=
  "\x7b\"error\":" ++ library.jsonString message ++ ",\"code\":" ++
    library.jsonString code ++ "\x7d"

def unauthorizedResponse : Response :=
  .json .unauthorized (errorObject library "unauthorized")

def forbiddenResponse : Response :=
  .json .forbidden (errorObject library "forbidden")

/-- The status that the log names. -/
def statusForError : MarretaError → StatusCode
  | .httpResponse statusCode .. => .ofCode statusCode
  | .httpError statusCode _ => .ofCode statusCode.toUInt64.toUInt16
  | .uniqueConstraintViolation .. => .conflict
  | .dbIdentifierError .. => .badRequest
  | _ => .internalServerError

/-- The fields of a response, unless the builder refuses one of them. -/
def HeaderKit.build (headers : List (String × String)) : Option (List (String × String)) := do
  let fields ← headers.mapM fun (name, value) => kit.field name value
  if kit.fits fields then some fields else none

def errorToResponse (error : MarretaError) : Response :=
  match error with
  | .httpResponse statusCode body contentType extraHeaders _ =>
      let status := StatusCode.ofCode statusCode
      if status.HasNoBody then .bare status
      else
        match kit.build (("Content-Type", contentType) :: extraHeaders) with
        | some headers => { status, headers, body }
        | none => .bare .internalServerError
  | .httpError statusCode message =>
      .json (.ofCode statusCode.toUInt64.toUInt16) (errorObject library message)
  | .uniqueConstraintViolation .. =>
      .json .conflict
        (codedErrorObject library "unique constraint violation" error.semanticCode)
  | .dbIdentifierError .. =>
      .json .badRequest (codedErrorObject library error.displayMessage error.semanticCode)
  | _ =>
      .json .internalServerError
        (codedErrorObject library error.displayMessage error.semanticCode)

/-- The response to a request, unless the thread that handles it panics. -/
def respond (outcome : Except Refusal (Except Fault Unit × Interpreter)) : Option Response :=
  match outcome with
  | .ok (.ok _, _) => some (.bare .noContent)
  | .ok (.error (.error error), _) => some (errorToResponse library kit error)
  | .ok (.error _, _) => none
  | .error .unauthorized => some (unauthorizedResponse library)
  | .error .forbidden => some (forbiddenResponse library)
  | .error (.invalid (.error error)) => some (errorToResponse library kit error)
  | .error (.invalid .panic) => none
  | .error (.failed (.error error)) => some (errorToResponse library kit error)
  | .error (.failed _) => none

end

/-! ## What a program writes -/

/-- The response that a construct asks for. -/
inductive Written where
  | reply (statusCode : Int64) (body contentType : String)
      (extraHeaders : List (String × String))
  | fail (statusCode : Int64) (body : String)
  | failExpression (statusCode : Int64) (body : String)
  | require (statusCode : Int64) (message : String)
  | reject (statusCode : Int64) (message : String)

namespace Written

def statusCode : Written → Int64
  | .reply statusCode .. | .fail statusCode _ | .failExpression statusCode _
  | .require statusCode _ | .reject statusCode _ => statusCode

/-- What is left of the number on the way to the server. -/
def code (written : Written) : UInt16 :=
  written.statusCode.toUInt64.toUInt16

def headers : Written → List (String × String)
  | .reply _ _ _ extraHeaders => extraHeaders
  | _ => []

def text (library : Library) : Written → String
  | .reply _ body _ _ | .fail _ body | .failExpression _ body => body
  | .require _ message | .reject _ message => errorObject library message

def contentType : Written → String
  | .reply _ _ contentType _ => contentType
  | _ => "application/json"

def signal (written : Written) : StopSignal :=
  match written with
  | .reply _ body contentType extraHeaders =>
      .reply written.code body contentType extraHeaders
  | .fail _ body => .fail written.code body
  | .failExpression _ body => .failExpression written.code body
  | .require statusCode message => .require statusCode message
  | .reject statusCode message => .reject statusCode message

/-- The body that belongs to the number that was written. -/
def body (library : Library) (written : Written) : String :=
  if written.statusCode = 204 ∨ written.statusCode = 304 then "" else written.text library

end Written

def Interpreter.moveTo (state : Interpreter) (line column : Nat) : Interpreter :=
  { state with line, column }

/-- The construct, run in a state, gets as far as writing its response. -/
inductive Writes (host : Host) (depth : Nat) :
    Call → Interpreter → Written → Interpreter → Prop where
  | reply {statusCode body : Expression} {contentType : ReplyContentType}
      {responseSchema : Option String} {extraHeaders : Option Expression} {line column : Nat}
      {start atBody atHeaders after : Interpreter} {number : Int64} {value : Value}
      {text mime : String} {headers : List (String × String)}
      (numbered : Evaluates host depth statusCode (start.moveTo line column)
        (.integer number) atBody)
      (evaluated : Evaluates host depth body atBody value atHeaders)
      (collected : runAction host depth (replyHeaders host extraHeaders) atHeaders =
        (.ok headers, after))
      (serialized : replyBody host contentType (serializeWith value
        (responseSchema.bind (resolveSchema host atHeaders.currentModule))) = (text, mime)) :
      Writes host depth
        (.statement (.reply statusCode contentType body responseSchema extraHeaders line column))
        start (.reply number text mime headers) after
  | fail {statusCode : Int64} {message : Expression} {line column : Nat}
      {start after : Interpreter} {value : Value}
      (evaluated : Evaluates host depth message (start.moveTo line column) value after) :
      Writes host depth (.statement (.fail statusCode message line column)) start
        (.fail statusCode (failureBody host value)) after
  | failExpression {statusCode : Int64} {message : Expression}
      {start after : Interpreter} {value : Value}
      (evaluated : Evaluates host depth message start value after) :
      Writes host depth
        (.expression (.functionCall "__fail__"
          [.positional (.integer statusCode), .positional message]))
        start (.failExpression statusCode (failureBody host value)) after
  | require {condition : Expression} {statusCode : Int64} {message : String}
      {line column : Nat} {start after : Interpreter} {value : Value}
      (evaluated : Evaluates host depth condition (start.moveTo line column) value after)
      (falsy : value.isTruthy = false) :
      Writes host depth (.statement (.require condition statusCode message line column)) start
        (.require statusCode message) after
  | reject {condition : Expression} {statusCode : Int64} {message : String}
      {line column : Nat} {start after : Interpreter} {value : Value}
      (evaluated : Evaluates host depth condition (start.moveTo line column) value after)
      (truthy : value.isTruthy = true) :
      Writes host depth (.statement (.reject condition statusCode message line column)) start
        (.reject statusCode message) after

/-! ## From the construct to the server -/

section

variable {host : Host} {depth : Nat}

/-- What a statement does after it has set its position. -/
theorem perform_statement {statement : Statement} {line column : Nat}
    (placed : statement.position? = some (line, column)) (state : Interpreter) :
    perform host (depth + 1) (.statement statement) state =
      runAction host depth (executeKind host statement) (state.moveTo line column) := by
  have moved : runAction host depth (.moveTo line column) state =
      (.ok (), state.moveTo line column) := rfl
  have unfolded : perform host (depth + 1) (.statement statement) state =
      runAction host depth (executeStatement host statement) state := rfl
  rw [unfolded, executeStatement, placed]
  exact runAction_bind moved

/-- The arguments of a `fail` in an expression. -/
theorem run_evaluateArgs {statusCode : Int64} {message : Expression}
    {start after : Interpreter} {value : Value}
    (evaluated : Evaluates host depth message start value after) :
    runAction host depth (evaluateArgs [.positional (.integer statusCode), .positional message])
      start = (.ok [.integer statusCode, value], after) := by
  cases depth with
  | zero => cases evaluated
  | succ depth =>
      have numbered : Evaluates host (depth + 1) (.integer statusCode) start
        (.integer statusCode) start := rfl
      unfold Evaluates runAction at numbered evaluated
      simp only [runAction, evaluateArgs, Action.run_mapM, List.mapM_cons, List.mapM_nil,
        Run.bind_run, Argument.value, numbered, evaluated]
      rfl

/-- The construct stops the handler with the response it writes. -/
theorem Writes.stops {target : Call} {start after : Interpreter} {written : Written}
    (writes : Writes host depth target start written after) :
    perform host (depth + 1) target start =
      (.error (.error written.signal.error), after.record (.stopped written.signal)) := by
  cases writes with
  | reply numbered evaluated collected serialized =>
      rw [perform_statement rfl, executeKind, run_executeReply numbered evaluated collected,
        serialized]
      rfl
  | fail evaluated =>
      rw [perform_statement rfl, executeKind, runAction_bind evaluated]
      rfl
  | failExpression evaluated =>
      rename_i statusCode message value
      have called : perform host (depth + 1) (.expression (.functionCall "__fail__"
          [.positional (.integer statusCode), .positional message])) start =
        runAction host depth (evaluateArgs [.positional (.integer statusCode),
          .positional message] >>= callFunction host "__fail__") start := rfl
      rw [called, runAction_bind (run_evaluateArgs evaluated)]
      rfl
  | require evaluated falsy =>
      rw [perform_statement rfl, executeKind, runAction_bind evaluated, falsy]
      rfl
  | reject evaluated truthy =>
      rw [perform_statement rfl, executeKind, runAction_bind evaluated, truthy]
      rfl

end

/-! ## Fidelity -/

namespace Response

variable (library : Library) (kit : HeaderKit) (written : Written) (response : Response)

/-- The status is the number that was written. -/
def HasStatus : Prop :=
  (response.status.code.toNat : Int) = written.statusCode.toInt

def CarriesHeaders : Prop :=
  ∀ header ∈ written.headers,
    ∃ field ∈ response.headers, kit.field header.1 header.2 = some field

/-- The response is the one that was written, or a server error. -/
structure Faithful : Prop where
  exact_or_failed : response.status ≠ .internalServerError →
    response.HasStatus written ∧ response.body = written.body library
  headers_kept : response.HasStatus written → response.CarriesHeaders kit written

end Response

namespace Written

variable (kit : HeaderKit) (written : Written)

def isGuard : Written → Bool
  | .require .. | .reject .. => true
  | .reply .. | .fail .. | .failExpression .. => false

/-- The builder is used, and refuses a header. -/
def Refused : Prop :=
  written.isGuard = false ∧ ¬ (StatusCode.ofCode written.code).HasNoBody ∧
    kit.build (("Content-Type", written.contentType) :: written.headers) = none

/-- The number fits, and with a status that has no body there is nothing to lose. -/
def Kept : Prop :=
  (written.code.toNat : Int) = written.statusCode.toInt ∧
    ((StatusCode.ofCode written.code).HasNoBody →
      written.isGuard = false ∧ written.headers = [])

/-- The low bits are no status or a server error, the builder refuses the headers, or
the number is kept. -/
def Safe : Prop :=
  StatusCode.fromU16 written.code = none ∨
    (written.Refused kit ∧ (written.statusCode = 500 → written.headers = [])) ∨
    (¬ written.Refused kit ∧ (written.code = 500 ∨ written.Kept))

end Written

section

variable {library : Library} {kit : HeaderKit} {written : Written} {response : Response}

/-- The ways to answer a construct. -/
inductive Answers (library : Library) (kit : HeaderKit) (written : Written) :
    Response → Prop where
  | guard (guarded : written.isGuard = true) :
      Answers library kit written (.json (.ofCode written.code) (written.text library))
  | empty (built : written.isGuard = false)
      (empty : (StatusCode.ofCode written.code).HasNoBody) :
      Answers library kit written (.bare (.ofCode written.code))
  | built {headers : List (String × String)}
      (full : ¬ (StatusCode.ofCode written.code).HasNoBody)
      (accepted : kit.build (("Content-Type", written.contentType) :: written.headers) =
        some headers) :
      Answers library kit written
        { status := .ofCode written.code, headers, body := written.text library }
  | refused (refused : written.Refused kit) :
      Answers library kit written (.bare .internalServerError)

theorem answers_errorToResponse :
    Answers library kit written (errorToResponse library kit written.signal.error) := by
  have answered (built : written.isGuard = false) : Answers library kit written
      (if (StatusCode.ofCode written.code).HasNoBody then .bare (.ofCode written.code)
      else
        match kit.build (("Content-Type", written.contentType) :: written.headers) with
        | some headers =>
            { status := .ofCode written.code, headers, body := written.text library }
        | none => .bare .internalServerError) := by
    split
    · rename_i empty
      exact .empty built empty
    · rename_i full
      split
      · rename_i accepted
        exact .built full accepted
      · rename_i refused
        exact .refused ⟨built, full, refused⟩
  cases written with
  | reply statusCode body contentType extraHeaders => exact answered rfl
  | fail statusCode body => exact answered rfl
  | failExpression statusCode body => exact answered rfl
  | require statusCode message => exact .guard rfl
  | reject statusCode message => exact .guard rfl

/-- A server error is faithful if it was not meant to carry headers. -/
theorem faithful_failed (failed : response.status = .internalServerError) :
    response.Faithful library kit written ↔
      (written.statusCode = 500 → response.CarriesHeaders kit written) := by
  have named : response.HasStatus written ↔ written.statusCode = 500 := by
    unfold Response.HasStatus
    rw [failed, ← Int64.toInt_inj]
    exact eq_comm
  constructor
  · intro faithful
    rw [← named]
    exact faithful.headers_kept
  · intro kept
    rw [← named] at kept
    exact ⟨fun other => absurd failed other, kept⟩

theorem faithful_other (other : response.status ≠ .internalServerError) :
    response.Faithful library kit written ↔
      response.HasStatus written ∧ response.body = written.body library ∧
        response.CarriesHeaders kit written := by
  constructor
  · intro faithful
    obtain ⟨named, same⟩ := faithful.exact_or_failed other
    exact ⟨named, same, faithful.headers_kept named⟩
  · intro ⟨named, same, carried⟩
    exact ⟨fun _ => ⟨named, same⟩, fun _ => carried⟩

theorem field_of_mapM {headers fields : List (String × String)}
    (collected : headers.mapM (fun (name, value) => kit.field name value) = some fields) :
    ∀ header ∈ headers, ∃ field ∈ fields, kit.field header.1 header.2 = some field := by
  induction headers generalizing fields with
  | nil => exact fun header member => absurd member List.not_mem_nil
  | cons first rest ih =>
      rw [List.mapM_cons, Option.bind_eq_bind, Option.bind_eq_some_iff] at collected
      obtain ⟨field, allowed, collected⟩ := collected
      rw [Option.bind_eq_bind, Option.bind_eq_some_iff] at collected
      obtain ⟨others, collected, same⟩ := collected
      cases same
      intro header member
      rcases List.mem_cons.mp member with rfl | member
      · exact ⟨field, List.mem_cons_self, allowed⟩
      · obtain ⟨other, among, found⟩ := ih collected header member
        exact ⟨other, List.mem_cons_of_mem field among, found⟩

/-- What the builder accepts has a field for every header. -/
theorem carriesHeaders_build {headers : List (String × String)}
    (accepted : kit.build (("Content-Type", written.contentType) :: written.headers) =
      some headers) (status : StatusCode) (body : String) :
    Response.CarriesHeaders kit written { status, headers, body } := by
  unfold HeaderKit.build at accepted
  rw [Option.bind_eq_bind, Option.bind_eq_some_iff] at accepted
  obtain ⟨fields, collected, fitting⟩ := accepted
  obtain ⟨-, same⟩ := Option.ite_none_right_eq_some.mp fitting
  cases same
  intro header member
  exact field_of_mapM collected header (List.mem_cons_of_mem _ member)

theorem code_of_hasNoBody (empty : (StatusCode.ofCode written.code).HasNoBody) :
    written.code = 204 ∨ written.code = 304 := by
  unfold StatusCode.ofCode StatusCode.fromU16 at empty
  split at empty
  · exact empty.imp (congrArg StatusCode.code) (congrArg StatusCode.code)
  · exact absurd empty (by decide)

theorem code_ofCode {code : UInt16} (other : StatusCode.ofCode code ≠ .internalServerError) :
    StatusCode.fromU16 code ≠ none ∧ (StatusCode.ofCode code).code = code := by
  unfold StatusCode.ofCode StatusCode.fromU16 at other ⊢
  split
  · exact ⟨Option.some_ne_none _, rfl⟩
  · rename_i outside
    rw [dif_neg outside] at other
    exact absurd rfl other

theorem code_of_failed {code : UInt16} (failed : StatusCode.ofCode code = .internalServerError) :
    StatusCode.fromU16 code = none ∨ code = 500 := by
  unfold StatusCode.ofCode StatusCode.fromU16 at failed
  unfold StatusCode.fromU16
  split at failed
  · exact .inr (congrArg StatusCode.code failed)
  · rename_i outside
    exact .inl (dif_neg outside)

/-! ## When a response is safe -/

theorem safe_iff_of_refused (refused : written.Refused kit) :
    written.Safe kit ↔ (written.statusCode = 500 → written.headers = []) := by
  constructor
  · rintro (none | ⟨-, kept⟩ | ⟨accepted, -⟩) named
    · unfold Written.code at none
      rw [named] at none
      cases none
    · exact kept named
    · exact absurd refused accepted
  · exact fun kept => .inr (.inl ⟨refused, kept⟩)

theorem safe_iff_of_not_refused (accepted : ¬ written.Refused kit) :
    written.Safe kit ↔
      StatusCode.ofCode written.code = .internalServerError ∨ written.Kept := by
  constructor
  · rintro (none | ⟨refused, -⟩ | ⟨-, failed | kept⟩)
    · left
      rw [StatusCode.ofCode, none]
      rfl
    · exact absurd refused accepted
    · left
      rw [failed]
      rfl
    · exact .inr kept
  · rintro (failed | kept)
    · exact (code_of_failed failed).imp_right fun named => .inr ⟨accepted, .inl named⟩
    · exact .inr (.inr ⟨accepted, .inr kept⟩)

/-- A response under the number that was written, or a server error, is faithful if its
body and its headers are. -/
theorem faithful_iff_kept {body : String} {headers : List (String × String)}
    (accepted : ¬ written.Refused kit)
    (complete : (written.code.toNat : Int) = written.statusCode.toInt →
      (body = written.body library ∧
          Response.CarriesHeaders kit written ⟨.ofCode written.code, headers, body⟩ ↔
        ((StatusCode.ofCode written.code).HasNoBody →
          written.isGuard = false ∧ written.headers = []))) :
    Response.Faithful library kit written ⟨.ofCode written.code, headers, body⟩ ↔
      written.Safe kit := by
  rw [safe_iff_of_not_refused accepted]
  by_cases failed : StatusCode.ofCode written.code = .internalServerError
  · rw [faithful_failed failed]
    refine iff_of_true ?_ (.inl failed)
    intro named
    have code : written.code = 500 := congrArg (fun number => number.toUInt64.toUInt16) named
    have full : ¬ (StatusCode.ofCode written.code).HasNoBody := by
      rw [code]
      decide
    have same : (written.code.toNat : Int) = written.statusCode.toInt := by
      rw [code, named]
      rfl
    exact ((complete same).mpr fun empty => absurd empty full).2
  · rw [faithful_other failed, or_iff_right failed, Written.Kept, Response.HasStatus,
      (code_ofCode failed).2]
    exact and_congr_right complete

theorem body_of_full (full : ¬ (StatusCode.ofCode written.code).HasNoBody) :
    written.body library = written.text library := by
  unfold Written.body
  apply if_neg
  rintro (named | named)
  all_goals
    apply full
    unfold Written.code
    rw [named]
    decide

theorem body_of_empty (empty : (StatusCode.ofCode written.code).HasNoBody)
    (same : (written.code.toNat : Int) = written.statusCode.toInt) :
    written.body library = "" := by
  unfold Written.body
  apply if_pos
  rw [← Int64.toInt_inj, ← Int64.toInt_inj, ← same]
  rcases code_of_hasNoBody empty with code | code
  · left
    rw [code]
    rfl
  · right
    rw [code]
    rfl

theorem carriesHeaders_nil {status : StatusCode} {body : String} :
    Response.CarriesHeaders kit written ⟨status, [], body⟩ ↔ written.headers = [] := by
  constructor
  · intro carried
    rw [List.eq_nil_iff_forall_not_mem]
    intro header member
    obtain ⟨field, among, -⟩ := carried header member
    exact List.not_mem_nil among
  · intro none header member
    rw [none] at member
    exact absurd member List.not_mem_nil

theorem headers_of_guard (guarded : written.isGuard = true) : written.headers = [] := by
  cases written with
  | require | reject => rfl
  | reply | fail | failExpression => cases guarded

theorem text_of_guard (guarded : written.isGuard = true) : written.text library ≠ "" := by
  cases written with
  | require | reject =>
      intro same
      have size := congrArg String.length same
      simp [Written.text, errorObject] at size
  | reply | fail | failExpression => cases guarded

/-- An answer is faithful exactly in the safe cases. -/
theorem faithful_iff_safe {response : Response} (answers : Answers library kit written response) :
    response.Faithful library kit written ↔ written.Safe kit := by
  cases answers with
  | guard guarded =>
      have accepted : ¬ written.Refused kit := by
        rintro ⟨built, -⟩
        rw [guarded] at built
        cases built
      apply faithful_iff_kept accepted
      intro same
      by_cases empty : (StatusCode.ofCode written.code).HasNoBody
      · -- A guard sends its message with every status.
        rw [body_of_empty empty same]
        refine iff_of_false (fun sent => text_of_guard guarded sent.1) fun bare => ?_
        have built := (bare empty).1
        rw [guarded] at built
        cases built
      · refine iff_of_true ⟨(body_of_full empty).symm, fun header member => ?_⟩
          fun bare => absurd bare empty
        rw [headers_of_guard guarded] at member
        exact absurd member List.not_mem_nil
  | empty built empty =>
      have accepted : ¬ written.Refused kit := fun refused => refused.2.1 empty
      apply faithful_iff_kept accepted
      intro same
      rw [carriesHeaders_nil, body_of_empty empty same]
      constructor
      · exact fun sent _ => ⟨built, sent.2⟩
      · exact fun bare => ⟨rfl, (bare empty).2⟩
  | built full accepted =>
      have unrefused : ¬ written.Refused kit := by
        rintro ⟨-, -, refused⟩
        rw [accepted] at refused
        cases refused
      apply faithful_iff_kept unrefused
      intro same
      exact iff_of_true ⟨(body_of_full full).symm, carriesHeaders_build accepted _ _⟩
        fun empty => absurd empty full
  | refused refused =>
      rw [safe_iff_of_refused refused, faithful_failed rfl]
      exact imp_congr_right fun _ => carriesHeaders_nil

end

/-! ## Routes -/

section

variable (server : ServerContext) (runtime : ProjectRuntime) (route : RouteDefinition)
variable (request : RouteRequest)

/-- The target is a statement of the body of the route, and the request gets to it. -/
def Reaches (target : Call) (start : Interpreter) : Prop :=
  ∃ statement before rest first, target = .statement statement ∧
    route.body = before ++ statement :: rest ∧
    startRoute server runtime route request = .ok first ∧
    runAction (server.hostFor runtime) server.depth (Action.block before) first = (.ok (), start)

theorem run_block_cons {host : Host} {depth : Nat} (statement : Statement)
    (rest : List Statement) (state : Interpreter) :
    runAction host depth (Action.block (statement :: rest)) state =
      match perform host depth (.statement statement) state with
      | (.ok _, after) => runAction host depth (Action.block rest) after
      | (.error fault, after) => (.error fault, after) := by
  have unfolded : runAction host depth (Action.block (statement :: rest)) state =
      runAction host depth ((do let _ ← Action.exec statement) >>= fun _ => Action.block rest)
        state := rfl
  rw [unfolded]
  simp only [runAction, Action.exec, Action.run_bind, Action.run, Run.bind_run]
  rcases perform host depth (.statement statement) state with ⟨_ | _, _⟩ <;> rfl

/-- A fault in a statement of a block ends the block. -/
theorem run_block_append {host : Host} {depth : Nat} {statement : Statement}
    {before : List Statement} (rest : List Statement) {fault : Fault}
    {first start after : Interpreter}
    (reached : runAction host depth (Action.block before) first = (.ok (), start))
    (raised : perform host depth (.statement statement) start = (.error fault, after)) :
    runAction host depth (Action.block (before ++ statement :: rest)) first =
      (.error fault, after) := by
  induction before generalizing first with
  | nil =>
      cases reached
      rw [List.nil_append, run_block_cons, raised]
  | cons earlier before induction =>
      rw [run_block_cons] at reached
      rw [List.cons_append, run_block_cons]
      split at reached
      · exact induction reached
      · cases reached

variable {server runtime route request}

theorem Reaches.executeRoute {target : Call} {start after : Interpreter} {fault : Fault}
    (reaches : Reaches server runtime route request target start)
    (raised : perform (server.hostFor runtime) server.depth target start =
      (.error fault, after)) :
    executeRoute server runtime route request = .ok (.error fault, after) := by
  obtain ⟨statement, before, rest, first, rfl, body, started, reached⟩ := reaches
  unfold Marreta.executeRoute
  rw [started, body]
  exact congrArg Except.ok (run_block_append rest reached raised)

end

/-- A construct stops the handler with the response it writes, and then the request
ends with it if the construct is a statement of the route itself.  A request that ends
so is answered faithfully exactly if the low 16 bits of the number are no status or
those of 500, the builder refuses the headers, or the number is kept and a status
without a body comes with nothing to lose. -/
theorem response_faithful_iff (server : ServerContext) (kit : HeaderKit)
    (runtime : ProjectRuntime) (depth : Nat) (target : Call) (start after : Interpreter)
    (written : Written)
    (writes : Writes (server.hostFor runtime) depth target start written after) :
    let fault : Fault := .error written.signal.error
    let stopped := after.record (.stopped written.signal)
    perform (server.hostFor runtime) (depth + 1) target start = (.error fault, stopped) ∧
      ∀ route request,
        (server.depth = depth + 1 → Reaches server runtime route request target start →
          executeRoute server runtime route request = .ok (.error fault, stopped)) ∧
        ∀ final, executeRoute server runtime route request = .ok (.error fault, final) →
          ∃ response,
            respond server.host.library kit (executeRoute server runtime route request) =
              some response ∧
            (response.Faithful server.host.library kit written ↔ written.Safe kit) := by
  refine ⟨writes.stops, fun route request => ⟨?_, ?_⟩⟩
  · intro same reaches
    apply reaches.executeRoute
    rw [same]
    exact writes.stops
  · intro final stopped
    rw [stopped]
    exact ⟨_, rfl, faithful_iff_safe answers_errorToResponse⟩

/-- Header names in lowercase, and everything allowed. -/
def lowercaseKit : HeaderKit where
  field name value := some (String.ofList (name.toList.map Char.toLower), value)
  fits _ := true

def replyServer : ServerContext where
  host := emptyHost
  depth := 4
  formats :=
    { parseDecimal := fun _ => none, parseInstant := fun _ => none, parseDate := fun _ => none
      parseTime := fun _ => none, jsonString := fun text => "\"" ++ text ++ "\"" }
  readJson _ := none
  readPairs _ := none
  decodeLossy _ := ""
  authenticate _ _ := none

def noModules : ProjectRuntime where
  globalEnv := Environment.new
  modules := []
  publicSchemas := []
  persistentSchemas := []
  featureFlags := { flags := [] }
  taskNamespaces := []
  dbColumns := []

def replyRoute (statement : Statement) : RouteDefinition :=
  { verb := .get, path := "/", auth := none, allow := [], take := [], body := [statement]
    line := 1, column := 1, sourceFile := none, moduleId := none }

def emptyRequest : RouteRequest :=
  { urlParams := [], queryParams := [], rawQuery := none, headers := [], body := [] }

/-- `reply status, 7` with the header `X-Trace: a`. -/
def tracedReply (status : Int64) : Statement :=
  .reply (.integer status) .json (.integer 7) none
    (some (.mapLiteral [("X-Trace", .stringLiteral "a")])) 2 5

/-- The answer to a request of a route with one statement. -/
def answerTo (statement : Statement) : Option Response :=
  respond emptyHost.library lowercaseKit
    (executeRoute replyServer noModules (replyRoute statement) emptyRequest)

/-- What the reply writes. -/
def tracedWritten (status : Int64) : Written :=
  .reply status "7" "application/json" [("X-Trace", "a")]

/-- The state in which the statement runs. -/
def replyStart (statement : Statement) : Interpreter :=
  ((Interpreter.new Environment.new none).enterRoute (replyRoute statement)).bindRequest
    emptyRequest

theorem response_faithful_created :
    ∃ response, answerTo (tracedReply 201) = some response ∧
      response.Faithful emptyHost.library lowercaseKit (tracedWritten 201) := by
  have writes : Writes (replyServer.hostFor noModules) 3 (.statement (tracedReply 201))
      (replyStart (tracedReply 201)) (tracedWritten 201) _ := .reply rfl rfl rfl rfl
  have faithful := (response_faithful_iff replyServer lowercaseKit noModules 3 _ _ _ _ writes).2
    (replyRoute (tracedReply 201)) emptyRequest
  have ended := faithful.1 rfl ⟨_, [], [], _, rfl, rfl, rfl, rfl⟩
  obtain ⟨response, answered, same⟩ := faithful.2 _ ended
  have accepted : ¬ (tracedWritten 201).Refused lowercaseKit := by
    rintro ⟨-, -, refused⟩
    cases refused
  have kept : (tracedWritten 201).Kept := ⟨rfl, fun empty => absurd empty (by decide)⟩
  exact ⟨response, answered, same.mpr (.inr (.inr ⟨accepted, .inr kept⟩))⟩

/-- A status that wraps around, a header that is dropped, and a guard whose message is
sent with a status that has no body. -/
theorem response_not_faithful :
    (∃ response, answerTo (tracedReply 65736) = some response ∧ response.status.code = 200 ∧
      ¬ response.Faithful emptyHost.library lowercaseKit (tracedWritten 65736)) ∧
    (∃ response, answerTo (tracedReply 204) = some response ∧ response.status.code = 204 ∧
      response.headers = [] ∧
      ¬ response.Faithful emptyHost.library lowercaseKit (tracedWritten 204)) ∧
    (∃ response, answerTo (.require (.boolean false) 204 "gone" 2 5) = some response ∧
      response.status.code = 204 ∧ response.body = "\x7b\"error\":\"gone\"\x7d" ∧
      ¬ response.Faithful emptyHost.library lowercaseKit (.require 204 "gone")) := by
  refine ⟨⟨_, rfl, rfl, fun faithful => ?_⟩, ⟨_, rfl, rfl, rfl, fun faithful => ?_⟩,
    ⟨_, rfl, rfl, rfl, fun faithful => ?_⟩⟩
  · have named := (faithful.exact_or_failed (by decide)).1
    cases named
  · obtain ⟨field, member, -⟩ := faithful.headers_kept rfl ("X-Trace", "a") List.mem_cons_self
    exact List.not_mem_nil member
  · have same := (faithful.exact_or_failed (by decide)).2
    exact absurd same (by decide)

end Marreta
