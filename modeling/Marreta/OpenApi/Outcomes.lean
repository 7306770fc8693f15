import Marreta.Foundation.FirstOccurrences
import Marreta.Foundation.SortedDistinct
import Marreta.Lint.Walk
import Marreta.OpenApi.Components

namespace Marreta

open Foundation

/-! The responses that the document lists for a route.

They are collected from the text of the body, with one entry for each status.  A status that is
only known at run time gets the entry `default`. -/

namespace OpenApi

/-- A reply. -/
structure ResponseSpec where
  code : Option UInt16
  schemaName : Option String
  contentType : ReplyContentType
  body : Expression

/-- What is collected: a reply, or the status of an error. -/
inductive Outcome where
  | response (spec : ResponseSpec)
  | errorCode (code : UInt16)

structure RouteOutcomes where
  responses : List ResponseSpec
  errorCodes : List UInt16

inductive ResponseKey where
  | code (code : UInt16)
  | default
deriving DecidableEq

/-- The entry of a status, or the one for all others. -/
def responseKey : Option UInt16 → ResponseKey
  | some code => .code code
  | none => .default

def Outcome.key : Outcome → ResponseKey
  | .response spec => responseKey spec.code
  | .errorCode code => .code code

/-! ## Collecting -/

def literalStatusCode : Expression → Option UInt16
  | .integer number =>
      if 100 ≤ number ∧ number ≤ 599 then some number.toUInt64.toUInt16 else none
  | _ => none

/-- The status of a `fail` in an expression. -/
def failedStatus (name : String) : List Argument → List Outcome
  | .positional (.integer code) :: _ =>
      if name = "__fail__" then [.errorCode code.toUInt64.toUInt16] else []
  | _ => []

mutual
def collectStatementOutcomes : Statement → List Outcome
  | .reply statusCode contentType body responseSchema _ _ _ =>
      [.response
        { code := literalStatusCode statusCode, schemaName := responseSchema, contentType, body }]
  | .fail statusCode _ _ _ | .require _ statusCode _ _ _ | .reject _ statusCode _ _ _ =>
      [.errorCode statusCode.toUInt64.toUInt16]
  | .raise .. => [.errorCode 500]
  | .export inner => collectStatementOutcomes inner
  | .transaction body _ _ | .while _ body _ _ | .onQueue _ _ _ body _ _
  | .onTopic _ _ _ body _ _ => collectStatementListOutcomes body
  | .taskDef _ _ body _ _ => collectTaskBodyOutcomes body
  | .expressionStatement expression _ _ | .assignment _ expression _ _
  | .conditionalAssignment _ expression _ _ _ => collectExpressionOutcomes expression
  | .route .. | .schema .. | .authProvider .. | .nack .. | .scenario .. => []

def collectStatementListOutcomes : List Statement → List Outcome
  | [] => []
  | statement :: rest => collectStatementOutcomes statement ++ collectStatementListOutcomes rest

def collectTaskBodyOutcomes : TaskBody → List Outcome
  | .inline value => collectExpressionOutcomes value
  | .block statements result =>
      collectStatementListOutcomes statements ++ collectExpressionOutcomes result

def collectExpressionOutcomes : Expression → List Outcome
  | .ifElse condition thenBranch none =>
      collectExpressionOutcomes condition ++ collectTaskBodyOutcomes thenBranch
  | .ifElse condition thenBranch (some elseBranch) =>
      collectExpressionOutcomes condition ++ collectTaskBodyOutcomes thenBranch ++
        collectTaskBodyOutcomes elseBranch
  | .pipeline input stages => collectExpressionOutcomes input ++ collectStagesOutcomes stages
  | .rescue expr handler => collectExpressionOutcomes expr ++ collectExpressionOutcomes handler
  | .list items => collectExpressionListOutcomes items
  | .mapLiteral pairs | .schemaConstructor _ pairs => collectPairOutcomes pairs
  | .binaryOp left _ right => collectExpressionOutcomes left ++ collectExpressionOutcomes right
  | .unaryOp _ operand | .propertyAccess operand _ => collectExpressionOutcomes operand
  | .methodCall object _ arguments =>
      collectExpressionOutcomes object ++ collectArgumentOutcomes arguments
  | .httpClientResponseSchema call _ => collectExpressionOutcomes call
  | .functionCall name arguments => failedStatus name arguments ++ collectArgumentOutcomes arguments
  | .matchOn subject arms => collectExpressionOutcomes subject ++ collectArmOutcomes arms
  | .subscript object key => collectExpressionOutcomes object ++ collectExpressionOutcomes key
  | .broadcast input targets =>
      collectExpressionOutcomes input ++ collectExpressionListOutcomes targets
  | .queuePush target _ none | .topicPublish target _ none => collectExpressionOutcomes target
  | .queuePush target _ (some payload) | .topicPublish target _ (some payload) =>
      collectExpressionOutcomes target ++ collectExpressionOutcomes payload
  | .integer _ | .float _ | .stringLiteral _ | .boolean _ | .null | .identifier _ | .taskCall _ => []

def collectExpressionListOutcomes : List Expression → List Outcome
  | [] => []
  | value :: rest => collectExpressionOutcomes value ++ collectExpressionListOutcomes rest

def collectPairOutcomes : List (String × Expression) → List Outcome
  | [] => []
  | (_, value) :: rest => collectExpressionOutcomes value ++ collectPairOutcomes rest

def collectArgumentOutcomes : List Argument → List Outcome
  | [] => []
  | .positional value :: rest | .named _ value :: rest =>
      collectExpressionOutcomes value ++ collectArgumentOutcomes rest

/-- The patterns are not looked into. -/
def collectArmOutcomes : List MatchArm → List Outcome
  | [] => []
  | .mk _ value :: rest => collectExpressionOutcomes value ++ collectArmOutcomes rest

def collectStagesOutcomes : List PipelineStage → List Outcome
  | [] => []
  | stage :: rest => collectPipelineStageOutcomes stage ++ collectStagesOutcomes rest

def collectPipelineStageOutcomes : PipelineStage → List Outcome
  | .expression value => collectExpressionOutcomes value
  | .map _ body => collectMapOutcomes body
  | .reduce initial _ _ body => collectExpressionOutcomes initial ++ collectTaskBodyOutcomes body
  | .rescue (.inline value) => collectExpressionOutcomes value
  | .rescue (.block statements) => collectStatementListOutcomes statements

def collectMapOutcomes : List MapStatement → List Outcome
  | [] => []
  | .statement value :: rest => collectStatementOutcomes value ++ collectMapOutcomes rest
  | .keep value none :: rest => collectExpressionOutcomes value ++ collectMapOutcomes rest
  | .keep value (some condition) :: rest =>
      collectExpressionOutcomes value ++ collectExpressionOutcomes condition ++
        collectMapOutcomes rest
  | .skip condition :: rest => collectExpressionOutcomes condition ++ collectMapOutcomes rest
end

/-- The first reply of each entry, and the statuses of errors in order. -/
def dedupeOutcomes (outcomes : List Outcome) : RouteOutcomes where
  responses := FirstOccurrences.keep (fun kept spec => responseKey kept.code = responseKey spec.code)
    (outcomes.filterMap fun
      | .response spec => some spec
      | .errorCode _ => none)
  errorCodes := sortedDistinct (· ≤ ·) (outcomes.filterMap fun
    | .response _ => none
    | .errorCode code => some code)

def collectRouteOutcomes (body : List Statement) : RouteOutcomes :=
  dedupeOutcomes (collectStatementListOutcomes body)

/-! ## Responses of an operation -/

def statusDescription (code : UInt16) : String :=
  match code with
  | 200 => "Success"
  | 201 => "Created"
  | 202 => "Accepted"
  | 204 => "No Content"
  | 301 => "Moved Permanently"
  | 302 => "Found"
  | 400 => "Bad Request"
  | 401 => "Unauthorized"
  | 403 => "Forbidden"
  | 404 => "Not Found"
  | 405 => "Method Not Allowed"
  | 409 => "Conflict"
  | 410 => "Gone"
  | 422 => "Unprocessable Entity"
  | 429 => "Too Many Requests"
  | 500 => "Internal Server Error"
  | 503 => "Service Unavailable"
  | _ => "Response"

/-- A documented response: a description, and the reply whose body is shown, if it is one. -/
structure ResponseObject where
  description : String
  reply : Option ResponseSpec

def responseToOpenapi (spec : ResponseSpec) : ResponseObject where
  description := (spec.code.map statusDescription).getD "Dynamic response status"
  reply := some spec

def errorToOpenapi (code : UInt16) : ResponseObject where
  description := statusDescription code
  reply := none

abbrev Responses := Table ResponseKey ResponseObject

/-- Add an entry, unless there is one. -/
def Responses.entry (responses : Responses) (key : ResponseKey) (object : ResponseObject) :
    Responses :=
  if (responses.lookup key).isSome then responses else Table.put responses key object

/-- Inputs with a schema are checked.  Of each kind the first input counts. -/
def checksInput (route : RouteDefinition) : Bool :=
  (route.take.any (·.kind = .payload) && (bindingSchema route.take .payload).isSome) ||
    (bindingSchema route.take .query).isSome || (bindingSchema route.take .headers).isSome

/-- The responses that something in the route asks for. -/
def listedResponses (route : RouteDefinition) : Responses :=
  let outcomes := collectRouteOutcomes route.body
  let responses : Responses := outcomes.responses.foldl
    (fun responses spec => responses.entry (responseKey spec.code) (responseToOpenapi spec)) []
  let responses := outcomes.errorCodes.foldl
    (fun responses code => responses.entry (.code code) (errorToOpenapi code)) responses
  let responses :=
    if route.auth.isSome then responses.entry (.code 401) (errorToOpenapi 401) else responses
  let responses :=
    if !route.allow.isEmpty then responses.entry (.code 403) (errorToOpenapi 403) else responses
  if checksInput route then responses.entry (.code 422) (errorToOpenapi 422) else responses

/-- The responses of the operation of a route. -/
def buildResponses (route : RouteDefinition) : Responses :=
  let responses := listedResponses route
  if responses.isEmpty then [(.code 200, errorToOpenapi 200)] else responses

/-! ## What is collected -/

/-- What a call gives by itself. -/
def ownOutcomes : Call → List Outcome
  | .statement statement@(.reply ..) | .statement statement@(.fail ..)
  | .statement statement@(.require ..) | .statement statement@(.reject ..)
  | .statement statement@(.raise ..) => collectStatementOutcomes statement
  | .expression (.functionCall name arguments) => failedStatus name arguments
  | _ => []

def MatchArm.result : MatchArm → Call
  | .mk _ value => .expression value

/-- The parts that are looked into. -/
def outcomeParts : Call → List Call
  | .statement (.export inner) => [.statement inner]
  | .statement (.transaction body _ _) | .statement (.while _ body _ _)
  | .statement (.onQueue _ _ _ body _ _) | .statement (.onTopic _ _ _ body _ _) =>
      body.map .statement
  | .statement (.taskDef _ _ body _ _) => body.parts
  | .statement (.expressionStatement value _ _) | .statement (.assignment _ value _ _)
  | .statement (.conditionalAssignment _ value _ _ _) => [.expression value]
  | .statement _ => []
  | .expression (.matchOn subject arms) => .expression subject :: arms.map MatchArm.result
  | .expression value => value.parts

def callOutcomes : Call → List Outcome
  | .statement statement => collectStatementOutcomes statement
  | .expression value => collectExpressionOutcomes value

/-- The calls that the collection gets to. -/
inductive Collected (body : List Statement) : Call → Prop
  | statement {statement : Statement} (member : statement ∈ body) :
      Collected body (.statement statement)
  | part {call part : Call} (whole : Collected body call) (member : part ∈ outcomeParts call) :
      Collected body part

section Equations

theorem collectStatementListOutcomes_eq (statements : List Statement) :
    collectStatementListOutcomes statements =
      (statements.map .statement).flatMap callOutcomes := by
  induction statements with
  | nil => rfl
  | cons statement rest induction =>
      rw [collectStatementListOutcomes, induction]
      rfl

theorem collectTaskBodyOutcomes_eq (body : TaskBody) :
    collectTaskBodyOutcomes body = body.parts.flatMap callOutcomes := by
  cases body with
  | inline value => exact (List.flatMap_singleton _ _).symm
  | block statements result =>
      rw [TaskBody.parts, List.flatMap_append, List.flatMap_singleton,
        ← collectStatementListOutcomes_eq]
      rfl

theorem collectExpressionListOutcomes_eq (values : List Expression) :
    collectExpressionListOutcomes values = (values.map .expression).flatMap callOutcomes := by
  induction values with
  | nil => rfl
  | cons value rest induction =>
      rw [collectExpressionListOutcomes, induction]
      rfl

theorem collectPairOutcomes_eq (pairs : List (String × Expression)) :
    collectPairOutcomes pairs =
      (pairs.map fun pair => .expression pair.2).flatMap callOutcomes := by
  induction pairs with
  | nil => rfl
  | cons pair rest induction =>
      rw [collectPairOutcomes, induction]
      rfl

theorem collectArgumentOutcomes_eq (arguments : List Argument) :
    collectArgumentOutcomes arguments = (arguments.map Argument.part).flatMap callOutcomes := by
  induction arguments with
  | nil => rfl
  | cons argument rest induction =>
      cases argument <;>
        · rw [collectArgumentOutcomes, induction]
          rfl

theorem collectArmOutcomes_eq (arms : List MatchArm) :
    collectArmOutcomes arms = (arms.map MatchArm.result).flatMap callOutcomes := by
  induction arms with
  | nil => rfl
  | cons arm rest induction =>
      cases arm
      rw [collectArmOutcomes, induction]
      rfl

theorem collectMapOutcomes_eq (body : List MapStatement) :
    collectMapOutcomes body = (body.flatMap MapStatement.parts).flatMap callOutcomes := by
  induction body with
  | nil => rfl
  | cons statement rest induction =>
      rw [List.flatMap_cons, List.flatMap_append, ← induction]
      cases statement with
      | statement value =>
          rw [collectMapOutcomes, MapStatement.parts, List.flatMap_singleton]
          rfl
      | keep value condition =>
          cases condition <;> simp [collectMapOutcomes, MapStatement.parts, optionalPart, callOutcomes]
      | skip condition =>
          rw [collectMapOutcomes, MapStatement.parts, List.flatMap_singleton]
          rfl

theorem collectPipelineStageOutcomes_eq (stage : PipelineStage) :
    collectPipelineStageOutcomes stage = stage.parts.flatMap callOutcomes := by
  cases stage with
  | expression value => exact (List.flatMap_singleton _ _).symm
  | map element body =>
      rw [collectPipelineStageOutcomes, collectMapOutcomes_eq]
      rfl
  | reduce initial accumulator item body =>
      rw [collectPipelineStageOutcomes, collectTaskBodyOutcomes_eq]
      rfl
  | rescue handler =>
      cases handler with
      | inline value => exact (List.flatMap_singleton _ _).symm
      | block statements =>
          rw [collectPipelineStageOutcomes, collectStatementListOutcomes_eq]
          rfl

theorem collectStagesOutcomes_eq (stages : List PipelineStage) :
    collectStagesOutcomes stages = (stages.flatMap PipelineStage.parts).flatMap callOutcomes := by
  induction stages with
  | nil => rfl
  | cons stage rest induction =>
      rw [collectStagesOutcomes, collectPipelineStageOutcomes_eq, induction, List.flatMap_cons,
        List.flatMap_append]

/-- A call gives its own outcomes, then those of the parts that are looked into. -/
theorem callOutcomes_eq (call : Call) :
    callOutcomes call = ownOutcomes call ++ (outcomeParts call).flatMap callOutcomes := by
  cases call with
  | statement statement =>
      cases statement <;>
        simp [callOutcomes, ownOutcomes, outcomeParts, collectStatementOutcomes,
          collectStatementListOutcomes_eq, collectTaskBodyOutcomes_eq]
  | expression value =>
      cases value with
      | ifElse condition thenBranch elseBranch =>
          cases elseBranch <;>
            simp [callOutcomes, ownOutcomes, outcomeParts, collectExpressionOutcomes,
              Expression.parts, collectTaskBodyOutcomes_eq]
      | queuePush target schema payload =>
          cases payload <;>
            simp [callOutcomes, ownOutcomes, outcomeParts, collectExpressionOutcomes,
              Expression.parts, optionalPart]
      | topicPublish target schema payload =>
          cases payload <;>
            simp [callOutcomes, ownOutcomes, outcomeParts, collectExpressionOutcomes,
              Expression.parts, optionalPart]
      | _ =>
          simp [callOutcomes, ownOutcomes, outcomeParts, collectExpressionOutcomes,
            Expression.parts, collectExpressionListOutcomes_eq, collectPairOutcomes_eq,
            collectArgumentOutcomes_eq, collectArmOutcomes_eq, collectStagesOutcomes_eq]

end Equations

section Collected

theorem smaller_results (arms : List MatchArm) :
    Lint.Smaller (arms.map MatchArm.result) (sizeOf arms) := by
  intro part member
  obtain ⟨arm, inside, rfl⟩ := List.mem_map.mp member
  have whole := List.sizeOf_lt_of_mem inside
  cases arm with
  | mk pattern value =>
      rw [MatchArm.mk.sizeOf_spec] at whole
      change sizeOf value < _
      omega

theorem smaller_outcomeParts (call : Call) :
    Lint.Smaller (outcomeParts call) (Lint.callSize call) := by
  cases call with
  | statement statement =>
      cases statement with
      | «export» inner =>
          apply Lint.Smaller.cons _ (.nil _)
          simp [Lint.callSize]
      | transaction body line column | «while» condition body line column =>
          exact (Lint.smaller_statements body).weaken (by simp [Lint.callSize]; omega)
      | onQueue pattern binding schema body line column
      | onTopic pattern binding schema body line column =>
          exact (Lint.smaller_statements body).weaken (by simp [Lint.callSize]; omega)
      | taskDef name params body line column =>
          exact (Lint.smaller_taskBody body).weaken (by simp [Lint.callSize]; omega)
      | expressionStatement value line column | assignment target value line column =>
          apply Lint.Smaller.cons _ (.nil _)
          simp [Lint.callSize]
          omega
      | conditionalAssignment target value condition line column =>
          apply Lint.Smaller.cons _ (.nil _)
          simp [Lint.callSize]
          omega
      | _ => exact .nil _
  | expression value =>
      have whole := Lint.smaller_expression value
      cases value with
      | matchOn subject arms =>
          apply Lint.Smaller.cons _ ((smaller_results arms).weaken (by simp [Lint.callSize]))
          simp [Lint.callSize]
          omega
      | _ => exact whole

variable {body : List Statement}

theorem exists_collected {call : Call} (collected : Collected body call) {outcome : Outcome}
    (found : outcome ∈ callOutcomes call) :
    ∃ inner, Collected body inner ∧ outcome ∈ ownOutcomes inner := by
  rw [callOutcomes_eq] at found
  rcases List.mem_append.mp found with own | inside
  · exact ⟨call, collected, own⟩
  · obtain ⟨part, member, found⟩ := List.mem_flatMap.mp inside
    have less := smaller_outcomeParts call part member
    exact exists_collected (.part collected member) found
termination_by Lint.callSize call

theorem mem_of_collected {call : Call} (collected : Collected body call) :
    ∀ outcome ∈ callOutcomes call, outcome ∈ collectStatementListOutcomes body := by
  induction collected with
  | statement member =>
      intro outcome found
      rw [collectStatementListOutcomes_eq]
      exact List.mem_flatMap.mpr ⟨_, List.mem_map_of_mem member, found⟩
  | part whole member induction =>
      intro outcome found
      apply induction
      rw [callOutcomes_eq]
      exact List.mem_append_right _ (List.mem_flatMap.mpr ⟨_, member, found⟩)

/-- The outcomes of a body are those of the calls that the collection gets to. -/
theorem mem_collect_iff {outcome : Outcome} :
    outcome ∈ collectStatementListOutcomes body ↔
      ∃ call, Collected body call ∧ outcome ∈ ownOutcomes call := by
  constructor
  · intro found
    rw [collectStatementListOutcomes_eq] at found
    obtain ⟨call, member, found⟩ := List.mem_flatMap.mp found
    obtain ⟨statement, inside, rfl⟩ := List.mem_map.mp member
    exact exists_collected (.statement inside) found
  · intro ⟨call, collected, own⟩
    apply mem_of_collected collected
    rw [callOutcomes_eq]
    exact List.mem_append_left _ own

end Collected

/-! ## What is documented -/

/-- The route has an entry for the status, by what is written in it. -/
inductive Named (route : RouteDefinition) : ResponseKey → Prop
  | collected {call : Call} {outcome : Outcome} (collected : Collected route.body call)
      (own : outcome ∈ ownOutcomes call) : Named route outcome.key
  | auth (required : route.auth.isSome = true) : Named route (.code 401)
  | allow (restricted : route.allow ≠ []) : Named route (.code 403)
  | input (checked : checksInput route = true) : Named route (.code 422)
  | generic (silent : ∀ call, Collected route.body call → ownOutcomes call = [])
      (open' : route.auth = none) (unrestricted : route.allow = [])
      (unchecked : checksInput route = false) : Named route (.code 200)

/-- The operation has an entry for the status, or one for every status. -/
def Documents (route : RouteDefinition) (status : UInt16) : Prop :=
  ((buildResponses route).lookup (.code status)).isSome = true ∨
    ((buildResponses route).lookup .default).isSome = true

namespace Responses

variable {responses : Responses}

theorem mem_keys_entry {key name : ResponseKey} {object : ResponseObject} :
    name ∈ Table.keys (responses.entry key object) ↔ name ∈ Table.keys responses ∨ name = key := by
  rw [← Table.lookup_isSome, ← Table.lookup_isSome, Responses.entry]
  split
  · rename_i known
    constructor
    · exact .inl
    · rintro (found | rfl)
      · exact found
      · exact known
  · rw [Table.lookup_put]
    split
    · rename_i same
      simp [same]
    · rename_i other
      simp [other]

theorem mem_keys_foldl {α : Type} {items : List α} {key : α → ResponseKey}
    {object : α → ResponseObject} {name : ResponseKey} :
    name ∈ Table.keys (items.foldl
        (fun (responses : Responses) item => responses.entry (key item) (object item)) responses) ↔
      name ∈ Table.keys responses ∨ ∃ item ∈ items, name = key item := by
  induction items generalizing responses with
  | nil => simp
  | cons item rest induction =>
      rw [List.foldl_cons, induction, mem_keys_entry, List.exists_mem_cons_iff, or_assoc]

theorem mem_keys_ite {holds : Bool} {key name : ResponseKey} {object : ResponseObject} :
    name ∈ Table.keys (if holds then responses.entry key object else responses) ↔
      name ∈ Table.keys responses ∨ holds = true ∧ name = key := by
  cases holds with
  | false => simp
  | true => simp [mem_keys_entry]

end Responses

section Documents

variable {route : RouteDefinition}

/-- A reply is kept under each key that some reply has. -/
theorem exists_response_iff {outcomes : List Outcome} {key : ResponseKey} :
    (∃ spec ∈ (dedupeOutcomes outcomes).responses, key = responseKey spec.code) ↔
      ∃ spec, .response spec ∈ outcomes ∧ key = responseKey spec.code := by
  have listed (spec : ResponseSpec) : spec ∈ (outcomes.filterMap fun
      | .response spec => some spec
      | .errorCode _ => none) ↔ .response spec ∈ outcomes := by
    rw [List.mem_filterMap]
    constructor
    · rintro ⟨outcome | _, member, same⟩
      · rwa [← Option.some.inj same]
      · cases same
    · exact fun member => ⟨_, member, rfl⟩
  constructor
  · intro ⟨spec, kept, same⟩
    exact ⟨spec, (listed spec).mp (FirstOccurrences.mem_of_mem_keep _ kept), same⟩
  · intro ⟨spec, member, same⟩
    obtain ⟨first, kept, alike⟩ := FirstOccurrences.exists_keep
      (fun (kept spec : ResponseSpec) => decide (responseKey kept.code = responseKey spec.code))
      (fun _ _ => decide_eq_true rfl) ((listed spec).mpr member)
    exact ⟨first, kept, same.trans (of_decide_eq_true alike).symm⟩

theorem mem_errorCodes_iff {outcomes : List Outcome} {code : UInt16} :
    code ∈ (dedupeOutcomes outcomes).errorCodes ↔ .errorCode code ∈ outcomes := by
  rw [dedupeOutcomes, mem_sortedDistinct, List.mem_filterMap]
  constructor
  · rintro ⟨_ | code, member, same⟩
    · cases same
    · rwa [← Option.some.inj same]
  · exact fun member => ⟨_, member, rfl⟩

/-- The keys of the collected outcomes. -/
theorem exists_key_iff {outcomes : List Outcome} {key : ResponseKey} :
    ((∃ spec ∈ (dedupeOutcomes outcomes).responses, key = responseKey spec.code) ∨
      ∃ code ∈ (dedupeOutcomes outcomes).errorCodes, key = .code code) ↔
      ∃ outcome ∈ outcomes, key = outcome.key := by
  rw [exists_response_iff]
  constructor
  · rintro (⟨spec, member, same⟩ | ⟨code, member, same⟩)
    · exact ⟨_, member, same⟩
    · exact ⟨_, (mem_errorCodes_iff).mp member, same⟩
  · rintro ⟨spec | code, member, same⟩
    · exact .inl ⟨spec, member, same⟩
    · exact .inr ⟨code, (mem_errorCodes_iff).mpr member, same⟩

theorem mem_keys_listedResponses {key : ResponseKey} :
    key ∈ (listedResponses route).keys ↔
      (∃ call outcome, Collected route.body call ∧ outcome ∈ ownOutcomes call ∧
        key = outcome.key) ∨
      route.auth.isSome = true ∧ key = .code 401 ∨ route.allow ≠ [] ∧ key = .code 403 ∨
      checksInput route = true ∧ key = .code 422 := by
  have collected : (∃ outcome ∈ collectStatementListOutcomes route.body, key = outcome.key) ↔
      ∃ call outcome, Collected route.body call ∧ outcome ∈ ownOutcomes call ∧
        key = outcome.key := by
    simp only [mem_collect_iff]
    constructor
    · intro ⟨outcome, ⟨call, inside, own⟩, same⟩
      exact ⟨call, outcome, inside, own, same⟩
    · intro ⟨call, outcome, inside, own, same⟩
      exact ⟨outcome, ⟨call, inside, own⟩, same⟩
  have restricted : (!route.allow.isEmpty) = true ↔ route.allow ≠ [] := by simp
  rw [← collected, ← exists_key_iff]
  rw [listedResponses, Responses.mem_keys_ite, Responses.mem_keys_ite, Responses.mem_keys_ite,
    Responses.mem_keys_foldl, Responses.mem_keys_foldl, restricted]
  simp only [Table.keys, List.map_nil, List.not_mem_nil, false_or, or_assoc]
  rfl

/-- What is documented is what is named in the route. -/
theorem lookup_buildResponses {key : ResponseKey} :
    ((buildResponses route).lookup key).isSome = true ↔ Named route key := by
  rw [Table.lookup_isSome, buildResponses]
  have listed := @mem_keys_listedResponses route
  split
  · rename_i empty
    have none : listedResponses route = [] := List.isEmpty_iff.mp empty
    rw [none] at listed
    constructor
    · intro found
      obtain rfl := List.mem_singleton.mp found
      apply Named.generic
      · intro call collected
        apply List.eq_nil_iff_forall_not_mem.mpr
        intro outcome own
        exact List.not_mem_nil (listed.mpr (.inl ⟨call, outcome, collected, own, rfl⟩))
      · cases required : route.auth with
        | none => rfl
        | some auth =>
            exact absurd (listed.mpr (.inr (.inl ⟨by rw [required]; rfl, rfl⟩))) List.not_mem_nil
      · by_contra restricted
        exact List.not_mem_nil (listed.mpr (.inr (.inr (.inl ⟨restricted, rfl⟩))))
      · by_contra checked
        exact List.not_mem_nil
          (listed.mpr (.inr (.inr (.inr ⟨Bool.eq_true_of_not_eq_false checked, rfl⟩))))
    · intro named
      cases named with
      | collected collected own =>
          exact absurd (listed.mpr (.inl ⟨_, _, collected, own, rfl⟩)) List.not_mem_nil
      | auth required => exact absurd (listed.mpr (.inr (.inl ⟨required, rfl⟩))) List.not_mem_nil
      | allow restricted =>
          exact absurd (listed.mpr (.inr (.inr (.inl ⟨restricted, rfl⟩)))) List.not_mem_nil
      | input checked =>
          exact absurd (listed.mpr (.inr (.inr (.inr ⟨checked, rfl⟩)))) List.not_mem_nil
      | generic => exact List.mem_singleton_self _
  · rename_i some
    rw [listed]
    constructor
    · rintro (⟨call, outcome, collected, own, rfl⟩ | ⟨required, rfl⟩ | ⟨restricted, rfl⟩ |
        ⟨checked, rfl⟩)
      · exact .collected collected own
      · exact .auth required
      · exact .allow restricted
      · exact .input checked
    · intro named
      cases named with
      | collected collected own => exact .inl ⟨_, _, collected, own, rfl⟩
      | auth required => exact .inr (.inl ⟨required, rfl⟩)
      | allow restricted => exact .inr (.inr (.inl ⟨restricted, rfl⟩))
      | input checked => exact .inr (.inr (.inr ⟨checked, rfl⟩))
      | generic silent open' unrestricted unchecked =>
          refine absurd (List.isEmpty_iff.mpr (List.eq_nil_iff_forall_not_mem.mpr ?_)) some
          intro entry member
          rcases listed.mp (List.mem_map_of_mem member) with ⟨call, outcome, collected, own, -⟩ |
            ⟨required, -⟩ | ⟨restricted, -⟩ | ⟨checked, -⟩
          · rw [silent call collected] at own
            cases own
          · rw [open'] at required
            cases required
          · exact restricted unrestricted
          · rw [unchecked] at checked
            cases checked

end Documents

end OpenApi
end Marreta
