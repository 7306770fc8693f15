import Marreta.OpenApi.OperationIds

namespace Marreta

open Foundation

/-! The components that an operation refers to are among the names its route mentions. -/

namespace OpenApi

section Inferred

variable {componentNames : List String} {name : String}

theorem eq_of_mem_refs_fallback {schema : String}
    (shown : name ∈ (schemaRefOrFallback componentNames schema).refs) : name = schema := by
  rw [schemaRefOrFallback] at shown
  split at shown
  · exact List.mem_singleton.mp shown
  · cases shown

theorem mem_entriesRefs {entries : List (String × BodySchema)} :
    name ∈ BodySchema.entriesRefs entries ↔ ∃ entry ∈ entries, name ∈ entry.2.refs := by
  induction entries with
  | nil => simp [BodySchema.entriesRefs]
  | cons entry rest induction =>
      rw [BodySchema.entriesRefs, List.mem_append, induction, List.exists_mem_cons_iff]

variable (moduleId : Option String)

mutual
theorem mem_of_inferExpressionSchema (value : Expression)
    (shown : name ∈ (inferExpressionSchema componentNames value).refs) :
    (name, moduleId) ∈ expressionSchemaRefs moduleId value := by
  cases value with
  | list items =>
      rw [inferExpressionSchema, BodySchema.refs] at shown
      rw [expressionSchemaRefs]
      exact mem_of_inferListItemSchema items shown
  | mapLiteral items =>
      rw [inferExpressionSchema, BodySchema.refs, mem_entriesRefs] at shown
      rw [expressionSchemaRefs]
      obtain ⟨entry, inside, shown⟩ := shown
      exact (mem_of_inferProperties items [] entry inside shown).resolve_left nofun
  | schemaConstructor schemaName fields =>
      rw [inferExpressionSchema] at shown
      rw [expressionSchemaRefs, eq_of_mem_refs_fallback shown]
      exact List.mem_cons_self
  | functionCall function arguments =>
      rw [inferExpressionSchema] at shown
      split at shown <;> cases shown
  | _ => cases shown

theorem mem_of_inferListItemSchema (items : List Expression)
    (shown : name ∈ (inferListItemSchema componentNames items).refs) :
    (name, moduleId) ∈ expressionsSchemaRefs moduleId items := by
  cases items with
  | nil => cases shown
  | cons first rest =>
      rw [inferListItemSchema] at shown
      rw [expressionsSchemaRefs]
      apply List.mem_append_left
      apply mem_of_inferExpressionSchema first
      split at shown
      · exact shown
      · cases shown

theorem mem_of_inferProperties (items : List (String × Expression))
    (properties : Table String BodySchema) (entry : String × BodySchema)
    (inside : entry ∈ inferProperties componentNames properties items)
    (shown : name ∈ entry.2.refs) :
    entry ∈ properties ∨ (name, moduleId) ∈ pairSchemaRefs moduleId items := by
  cases items with
  | nil => exact .inl inside
  | cons pair rest =>
      obtain ⟨key, value⟩ := pair
      rw [inferProperties] at inside
      rw [pairSchemaRefs, List.mem_append]
      rcases mem_of_inferProperties rest _ entry inside shown with put | later
      · rcases Table.mem_put put with rfl | old
        · exact .inr (.inl (mem_of_inferExpressionSchema value shown))
        · exact .inl old
      · exact .inr (.inr later)
end

theorem mem_of_responseContent (response : ResponseSpec)
    (shown : name ∈ (responseContent componentNames response).schema.refs) :
    (name, moduleId) ∈ schemaMentions moduleId response.schemaName ++
      expressionSchemaRefs moduleId response.body := by
  rw [responseContent] at shown
  split at shown
  · cases named : response.schemaName with
    | none =>
        rw [named] at shown
        exact List.mem_append_right _ (mem_of_inferExpressionSchema moduleId _ shown)
    | some schema =>
        rw [named] at shown
        rw [eq_of_mem_refs_fallback shown]
        exact List.mem_append_left _ List.mem_cons_self
  · cases shown
  · cases shown

end Inferred

/-! ## Names in the parts of a body -/

section Parts

variable {moduleId : Option String}

def callSchemaRefs (moduleId : Option String) : Call → List SchemaMention
  | .statement statement => statementSchemaRefs moduleId statement
  | .expression value => expressionSchemaRefs moduleId value

theorem responseSchemaRefs_eq (statements : List Statement) :
    responseSchemaRefs moduleId statements =
      (statements.map .statement).flatMap (callSchemaRefs moduleId) := by
  induction statements with
  | nil => rfl
  | cons statement rest induction =>
      rw [responseSchemaRefs, induction]
      rfl

theorem taskBodySchemaRefs_eq (body : TaskBody) :
    taskBodySchemaRefs moduleId body = body.parts.flatMap (callSchemaRefs moduleId) := by
  cases body with
  | inline value => exact (List.flatMap_singleton _ _).symm
  | block statements result =>
      rw [TaskBody.parts, List.flatMap_append, List.flatMap_singleton, ← responseSchemaRefs_eq]
      rfl

theorem expressionsSchemaRefs_eq (values : List Expression) :
    expressionsSchemaRefs moduleId values =
      (values.map .expression).flatMap (callSchemaRefs moduleId) := by
  induction values with
  | nil => rfl
  | cons value rest induction =>
      rw [expressionsSchemaRefs, induction]
      rfl

theorem pairSchemaRefs_eq (pairs : List (String × Expression)) :
    pairSchemaRefs moduleId pairs =
      (pairs.map fun pair => .expression pair.2).flatMap (callSchemaRefs moduleId) := by
  induction pairs with
  | nil => rfl
  | cons pair rest induction =>
      rw [pairSchemaRefs, induction]
      rfl

theorem argumentSchemaRefs_eq (arguments : List Argument) :
    argumentSchemaRefs moduleId arguments =
      (arguments.map Argument.part).flatMap (callSchemaRefs moduleId) := by
  induction arguments with
  | nil => rfl
  | cons argument rest induction =>
      cases argument <;>
        · rw [argumentSchemaRefs, induction]
          rfl

theorem armSchemaRefs_eq (arms : List MatchArm) :
    armSchemaRefs moduleId arms =
      (arms.map MatchArm.result).flatMap (callSchemaRefs moduleId) := by
  induction arms with
  | nil => rfl
  | cons arm rest induction =>
      cases arm
      rw [armSchemaRefs, induction]
      rfl

theorem mapStatementSchemaRefs_eq (body : List MapStatement) :
    mapStatementSchemaRefs moduleId body =
      (body.flatMap MapStatement.parts).flatMap (callSchemaRefs moduleId) := by
  induction body with
  | nil => rfl
  | cons statement rest induction =>
      rw [List.flatMap_cons, List.flatMap_append, ← induction]
      cases statement with
      | statement value =>
          rw [mapStatementSchemaRefs, MapStatement.parts, List.flatMap_singleton]
          rfl
      | keep value condition =>
          cases condition <;>
            simp [mapStatementSchemaRefs, MapStatement.parts, optionalPart, callSchemaRefs]
      | skip condition =>
          rw [mapStatementSchemaRefs, MapStatement.parts, List.flatMap_singleton]
          rfl

theorem stageSchemaRefs_eq (stages : List PipelineStage) :
    stageSchemaRefs moduleId stages =
      (stages.flatMap PipelineStage.parts).flatMap (callSchemaRefs moduleId) := by
  induction stages with
  | nil => rfl
  | cons stage rest induction =>
      rw [List.flatMap_cons, List.flatMap_append, ← induction]
      cases stage with
      | expression value =>
          rw [stageSchemaRefs, PipelineStage.parts, List.flatMap_singleton]
          rfl
      | map element body =>
          rw [stageSchemaRefs, mapStatementSchemaRefs_eq]
          rfl
      | reduce initial accumulator item body =>
          rw [stageSchemaRefs, taskBodySchemaRefs_eq]
          rfl
      | rescue handler =>
          cases handler with
          | inline value =>
              rw [stageSchemaRefs, PipelineStage.parts, RescueHandler.parts, List.flatMap_singleton]
              rfl
          | block statements =>
              rw [stageSchemaRefs, responseSchemaRefs_eq]
              rfl

/-- What a part mentions is mentioned by the whole. -/
theorem mentions_of_part {call part : Call} (member : part ∈ outcomeParts call)
    {mention : SchemaMention} (mentioned : mention ∈ callSchemaRefs moduleId part) :
    mention ∈ callSchemaRefs moduleId call := by
  have inside : mention ∈ (outcomeParts call).flatMap (callSchemaRefs moduleId) :=
    List.mem_flatMap.mpr ⟨part, member, mentioned⟩
  cases call with
  | statement statement =>
      cases statement with
      | transaction | «while» | onQueue | onTopic =>
          rw [outcomeParts, ← responseSchemaRefs_eq] at inside
          exact inside
      | taskDef =>
          rw [outcomeParts, ← taskBodySchemaRefs_eq] at inside
          exact inside
      | «export» | expressionStatement | assignment | conditionalAssignment =>
          rw [outcomeParts, List.flatMap_singleton] at inside
          exact inside
      | _ => cases inside
  | expression value =>
      cases value with
      | ifElse condition thenBranch elseBranch =>
          cases elseBranch <;>
            simpa [outcomeParts, Expression.parts, callSchemaRefs, expressionSchemaRefs,
              taskBodySchemaRefs_eq] using inside
      | queuePush target schema payload =>
          cases payload <;>
            simp [outcomeParts, Expression.parts, optionalPart, callSchemaRefs,
              expressionSchemaRefs] at inside ⊢ <;> tauto
      | topicPublish target schema payload =>
          cases payload <;>
            simp [outcomeParts, Expression.parts, optionalPart, callSchemaRefs,
              expressionSchemaRefs] at inside ⊢ <;> tauto
      | schemaConstructor schemaName fields =>
          apply List.mem_cons_of_mem
          rw [pairSchemaRefs_eq]
          exact inside
      | httpClientResponseSchema call schemaName =>
          apply List.mem_cons_of_mem
          obtain rfl : part = .expression call := List.mem_singleton.mp member
          exact mentioned
      | integer | float | stringLiteral | boolean | null | identifier | taskCall => cases inside
      | _ =>
          simpa [outcomeParts, Expression.parts, callSchemaRefs, expressionSchemaRefs,
            expressionsSchemaRefs_eq, pairSchemaRefs_eq, argumentSchemaRefs_eq, armSchemaRefs_eq,
            stageSchemaRefs_eq] using inside

theorem mentions_of_collected {body : List Statement} {call : Call}
    (collected : Collected body call) {mention : SchemaMention}
    (mentioned : mention ∈ callSchemaRefs moduleId call) :
    mention ∈ responseSchemaRefs moduleId body := by
  induction collected with
  | statement member =>
      rw [responseSchemaRefs_eq]
      exact List.mem_flatMap.mpr ⟨_, List.mem_map_of_mem member, mentioned⟩
  | part _ member induction => exact induction (mentions_of_part member mentioned)

end Parts

/-! ## The references of an operation -/

section Operations

variable {componentNames : List String} {route : RouteDefinition} {name : String}

namespace Responses

/-- The replies of the entries are among some outcomes. -/
def RepliesIn (outcomes : List Outcome) (responses : Responses) : Prop :=
  ∀ entry ∈ responses, ∀ spec, entry.2.reply = some spec → .response spec ∈ outcomes

variable {outcomes : List Outcome} {responses : Responses}

theorem RepliesIn.entry (before : RepliesIn outcomes responses) {key : ResponseKey}
    {object : ResponseObject}
    (own : ∀ spec, object.reply = some spec → .response spec ∈ outcomes) :
    RepliesIn outcomes (responses.entry key object) := by
  rw [Responses.entry]
  split
  · exact before
  · intro entry member
    rcases Table.mem_put member with rfl | old
    · exact own
    · exact before entry old

theorem RepliesIn.foldl {α : Type} {items : List α} {key : α → ResponseKey}
    {object : α → ResponseObject} (before : RepliesIn outcomes responses)
    (own : ∀ item ∈ items, ∀ spec, (object item).reply = some spec → .response spec ∈ outcomes) :
    RepliesIn outcomes (items.foldl
      (fun (responses : Responses) item => responses.entry (key item) (object item))
      responses) := by
  induction items generalizing responses with
  | nil => exact before
  | cons item rest induction =>
      obtain ⟨first, own⟩ := List.forall_mem_cons.mp own
      exact induction (before.entry first) own

theorem RepliesIn.ite (before : RepliesIn outcomes responses) {holds : Bool} {key : ResponseKey}
    {code : UInt16} :
    RepliesIn outcomes
      (if holds then responses.entry key (errorToOpenapi code) else responses) := by
  cases holds with
  | false => exact before
  | true => exact before.entry nofun

end Responses

theorem repliesIn_listedResponses :
    Responses.RepliesIn (collectStatementListOutcomes route.body) (listedResponses route) := by
  apply Responses.RepliesIn.ite
  apply Responses.RepliesIn.ite
  apply Responses.RepliesIn.ite
  apply Responses.RepliesIn.foldl
  · apply Responses.RepliesIn.foldl
    · nofun
    · intro spec kept reply same
      obtain rfl := Option.some.inj same
      obtain ⟨outcome, member, same⟩ := List.mem_filterMap.mp
        (FirstOccurrences.mem_of_mem_keep _ kept)
      cases outcome with
      | response other =>
          rw [← Option.some.inj same]
          exact member
      | errorCode code => cases same
  · intro code _ spec same
    cases same

/-- The bodies of the replies that are listed show names that the body of the route mentions. -/
theorem mem_of_response {entry : ResponseKey × ResponseObject} {spec : ResponseSpec}
    (listed : entry ∈ listedResponses route) (reply : entry.2.reply = some spec)
    (shown : name ∈ (responseContent componentNames spec).schema.refs) :
    (name, route.moduleId) ∈ responseSchemaRefs route.moduleId route.body := by
  obtain ⟨call, collected, own⟩ :=
    mem_collect_iff.mp (repliesIn_listedResponses entry listed spec reply)
  apply mentions_of_collected collected
  cases call with
  | statement statement =>
      cases statement with
      | reply statusCode contentType body responseSchema headers line column =>
          obtain rfl := Outcome.response.inj (List.mem_singleton.mp own)
          exact mem_of_responseContent route.moduleId _ shown
      | fail | require | reject | raise => cases List.mem_singleton.mp own
      | _ => cases own
  | expression value =>
      cases value with
      | functionCall function arguments =>
          have failed : Outcome.response spec ∈ failedStatus function arguments := own
          rw [failedStatus.eq_def] at failed
          split at failed
          · split at failed
            · cases List.mem_singleton.mp failed
            · cases failed
          · cases failed
      | _ => cases own

theorem mem_of_requestBody {content : Content}
    (body : buildRequestBody componentNames route = some content)
    (shown : name ∈ content.schema.refs) :
    bindingSchema route.take .payload = some name := by
  rw [buildRequestBody] at body
  split at body
  · obtain rfl := Option.some.inj body
    cases bound : bindingSchema route.take .payload with
    | none =>
        rw [bound] at shown
        cases shown
    | some schema =>
        rw [bound] at shown
        rw [eq_of_mem_refs_fallback shown]
  · split at body
    · obtain rfl := Option.some.inj body
      cases shown
    · split at body
      · obtain rfl := Option.some.inj body
        cases shown
      · cases body

/-- An operation refers to names that its route mentions. -/
theorem mem_of_operation {operationId : String}
    (shown : name ∈ (buildOperation componentNames route operationId).refs) :
    (name, route.moduleId) ∈ routeSchemaRefs route := by
  obtain ⟨content, inside, shown⟩ := List.mem_flatMap.mp shown
  rw [routeSchemaRefs]
  rcases List.mem_append.mp inside with body | response
  · apply List.mem_append_left
    refine List.mem_flatMap.mpr ⟨.payload, List.mem_cons_self, ?_⟩
    rw [mem_of_requestBody (Option.mem_toList.mp body) shown]
    exact List.mem_cons_self
  · apply List.mem_append_right
    obtain ⟨entry, member, known⟩ := List.mem_filterMap.mp response
    rw [buildOperation] at member
    change entry ∈ (if (listedResponses route).isEmpty then _ else _) at member
    split at member
    · obtain rfl := List.mem_singleton.mp member
      obtain rfl := Option.some.inj known
      cases shown
    · obtain ⟨entry, listed, rfl⟩ := List.mem_map.mp member
      obtain ⟨spec, reply, rfl⟩ := Option.map_eq_some_iff.mp known
      exact mem_of_response listed reply shown

end Operations

end OpenApi
end Marreta
