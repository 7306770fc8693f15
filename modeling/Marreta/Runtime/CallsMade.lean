import Marreta.Runtime.NamespaceParts

namespace Marreta

open Foundation
open Marreta.Action

/-! The evaluator recurses into the parts of what it evaluates, and into the code of
strings and statements. -/

variable {host : Host} {lines : Lines host} {allowed : Call → Prop}

/-! ## Values -/

section Values

@[simp, grind .] theorem built_accessProperty (object : Value) (property : String) :
    Built lines allowed (accessProperty host object property) := by
  unfold accessProperty
  grind

@[simp, grind .] theorem built_accessSubscript (object key : Value) :
    Built lines allowed (accessSubscript object key) := by
  unfold accessSubscript
  grind

@[simp, grind .] theorem built_evaluateIdentifier (name : String) :
    Built lines allowed (evaluateIdentifier name) := by
  unfold evaluateIdentifier
  split
  · trivial
  · refine ⟨blind_variable name, fun found => ?_⟩
    cases found with
    | none => exact ⟨built_position, fun _ => trivial⟩
    | some value => trivial

@[simp, grind .] theorem built_notARelation (name : String) (input : Value) :
    Built lines allowed (notARelation name input) :=
  built_typeError _

@[simp, grind .] theorem built_applyTaskToInput (task input : Value) (name : String) :
    Built lines allowed (applyTaskToInput host task input name) := by
  unfold applyTaskToInput
  split
  · exact ⟨built_mapM fun item _ => built_callTaskValue task [item] name, fun _ => trivial⟩
  · exact built_callTaskValue task _ name

@[simp, grind .] theorem built_joinOutcome (outcome : Option (Except MarretaError Value)) :
    Built lines allowed (joinOutcome outcome) := by
  unfold joinOutcome
  grind

end Values

/-! ## Method calls -/

section Methods

variable {arguments : List Argument}

/-- A method other than a native query recurses into its arguments. -/
theorem built_dispatchMethod (each : ∀ argument ∈ arguments, allowed argument.part)
    {object : Value} {method : String}
    (regular : ¬ (object = .dbNamespace ∧ method = "native_query")) :
    Built (Lines.any host) allowed (dispatchMethod host object method arguments) := by
  have evaluated := built_evaluateArgs (Lines.any host) each
  unfold dispatchMethod
  split
  · exact absurd ⟨rfl, rfl⟩ regular
  · exact ⟨evaluated, fun values => built_dispatchDocPipeline values⟩
  · exact built_dispatchDbDirect each _ _
  · exact built_dispatchCache each _
  · exact built_dispatchFs each _ _
  · exact built_dispatchJson each _ _
  · exact built_dispatchBase64 each _ _
  · exact built_dispatchUuid each _
  · exact built_dispatchFeature each _
  · exact built_dispatchLog each _ _
  · exact built_dispatchTime each _
  · exact built_dispatchMath each _ _
  · exact built_dispatchHttpClient each _ _
  · exact built_dispatchDocDirect each _ _
  · exact ⟨evaluated, fun values => ⟨built_position, fun position => built_ofLibrary _⟩⟩

end Methods

/-! ## Constructors, branches and matches -/

section Parts

theorem built_evaluatePairs {pairs : List (String × Expression)}
    (each : ∀ pair ∈ pairs, allowed (.expression pair.2)) (entries : ValueMap) :
    Built lines allowed (evaluatePairs pairs entries) := by
  induction pairs generalizing entries with
  | nil => trivial
  | cons pair rest induction =>
      exact ⟨each _ List.mem_cons_self, fun value =>
        induction (fun other member => each other (List.mem_cons_of_mem _ member)) _⟩

theorem built_evaluateSchemaConstructor {fields : List (String × Expression)}
    (each : ∀ field ∈ fields, allowed (.expression field.2)) (schemaName : String) :
    Built lines allowed (evaluateSchemaConstructor host schemaName fields) := by
  unfold evaluateSchemaConstructor
  refine ⟨blind_currentModule, fun currentModule => ?_⟩
  dsimp only
  split
  · exact built_typeError _
  · refine ⟨built_evaluatePairs each [], fun entries => ?_⟩
    dsimp only
    split
    · exact built_typeError _
    · split
      · trivial
      · exact built_typeError _

theorem built_evaluateMatch {arms : List MatchArm}
    (each : ∀ part ∈ arms.flatMap MatchArm.parts, allowed part) (subject : Value) :
    Built lines allowed (evaluateMatch host subject arms) := by
  induction arms with
  | nil => trivial
  | cons arm rest induction =>
      rw [List.flatMap_cons] at each
      have later := induction fun part member => each part (List.mem_append_right _ member)
      cases arm with
      | mk pattern value =>
          cases pattern with
          | fallback => exact each _ (List.mem_append_left _ (List.mem_singleton_self _))
          | literal pattern =>
              have first : allowed (.expression pattern) :=
                each _ (List.mem_append_left _ List.mem_cons_self)
              have result : allowed (.expression value) :=
                each _ (List.mem_append_left _ (by simp [MatchArm.parts]))
              unfold evaluateMatch
              refine ⟨first, fun matched => ?_⟩
              dsimp only
              split
              · exact result
              · exact later

/-! ## Pipelines -/

theorem arguments_of_methodCall (hereditary : Hereditary allowed) {object : Expression}
    {method : String} {arguments : List Argument}
    (allows : allowed (.expression (.methodCall object method arguments))) :
    ∀ argument ∈ arguments, allowed argument.part := by
  intro argument member
  exact hereditary.parts _ allows _ (List.mem_cons_of_mem _ (List.mem_map_of_mem member))

theorem arguments_of_functionCall (hereditary : Hereditary allowed) {name : String}
    {arguments : List Argument} (allows : allowed (.expression (.functionCall name arguments))) :
    ∀ argument ∈ arguments, allowed argument.part := by
  intro argument member
  exact hereditary.parts _ allows _ (List.mem_map_of_mem member)

theorem built_applyFunctionStage {arguments : List Argument}
    (each : ∀ argument ∈ arguments, allowed argument.part) (input : Value) (name : String) :
    Built lines allowed (applyFunctionStage host input name arguments) :=
  ⟨built_evaluateArgs lines each, fun _ => built_callFunction name _⟩

theorem built_applyNamedStage {stage : Expression} (allows : allowed (.expression stage))
    (input : Value) (name : String) :
    Built lines allowed (applyNamedStage host input stage name) := by
  unfold applyNamedStage
  split
  · exact built_notARelation _ _
  · refine ⟨blind_variable _, fun value => ?_⟩
    dsimp only
    split
    · exact built_applyTaskToInput _ _ _
    · exact allows

theorem built_applyPipelineValue (hereditary : Hereditary allowed) {stage : Expression}
    (allows : allowed (.expression stage)) (input : Value) :
    Built (Lines.any host) allowed (applyPipelineValue host input stage) := by
  have parts := hereditary.parts _ allows
  unfold applyPipelineValue
  refine ⟨blind_env, fun env => ?_⟩
  dsimp only
  split
  · exact built_applyNamedStage allows input _
  · exact built_applyNamedStage allows input _
  · exact built_applyFunctionStage (arguments_of_functionCall hereditary allows) input _
  · exact built_produce parts unlogged_push _ _
  · exact built_produce parts unlogged_publish _ _
  · exact built_pipelineCacheSet (arguments_of_methodCall hereditary allows) _
  · exact built_dispatchHttpClient (arguments_of_methodCall hereditary allows) _ _
  · exact built_dispatchFs (arguments_of_methodCall hereditary allows) _ _
  · exact built_dispatchJson (arguments_of_methodCall hereditary allows) _ _
  · exact built_dispatchBase64 (arguments_of_methodCall hereditary allows) _ _
  · exact built_dispatchLog (arguments_of_methodCall hereditary allows) _ _
  · exact built_dispatchMath (arguments_of_methodCall hereditary allows) _ _
  · split
    · exact built_applyTaskToInput _ _ _
    · exact allows
  · split
    · exact ⟨built_evaluateArgs (Lines.any host) (arguments_of_methodCall hereditary allows),
        fun _ => built_callTaskValue _ _ _⟩
    · exact allows
  · exact allows

theorem built_mapBody {body : List MapStatement}
    (each : ∀ part ∈ body.flatMap MapStatement.parts, allowed part) :
    Built lines allowed (mapBody body) := by
  induction body with
  | nil => trivial
  | cons statement rest induction =>
      rw [List.flatMap_cons] at each
      have later := induction fun part member => each part (List.mem_append_right _ member)
      have first : ∀ part ∈ statement.parts, allowed part :=
        fun part member => each part (List.mem_append_left _ member)
      cases statement with
      | statement value => exact ⟨first _ List.mem_cons_self, fun _ => later⟩
      | keep value condition =>
          have kept : allowed (.expression value) := first _ List.mem_cons_self
          cases condition with
          | none => exact ⟨kept, fun _ => trivial⟩
          | some condition =>
              unfold mapBody
              refine ⟨first _ (by simp [MapStatement.parts, optionalPart]), fun holds => ?_⟩
              dsimp only
              split
              · exact ⟨kept, fun _ => trivial⟩
              · exact later
      | skip condition =>
          unfold mapBody
          refine ⟨first _ List.mem_cons_self, fun holds => ?_⟩
          dsimp only
          split
          · trivial
          · exact later

theorem built_reduceItems {body : TaskBody} (each : ∀ part ∈ body.parts, allowed part)
    (accumulator item : String) (result : Value) (items : List Value) :
    Built lines allowed (reduceItems accumulator item body result items) := by
  induction items generalizing result with
  | nil => trivial
  | cons current rest induction => exact ⟨built_runBody each, fun next => induction next⟩

theorem built_evaluatePipelineStage (hereditary : Hereditary allowed) {stage : PipelineStage}
    (each : ∀ part ∈ stage.parts, allowed part) (input : Value) :
    Built (Lines.any host) allowed (evaluatePipelineStage host input stage) := by
  unfold evaluatePipelineStage
  split
  · exact built_applyRelationPipelineStage hereditary _ _ _
      (each _ (List.mem_singleton_self _))
  · exact built_typeError _
  · exact built_applyQueryPipelineStage hereditary _ (each _ (List.mem_singleton_self _))
  · exact built_typeError _
  · exact built_applyDocQueryPipelineStage hereditary _
      (each _ (List.mem_singleton_self _))
  · exact built_typeError _
  · exact built_applyPipelineValue hereditary (each _ (List.mem_singleton_self _)) _
  · exact ⟨built_mapM fun item _ => built_mapBody each, fun _ => trivial⟩
  · exact built_typeError _
  · exact ⟨each _ List.mem_cons_self, fun initial =>
      built_reduceItems (fun part member => each part (List.mem_cons_of_mem _ member)) _ _ _ _⟩
  · exact built_typeError _
  · trivial

theorem built_runStages (hereditary : Hereditary allowed) {stages : List PipelineStage}
    (each : ∀ part ∈ stages.flatMap PipelineStage.parts, allowed part) (input : Value) :
    Built (Lines.any host) allowed (runStages host input stages) := by
  induction stages generalizing input with
  | nil => trivial
  | cons stage rest induction =>
      rw [List.flatMap_cons] at each
      constructor
      · exact built_evaluatePipelineStage hereditary
          (fun part member => each part (List.mem_append_left _ member)) input
      · exact fun next => induction
          (fun part member => each part (List.mem_append_right _ member)) next

/-! ## Rescue -/

theorem built_execute {program : Program}
    (each : ∀ statement ∈ program, allowed (.statement statement)) :
    Built lines allowed (execute program) := by
  induction program with
  | nil => trivial
  | cons statement rest induction =>
      have later := induction fun other member => each other (List.mem_cons_of_mem _ member)
      cases rest with
      | nil => exact each _ List.mem_cons_self
      | cons second rest => exact ⟨each _ List.mem_cons_self, fun _ => later⟩

theorem built_executeRescueHandler {handler : RescueHandler}
    (each : ∀ part ∈ handler.parts, allowed part) :
    Built lines allowed (executeRescueHandler handler) := by
  cases handler with
  | inline value => exact each _ (List.mem_singleton_self _)
  | block statements =>
      apply built_execute
      intro statement member
      exact each _ (List.mem_map_of_mem member)

theorem built_rescueError {handler : Action Value} (handles : Built lines allowed handler)
    (frames : Nat) (error : MarretaError) :
    Built lines allowed (rescueError frames error handler) := by
  unfold rescueError
  split
  · trivial
  · exact handles

theorem built_runRailway (hereditary : Hereditary allowed) {stages : List PipelineStage}
    (each : ∀ part ∈ stages.flatMap PipelineStage.parts, allowed part) (frames : Nat)
    (carried : Except MarretaError Value) :
    Built (Lines.any host) allowed (runRailway host frames carried stages) := by
  induction stages generalizing carried with
  | nil =>
      cases carried with
      | ok value => trivial
      | error error => trivial
  | cons stage rest induction =>
      rw [List.flatMap_cons] at each
      have first : ∀ part ∈ stage.parts, allowed part :=
        fun part member => each part (List.mem_append_left _ member)
      have later := induction fun part member => each part (List.mem_append_right _ member)
      have staged (value : Value) :
          Built (Lines.any host) allowed (evaluatePipelineStage host value stage) :=
        built_evaluatePipelineStage hereditary first value
      cases carried with
      | ok value =>
          cases stage with
          | rescue handler => exact later (.ok value)
          | expression _ => exact ⟨staged value, later⟩
          | map _ _ => exact ⟨staged value, later⟩
          | reduce _ _ _ _ => exact ⟨staged value, later⟩
      | error error =>
          cases stage with
          | rescue handler =>
              unfold runRailway
              split
              · trivial
              · exact ⟨built_executeRescueHandler first, later⟩
          | expression _ => exact later (.error error)
          | map _ _ => exact later (.error error)
          | reduce _ _ _ _ => exact later (.error error)

theorem built_evaluatePipeline (hereditary : Hereditary allowed) {input : Expression}
    {stages : List PipelineStage} (first : allowed (.expression input))
    (each : ∀ part ∈ stages.flatMap PipelineStage.parts, allowed part) :
    Built (Lines.any host) allowed (evaluatePipeline host input stages) := by
  unfold evaluatePipeline
  split
  · exact ⟨blind_frames, fun frames => ⟨first, fun carried =>
      built_runRailway hereditary each frames carried⟩⟩
  · exact ⟨first, fun value => built_runStages hereditary each value⟩

/-! ## Broadcast -/

theorem built_applyBroadcastValue (hereditary : Hereditary allowed) {target : Expression}
    (allows : allowed (.expression target)) (input : Value) :
    Built (Lines.any host) allowed (applyBroadcastValue host input target) := by
  unfold applyBroadcastValue
  refine ⟨blind_env, fun env => ?_⟩
  dsimp only
  split
  · split
    · exact built_notARelation _ _
    · split
      · exact built_callTaskValue _ _ _
      · exact allows
  · split
    · exact built_notARelation _ _
    · split
      · exact built_callTaskValue _ _ _
      · exact allows
  · exact built_applyFunctionStage (arguments_of_functionCall hereditary allows) input _
  · exact built_dispatchFs (arguments_of_methodCall hereditary allows) _ _
  · exact built_dispatchJson (arguments_of_methodCall hereditary allows) _ _
  · exact built_dispatchBase64 (arguments_of_methodCall hereditary allows) _ _
  · exact built_dispatchLog (arguments_of_methodCall hereditary allows) _ _
  · exact built_dispatchMath (arguments_of_methodCall hereditary allows) _ _
  · split
    · exact built_callTaskValue _ _ _
    · exact allows
  · split
    · exact ⟨built_evaluateArgs (Lines.any host) (arguments_of_methodCall hereditary allows),
        fun _ => built_callTaskValue _ _ _⟩
    · exact allows
  · exact allows

theorem built_evaluateBroadcast (hereditary : Hereditary allowed) {input : Expression}
    {targets : List Expression} (first : allowed (.expression input))
    (each : ∀ target ∈ targets, allowed (.expression target)) :
    Built (Lines.any host) allowed (evaluateBroadcast host input targets) := by
  unfold evaluateBroadcast
  refine ⟨blind_insideTransaction, fun insideTransaction => ?_⟩
  dsimp only
  split
  · exact built_typeError _
  · refine ⟨first, fun value => ⟨blind_env, fun env => ?_⟩⟩
    dsimp only
    split
    · refine ⟨built_mapM fun target member => ?_, fun _ => trivial⟩
      exact built_applyBroadcastValue hereditary (each target member) value
    · refine ⟨⟨built_mapM fun target member => ?_, fun outcomes => ?_⟩, fun _ => trivial⟩
      · exact built_applyBroadcastValue hereditary (each target member) value
      · exact built_mapM fun outcome _ => built_joinOutcome outcome

/-! ## Expressions -/

theorem built_evaluateBinaryOp {left right : Expression} (first : allowed (.expression left))
    (second : allowed (.expression right)) (operator : BinaryOperator) :
    Built lines allowed (evaluateBinaryOp host left operator right) := by
  unfold evaluateBinaryOp
  refine ⟨first, fun leftValue => ?_⟩
  dsimp only
  split
  · split
    · exact second
    · trivial
  · split
    · trivial
    · exact second
  · exact ⟨second, fun rightValue => ⟨built_position, fun _ => built_ofLibrary _⟩⟩

/-- An expression that is neither a method call nor made of stages or branches. -/
def Expression.isLocal : Expression → Bool
  | .methodCall .. | .pipeline .. | .broadcast .. => false
  | _ => true

theorem built_evaluate_of_isLocal {expression : Expression} (isLocal : expression.isLocal = true)
    (each : ∀ part ∈ expression.parts, allowed part)
    (codes : ∀ text, expression = .stringLiteral text → ∀ hole ∈ templateHoles text,
      AllowsCode allowed hole) :
    Built lines allowed (evaluate host expression) := by
  cases expression with
  | integer value => trivial
  | float value => trivial
  | boolean value => trivial
  | null => trivial
  | stringLiteral text => exact built_interpolateString (codes text rfl)
  | list items =>
      refine ⟨built_mapM fun item member => ?_, fun _ => trivial⟩
      exact each _ (List.mem_map_of_mem member)
  | mapLiteral pairs =>
      refine ⟨built_evaluatePairs (fun pair member => ?_) [], fun _ => trivial⟩
      exact each _ (List.mem_map.mpr ⟨pair, member, rfl⟩)
  | schemaConstructor schemaName fields =>
      apply built_evaluateSchemaConstructor
      intro field member
      exact each _ (List.mem_map.mpr ⟨field, member, rfl⟩)
  | identifier name => exact built_evaluateIdentifier name
  | binaryOp left operator right =>
      exact built_evaluateBinaryOp (each _ List.mem_cons_self)
        (each _ (by simp [Expression.parts])) operator
  | unaryOp operator operand =>
      exact ⟨each _ List.mem_cons_self, fun value => ⟨built_position, fun _ => built_ofLibrary _⟩⟩
  | propertyAccess object property =>
      refine ⟨each _ List.mem_cons_self, fun value => ?_⟩
      grind
  | methodCall object method arguments => cases isLocal
  | httpClientResponseSchema call schemaName =>
      exact built_evaluateHttpClientResponseSchema (each _ List.mem_cons_self) schemaName
  | functionCall name arguments =>
      refine ⟨built_evaluateArgs lines fun argument member => ?_, fun _ =>
        built_callFunction name _⟩
      exact each _ (List.mem_map_of_mem member)
  | taskCall name =>
      refine ⟨blind_variable name, fun found => ?_⟩
      cases found with
      | none => exact ⟨built_position, fun _ => trivial⟩
      | some value => trivial
  | matchOn subject arms =>
      exact ⟨each _ List.mem_cons_self, fun value =>
        built_evaluateMatch (fun part member => each part (List.mem_cons_of_mem _ member)) value⟩
  | ifElse condition thenBranch elseBranch =>
      unfold evaluate
      refine ⟨each _ List.mem_cons_self, fun holds => ?_⟩
      dsimp only
      split
      · apply built_runBody
        intro part member
        exact each part (by simp [Expression.parts, member])
      · split
        · apply built_runBody
          intro part member
          exact each part (by simp [Expression.parts, member])
        · trivial
  | subscript object key =>
      exact ⟨each _ List.mem_cons_self, fun objectValue =>
        ⟨each _ (by simp [Expression.parts]), fun keyValue =>
          built_accessSubscript objectValue keyValue⟩⟩
  | pipeline input stages => cases isLocal
  | broadcast input targets => cases isLocal
  | rescue expression handler =>
      have handles : Built lines allowed (eval handler) := each _ (by simp [Expression.parts])
      refine ⟨blind_frames, fun frames => ⟨each _ List.mem_cons_self, fun outcome => ?_⟩⟩
      cases outcome with
      | ok value => trivial
      | error error => exact built_rescueError handles frames error
  | queuePush queueName schema payload => exact built_produce each unlogged_push schema none
  | topicPublish topic schema payload => exact built_produce each unlogged_publish schema none

/-- An expression recurses into its parts, and a string into its code.  A method call,
which may be a native query, is dealt with apart. -/
theorem built_evaluate (hereditary : Hereditary allowed) {expression : Expression}
    (each : ∀ part ∈ expression.parts, allowed part)
    (codes : ∀ text, expression = .stringLiteral text → ∀ hole ∈ templateHoles text,
      AllowsCode allowed hole)
    (regular : ∀ object method arguments, expression ≠ .methodCall object method arguments) :
    Built (Lines.any host) allowed (evaluate host expression) := by
  cases expression with
  | methodCall object method arguments => exact absurd rfl (regular object method arguments)
  | pipeline input stages =>
      exact built_evaluatePipeline hereditary (each _ List.mem_cons_self)
        fun part member => each part (List.mem_cons_of_mem _ member)
  | broadcast input targets =>
      refine built_evaluateBroadcast hereditary (each _ List.mem_cons_self) ?_
      intro target member
      exact each _ (List.mem_cons_of_mem _ (List.mem_map_of_mem member))
  | _ => exact built_evaluate_of_isLocal rfl each codes

/-! ## Statements -/

theorem built_whileLoop {condition : Expression} {body : List Statement}
    (first : allowed (.expression condition))
    (each : ∀ statement ∈ body, allowed (.statement statement)) (remaining : Nat) :
    Built lines allowed (whileLoop condition body remaining) := by
  induction remaining with
  | zero =>
      unfold whileLoop
      refine ⟨first, fun holds => ?_⟩
      dsimp only
      split
      · exact built_runtimeError _
      · trivial
  | succ remaining induction =>
      unfold whileLoop
      refine ⟨first, fun holds => ?_⟩
      dsimp only
      split
      · exact ⟨built_block each, fun _ => induction⟩
      · trivial

theorem built_conditionHolds {condition : Option Expression}
    (each : ∀ part ∈ optionalPart condition, allowed part) :
    Built lines allowed (conditionHolds condition) := by
  cases condition with
  | none => trivial
  | some condition => exact ⟨each _ (List.mem_singleton_self _), fun _ => trivial⟩

theorem built_replyHeaders {headers : Option Expression}
    (each : ∀ part ∈ optionalPart headers, allowed part) :
    Built lines allowed (replyHeaders host headers) := by
  cases headers with
  | none => trivial
  | some headers =>
      refine ⟨each _ (List.mem_singleton_self _), fun value => ?_⟩
      grind

theorem built_executeReply {statusCode body : Expression} {extraHeaders : Option Expression}
    (first : allowed (.expression statusCode)) (second : allowed (.expression body))
    (each : ∀ part ∈ optionalPart extraHeaders, allowed part) (contentType : ReplyContentType)
    (responseSchema : Option String) :
    Built lines allowed
      (executeReply host statusCode contentType body responseSchema extraHeaders) := by
  unfold executeReply
  refine ⟨first, fun status => ?_⟩
  dsimp only
  split
  · refine ⟨second, fun value => ⟨blind_currentModule, fun currentModule => ?_⟩⟩
    exact ⟨built_replyHeaders each, fun _ => trivial⟩
  · exact built_typeError _

/-- A statement recurses into its parts. -/
theorem built_executeStatement {statement : Statement}
    (each : ∀ part ∈ statement.parts, allowed part) :
    Built lines allowed (executeStatement host statement) := by
  have kind : Built lines allowed (executeKind host statement) := by
    cases statement with
    | assignment target value line column =>
        exact ⟨each _ List.mem_cons_self, fun _ => ⟨trivial, fun _ => trivial⟩⟩
    | conditionalAssignment target value condition line column =>
        have assigned : allowed (.expression value) := each _ (by simp [Statement.parts])
        unfold executeKind
        refine ⟨each _ List.mem_cons_self, fun holds => ?_⟩
        dsimp only
        split
        · exact ⟨assigned, fun _ => ⟨trivial, fun _ => trivial⟩⟩
        · trivial
    | require | reject =>
        unfold executeKind
        refine ⟨each _ List.mem_cons_self, fun holds => ?_⟩
        dsimp only
        split
        · trivial
        · trivial
    | «while» condition body line column =>
        apply built_whileLoop (each _ List.mem_cons_self)
        intro statement member
        exact each _ (List.mem_cons_of_mem _ (List.mem_map_of_mem member))
    | taskDef name params body line column =>
        exact ⟨blind_currentModule, fun _ => ⟨trivial, fun _ => trivial⟩⟩
    | expressionStatement | «export» => exact each _ List.mem_cons_self
    | route | schema | authProvider | scenario => trivial
    | transaction body line column =>
        refine ⟨built_block fun statement member => ?_, fun _ => trivial⟩
        exact each _ (List.mem_map_of_mem member)
    | reply statusCode contentType body responseSchema extraHeaders line column =>
        exact built_executeReply (each _ List.mem_cons_self) (each _ (by simp [Statement.parts]))
          (fun part member => each part (by simp [Statement.parts, member])) contentType
          responseSchema
    | fail statusCode message line column =>
        exact ⟨each _ List.mem_cons_self, fun _ => trivial⟩
    | raise message condition line column =>
        have raised : allowed (.expression message) := each _ List.mem_cons_self
        unfold executeKind
        refine ⟨built_conditionHolds fun part member =>
          each part (List.mem_cons_of_mem _ member), fun holds => ?_⟩
        dsimp only
        split
        · exact ⟨raised, fun _ => trivial⟩
        · trivial
    | onQueue => trivial
    | onTopic => trivial
    | nack requeue condition line column =>
        unfold executeKind
        refine ⟨built_conditionHolds each, fun holds => ?_⟩
        dsimp only
        split
        · trivial
        · trivial
  unfold executeStatement
  split
  · exact ⟨trivial, fun _ => kind⟩
  · exact kind

end Parts
end Marreta
