import Marreta.Runtime.Constituents

namespace Marreta

open Foundation
open Marreta.Action

/-! Calls of the namespaces recurse into their arguments only. -/

variable {host : Host} {lines : Lines host} {allowed : Call → Prop}

/-! ## Namespaces -/

section Namespaces

variable {arguments : List Argument}

@[simp, grind .] theorem built_emitLogValue (level : LogLevel) (value : Value) :
    Built (Lines.any host) allowed (emitLogValue host level value) := by
  unfold emitLogValue logFailure
  grind

theorem built_dispatchLog (each : ∀ argument ∈ arguments, allowed argument.part)
    (method : String) (injected : Option Value) :
    Built (Lines.any host) allowed (dispatchLog host method arguments injected) := by
  have collected := built_collectNamedAndPositional (Lines.any host) each injected
  unfold dispatchLog
  grind

@[simp, grind .] theorem built_fsStringArg (arguments : List Value) (index : Nat)
    (method : String) : Built lines allowed (fsStringArg arguments index method) := by
  unfold fsStringArg
  grind

@[simp, grind .] theorem built_askFs {α : Type} (path : String) (reply : Except FsFailure α) :
    Built lines allowed (askFs path reply) := by
  unfold askFs
  grind

@[simp, grind .] theorem built_fsPath (method : String) (positional : List Value) :
    Built lines allowed (fsPath method positional) := by
  unfold fsPath
  grind

@[simp, grind .] theorem built_fsPathAndContent (method : String) (positional : List Value)
    (isInjected : Bool) : Built lines allowed (fsPathAndContent method positional isInjected) := by
  unfold fsPathAndContent
  grind

theorem built_dispatchFs (each : ∀ argument ∈ arguments, allowed argument.part)
    (method : String) (injected : Option Value) :
    Built lines allowed (dispatchFs method arguments injected) := by
  have collected := built_collectNamedAndPositional lines each injected
  unfold dispatchFs
  refine ⟨collected, fun collected => ⟨built_ensureNoNamedArgs _ _, fun _ => ?_⟩⟩
  split <;> grind

theorem built_dispatchJson (each : ∀ argument ∈ arguments, allowed argument.part)
    (method : String) (injected : Option Value) :
    Built lines allowed (dispatchJson host method arguments injected) := by
  have collected := built_collectNamedAndPositional lines each injected
  unfold dispatchJson
  grind

theorem built_dispatchBase64 (each : ∀ argument ∈ arguments, allowed argument.part)
    (method : String) (injected : Option Value) :
    Built lines allowed (dispatchBase64 host method arguments injected) := by
  have collected := built_collectNamedAndPositional lines each injected
  unfold dispatchBase64
  grind

theorem built_dispatchMath (each : ∀ argument ∈ arguments, allowed argument.part)
    (method : String) (injected : Option Value) :
    Built lines allowed (dispatchMath host method arguments injected) := by
  have collected := built_collectNamedAndPositional lines each injected
  unfold dispatchMath
  grind

theorem built_dispatchUuid (each : ∀ argument ∈ arguments, allowed argument.part)
    (method : String) : Built lines allowed (dispatchUuid method arguments) := by
  have evaluated := built_evaluateArgs lines each
  unfold dispatchUuid
  grind

theorem built_dispatchFeature (each : ∀ argument ∈ arguments, allowed argument.part)
    (method : String) : Built lines allowed (dispatchFeature host method arguments) := by
  have evaluated := built_evaluateArgs lines each
  unfold dispatchFeature
  grind

theorem built_dispatchTime (each : ∀ argument ∈ arguments, allowed argument.part)
    (method : String) : Built lines allowed (dispatchTime host method arguments) := by
  have evaluated := built_evaluateArgs lines each
  unfold dispatchTime
  grind

@[simp, grind .] theorem built_cacheError {α : Type} (message op : String) :
    Built lines allowed (cacheError message op : Action α) :=
  trivial

@[simp, grind .] theorem built_requireCacheDriver (op : String) :
    Built lines allowed (requireCacheDriver host op) := by
  unfold requireCacheDriver
  split
  · trivial
  · trivial

@[simp, grind .] theorem built_askCache (op : String) (request : CacheOp) :
    Built lines allowed (askCache op request) := by
  unfold askCache
  grind

@[simp, grind .] theorem built_cacheArgument (op message : String) (positional : List Value)
    (index : Nat) : Built lines allowed (cacheArgument op message positional index) := by
  unfold cacheArgument
  grind

@[simp, grind .] theorem built_cacheKey (op : String) (positional : List Value) :
    Built lines allowed (cacheKey host op positional) := by
  unfold cacheKey
  grind

theorem built_dispatchCache (each : ∀ argument ∈ arguments, allowed argument.part)
    (method : String) : Built lines allowed (dispatchCache host method arguments) := by
  have collected := built_collectNamedAndPositional lines each none
  unfold dispatchCache
  refine ⟨built_requireCacheDriver _, fun _ => ⟨collected, fun collected => ?_⟩⟩
  dsimp only
  split <;> grind

theorem built_pipelineCacheSet (each : ∀ argument ∈ arguments, allowed argument.part)
    (input : Value) : Built lines allowed (pipelineCacheSet host arguments input) := by
  unfold pipelineCacheSet
  refine ⟨built_requireCacheDriver _, fun _ => ?_⟩
  split
  · rename_i expression rest
    refine ⟨each _ List.mem_cons_self, fun key => ⟨?_, fun named => ?_⟩⟩
    · apply built_mapM
      intro entry member
      obtain ⟨argument, inside, kept⟩ := List.mem_filterMap.mp member
      cases argument with
      | positional value => cases kept
      | named name value =>
          obtain rfl := Option.some.inj kept
          exact ⟨each _ (List.mem_cons_of_mem _ inside), fun _ => trivial⟩
    · exact ⟨built_askCache _ _, fun _ => trivial⟩
  · exact built_cacheError _ _

@[simp, grind .] theorem built_httpClientError {α : Type} (message op : String) :
    Built lines allowed (httpClientError message op : Action α) :=
  trivial

@[simp, grind .] theorem built_outboundChild (context : TraceContext) :
    Built lines allowed (outboundChild context) := by
  unfold outboundChild
  grind

@[simp, grind .] theorem built_httpUrl (method op : String) (positional : List Value) :
    Built lines allowed (httpUrl method op positional) := by
  unfold httpUrl
  grind

@[simp, grind .] theorem built_httpQuery (httpMethod : HttpMethod) (method op : String)
    (named : List (String × Value)) (input : Option Value) :
    Built lines allowed (httpQuery host httpMethod method op named input) := by
  unfold httpQuery
  grind

@[simp, grind .] theorem built_httpHeaders (named : List (String × Value)) :
    Built lines allowed (httpHeaders host named) := by
  unfold httpHeaders
  grind

theorem built_dispatchHttpClient (each : ∀ argument ∈ arguments, allowed argument.part)
    (method : String) (input : Option Value) :
    Built lines allowed (dispatchHttpClient host method arguments input) := by
  have collected := built_collectNamedAndPositional lines each none
  unfold dispatchHttpClient
  dsimp only
  split
  · exact built_httpClientError _ _
  · split
    · exact built_httpClientError _ _
    · refine ⟨collected, fun collected => ⟨built_httpUrl _ _ _, fun url => ?_⟩⟩
      refine ⟨built_httpQuery _ _ _ _ _, fun query => ⟨built_httpHeaders _, fun headers => ?_⟩⟩
      grind

theorem built_evaluateHttpClientResponseSchema {call : Expression}
    (allows : allowed (.expression call)) (schemaName : String) :
    Built lines allowed (evaluateHttpClientResponseSchema host call schemaName) := by
  unfold evaluateHttpClientResponseSchema
  refine ⟨allows, fun response => ?_⟩
  grind

@[simp, grind .] theorem built_queueMessage (payload : Value) :
    Built lines allowed (queueMessage host payload) := by
  unfold queueMessage
  grind

theorem unlogged_push (name : String) (message : QueueMessage) :
    Unlogged lines (queueProducer.request name message) :=
  trivial

theorem unlogged_publish (name : String) (message : QueueMessage) :
    Unlogged lines (topicProducer.request name message) :=
  trivial

theorem built_deliver {producer : Producer}
    (sends : ∀ name message, Unlogged lines (producer.request name message)) (name : String)
    (value : Value) : Built lines allowed (deliver host producer name value) := by
  unfold deliver
  grind

theorem built_produce {target : Expression} {payload : Option Expression}
    (each : ∀ part ∈ Call.expression target :: optionalPart payload, allowed part)
    {producer : Producer}
    (sends : ∀ name message, Unlogged lines (producer.request name message))
    (schema : Option String) (input : Option Value) :
    Built lines allowed (produce host producer target schema payload input) := by
  have delivers := @built_deliver host lines allowed producer sends
  have first : allowed (.expression target) := each _ List.mem_cons_self
  have second : ∀ value, payload = some value → allowed (.expression value) := by
    rintro value rfl
    exact each _ (by simp [optionalPart])
  unfold produce
  dsimp only
  split
  · trivial
  · refine ⟨first, fun target => ?_⟩
    grind

end Namespaces

/-! ## Databases -/

section Databases

variable {arguments : List Argument}

@[simp, grind .] theorem built_requireDbEngine : Built lines allowed (requireDbEngine host) := by
  unfold requireDbEngine
  grind

@[simp, grind .] theorem built_requireDocEngine : Built lines allowed (requireDocEngine host) := by
  unfold requireDocEngine
  split
  · trivial
  · exact built_typeError _

@[simp, grind .] theorem built_valueToDbRow (value : Value) :
    Built lines allowed (valueToDbRow value) := by
  unfold valueToDbRow
  grind

@[simp, grind .] theorem built_dbRowToRuntimeValue (table : String) (row : DbRow) :
    Built lines allowed (dbRowToRuntimeValue host table row) := by
  unfold dbRowToRuntimeValue
  grind

@[simp, grind .] theorem built_dbRowsToRuntimeValue (table : String) (rows : List DbRow) :
    Built lines allowed (dbRowsToRuntimeValue host table rows) :=
  ⟨built_mapM fun row _ => built_dbRowToRuntimeValue table row, fun _ => trivial⟩

@[simp, grind .] theorem built_optionalRowToRuntimeValue (table : String) (row : Option DbRow) :
    Built lines allowed (optionalRowToRuntimeValue host table row) := by
  unfold optionalRowToRuntimeValue
  grind

variable (lines) in
theorem built_argsToEqualityFilters (each : ∀ argument ∈ arguments, allowed argument.part) :
    Built lines allowed (argsToEqualityFilters arguments) := by
  apply built_mapM
  intro argument member
  cases argument with
  | positional value => exact built_typeError _
  | named column value => exact ⟨each _ member, fun _ => trivial⟩

theorem built_dispatchDbDirect (each : ∀ argument ∈ arguments, allowed argument.part)
    (table method : String) : Built lines allowed (dispatchDbDirect host table method arguments) := by
  have evaluated := built_evaluateArgs lines each
  have filters := built_argsToEqualityFilters lines each
  unfold dispatchDbDirect
  refine ⟨built_requireDbEngine, fun _ => ?_⟩
  split
  · refine ⟨evaluated, fun values => ⟨built_orTypeError _ _, fun data => ?_⟩⟩
    refine ⟨built_valueToDbRow data, fun row => ⟨blind_currentModule, fun currentModule => ?_⟩⟩
    dsimp only
    split
    · exact built_typeError _
    · exact ⟨trivial, fun row => built_dbRowToRuntimeValue table row⟩
  · grind
  · grind
  · refine ⟨evaluated, fun values => ⟨built_orTypeError _ _, fun id => ?_⟩⟩
    grind
  · grind
  · exact built_typeError _

theorem built_nativeQueryTemplate (each : ∀ argument ∈ arguments, allowed argument.part) :
    Built lines allowed (nativeQueryTemplate arguments) := by
  unfold nativeQueryTemplate
  split
  · exact built_typeError _
  · trivial
  · refine ⟨built_evaluateArgs lines each, fun values => ?_⟩
    grind

theorem built_extractFilterFromExpr (hereditary : Hereditary allowed) {expression : Expression}
    (allows : allowed (.expression expression)) :
    Built lines allowed (extractFilterFromExpr host expression) := by
  cases expression with
  | binaryOp left operator right =>
      have operand : allowed (.expression right) :=
        hereditary.parts _ allows _ (by simp [Call.parts, Expression.parts])
      unfold extractFilterFromExpr
      dsimp only
      split
      · exact built_typeError _
      · exact ⟨operand, fun _ => trivial⟩
      · exact built_typeError _
  | _ => exact built_typeError _

variable (lines) in
theorem built_parseWhereArgs (hereditary : Hereditary allowed)
    (each : ∀ argument ∈ arguments, allowed argument.part) :
    Built lines allowed (parseWhereArgs host arguments) := by
  apply built_mapM
  intro argument member
  cases argument with
  | positional value => exact built_extractFilterFromExpr hereditary (each _ member)
  | named column value => exact ⟨each _ member, fun _ => trivial⟩

theorem built_queryStepOf (hereditary : Hereditary allowed)
    (each : ∀ argument ∈ arguments, allowed argument.part) {name : String}
    {step : Action QueryStep} (found : queryStepOf host name arguments = some step) :
    Built lines allowed step := by
  have evaluated := built_evaluateArgs lines each
  have filters := built_parseWhereArgs lines hereditary each
  have column := built_extractNamedStringArg lines each "on"
  have join (kind : JoinKind) : Built lines allowed (queryStepOf.joinStepOf arguments kind) := by
    unfold queryStepOf.joinStepOf
    refine ⟨evaluated, fun values => ⟨built_position, fun position => ?_⟩⟩
    refine ⟨built_ofExcept _, fun _ => ?_⟩
    exact ⟨column, fun _ => trivial⟩
  unfold queryStepOf at found
  grind

theorem built_applyQueryTerminal (query : Query) (name : String) :
    Built lines allowed (applyQueryTerminal host query name) := by
  unfold applyQueryTerminal
  refine ⟨built_requireDbEngine, fun _ => ?_⟩
  split <;> grind

theorem built_applyQueryPipelineStage (hereditary : Hereditary allowed) (query : Query)
    {stage : Expression} (allows : allowed (.expression stage)) :
    Built lines allowed (applyQueryPipelineStage host query stage) := by
  cases stage with
  | functionCall name arguments =>
      have each : ∀ argument ∈ arguments, allowed argument.part := by
        intro argument member
        exact hereditary.parts _ allows _ (List.mem_map_of_mem member)
      have evaluated := built_evaluateArgs lines each
      unfold applyQueryPipelineStage
      split
      · rename_i same
        cases same
        unfold applyUpdate
        refine ⟨evaluated, fun values => ⟨built_orTypeError _ _, fun data => ?_⟩⟩
        refine ⟨built_valueToDbRow data, fun row => ⟨built_requireDbEngine, fun _ => ?_⟩⟩
        exact ⟨trivial, fun _ => trivial⟩
      · rename_i same
        cases same
        split
        · rename_i step found
          exact ⟨built_queryStepOf hereditary each found, fun _ =>
            ⟨built_position, fun _ => ⟨built_ofExcept _, fun _ => trivial⟩⟩⟩
        · exact built_typeError _
      · exact built_applyQueryTerminal query _
      · exact built_typeError _
  | identifier name => exact built_applyQueryTerminal query name
  | _ => exact built_typeError _

@[simp, grind .] theorem built_applySingularRelationStage (query : Query)
    (nullShortCircuit : Bool) (stage : Expression) :
    Built lines allowed (applySingularRelationStage host query nullShortCircuit stage) := by
  unfold applySingularRelationStage
  split <;> grind

theorem built_applyRelationPipelineStage (hereditary : Hereditary allowed) (query : Query)
    (cardinality : RelationCardinality) (nullShortCircuit : Bool) {stage : Expression}
    (allows : allowed (.expression stage)) :
    Built lines allowed (applyRelationPipelineStage host query cardinality nullShortCircuit stage) := by
  cases cardinality with
  | many => exact built_applyQueryPipelineStage hereditary query allows
  | one => exact built_applySingularRelationStage query nullShortCircuit stage

/-! ### Documents -/

@[simp, grind .] theorem built_askDoc (op : DocOp) : Built lines allowed (askDoc op) := by
  unfold askDoc
  grind

@[simp, grind .] theorem built_valueToDocRow (value : Value) :
    Built lines allowed (valueToDocRow value) := by
  unfold valueToDocRow
  grind

@[simp, grind .] theorem built_dispatchDocPipeline (values : List Value) :
    Built lines allowed (dispatchDocPipeline host values) := by
  unfold dispatchDocPipeline
  split
  · refine ⟨built_forM fun stage _ => built_ofExcept _, fun _ => ?_⟩
    grind
  · exact built_typeError _
  · exact built_typeError _
  · exact built_typeError _

theorem built_dispatchDocDirect (each : ∀ argument ∈ arguments, allowed argument.part)
    (collection method : String) :
    Built lines allowed (dispatchDocDirect host collection method arguments) := by
  have evaluated := built_evaluateArgs lines each
  unfold dispatchDocDirect docUpdateById docDeleteById
  refine ⟨built_requireDocEngine, fun _ => ?_⟩
  split <;> grind

theorem built_extractDocFilterFromExpr (hereditary : Hereditary allowed) {expression : Expression}
    (allows : allowed (.expression expression)) :
    Built lines allowed (extractDocFilterFromExpr expression) := by
  unfold extractDocFilterFromExpr
  split
  · exact ⟨hereditary.parts _ allows _ (by simp [Call.parts, Expression.parts]),
      fun _ => built_orTypeError _ _⟩
  · exact built_typeError _
  · exact built_typeError _
  · exact built_typeError _

variable (lines) in
theorem built_parseDocWhereArgs (hereditary : Hereditary allowed)
    (each : ∀ argument ∈ arguments, allowed argument.part) :
    Built lines allowed (parseDocWhereArgs arguments) := by
  apply built_mapM
  intro argument member
  cases argument with
  | positional value => exact built_extractDocFilterFromExpr hereditary (each _ member)
  | named column value => exact built_typeError _

@[simp, grind .] theorem built_stringArgument (message : String) (value : Option Value) :
    Built lines allowed (stringArgument message value) := by
  unfold stringArgument
  grind

@[simp, grind .] theorem built_integerArgument (message : String) (value : Option Value) :
    Built lines allowed (integerArgument message value) := by
  unfold integerArgument
  grind

@[simp, grind .] theorem built_pickFields (values : List Value) :
    Built lines allowed (pickFields values) := by
  induction values with
  | nil => trivial
  | cons value rest induction =>
      unfold pickFields
      grind

@[simp, grind .] theorem built_sortDirection (value : Option Value) :
    Built lines allowed (sortDirection host value) := by
  unfold sortDirection
  grind

@[simp, grind .] theorem built_writeAfterAggregation {α : Type} :
    Built lines allowed (writeAfterAggregation : Action α) :=
  built_typeError _

variable (lines) in
theorem built_accumulatorArguments (each : ∀ argument ∈ arguments, allowed argument.part)
    (step : String) : Built lines allowed (accumulatorArguments step arguments) := by
  apply built_foldlM
  intro argument member found
  have part := each argument member
  dsimp only
  split
  · exact ⟨part, fun _ => ⟨built_stringArgument _ _, fun _ => trivial⟩⟩
  · exact ⟨part, fun _ => ⟨built_stringArgument _ _, fun _ => trivial⟩⟩
  · trivial

variable (lines) in
theorem built_applyAccumulator (each : ∀ argument ∈ arguments, allowed argument.part)
    (query : DocQuery) (step : String) (build : String → String → Accumulator) :
    Built lines allowed (applyAccumulator query step build arguments) := by
  have labelled := built_accumulatorArguments lines each step
  unfold applyAccumulator
  grind

variable (lines) in
theorem built_countAlias (each : ∀ argument ∈ arguments, allowed argument.part) :
    Built lines allowed (countAlias arguments) := by
  apply built_foldlM
  intro argument member label
  have part := each argument member
  split
  · refine ⟨part, fun value => ?_⟩
    grind
  · trivial

variable (lines) in
theorem built_applyCountAccumulator (each : ∀ argument ∈ arguments, allowed argument.part)
    (query : DocQuery) : Built lines allowed (applyCountAccumulator query arguments) := by
  have labelled := built_countAlias lines each
  unfold applyCountAccumulator
  grind

theorem built_applyDocWrite (each : ∀ argument ∈ arguments, allowed argument.part)
    (query : DocQuery) (name : String) {send : DocQuery → DbRow → Action Int64}
    (sends : ∀ query row, Built lines allowed (send query row)) :
    Built lines allowed (applyDocWrite host query name send arguments) := by
  have evaluated := built_evaluateArgs lines each
  unfold applyDocWrite
  split
  · exact built_writeAfterAggregation
  · refine ⟨evaluated, fun values => ⟨built_orTypeError _ _, fun data => ?_⟩⟩
    refine ⟨built_valueToDocRow data, fun row => ⟨built_requireDocEngine, fun _ => ?_⟩⟩
    exact ⟨sends query row, fun _ => trivial⟩

theorem built_applyDocQueryStep (hereditary : Hereditary allowed)
    (each : ∀ argument ∈ arguments, allowed argument.part) (query : DocQuery) (name : String) :
    Built lines allowed (applyDocQueryStep host query name arguments) := by
  have evaluated := built_evaluateArgs lines each
  have filters := built_parseDocWhereArgs lines hereditary each
  have accumulates := built_applyAccumulator lines each query
  have counts := built_applyCountAccumulator lines each query
  have writes := @built_applyDocWrite host lines allowed arguments each query
  unfold applyDocQueryStep
  split
  · grind
  · split
    · exact built_typeError _
    · refine ⟨evaluated, fun values => ?_⟩
      grind
  · refine ⟨evaluated, fun values => ⟨built_stringArgument _ _, fun field => ?_⟩⟩
    grind
  · grind
  · grind
  · grind
  · refine ⟨evaluated, fun values => ⟨built_stringArgument _ _, fun field => ?_⟩⟩
    grind
  · split
    · exact built_typeError _
    · grind
  · exact accumulates _ _
  · exact accumulates _ _
  · exact accumulates _ _
  · exact accumulates _ _
  · exact writes _ fun query row => built_askDoc _
  · exact writes _ fun query row => built_askDoc _
  · split
    · exact counts
    · exact built_typeError _

@[simp, grind .] theorem built_applyDocQueryTerminal (query : DocQuery) (name : String) :
    Built lines allowed (applyDocQueryTerminal host query name) := by
  unfold applyDocQueryTerminal
  refine ⟨built_requireDocEngine, fun _ => ?_⟩
  split <;> grind

theorem built_applyDocQueryPipelineStage (hereditary : Hereditary allowed) (query : DocQuery)
    {stage : Expression} (allows : allowed (.expression stage)) :
    Built lines allowed (applyDocQueryPipelineStage host query stage) := by
  cases stage with
  | functionCall name arguments =>
      apply built_applyDocQueryStep hereditary
      intro argument member
      exact hereditary.parts _ allows _ (List.mem_map_of_mem member)
  | identifier name => exact built_applyDocQueryTerminal query name
  | _ => exact built_typeError _

end Databases
end Marreta
