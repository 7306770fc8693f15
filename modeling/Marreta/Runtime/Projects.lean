import Marreta.Runtime.Simulation

namespace Marreta

open Foundation

/-! One program in two projects.

Two projects may have the same schemas and tables and differ in the environments
of their modules.  What the interpreter does in them is then the same but for the
environments in which tasks of other modules run. -/

/-- The projects are the same but for their environments. -/
structure ProjectRuntime.Like (shared : Prop) (project project' : ProjectRuntime) : Prop where
  visible : project'.visibleSchemasFor = project.visibleSchemasFor
  resolve : project'.resolveSchema = project.resolveSchema
  persistent : project'.persistentSchemas = project.persistentSchemas
  flags : project'.featureFlags = project.featureFlags
  tasks : project'.taskNamespaces = project.taskNamespaces
  columns : project'.dbColumns = project.dbColumns
  envs : ∀ id, SameModule shared (project.envForModule id) (project'.envForModule id)

/-- The host with a project. -/
def Host.serving (host : Host) (project : ProjectRuntime) : Host :=
  { host with project := some project }

theorem matches_mapM {shared : Prop} {α β : Type} {turn turn' : α → Action β} (values : List α)
    (same : ∀ value, (turn value).Matches shared (turn' value)) :
    Action.Matches shared (values.mapM turn) (values.mapM turn') := by
  have loop : ∀ results, Action.Matches shared (List.mapM.loop turn values results)
      (List.mapM.loop turn' values results) := by
    induction values with
    | nil => exact fun _ => .refl _
    | cons value rest ih => exact fun _ => .bind (same value) fun _ => ih _
  exact loop []

/-! ## Schemas -/

section

variable {project project' : ProjectRuntime} (host : Host)

theorem coerceArguments_serving (task : TaskValue) (schemas : Schemas)
    (arguments : List (ParamDef × Value)) :
    coerceArguments (host.serving project') task schemas arguments =
      coerceArguments (host.serving project) task schemas arguments := by
  induction arguments with
  | nil => rfl
  | cons pair rest ih =>
      rw [coerceArguments, coerceArguments, ih]
      rfl

theorem evaluateMatch_serving (subject : Value) (arms : List MatchArm) :
    evaluateMatch (host.serving project') subject arms =
      evaluateMatch (host.serving project) subject arms := by
  induction arms with
  | nil => rfl
  | cons arm rest ih =>
      obtain ⟨pattern, value⟩ := arm
      cases pattern with
      | fallback => rfl
      | literal pattern =>
          rw [evaluateMatch, evaluateMatch, ih]
          rfl

end

section

variable {shared : Prop} {project project' : ProjectRuntime} (host : Host)
  (like : project.Like shared project')
include like

theorem schemaRegistryFor_serving :
    schemaRegistryFor (host.serving project') = schemaRegistryFor (host.serving project) :=
  like.visible

theorem resolveSchema_serving :
    resolveSchema (host.serving project') = resolveSchema (host.serving project) := by
  funext moduleId name
  simp only [resolveSchema, Host.serving, like.resolve, like.persistent]

theorem resolveSchemaNameForTable_serving :
    resolveSchemaNameForTable (host.serving project') =
      resolveSchemaNameForTable (host.serving project) := by
  funext moduleId table
  unfold resolveSchemaNameForTable
  rw [schemaRegistryFor_serving host like]
  simp only [Host.serving, Option.bind_some, like.persistent]

theorem constructorSchemaRegistry_serving :
    constructorSchemaRegistry (host.serving project') =
      constructorSchemaRegistry (host.serving project) := by
  funext moduleId name
  unfold constructorSchemaRegistry
  rw [schemaRegistryFor_serving host like, resolveSchema_serving host like]

theorem featureEnabled_serving :
    featureEnabled (host.serving project') = featureEnabled (host.serving project) := by
  funext name
  simp only [featureEnabled, Host.serving, like.flags]

theorem dispatchFeature_serving :
    dispatchFeature (host.serving project') = dispatchFeature (host.serving project) := by
  funext method arguments
  unfold dispatchFeature
  rw [featureEnabled_serving host like]

theorem evaluateHttpClientResponseSchema_serving :
    evaluateHttpClientResponseSchema (host.serving project') =
      evaluateHttpClientResponseSchema (host.serving project) := by
  funext call schemaName
  unfold evaluateHttpClientResponseSchema
  rw [schemaRegistryFor_serving host like, resolveSchema_serving host like]
  rfl

/-! ## Rows -/

theorem rowToValue_serving :
    rowToValue (host.serving project') = rowToValue (host.serving project) := by
  funext moduleId table row
  unfold rowToValue
  rw [schemaRegistryFor_serving host like, resolveSchema_serving host like,
    resolveSchemaNameForTable_serving host like]
  rfl

theorem dbRowToRuntimeValue_serving :
    dbRowToRuntimeValue (host.serving project') = dbRowToRuntimeValue (host.serving project) := by
  funext table row
  unfold dbRowToRuntimeValue
  rw [rowToValue_serving host like]

theorem dbRowsToRuntimeValue_serving :
    dbRowsToRuntimeValue (host.serving project') = dbRowsToRuntimeValue (host.serving project) := by
  funext table rows
  unfold dbRowsToRuntimeValue
  rw [dbRowToRuntimeValue_serving host like]

theorem optionalRowToRuntimeValue_serving :
    optionalRowToRuntimeValue (host.serving project') =
      optionalRowToRuntimeValue (host.serving project) := by
  funext table row
  cases row with
  | some row => exact congrFun₂ (dbRowToRuntimeValue_serving host like) table row
  | none => rfl

theorem dispatchDbDirect_serving :
    dispatchDbDirect (host.serving project') = dispatchDbDirect (host.serving project) := by
  funext table method arguments
  unfold dispatchDbDirect
  rw [dbRowToRuntimeValue_serving host like, dbRowsToRuntimeValue_serving host like,
    optionalRowToRuntimeValue_serving host like, resolveSchemaNameForTable_serving host like]
  rfl

theorem applyQueryTerminal_serving :
    applyQueryTerminal (host.serving project') = applyQueryTerminal (host.serving project) := by
  funext query terminal
  unfold applyQueryTerminal
  rw [dbRowsToRuntimeValue_serving host like, optionalRowToRuntimeValue_serving host like]
  rfl

theorem applyQueryPipelineStage_serving :
    applyQueryPipelineStage (host.serving project') =
      applyQueryPipelineStage (host.serving project) := by
  funext query stage
  unfold applyQueryPipelineStage
  rw [applyQueryTerminal_serving host like]
  rfl

theorem applySingularRelationStage_serving :
    applySingularRelationStage (host.serving project') =
      applySingularRelationStage (host.serving project) := by
  funext query nullShortCircuit
  unfold applySingularRelationStage
  rw [optionalRowToRuntimeValue_serving host like]
  rfl

theorem applyRelationPipelineStage_serving :
    applyRelationPipelineStage (host.serving project') =
      applyRelationPipelineStage (host.serving project) := by
  funext query cardinality nullShortCircuit stage
  unfold applyRelationPipelineStage
  rw [applyQueryPipelineStage_serving host like, applySingularRelationStage_serving host like]

/-! ## Values -/

theorem inferInverseReferenceField_serving :
    inferInverseReferenceField (host.serving project') =
      inferInverseReferenceField (host.serving project) := by
  funext moduleId ownerSchema targetSchema
  unfold inferInverseReferenceField
  rw [resolveSchema_serving host like]

theorem relationHandleForProperty_serving :
    relationHandleForProperty (host.serving project') =
      relationHandleForProperty (host.serving project) := by
  funext moduleId schemaName fields property
  unfold relationHandleForProperty
  rw [resolveSchema_serving host like, inferInverseReferenceField_serving host like]

theorem accessProperty_serving :
    accessProperty (host.serving project') = accessProperty (host.serving project) := by
  funext object property
  unfold accessProperty
  rw [relationHandleForProperty_serving host like]
  rfl

theorem dispatchMethod_serving :
    dispatchMethod (host.serving project') = dispatchMethod (host.serving project) := by
  funext object method arguments
  unfold dispatchMethod
  rw [dispatchDbDirect_serving host like, dispatchFeature_serving host like]
  rfl

theorem evaluateSchemaConstructor_serving :
    evaluateSchemaConstructor (host.serving project') =
      evaluateSchemaConstructor (host.serving project) := by
  funext schemaName fields
  unfold evaluateSchemaConstructor
  rw [constructorSchemaRegistry_serving host like]
  rfl

theorem executeReply_serving :
    executeReply (host.serving project') = executeReply (host.serving project) := by
  funext statusCode contentType body responseSchema extraHeaders
  unfold executeReply
  rw [resolveSchema_serving host like]
  rfl

theorem promoteInput_serving :
    promoteInput (host.serving project') = promoteInput (host.serving project) := by
  funext input
  simp only [promoteInput, Host.serving, Option.bind_some, like.columns]

theorem namespaceStageTask_serving :
    namespaceStageTask (host.serving project') = namespaceStageTask (host.serving project) := by
  funext env object name
  simp only [namespaceStageTask, Host.serving, Option.bind_some, ProjectRuntime.moduleTask,
    like.tasks]

theorem unknownFileTask_serving :
    unknownFileTask (host.serving project') = unknownFileTask (host.serving project) := by
  funext env object
  simp only [unknownFileTask, Host.serving, Option.any_some, ProjectRuntime.isModuleNamespace,
    like.tasks]
  rfl

theorem broadcastBranchesArePure_serving :
    broadcastBranchesArePure (host.serving project') =
      broadcastBranchesArePure (host.serving project) := by
  have tasks : broadcastTask (host.serving project') = broadcastTask (host.serving project) := by
    funext env target
    unfold broadcastTask
    rw [namespaceStageTask_serving host like]
  funext env targets
  unfold broadcastBranchesArePure broadcastBranchIsPure
  rw [tasks]

/-! ## Actions -/

theorem matches_callTaskValue (callee : Value) (arguments : List Value) (callName : String) :
    Action.Matches shared (callTaskValue (host.serving project) callee arguments callName)
      (callTaskValue (host.serving project') callee arguments callName) := by
  cases callee with
  | task task =>
      unfold callTaskValue
      rw [schemaRegistryFor_serving host like]
      simp only [@coerceArguments_serving project project']
      by_cases arity : task.params.length ≠ arguments.length
      · simp only [if_pos arity]
        exact .refl _
      · simp only [if_neg arity]
        refine .bind (.refl _) fun currentModule => .bind (.refl _) fun bindings =>
          .bind (.refl _) fun callDepth => ?_
        change Action.Matches shared (if host.maxRecursionDepth ≤ callDepth then _ else _)
          (if host.maxRecursionDepth ≤ callDepth then _ else _)
        by_cases tooDeep : host.maxRecursionDepth ≤ callDepth
        · rw [if_pos tooDeep, if_pos tooDeep]
          exact .refl _
        · rw [if_neg tooDeep, if_neg tooDeep]
          cases crossesInto task currentModule with
          | none => exact .refl _
          | some owner =>
              refine .fork owner (fun env found => ?_) _ (.refl _)
              obtain rfl : project.envForModule (some owner) = env := Option.some.inj found
              exact ⟨_, rfl, like.envs (some owner)⟩
  | _ => exact .refl _

theorem matches_callFunction (name : String) (arguments : List Value) :
    Action.Matches shared (callFunction (host.serving project) name arguments)
      (callFunction (host.serving project') name arguments) := by
  have builtins : builtinFunction (host.serving project') = builtinFunction (host.serving project) :=
    rfl
  unfold callFunction
  rw [builtins]
  cases builtinFunction (host.serving project) name arguments with
  | some result => exact .refl _
  | none =>
      refine .bind (.refl _) fun found => ?_
      cases found with
      | some callee => exact matches_callTaskValue host like callee arguments name
      | none => exact .refl _

theorem matches_evaluateMethodCall (object : Expression) (method : String)
    (arguments : List Argument) :
    Action.Matches shared (evaluateMethodCall (host.serving project) object method arguments)
      (evaluateMethodCall (host.serving project') object method arguments) := by
  unfold evaluateMethodCall
  rw [namespaceStageTask_serving host like, unknownFileTask_serving host like,
    dispatchMethod_serving host like]
  refine .bind (.refl _) fun env => ?_
  cases namespaceStageTask (host.serving project) env object method with
  | some task =>
      exact .bind (.refl _) fun values => matches_callTaskValue host like task values method
  | none =>
      cases unknownFileTask (host.serving project) env object <;> exact .refl _

theorem matches_applyTaskToInput (task input : Value) (name : String) :
    Action.Matches shared (applyTaskToInput (host.serving project) task input name)
      (applyTaskToInput (host.serving project') task input name) := by
  unfold applyTaskToInput
  split
  · exact .bind (matches_mapM _ fun item => matches_callTaskValue host like task [item] name)
      fun _ => .refl _
  · exact matches_callTaskValue host like task [_] name

theorem matches_applyNamedStage (input : Value) (stage : Expression) (name : String) :
    Action.Matches shared (applyNamedStage (host.serving project) input stage name)
      (applyNamedStage (host.serving project') input stage name) := by
  unfold applyNamedStage
  split
  · exact .refl _
  · refine .bind (.refl _) fun found => ?_
    split
    · exact matches_applyTaskToInput host like _ input name
    · exact .refl _

theorem matches_applyFunctionStage (input : Value) (name : String) (arguments : List Argument) :
    Action.Matches shared (applyFunctionStage (host.serving project) input name arguments)
      (applyFunctionStage (host.serving project') input name arguments) := by
  unfold applyFunctionStage
  exact .bind (.refl _) fun values => matches_callFunction host like name (input :: values)

theorem matches_applyPipelineValue (input : Value) (stage : Expression) :
    Action.Matches shared (applyPipelineValue (host.serving project) input stage)
      (applyPipelineValue (host.serving project') input stage) := by
  unfold applyPipelineValue
  rw [namespaceStageTask_serving host like]
  refine .bind (.refl _) fun env => ?_
  split
  · exact matches_applyNamedStage host like input _ _
  · exact matches_applyNamedStage host like input _ _
  · exact matches_applyFunctionStage host like input _ _
  all_goals try exact .refl _
  · split
    · exact matches_applyTaskToInput host like _ input _
    · exact .refl _
  · split
    · exact .bind (.refl _) fun values => matches_callTaskValue host like _ _ _
    · exact .refl _

theorem matches_evaluatePipelineStage (input : Value) (stage : PipelineStage) :
    Action.Matches shared (evaluatePipelineStage (host.serving project) input stage)
      (evaluatePipelineStage (host.serving project') input stage) := by
  unfold evaluatePipelineStage
  rw [promoteInput_serving host like, applyRelationPipelineStage_serving host like,
    applyQueryPipelineStage_serving host like]
  split
  all_goals try exact .refl _
  exact matches_applyPipelineValue host like _ _

theorem matches_runStages (input : Value) (stages : List PipelineStage) :
    Action.Matches shared (runStages (host.serving project) input stages)
      (runStages (host.serving project') input stages) := by
  induction stages generalizing input with
  | nil => exact .refl _
  | cons stage rest ih =>
      exact .bind (matches_evaluatePipelineStage host like input stage) ih

theorem matches_runRailway (frames : Nat) (carried : Except MarretaError Value)
    (stages : List PipelineStage) :
    Action.Matches shared (runRailway (host.serving project) frames carried stages)
      (runRailway (host.serving project') frames carried stages) := by
  induction stages generalizing carried with
  | nil => cases carried <;> exact .refl _
  | cons stage rest ih =>
      cases carried with
      | ok value =>
          cases stage with
          | rescue handler => exact ih (.ok value)
          | _ => exact .bind (.attempt (matches_evaluatePipelineStage host like value _)) ih
      | error error =>
          cases stage with
          | rescue handler =>
              rw [runRailway, runRailway]
              split
              · exact .refl _
              · exact .bind (.refl _) ih
          | _ => exact ih (.error error)

theorem matches_evaluatePipeline (input : Expression) (stages : List PipelineStage) :
    Action.Matches shared (evaluatePipeline (host.serving project) input stages)
      (evaluatePipeline (host.serving project') input stages) := by
  unfold evaluatePipeline
  split
  · exact .bind (.refl _) fun frames => .bind (.refl _) fun input =>
      matches_runRailway host like frames input stages
  · exact .bind (.refl _) fun input => matches_runStages host like input stages

theorem matches_namedTarget (env : Environment) (input : Value) (name : String)
    (target : Expression) :
    Action.Matches shared
      (if isFetch name then notARelation name input
        else
          match env.get name with
          | some (.task task) => callTaskValue (host.serving project) (.task task) [input] name
          | _ => Action.eval target)
      (if isFetch name then notARelation name input
        else
          match env.get name with
          | some (.task task) => callTaskValue (host.serving project') (.task task) [input] name
          | _ => Action.eval target) := by
  split
  · exact .refl _
  · split
    · exact matches_callTaskValue host like _ [input] name
    · exact .refl _

theorem matches_applyBroadcastValue (input : Value) (target : Expression) :
    Action.Matches shared (applyBroadcastValue (host.serving project) input target)
      (applyBroadcastValue (host.serving project') input target) := by
  unfold applyBroadcastValue
  rw [namespaceStageTask_serving host like]
  refine .bind (.refl _) fun env => ?_
  split
  · exact matches_namedTarget host like env input _ _
  · exact matches_namedTarget host like env input _ _
  · exact matches_applyFunctionStage host like input _ _
  all_goals try exact .refl _
  · split
    · exact matches_callTaskValue host like _ [input] _
    · exact .refl _
  · split
    · exact .bind (.refl _) fun values => matches_callTaskValue host like _ _ _
    · exact .refl _

theorem matches_evaluateBroadcast (input : Expression) (targets : List Expression) :
    Action.Matches shared (evaluateBroadcast (host.serving project) input targets)
      (evaluateBroadcast (host.serving project') input targets) := by
  unfold evaluateBroadcast
  rw [broadcastBranchesArePure_serving host like]
  refine .bind (.refl _) fun inside => ?_
  split
  · exact .refl _
  · refine .bind (.refl _) fun input => .bind (.refl _) fun env => ?_
    simp only
    split
    · refine .bind (matches_mapM targets fun target => ?_) fun _ => .refl _
      exact .isolated (matches_applyBroadcastValue host like input target)
    · refine .bind (.bind (matches_mapM targets fun target => ?_) fun _ => .refl _) fun _ => .refl _
      exact .spawned (matches_applyBroadcastValue host like input target)

theorem matches_evaluate (expression : Expression) :
    Action.Matches shared (evaluate (host.serving project) expression)
      (evaluate (host.serving project') expression) := by
  cases expression with
  | functionCall name arguments =>
      exact .bind (.refl _) fun values => matches_callFunction host like name values
  | methodCall object method arguments =>
      exact matches_evaluateMethodCall host like object method arguments
  | pipeline input stages => exact matches_evaluatePipeline host like input stages
  | broadcast input targets => exact matches_evaluateBroadcast host like input targets
  | schemaConstructor schemaName fields =>
      rw [evaluate, evaluate, evaluateSchemaConstructor_serving host like]
      exact .refl _
  | propertyAccess object property =>
      rw [evaluate, evaluate, accessProperty_serving host like]
      exact .refl _
  | httpClientResponseSchema call schemaName =>
      rw [evaluate, evaluate, evaluateHttpClientResponseSchema_serving host like]
      exact .refl _
  | matchOn subject arms =>
      rw [evaluate, evaluate]
      simp only [@evaluateMatch_serving project project']
      exact .refl _
  | _ => exact .refl _

theorem matches_actionOf (target : Call) :
    Action.Matches shared (actionOf (host.serving project) target)
      (actionOf (host.serving project') target) := by
  cases target with
  | expression value => exact matches_evaluate host like value
  | statement statement =>
      have kinds : executeKind (host.serving project') = executeKind (host.serving project) := by
        funext statement
        cases statement with
        | reply statusCode contentType body responseSchema extraHeaders line column =>
            rw [executeKind, executeKind, executeReply_serving host like]
        | _ => rfl
      rw [actionOf, actionOf, executeStatement, executeStatement, kinds]
      exact .refl _

end

end Marreta
