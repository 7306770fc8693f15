import Marreta.Runtime.CallsMade
import Marreta.Runtime.LogLevels

namespace Marreta

open Foundation
open Marreta.Action (Lines Built eval typeError)

/-! The interpreter at two log levels.

Of all functions of the interpreter only those of the `log` namespace look at the level. -/

variable {host : Host} {strict : LogLevel}

/-! ## Functions that do not look at the level -/

theorem coerceArguments_withLogLevel (task : TaskValue) (schemas : Schemas)
    (arguments : List (ParamDef × Value)) :
    coerceArguments (host.withLogLevel strict) task schemas arguments =
      coerceArguments host task schemas arguments := by
  induction arguments with
  | nil => rfl
  | cons pair rest induction =>
      rw [coerceArguments, coerceArguments, induction]
      rfl

theorem callTaskValue_withLogLevel (callee : Value) (arguments : List Value) (callName : String) :
    callTaskValue (host.withLogLevel strict) callee arguments callName =
      callTaskValue host callee arguments callName := by
  unfold callTaskValue
  cases callee with
  | task task =>
      simp only [coerceArguments_withLogLevel]
      rfl
  | _ => rfl

theorem callFunction_withLogLevel (name : String) (arguments : List Value) :
    callFunction (host.withLogLevel strict) name arguments = callFunction host name arguments := by
  unfold callFunction
  simp only [callTaskValue_withLogLevel]
  rfl

theorem evaluateMatch_withLogLevel (subject : Value) (arms : List MatchArm) :
    evaluateMatch (host.withLogLevel strict) subject arms = evaluateMatch host subject arms := by
  induction arms with
  | nil => rfl
  | cons arm rest induction =>
      obtain ⟨pattern, value⟩ := arm
      cases pattern with
      | fallback => rfl
      | literal pattern =>
          rw [evaluateMatch, evaluateMatch, induction]
          rfl

theorem applyTaskToInput_withLogLevel (task input : Value) (name : String) :
    applyTaskToInput (host.withLogLevel strict) task input name =
      applyTaskToInput host task input name := by
  unfold applyTaskToInput
  simp only [callTaskValue_withLogLevel]

theorem applyNamedStage_withLogLevel (input : Value) (stage : Expression) (name : String) :
    applyNamedStage (host.withLogLevel strict) input stage name =
      applyNamedStage host input stage name := by
  unfold applyNamedStage
  simp only [applyTaskToInput_withLogLevel]

theorem applyFunctionStage_withLogLevel (input : Value) (name : String)
    (arguments : List Argument) :
    applyFunctionStage (host.withLogLevel strict) input name arguments =
      applyFunctionStage host input name arguments := by
  unfold applyFunctionStage
  simp only [callFunction_withLogLevel]

/-! ## Actions of the interpreter -/

theorem hereditary_true : Hereditary fun _ => True :=
  ⟨fun _ _ _ _ => trivial⟩

theorem thins_same {α : Type} {action action' : Action α} (same : action' = action)
    (built : action.Built (Lines.printed host) fun _ => True) :
    Thins host strict action action' := by
  rw [same]
  exact thins_of_built built

theorem thins_mapM {α β : Type} {turn turn' : α → Action β} (values : List α)
    (each : ∀ value, Thins host strict (turn value) (turn' value)) :
    Thins host strict (values.mapM turn) (values.mapM turn') := by
  have loop : ∀ results, Thins host strict (List.mapM.loop turn values results)
      (List.mapM.loop turn' values results) := by
    induction values with
    | nil => exact fun results => .pure _
    | cons value rest induction => exact fun results => .bind (each value) fun _ => induction _
  exact loop []

theorem thins_typeError {α : Type} (message : String) :
    Thins host strict (typeError message : Action α) (typeError message) :=
  thins_of_built (Action.built_typeError message)

theorem thins_dispatchLog (method : String) (arguments : List Argument) (injected : Option Value) :
    Thins host strict (dispatchLog host method arguments injected)
      (dispatchLog (host.withLogLevel strict) method arguments injected) := by
  unfold dispatchLog
  cases logLevelForMethod method with
  | none => exact thins_of_built (Action.built_propertyNotFound _ _)
  | some level =>
      apply Thins.bind
      · exact thins_of_built
          (built_collectNamedAndPositional (Lines.printed host) (fun _ _ => trivial) injected)
      · intro collected
        apply Thins.bind
        · exact thins_of_built (built_ensureNoNamedArgs _ _)
        · intro _
          split
          · exact .bind (.emit level _) fun _ => .pure _
          · exact thins_of_built (Action.built_wrongArity _ _ _)

theorem built_dispatchNativeQuery (arguments : List Argument) :
    Built (Lines.printed host) (fun _ => True) (dispatchNativeQuery host arguments) := by
  unfold dispatchNativeQuery
  apply (Action.built_bind _ _).mpr
  refine ⟨built_requireDbEngine, fun _ => ⟨built_nativeQueryTemplate fun _ _ => trivial, ?_⟩⟩
  intro template
  exact ⟨built_extractNativeQueryParams fun _ _ _ _ => trivial,
    fun _ => ⟨trivial, fun _ => trivial⟩⟩

theorem thins_dispatchMethod (object : Value) (method : String) (arguments : List Argument) :
    Thins host strict (dispatchMethod host object method arguments)
      (dispatchMethod (host.withLogLevel strict) object method arguments) := by
  have evaluated : Built (Lines.printed host) (fun _ => True) (evaluateArgs arguments) :=
    built_evaluateArgs _ fun _ _ => trivial
  unfold dispatchMethod
  split
  · exact thins_same rfl (built_dispatchNativeQuery arguments)
  · exact .bind (thins_of_built evaluated) fun values =>
      thins_same rfl (built_dispatchDocPipeline values)
  · exact thins_same rfl (built_dispatchDbDirect (fun _ _ => trivial) _ _)
  · exact thins_same rfl (built_dispatchCache (fun _ _ => trivial) _)
  · exact thins_same rfl (built_dispatchFs (fun _ _ => trivial) _ _)
  · exact thins_same rfl (built_dispatchJson (fun _ _ => trivial) _ _)
  · exact thins_same rfl (built_dispatchBase64 (fun _ _ => trivial) _ _)
  · exact thins_same rfl (built_dispatchUuid (fun _ _ => trivial) _)
  · exact thins_same rfl (built_dispatchFeature (fun _ _ => trivial) _)
  · exact thins_dispatchLog _ _ _
  · exact thins_same rfl (built_dispatchTime (fun _ _ => trivial) _)
  · exact thins_same rfl (built_dispatchMath (fun _ _ => trivial) _ _)
  · exact thins_same rfl (built_dispatchHttpClient (fun _ _ => trivial) _ _)
  · exact thins_same rfl (built_dispatchDocDirect (fun _ _ => trivial) _ _)
  · exact .bind (thins_of_built evaluated) fun values =>
      .bind (thins_of_built Action.built_position) fun position =>
        thins_same rfl (Action.built_ofLibrary _)

theorem thins_evaluateMethodCall (object : Expression) (method : String)
    (arguments : List Argument) :
    Thins host strict (evaluateMethodCall host object method arguments)
      (evaluateMethodCall (host.withLogLevel strict) object method arguments) := by
  have evaluated : Built (Lines.printed host) (fun _ => True) (evaluateArgs arguments) :=
    built_evaluateArgs _ fun _ _ => trivial
  have tasks : namespaceStageTask (host.withLogLevel strict) = namespaceStageTask host := rfl
  have files : unknownFileTask (host.withLogLevel strict) = unknownFileTask host := rfl
  unfold evaluateMethodCall
  rw [tasks, files]
  refine .bind (.reads Action.blind_env) fun env => ?_
  cases namespaceStageTask host env object method with
  | some task =>
      refine .bind (thins_of_built evaluated) fun values => ?_
      exact thins_same (callTaskValue_withLogLevel _ _ _) (built_callTaskValue _ _ _)
  | none =>
      cases unknownFileTask host env object with
      | some file =>
          exact .bind (thins_of_built Action.built_position) fun position => .raise _
      | none => exact .bind (.call _) fun value => thins_dispatchMethod value method arguments

/-! ## Pipelines -/

theorem thins_applyTaskToInput (task input : Value) (name : String) :
    Thins host strict (applyTaskToInput host task input name)
      (applyTaskToInput (host.withLogLevel strict) task input name) :=
  thins_same (applyTaskToInput_withLogLevel task input name)
    (built_applyTaskToInput task input name)

theorem thins_applyPipelineValue (input : Value) (stage : Expression) :
    Thins host strict (applyPipelineValue host input stage)
      (applyPipelineValue (host.withLogLevel strict) input stage) := by
  have tasks : namespaceStageTask (host.withLogLevel strict) = namespaceStageTask host := rfl
  unfold applyPipelineValue
  rw [tasks]
  refine .bind (.reads Action.blind_env) fun env => ?_
  split
  · exact thins_same (applyNamedStage_withLogLevel _ _ _) (built_applyNamedStage trivial _ _)
  · exact thins_same (applyNamedStage_withLogLevel _ _ _) (built_applyNamedStage trivial _ _)
  · exact thins_same (applyFunctionStage_withLogLevel _ _ _)
      (built_applyFunctionStage (fun _ _ => trivial) _ _)
  · exact thins_same rfl (built_produce (fun _ _ => trivial) unlogged_push _ _)
  · exact thins_same rfl (built_produce (fun _ _ => trivial) unlogged_publish _ _)
  · exact thins_same rfl (built_pipelineCacheSet (fun _ _ => trivial) _)
  · exact thins_same rfl (built_dispatchHttpClient (fun _ _ => trivial) _ _)
  · exact thins_same rfl (built_dispatchFs (fun _ _ => trivial) _ _)
  · exact thins_same rfl (built_dispatchJson (fun _ _ => trivial) _ _)
  · exact thins_same rfl (built_dispatchBase64 (fun _ _ => trivial) _ _)
  · exact thins_dispatchLog _ _ _
  · exact thins_same rfl (built_dispatchMath (fun _ _ => trivial) _ _)
  · split
    · exact thins_applyTaskToInput _ _ _
    · exact .call _
  · split
    · refine .bind (thins_of_built (built_evaluateArgs _ fun _ _ => trivial)) fun values => ?_
      exact thins_same (callTaskValue_withLogLevel _ _ _) (built_callTaskValue _ _ _)
    · exact .call _
  · exact .call _

theorem thins_evaluatePipelineStage (input : Value) (stage : PipelineStage) :
    Thins host strict (evaluatePipelineStage host input stage)
      (evaluatePipelineStage (host.withLogLevel strict) input stage) := by
  have promoted : promoteInput (host.withLogLevel strict) = promoteInput host := rfl
  unfold evaluatePipelineStage
  rw [promoted]
  split
  · exact thins_same rfl (built_applyRelationPipelineStage hereditary_true _ _ _ trivial)
  · exact thins_typeError _
  · exact thins_same rfl (built_applyQueryPipelineStage hereditary_true _ trivial)
  · exact thins_typeError _
  · exact thins_same rfl (built_applyDocQueryPipelineStage hereditary_true _ trivial)
  · exact thins_typeError _
  · exact thins_applyPipelineValue _ _
  · refine .bind (thins_mapM _ fun item => .element _ (thins_of_built ?_)) fun _ => .pure _
    exact built_mapBody fun _ _ => trivial
  · exact thins_typeError _
  · exact .bind (.call _) fun initial =>
      thins_of_built (built_reduceItems (fun _ _ => trivial) _ _ _ _)
  · exact thins_typeError _
  · exact .pure _

theorem thins_runStages (input : Value) (stages : List PipelineStage) :
    Thins host strict (runStages host input stages)
      (runStages (host.withLogLevel strict) input stages) := by
  induction stages generalizing input with
  | nil => exact .pure _
  | cons stage rest induction => exact .bind (thins_evaluatePipelineStage input stage) induction

theorem thins_runRailway (frames : Nat) (carried : Except MarretaError Value)
    (stages : List PipelineStage) :
    Thins host strict (runRailway host frames carried stages)
      (runRailway (host.withLogLevel strict) frames carried stages) := by
  induction stages generalizing carried with
  | nil =>
      cases carried with
      | ok value => exact .pure _
      | error error => exact .raise _
  | cons stage rest induction =>
      have staged (value : Value) := @thins_evaluatePipelineStage host strict value stage
      cases carried with
      | ok value =>
          cases stage with
          | rescue handler => exact induction (.ok value)
          | expression _ => exact .bind (.attempt (staged value)) induction
          | map _ _ => exact .bind (.attempt (staged value)) induction
          | reduce _ _ _ _ => exact .bind (.attempt (staged value)) induction
      | error error =>
          cases stage with
          | rescue handler =>
              unfold runRailway
              split
              · exact .raise _
              · refine .bind (.attempt (.rescue _ _ (thins_of_built ?_))) induction
                exact built_executeRescueHandler fun _ _ => trivial
          | expression _ => exact induction (.error error)
          | map _ _ => exact induction (.error error)
          | reduce _ _ _ _ => exact induction (.error error)

theorem thins_evaluatePipeline (input : Expression) (stages : List PipelineStage) :
    Thins host strict (evaluatePipeline host input stages)
      (evaluatePipeline (host.withLogLevel strict) input stages) := by
  unfold evaluatePipeline
  split
  · exact .bind (.reads Action.blind_frames) fun frames =>
      .bind (.attempt (.call _)) fun carried => thins_runRailway frames carried stages
  · exact .bind (.call _) fun value => thins_runStages value stages

/-! ## Broadcasts -/

theorem thins_applyBroadcastValue (input : Value) (target : Expression) :
    Thins host strict (applyBroadcastValue host input target)
      (applyBroadcastValue (host.withLogLevel strict) input target) := by
  have tasks : namespaceStageTask (host.withLogLevel strict) = namespaceStageTask host := rfl
  have called (callee : Value) (arguments : List Value) (name : String) :
      Thins host strict (callTaskValue host callee arguments name)
        (callTaskValue (host.withLogLevel strict) callee arguments name) :=
    thins_same (callTaskValue_withLogLevel _ _ _) (built_callTaskValue _ _ _)
  unfold applyBroadcastValue
  rw [tasks]
  refine .bind (.reads Action.blind_env) fun env => ?_
  split
  · split
    · exact thins_typeError _
    · split
      · exact called _ _ _
      · exact .call _
  · split
    · exact thins_typeError _
    · split
      · exact called _ _ _
      · exact .call _
  · exact thins_same (applyFunctionStage_withLogLevel _ _ _)
      (built_applyFunctionStage (fun _ _ => trivial) _ _)
  · exact thins_same rfl (built_dispatchFs (fun _ _ => trivial) _ _)
  · exact thins_same rfl (built_dispatchJson (fun _ _ => trivial) _ _)
  · exact thins_same rfl (built_dispatchBase64 (fun _ _ => trivial) _ _)
  · exact thins_dispatchLog _ _ _
  · exact thins_same rfl (built_dispatchMath (fun _ _ => trivial) _ _)
  · split
    · exact called _ _ _
    · exact .call _
  · split
    · exact .bind (thins_of_built (built_evaluateArgs _ fun _ _ => trivial)) fun values =>
        called _ _ _
    · exact .call _
  · exact .call _

theorem thins_evaluateBroadcast (input : Expression) (targets : List Expression) :
    Thins host strict (evaluateBroadcast host input targets)
      (evaluateBroadcast (host.withLogLevel strict) input targets) := by
  have pure : broadcastBranchesArePure (host.withLogLevel strict) =
      broadcastBranchesArePure host := rfl
  unfold evaluateBroadcast
  rw [pure]
  refine .bind (.reads Action.blind_insideTransaction) fun inside => ?_
  split
  · exact thins_typeError _
  · refine .bind (.call _) fun input => .bind (.reads Action.blind_env) fun env => ?_
    simp only
    split
    · refine .bind ?_ fun results => .pure _
      apply thins_mapM
      exact fun target => .isolated (thins_applyBroadcastValue input target)
    · refine .bind (.bind ?_ fun outcomes => ?_) fun results => .pure _
      · apply thins_mapM
        exact fun target => .spawned (thins_applyBroadcastValue input target)
      · apply thins_mapM
        exact fun outcome => thins_of_built (built_joinOutcome outcome)

/-! ## Programs -/

theorem thins_evaluate (expression : Expression) :
    Thins host strict (evaluate host expression)
      (evaluate (host.withLogLevel strict) expression) := by
  cases expression with
  | methodCall object method arguments => exact thins_evaluateMethodCall object method arguments
  | pipeline input stages => exact thins_evaluatePipeline input stages
  | broadcast input targets => exact thins_evaluateBroadcast input targets
  | functionCall name arguments =>
      refine .bind (thins_of_built (built_evaluateArgs _ fun _ _ => trivial)) fun values => ?_
      exact thins_same (callFunction_withLogLevel _ _) (built_callFunction _ _)
  | matchOn subject arms =>
      refine .bind (.call _) fun value => ?_
      exact thins_same (evaluateMatch_withLogLevel _ _) (built_evaluateMatch (fun _ _ => trivial) _)
  | _ =>
      exact thins_same rfl
        (built_evaluate_of_isLocal rfl (fun _ _ => trivial) fun _ _ _ _ _ _ => trivial)

/-- The interpreter does the same at both levels, but for its log statements. -/
theorem thins_actionOf (target : Call) :
    Thins host strict (actionOf host target) (actionOf (host.withLogLevel strict) target) := by
  cases target with
  | expression value => exact thins_evaluate value
  | statement statement =>
      have kinds : executeKind (host.withLogLevel strict) statement =
          executeKind host statement := by
        cases statement <;> rfl
      have same : executeStatement (host.withLogLevel strict) statement =
          executeStatement host statement := by
        unfold executeStatement
        rw [kinds]
      exact thins_same same (built_executeStatement fun _ _ => trivial)

/-! ## Runs at two levels -/

theorem perform_thinned (oblivious : Oblivious host strict)
    (stricter : host.logLevel.rank ≤ strict.rank) (depth : Nat) (pairs : TxPairs) (target : Call)
    (one other : Interpreter) (follows : Shadows host strict pairs one other)
    (clean : CleanRun host strict depth target one) :
    EndsThinned host strict pairs (perform host depth target one)
      (perform (host.withLogLevel strict) depth target other) := by
  induction depth generalizing pairs target one other with
  | zero => exact .same follows _
  | succ depth induction =>
      exact run_thinned oblivious stricter induction (thins_actionOf target) pairs one other
        follows clean

/-- The log statements of a program write what only the laxer level writes. -/
def CleanProgram (host : Host) (strict : LogLevel) (depth : Nat) {α : Type} (action : Action α)
    (state : Interpreter) : Prop :=
  CleanLogs host strict (perform host depth) (CleanRun host strict depth) action state

theorem runAction_thinned (oblivious : Oblivious host strict)
    (stricter : host.logLevel.rank ≤ strict.rank) (depth : Nat) {α : Type}
    {action action' : Action α} (thins : Thins host strict action action') {pairs : TxPairs}
    {one other : Interpreter} (follows : Shadows host strict pairs one other)
    (clean : CleanProgram host strict depth action one) :
    EndsThinned host strict pairs (runAction host depth action one)
      (runAction (host.withLogLevel strict) depth action' other) :=
  run_thinned oblivious stricter (perform_thinned oblivious stricter depth) thins pairs one other
    follows clean

/-- Every run follows itself. -/
theorem Shadows.refl (state : Interpreter) :
    Shadows host strict (state.activeTx.toList.map fun id => (id, id)) state state := by
  refine ⟨state.activeTx, state.log, rfl, .start _ _, ?_⟩
  cases state.activeTx with
  | none => exact .none
  | some id => exact .some (List.mem_singleton_self _)

/-- When every value is serializable and every line written, all log statements write. -/
theorem cleanRun_of_writes
    (writes : ∀ level value state, LogsCleanly host strict level value state) (depth : Nat)
    (target : Call) (state : Interpreter) : CleanRun host strict depth target state := by
  induction depth generalizing target state with
  | zero => trivial
  | succ depth induction =>
      exact { logs := fun _ => writes _ _ _, calls := fun _ => induction _ _ }

theorem cleanProgram_of_writes
    (writes : ∀ level value state, LogsCleanly host strict level value state) (depth : Nat)
    {α : Type} (action : Action α) (state : Interpreter) :
    CleanProgram host strict depth action state where
  logs _ := writes _ _ _
  calls _ := cleanRun_of_writes writes depth _ _

end Marreta
