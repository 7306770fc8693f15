import Marreta.Runtime.Transactions

namespace Marreta

open Foundation

/-! Responses that stop a handler, and the constructs that intercept errors. -/

/-- The newest stop of a log. -/
def latestStop : Log → Option StopSignal
  | [] => none
  | .stopped signal :: _ => some signal
  | _ :: rest => latestStop rest

/-- The run ended because it executed a `fail`, a `reply` or a guard. -/
def StopsBy (host : Host) (depth : Nat) (target : Call) (state : Interpreter)
    (signal : StopSignal) : Prop :=
  (perform host depth target state).1 = .error (.error signal.error) ∧
    ∃ added, (perform host depth target state).2.log = added ++ state.log ∧
      latestStop added = some signal

theorem isHttpResponse_error (signal : StopSignal) :
    signal.error.isHttpResponse = !signal.isGuard := by
  cases signal <;> rfl

/-! ## Rescue -/

section Rescue

variable (host : Host) (depth : Nat) {state after : Interpreter} {expression : Expression}
variable {error : MarretaError}
variable (raised : perform host depth (.expression expression) state =
  (.error (.error error), after))

include raised

theorem perform_rescue (handler : Expression) :
    perform host (depth + 1) (.expression (.rescue expression handler)) state =
      runAction host depth
        (rescueError state.traceFrames.length error (Action.eval handler)) after := by
  simp only [perform, actionOf, evaluate, evaluateRescue, Action.run_bind, Action.run,
    Run.bind_run, Run.reads_run, Action.eval, Run.attempt, raised]
  rfl

theorem perform_pipeline_rescue (handler : RescueHandler) :
    perform host (depth + 1) (.expression (.pipeline expression [.rescue handler])) state =
      runAction host depth
        (runRailway host state.traceFrames.length (.error error) [.rescue handler]) after := by
  simp only [perform, actionOf, evaluate, evaluatePipeline, List.any_cons,
    PipelineStage.isRescue, Bool.true_or, if_true, Action.run_bind, Action.run,
    Run.bind_run, Run.reads_run, Action.eval, Run.attempt, raised]
  rfl

/-- An expression that raised an error was within the depth. -/
theorem depth_of_raised : ∃ inner, depth = inner + 1 := by
  cases depth with
  | zero => simp [perform] at raised
  | succ inner => exact ⟨inner, rfl⟩

/-- A rescue passes a response on, with any handler, and no other error. -/
theorem perform_rescue_eq_iff :
    (∀ handler, perform host (depth + 1) (.expression (.rescue expression handler)) state =
      perform host depth (.expression expression) state) ↔ error.isHttpResponse = true := by
  constructor
  · intro passes
    by_contra handled
    obtain ⟨inner, rfl⟩ := depth_of_raised host depth raised
    have same := passes .null
    rw [perform_rescue host _ raised, raised, rescueError, if_neg handled] at same
    cases congrArg Prod.fst same
  · intro response handler
    rw [perform_rescue host depth raised, raised, rescueError, if_pos response]
    rfl

theorem perform_pipeline_rescue_eq_iff :
    (∀ handler,
      perform host (depth + 1) (.expression (.pipeline expression [.rescue handler])) state =
        perform host depth (.expression expression) state) ↔
      error.isHttpResponse = true := by
  constructor
  · intro passes
    by_contra handled
    obtain ⟨inner, rfl⟩ := depth_of_raised host depth raised
    have same := passes (.inline .null)
    rw [perform_pipeline_rescue host _ raised, raised, runRailway, if_neg handled] at same
    cases congrArg Prod.fst same
  · intro response handler
    rw [perform_pipeline_rescue host depth raised, raised, runRailway, if_pos response]
    rfl

end Rescue

/-! ## Pipelines that end in a rescue stage -/

section Pipelines

variable (host : Host) (depth frames : Nat)

/-- What a rescue stage at the end makes of the outcome of the other stages. -/
def rescueOutcome (handler : RescueHandler) :
    Except Fault Value × Interpreter → Except Fault Value × Interpreter
  | (.error (.error error), after) =>
      runAction host depth (runRailway host frames (.error error) [.rescue handler]) after
  | outcome => outcome

/-- A railway continues after whatever a stage did, and nothing is rescued from a
panic. -/
theorem rescueOutcome_attempt (handler : RescueHandler) (body : Action Value)
    {next longer : Except MarretaError Value → Action Value}
    (step : ∀ current state, runAction host depth (longer current) state =
      rescueOutcome host depth frames handler (runAction host depth (next current) state))
    (state : Interpreter) :
    runAction host depth (Action.attempt body >>= longer) state =
      rescueOutcome host depth frames handler
        (runAction host depth (Action.attempt body >>= next) state) := by
  simp only [runAction, Action.run_bind, Action.run, Run.bind_run, Run.attempt] at step ⊢
  rcases Action.run host (perform host depth) body state with
    ⟨(error | cause | _) | value, after⟩
  · exact step (.error error) after
  · rfl
  · rfl
  · exact step (.ok value) after

theorem run_railway_append (handler : RescueHandler) (stages : List PipelineStage)
    (current : Except MarretaError Value) (state : Interpreter) :
    runAction host depth (runRailway host frames current (stages ++ [.rescue handler])) state =
      rescueOutcome host depth frames handler
        (runAction host depth (runRailway host frames current stages) state) := by
  induction stages generalizing current state with
  | nil =>
      cases current with
      | ok value => rfl
      | error error => rfl
  | cons stage rest induction =>
      cases current with
      | ok value =>
          cases stage with
          | rescue _ => exact induction (.ok value) state
          | expression _ => exact rescueOutcome_attempt host depth frames handler _ induction state
          | map _ _ => exact rescueOutcome_attempt host depth frames handler _ induction state
          | reduce _ _ _ _ =>
              exact rescueOutcome_attempt host depth frames handler _ induction state
      | error error =>
          cases stage with
          | expression _ => exact induction (.error error) state
          | map _ _ => exact induction (.error error) state
          | reduce _ _ _ _ => exact induction (.error error) state
          | rescue inner =>
              rw [List.cons_append, runRailway, runRailway]
              by_cases response : error.isHttpResponse = true
              · simp only [if_pos response, rescueOutcome, runAction, Action.run, Run.raise_run,
                  runRailway]
              · simp only [if_neg response]
                exact rescueOutcome_attempt host depth frames handler _ induction state

/-- Without a rescue stage an error passes all stages. -/
theorem run_railway_error {stages : List PipelineStage}
    (plain : stages.any PipelineStage.isRescue = false) (error : MarretaError) :
    runAction host depth (runRailway host frames (.error error) stages) =
      Run.raise (.error error) := by
  induction stages with
  | nil => rfl
  | cons stage rest induction =>
      rw [List.any_cons, Bool.or_eq_false_iff] at plain
      cases stage with
      | rescue _ => cases plain.1
      | expression _ => exact induction plain.2
      | map _ _ => exact induction plain.2
      | reduce _ _ _ _ => exact induction plain.2

theorem run_railway_ok {stages : List PipelineStage}
    (plain : stages.any PipelineStage.isRescue = false) (value : Value)
    (state : Interpreter) :
    runAction host depth (runRailway host frames (.ok value) stages) state =
      runAction host depth (runStages host value stages) state := by
  induction stages generalizing value state with
  | nil => rfl
  | cons stage rest induction =>
      rw [List.any_cons, Bool.or_eq_false_iff] at plain
      have step : runAction host depth (Action.attempt (evaluatePipelineStage host value stage) >>=
          fun next => runRailway host frames next rest) state =
          runAction host depth (evaluatePipelineStage host value stage >>=
            fun next => runStages host next rest) state := by
        simp only [runAction, Action.run_bind, Action.run, Run.bind_run, Run.attempt]
        rcases Action.run host (perform host depth)
          (evaluatePipelineStage host value stage) state with ⟨(error | cause | _) | value, after⟩
        · exact congrFun (run_railway_error host depth frames plain.2 error) after
        · rfl
        · rfl
        · exact induction plain.2 value after
      cases stage with
      | rescue _ => cases plain.1
      | expression _ => exact step
      | map _ _ => exact step
      | reduce _ _ _ _ => exact step

/-- Every pipeline is a railway. -/
theorem run_evaluatePipeline (input : Expression) (stages : List PipelineStage)
    (state : Interpreter) :
    runAction host depth (evaluatePipeline host input stages) state =
      runAction host depth (Action.attempt (Action.eval input) >>= fun current =>
        runRailway host state.traceFrames.length current stages) state := by
  unfold evaluatePipeline
  cases plain : stages.any PipelineStage.isRescue with
  | true => rfl
  | false =>
      simp only [Bool.false_eq_true, if_false, runAction, Action.run_bind, Action.run,
        Run.bind_run, Run.attempt]
      rcases Action.run host (perform host depth) (Action.eval input) state with
        ⟨(error | cause | _) | value, after⟩
      · exact (congrFun (run_railway_error host depth _ plain error) after).symm
      · rfl
      · rfl
      · exact (run_railway_ok host depth _ plain value after).symm

/-- A pipeline with a rescue stage added at its end. -/
theorem perform_pipeline_append (input : Expression) (stages : List PipelineStage)
    (handler : RescueHandler) (state : Interpreter) :
    perform host (depth + 1)
        (.expression (.pipeline input (stages ++ [.rescue handler]))) state =
      rescueOutcome host depth state.traceFrames.length handler
        (perform host (depth + 1) (.expression (.pipeline input stages)) state) := by
  have longer := run_evaluatePipeline host depth input (stages ++ [.rescue handler]) state
  have shorter := run_evaluatePipeline host depth input stages state
  change runAction host depth (evaluatePipeline host input _) state =
    rescueOutcome host depth _ handler
      (runAction host depth (evaluatePipeline host input stages) state)
  rw [longer, shorter]
  exact rescueOutcome_attempt host depth _ handler _
    (run_railway_append host depth _ handler stages) state

theorem perform_pipeline_append_eq_iff {input : Expression} {stages : List PipelineStage}
    {state after : Interpreter} {error : MarretaError}
    (raised : perform host depth (.expression (.pipeline input stages)) state =
      (.error (.error error), after)) :
    (∀ handler,
      perform host depth (.expression (.pipeline input (stages ++ [.rescue handler]))) state =
        perform host depth (.expression (.pipeline input stages)) state) ↔
      error.isHttpResponse = true := by
  obtain ⟨inner, rfl⟩ := depth_of_raised host depth raised
  simp only [perform_pipeline_append, raised, rescueOutcome]
  constructor
  · intro passes
    by_contra handled
    have same := passes (.inline .null)
    rw [runRailway, if_neg handled] at same
    cases inner with
    | zero => cases congrArg Prod.fst same
    | succ inner => cases congrArg Prod.fst same
  · intro response handler
    rw [runRailway, if_pos response]
    rfl

end Pipelines

/-! ## String interpolation -/

/-- A run that returns, panics or is cut off, but raises no error. -/
def NeverRaises (_ : Interpreter) (ending : Option Fault) (_ : Interpreter) : Prop :=
  ∀ error, ending ≠ some (.error error)

theorem neverRaises_sequential :
    Run.Sequential NeverRaises fun fault => ∀ error, fault ≠ .error error where
  idle _ := nofun
  seq _ tail := tail
  stop _ abnormal error same := abnormal error (Option.some.inj same)

theorem neverRaises_attempt {α : Type} (body : Run Interpreter Fault α) :
    Run.Satisfies NeverRaises (Run.attempt body) := by
  intro state error
  simp only [Run.attempt]
  rcases body state with ⟨(_ | _ | _) | _, _⟩ <;> simp

theorem neverRaises_interpolatePart (host : Host) (depth : Nat) (part : TemplatePart) :
    Run.Satisfies NeverRaises (runAction host depth (interpolatePart host part)) := by
  cases part with
  | char char => exact .pure neverRaises_sequential _
  | code source =>
      refine .bind neverRaises_sequential (neverRaises_attempt _) fun outcome => ?_
      cases outcome with
      | ok value => exact .pure neverRaises_sequential _
      | error error => exact .pure neverRaises_sequential _

/-- No string literal stops the handler, whatever stands in it. -/
theorem neverRaises_stringLiteral (host : Host) (depth : Nat) (text : String) :
    Run.Satisfies NeverRaises
      (perform host (depth + 1) (.expression (.stringLiteral text))) := by
  change Run.Satisfies NeverRaises (runAction host depth (interpolateString host text))
  unfold interpolateString
  split
  · refine .bind neverRaises_sequential ?_ fun parts => .pure neverRaises_sequential _
    rw [Action.run_mapM]
    exact .mapM neverRaises_sequential fun part _ => neverRaises_interpolatePart host depth part
  · exact .pure neverRaises_sequential _

/-! ## Which stops pass -/

/-- What `fail` and `reply` stopped passes both forms of rescue, with the handler
not evaluated, and what a guard stopped passes neither; nothing passes a string
literal. -/
theorem stop_passes_iff (host : Host) (depth : Nat) (expression : Expression)
    (state : Interpreter) (signal : StopSignal)
    (stops : StopsBy host depth (.expression expression) state signal) :
    ((∀ handler, perform host (depth + 1) (.expression (.rescue expression handler)) state =
      perform host depth (.expression expression) state) ↔ signal.isGuard = false) ∧
    ((∀ handler,
      perform host (depth + 1) (.expression (.pipeline expression [.rescue handler])) state =
        perform host depth (.expression expression) state) ↔ signal.isGuard = false) ∧
    (∀ input stages, expression = .pipeline input stages →
      ((∀ handler,
        perform host depth (.expression (.pipeline input (stages ++ [.rescue handler]))) state =
          perform host depth (.expression expression) state) ↔ signal.isGuard = false)) ∧
    (∀ text, (perform host (depth + 1) (.expression (.stringLiteral text)) state).1 ≠
      .error (.error signal.error)) := by
  obtain ⟨result, -⟩ := stops
  have raised : perform host depth (.expression expression) state =
      (.error (.error signal.error), (perform host depth (.expression expression) state).2) :=
    Prod.ext result rfl
  have passes : signal.error.isHttpResponse = true ↔ signal.isGuard = false := by
    rw [isHttpResponse_error]
    simp
  refine ⟨?_, ?_, ?_, ?_⟩
  · rw [perform_rescue_eq_iff host depth raised, passes]
  · rw [perform_pipeline_rescue_eq_iff host depth raised, passes]
  · intro input stages same
    subst same
    rw [perform_pipeline_append_eq_iff host depth raised, passes]
  · intro text same
    have never := neverRaises_stringLiteral host depth text state signal.error
    rw [same] at never
    exact never rfl

/-- `fail 404, "gone"` in expression position passes a rescue. -/
theorem stop_passes_fail :
    let expression : Expression := .functionCall "__fail__"
      [.positional (.integer 404), .positional (.stringLiteral "gone")]
    let start := Interpreter.new Environment.new none
    ∀ handler, perform emptyHost 4 (.expression (.rescue expression handler)) start =
      perform emptyHost 3 (.expression expression) start :=
  (stop_passes_iff emptyHost 3 _ _ (.failExpression 404 "\x7b\"error\":\"gone\"\x7d")
    ⟨rfl, [_], rfl, rfl⟩).1.mpr rfl

/-- `task check()` with the body `require false else fail 403, "no"` and `null`. -/
def guardedTask : TaskValue where
  name := "check"
  params := []
  body := .block [.require (.boolean false) 403 "no" 2 5] .null
  ownerModule := none
  sourceModule := none
  line := 1
  column := 1

def guardedStart : Interpreter :=
  .new (Environment.new.set "check" (.task guardedTask)) none

theorem guardedText_null :
    (match (perform emptyHost 9 (.expression (.stringLiteral "#\x7bcheck()\x7d"))
        guardedStart).1 with
      | .ok (.string text) => decide (text = "null")
      | _ => false) = true := by
  decide +kernel

/-- The guard stops the call with a response. Under both rescues the handler `0` is the
value, and a text with the call in it is a text. -/
theorem guardedCall_rescued :
    let call : Expression := .functionCall "check" []
    StopsBy emptyHost 8 (.expression call) guardedStart (.require 403 "no") ∧
      (perform emptyHost 9 (.expression (.rescue call (.integer 0))) guardedStart).1 =
        .ok (.integer 0) ∧
      (perform emptyHost 9
        (.expression (.pipeline call [.rescue (.inline (.integer 0))])) guardedStart).1 =
        .ok (.integer 0) ∧
      (perform emptyHost 9 (.expression (.stringLiteral "#\x7bcheck()\x7d")) guardedStart).1 =
        .ok (.string "null") := by
  refine ⟨⟨rfl, [_], rfl, rfl⟩, rfl, rfl, ?_⟩
  have shown := guardedText_null
  split at shown
  · rename_i text ends
    rw [ends, of_decide_eq_true shown]
  · cases shown

end Marreta
