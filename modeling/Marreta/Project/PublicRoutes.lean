import Marreta.Project.Loading
import Marreta.Runtime.CallsMade

namespace Marreta

open Foundation

/-! Public routes and `auth`.

The body of a route without `require auth` is searched for the identifier when the project
is loaded.  What the interpreter evaluates of an accepted body is followed here, call by
call. -/

/-! ## Calls without `auth` -/

def Call.referencesAuth : Call → Bool
  | .expression value => expressionReferencesAuth value
  | .statement value => statementReferencesAuth value

/-- The search finds no `auth` in the call. -/
def Clean (call : Call) : Prop :=
  call.referencesAuth = false

@[simp] theorem clean_expression (value : Expression) :
    Clean (.expression value) ↔ expressionReferencesAuth value = false := Iff.rfl

@[simp] theorem clean_statement (value : Statement) :
    Clean (.statement value) ↔ statementReferencesAuth value = false := Iff.rfl

theorem clean_of_expressions {items : List Expression}
    (none : expressionsReferenceAuth items = false) :
    ∀ part ∈ items.map Call.expression, Clean part := by
  induction items with
  | nil => simp
  | cons item rest induction =>
      rw [expressionsReferenceAuth, Bool.or_eq_false_iff] at none
      rw [List.map_cons, List.forall_mem_cons]
      exact ⟨none.1, induction none.2⟩

theorem clean_of_pairs {pairs : List (String × Expression)}
    (none : pairsReferenceAuth pairs = false) :
    ∀ part ∈ pairs.map (fun pair => Call.expression pair.2), Clean part := by
  induction pairs with
  | nil => simp
  | cons pair rest induction =>
      rw [pairsReferenceAuth, Bool.or_eq_false_iff] at none
      rw [List.map_cons, List.forall_mem_cons]
      exact ⟨none.1, induction none.2⟩

theorem clean_of_arguments {arguments : List Argument}
    (none : argumentsReferenceAuth arguments = false) :
    ∀ part ∈ arguments.map Argument.part, Clean part := by
  induction arguments with
  | nil => simp
  | cons argument rest induction =>
      rw [List.map_cons, List.forall_mem_cons]
      cases argument with
      | positional value =>
          rw [argumentsReferenceAuth, Bool.or_eq_false_iff] at none
          exact ⟨none.1, induction none.2⟩
      | named name value =>
          rw [argumentsReferenceAuth, Bool.or_eq_false_iff] at none
          exact ⟨none.1, induction none.2⟩

theorem clean_of_arms {arms : List MatchArm} (none : armsReferenceAuth arms = false) :
    ∀ part ∈ arms.flatMap MatchArm.parts, Clean part := by
  induction arms with
  | nil => simp
  | cons arm rest induction =>
      rw [List.flatMap_cons, List.forall_mem_append]
      cases arm with
      | mk pattern value =>
          cases pattern with
          | literal pattern =>
              simp only [armsReferenceAuth, Bool.or_eq_false_iff] at none
              refine ⟨?_, induction none.2⟩
              simpa [MatchArm.parts] using none.1
          | fallback =>
              simp only [armsReferenceAuth, Bool.or_eq_false_iff] at none
              refine ⟨?_, induction none.2⟩
              simpa [MatchArm.parts] using none.1

theorem clean_of_statements {statements : List Statement}
    (none : statementsReferenceAuth statements = false) :
    ∀ part ∈ statements.map Call.statement, Clean part := by
  induction statements with
  | nil => simp
  | cons statement rest induction =>
      rw [statementsReferenceAuth, Bool.or_eq_false_iff] at none
      rw [List.map_cons, List.forall_mem_cons]
      exact ⟨none.1, induction none.2⟩

theorem clean_of_taskBody {body : TaskBody} (none : taskBodyReferencesAuth body = false) :
    ∀ part ∈ body.parts, Clean part := by
  cases body with
  | inline value => simpa [TaskBody.parts, taskBodyReferencesAuth] using none
  | block statements result =>
      rw [taskBodyReferencesAuth, Bool.or_eq_false_iff] at none
      rw [TaskBody.parts, List.forall_mem_append]
      exact ⟨clean_of_statements none.1, by simpa using none.2⟩

theorem clean_of_mapStatements {body : List MapStatement}
    (none : mapStatementsReferenceAuth body = false) :
    ∀ part ∈ body.flatMap MapStatement.parts, Clean part := by
  induction body with
  | nil => simp
  | cons statement rest induction =>
      rw [List.flatMap_cons, List.forall_mem_append]
      cases statement with
      | statement value =>
          rw [mapStatementsReferenceAuth, Bool.or_eq_false_iff] at none
          exact ⟨by simpa [MapStatement.parts] using none.1, induction none.2⟩
      | keep value condition =>
          cases condition with
          | none =>
              rw [mapStatementsReferenceAuth, Bool.or_eq_false_iff] at none
              exact ⟨by simpa [MapStatement.parts, optionalPart] using none.1, induction none.2⟩
          | some condition =>
              simp only [mapStatementsReferenceAuth, Bool.or_eq_false_iff] at none
              exact ⟨by simpa [MapStatement.parts, optionalPart] using none.1, induction none.2⟩
      | skip condition =>
          rw [mapStatementsReferenceAuth, Bool.or_eq_false_iff] at none
          exact ⟨by simpa [MapStatement.parts] using none.1, induction none.2⟩

theorem clean_of_stages {stages : List PipelineStage} (none : stagesReferenceAuth stages = false) :
    ∀ part ∈ stages.flatMap PipelineStage.parts, Clean part := by
  induction stages with
  | nil => simp
  | cons stage rest induction =>
      rw [List.flatMap_cons, List.forall_mem_append]
      cases stage with
      | expression value =>
          rw [stagesReferenceAuth, Bool.or_eq_false_iff] at none
          exact ⟨by simpa [PipelineStage.parts] using none.1, induction none.2⟩
      | map element body =>
          rw [stagesReferenceAuth, Bool.or_eq_false_iff] at none
          exact ⟨clean_of_mapStatements none.1, induction none.2⟩
      | reduce initial accumulator item body =>
          simp only [stagesReferenceAuth, Bool.or_eq_false_iff] at none
          refine ⟨?_, induction none.2⟩
          rw [PipelineStage.parts, List.forall_mem_cons]
          exact ⟨none.1.1, clean_of_taskBody none.1.2⟩
      | rescue handler =>
          cases handler with
          | inline value =>
              rw [stagesReferenceAuth, Bool.or_eq_false_iff] at none
              exact ⟨by simpa [PipelineStage.parts, RescueHandler.parts] using none.1,
                induction none.2⟩
          | block statements =>
              rw [stagesReferenceAuth, Bool.or_eq_false_iff] at none
              exact ⟨clean_of_statements none.1, induction none.2⟩

theorem clean_parts_expression {value : Expression}
    (clean : expressionReferencesAuth value = false) : ∀ part ∈ value.parts, Clean part := by
  cases value with
  | integer | float | stringLiteral | boolean | null | identifier | taskCall =>
      simp [Expression.parts]
  | list items => exact clean_of_expressions clean
  | mapLiteral | schemaConstructor => exact clean_of_pairs clean
  | binaryOp | subscript | rescue =>
      rw [expressionReferencesAuth, Bool.or_eq_false_iff] at clean
      simpa [Expression.parts] using clean
  | unaryOp | propertyAccess | httpClientResponseSchema =>
      simpa [Expression.parts, expressionReferencesAuth] using clean
  | methodCall object method arguments =>
      rw [expressionReferencesAuth, Bool.or_eq_false_iff] at clean
      rw [Expression.parts, List.forall_mem_cons]
      exact ⟨clean.1, clean_of_arguments clean.2⟩
  | functionCall name arguments => exact clean_of_arguments clean
  | matchOn subject arms =>
      rw [expressionReferencesAuth, Bool.or_eq_false_iff] at clean
      rw [Expression.parts, List.forall_mem_cons]
      exact ⟨clean.1, clean_of_arms clean.2⟩
  | ifElse condition thenBranch elseBranch =>
      rw [Expression.parts, List.forall_mem_append, List.forall_mem_cons]
      cases elseBranch with
      | none =>
          rw [expressionReferencesAuth, Bool.or_eq_false_iff] at clean
          exact ⟨⟨clean.1, clean_of_taskBody clean.2⟩, by simp⟩
      | some elseBranch =>
          simp only [expressionReferencesAuth, Bool.or_eq_false_iff] at clean
          refine ⟨⟨clean.1.1, clean_of_taskBody clean.1.2⟩, ?_⟩
          simpa using clean_of_taskBody clean.2
  | pipeline input stages =>
      rw [expressionReferencesAuth, Bool.or_eq_false_iff] at clean
      rw [Expression.parts, List.forall_mem_cons]
      exact ⟨clean.1, clean_of_stages clean.2⟩
  | broadcast input targets =>
      rw [expressionReferencesAuth, Bool.or_eq_false_iff] at clean
      rw [Expression.parts, List.forall_mem_cons]
      exact ⟨clean.1, clean_of_expressions clean.2⟩
  | queuePush _ _ payload | topicPublish _ _ payload =>
      cases payload with
      | none => simpa [Expression.parts, optionalPart, expressionReferencesAuth] using clean
      | some payload =>
          rw [expressionReferencesAuth, Bool.or_eq_false_iff] at clean
          simpa [Expression.parts, optionalPart] using clean

theorem clean_parts_statement {value : Statement}
    (clean : statementReferencesAuth value = false) : ∀ part ∈ value.parts, Clean part := by
  cases value with
  | assignment | require | reject | expressionStatement | fail | «export» =>
      simpa [Statement.parts, statementReferencesAuth] using clean
  | conditionalAssignment target value condition line column =>
      rw [statementReferencesAuth, Bool.or_eq_false_iff] at clean
      simpa [Statement.parts] using clean.symm
  | «while» condition body line column =>
      rw [statementReferencesAuth, Bool.or_eq_false_iff] at clean
      rw [Statement.parts, List.forall_mem_cons]
      exact ⟨clean.1, clean_of_statements clean.2⟩
  | reply statusCode contentType body responseSchema extraHeaders line column =>
      cases extraHeaders with
      | none =>
          rw [statementReferencesAuth, Bool.or_eq_false_iff] at clean
          simpa [Statement.parts, optionalPart] using clean
      | some extraHeaders =>
          simp only [statementReferencesAuth, Bool.or_eq_false_iff, and_assoc] at clean
          simpa [Statement.parts, optionalPart] using clean
  | raise message condition line column =>
      cases condition with
      | none => simpa [Statement.parts, optionalPart, statementReferencesAuth] using clean
      | some condition =>
          rw [statementReferencesAuth, Bool.or_eq_false_iff] at clean
          simpa [Statement.parts, optionalPart] using clean
  | transaction body line column => exact clean_of_statements clean
  | nack requeue condition line column =>
      cases condition with
      | none => simp [Statement.parts, optionalPart]
      | some condition => simpa [Statement.parts, optionalPart, statementReferencesAuth] using clean
  | taskDef | route | schema | authProvider | onQueue | onTopic | scenario =>
      simp [Statement.parts]

theorem hereditary_clean : Hereditary Clean := by
  constructor
  intro call clean
  cases call with
  | expression value => exact clean_parts_expression clean
  | statement value => exact clean_parts_statement clean

/-! ## Executions -/

/-- A call that is run in a state, with the recursion depth left for the calls it
makes. -/
structure CallRun where
  depth : Nat
  call : Call
  state : Interpreter

/-- A call leads to the calls its run makes.  A task definition leads to the calls of
the task's body, whenever it is run. -/
inductive CallRun.Leads (host : Host) : CallRun → CallRun → Prop
  | call {depth : Nat} {call made : Call} {state reached : Interpreter}
      (executes : (actionOf host call).Executes host (perform host (depth + 1)) state made
        reached) :
      Leads host ⟨depth + 1, call, state⟩ ⟨depth, made, reached⟩
  | task {depth later line column : Nat} {name : String} {params : List ParamDef}
      {body : TaskBody} {made : Call} {state entered reached : Interpreter}
      (executes : (runBody body).Executes host (perform host (later + 1)) entered made
        reached) :
      Leads host ⟨depth, .statement (.taskDef name params body line column), state⟩
        ⟨later, made, reached⟩

/-- The calls of a run of a route's body, when each of them meets a condition. -/
inductive BodyRun (host : Host) (meets : CallRun → Prop) (body : List Statement) :
    CallRun → Prop
  | start {depth : Nat} {made : Call} {state reached : Interpreter}
      (executes : (Action.block body).Executes host (perform host (depth + 1)) state made
        reached)
      (holds : meets ⟨depth, made, reached⟩) :
      BodyRun host meets body ⟨depth, made, reached⟩
  | step {before after : CallRun} (run : BodyRun host meets body before)
      (leads : before.Leads host after) (holds : meets after) : BodyRun host meets body after

/-- The text whose holes a call of `db.native_query` evaluates. -/
inductive FillsTemplate (host : Host) (depth : Nat) : Call → Interpreter → String → Prop
  | native {object : Expression} {arguments : List Argument} {template : String}
      {state ready started : Interpreter}
      (database : perform host depth (.expression object) state = (.ok .dbNamespace, ready))
      (reads : ReadsTemplate host depth ready arguments template started) :
      FillsTemplate host depth (.expression (.methodCall object "native_query" arguments)) state
        template

/-- No code that the call reads from a text names `auth`, and the call is not
`task(auth)`. -/
structure Plain (host : Host) (reached : CallRun) : Prop where
  literal : ∀ text, reached.call = .expression (.stringLiteral text) →
    ∀ hole ∈ templateHoles text, AllowsCode Clean hole
  template : ∀ text, FillsTemplate host reached.depth reached.call reached.state text →
    ∀ hole ∈ templateHoles text, AllowsCode Clean hole
  task : reached.call ≠ .expression (.taskCall "auth")

/-- The call evaluates the identifier `auth`, by itself or as a bare stage. -/
inductive EvaluatesAuth : Call → Prop
  | identifier : EvaluatesAuth (.expression (.identifier "auth"))
  | task : EvaluatesAuth (.expression (.taskCall "auth"))
  | stage {input : Expression} {stages : List PipelineStage}
      (member : .expression (.identifier "auth") ∈ stages) :
      EvaluatesAuth (.expression (.pipeline input stages))
  | target {input : Expression} {targets : List Expression}
      (member : .identifier "auth" ∈ targets) :
      EvaluatesAuth (.expression (.broadcast input targets))

theorem state_of_requireDbEngine {host : Host} {calls : Call → Run Interpreter Fault Value}
    {state after : Interpreter} {done : Unit}
    (passes : (requireDbEngine host).run host calls state = (.ok done, after)) : after = state := by
  unfold requireDbEngine at passes
  split at passes
  · exact (Prod.mk.inj passes).2.symm
  · cases (Prod.mk.inj passes).1

section Leads

variable {allowed : Call → Prop} {host : Host}

theorem allowed_of_dispatchNativeQuery {depth : Nat} {arguments : List Argument}
    {state reached : Interpreter} {made : Call}
    (each : ∀ argument ∈ arguments, allowed argument.part)
    (plain : ∀ text started, ReadsTemplate host depth state arguments text started →
      ∀ hole ∈ templateHoles text, AllowsCode allowed hole)
    (executes : (dispatchNativeQuery host arguments).Executes host (perform host depth) state
      made reached) : allowed made := by
  rcases executes with executes | ⟨done, after, passes, executes⟩
  · exact Action.allowed_of_executes (built_requireDbEngine) executes
  · obtain rfl := state_of_requireDbEngine passes
    rcases executes with executes | ⟨template, started, read, executes⟩
    · exact Action.allowed_of_executes (built_nativeQueryTemplate each) executes
    · have reads := run_nativeQueryTemplate.mp read
      rcases executes with executes | ⟨pieces, sent, -, executes⟩
      · have codes := plain template started reads
        exact Action.allowed_of_executes (built_extractNativeQueryParams codes) executes
      · refine Action.allowed_of_executes ?_ executes
        exact ⟨trivial, fun _ => trivial⟩

variable (hereditary : Hereditary allowed)

include hereditary

theorem allowed_of_evaluateMethodCall {depth : Nat} {object : Expression}
    {method : String} {arguments : List Argument} {state reached : Interpreter} {made : Call}
    (clean : allowed (.expression (.methodCall object method arguments)))
    (plain : ∀ text, FillsTemplate host depth (.expression (.methodCall object method arguments))
      state text → ∀ hole ∈ templateHoles text, AllowsCode allowed hole)
    (executes : (evaluateMethodCall host object method arguments).Executes host
      (perform host depth) state made reached) : allowed made := by
  have each := arguments_of_methodCall hereditary clean
  have first : allowed (.expression object) :=
    hereditary.parts _ clean _ List.mem_cons_self
  rcases executes with executes | ⟨env, after, read, executes⟩
  · cases executes
  · obtain ⟨-, rfl⟩ := Prod.mk.inj read
    dsimp only at executes
    split at executes
    · refine Action.allowed_of_executes ?_ executes
      exact ⟨built_evaluateArgs (Action.Lines.any host) each, fun _ => built_callTaskValue _ _ _⟩
    · refine Action.allowed_of_executes ?_ executes
      exact ⟨Action.built_position, fun _ => trivial⟩
    · rcases executes with executes | ⟨value, ready, evaluates, executes⟩
      · obtain ⟨rfl, -⟩ := executes
        exact first
      · by_cases native : value = .dbNamespace ∧ method = "native_query"
        · obtain ⟨rfl, rfl⟩ := native
          apply allowed_of_dispatchNativeQuery each _ executes
          intro text started reads
          exact plain text (.native evaluates reads)
        · exact Action.allowed_of_executes (built_dispatchMethod each native) executes

/-- A call that is allowed leads to calls that are allowed, where the code that it reads from
texts is. -/
theorem allowed_of_leads {before after : CallRun} (clean : allowed before.call)
    (bodies : ∀ name params body line column,
      allowed (.statement (.taskDef name params body line column)) →
        ∀ part ∈ body.parts, allowed part)
    (literal : ∀ text, before.call = .expression (.stringLiteral text) →
      ∀ hole ∈ templateHoles text, AllowsCode allowed hole)
    (template : ∀ text, FillsTemplate host before.depth before.call before.state text →
      ∀ hole ∈ templateHoles text, AllowsCode allowed hole)
    (leads : before.Leads host after) : allowed after.call := by
  cases leads with
  | @call depth call made state reached executes =>
      cases call with
      | statement value =>
          exact Action.allowed_of_executes
            (built_executeStatement (hereditary.parts _ clean)) executes
      | expression value =>
          by_cases regular : ∀ object method arguments,
              value ≠ .methodCall object method arguments
          · refine Action.allowed_of_executes (built_evaluate hereditary
              (hereditary.parts _ clean) ?_ regular) executes
            rintro text rfl
            exact literal text rfl
          · simp only [not_forall, not_not] at regular
            obtain ⟨object, method, arguments, rfl⟩ := regular
            exact allowed_of_evaluateMethodCall hereditary clean template executes
  | task executes =>
      exact Action.allowed_of_executes (built_runBody (bodies _ _ _ _ _ clean)) executes

end Leads

theorem meets_of_bodyRun {host : Host} {meets : CallRun → Prop} {body : List Statement}
    {reached : CallRun} (run : BodyRun host meets body reached) : meets reached := by
  cases run with
  | start executes holds => exact holds
  | step run leads holds => exact holds

theorem clean_of_bodyRun {host : Host} {body : List Statement}
    (none : statementsReferenceAuth body = false) {reached : CallRun}
    (run : BodyRun host (Plain host) body reached) : Clean reached.call := by
  induction run with
  | start executes holds =>
      refine Action.allowed_of_executes (Action.built_block ?_) executes
      intro statement member
      exact clean_of_statements none _ (List.mem_map_of_mem member)
  | step run leads holds induction =>
      have plain := meets_of_bodyRun run
      exact allowed_of_leads hereditary_clean induction (fun _ _ _ _ _ => clean_of_taskBody)
        plain.literal plain.template leads

theorem not_mem_stages_of_clean {stages : List PipelineStage}
    (none : stagesReferenceAuth stages = false) :
    .expression (.identifier "auth") ∉ stages := by
  intro member
  have clean := clean_of_stages none (.expression (.identifier "auth"))
    (List.mem_flatMap.mpr ⟨_, member, List.mem_singleton_self _⟩)
  simp [expressionReferencesAuth] at clean

theorem not_evaluatesAuth {call : Call} (clean : Clean call)
    (regular : call ≠ .expression (.taskCall "auth")) : ¬ EvaluatesAuth call := by
  intro evaluates
  cases evaluates with
  | identifier => simp [expressionReferencesAuth] at clean
  | task => exact regular rfl
  | stage member =>
      simp only [clean_expression, expressionReferencesAuth, Bool.or_eq_false_iff] at clean
      exact not_mem_stages_of_clean clean.2 member
  | target member =>
      simp only [clean_expression, expressionReferencesAuth, Bool.or_eq_false_iff] at clean
      have identifier := clean_of_expressions clean.2 _ (List.mem_map_of_mem member)
      simp [expressionReferencesAuth] at identifier

theorem statementsReferenceAuth_of_accepted {routes : List RouteDefinition}
    {authProviders : Table String AuthProvider}
    (accepted : validateAuthContract routes authProviders = .ok ()) {route : RouteDefinition}
    (member : route ∈ routes) (isPublic : route.auth = none) :
    statementsReferenceAuth route.body = false := by
  have checked := forM_eq_ok.mp accepted route member
  simp only [validateRouteAuth, isPublic] at checked
  split at checked
  · cases checked
  · split at checked
    · cases checked
    · rename_i free
      exact Bool.eq_false_of_not_eq_true free

/-- In a run of the body of an accepted public route no call evaluates `auth`, as long as
no code that is read from a text names it and no call is `task(auth)`. -/
theorem publicRoute_spares_auth (host : Host) {routes : List RouteDefinition}
    {authProviders : Table String AuthProvider}
    (accepted : validateAuthContract routes authProviders = .ok ()) {route : RouteDefinition}
    (member : route ∈ routes) (isPublic : route.auth = none) {reached : CallRun}
    (run : BodyRun host (Plain host) route.body reached) : ¬ EvaluatesAuth reached.call := by
  have none := statementsReferenceAuth_of_accepted accepted member isPublic
  exact not_evaluatesAuth (clean_of_bodyRun none run) (meets_of_bodyRun run).task

def greeting : RouteDefinition where
  verb := .get
  path := "/greeting"
  auth := none
  allow := []
  take := []
  body := [.expressionStatement (.identifier "request") 2 1]
  line := 1
  column := 1
  sourceFile := none
  moduleId := none

theorem greeting_spares_auth :
    ¬ EvaluatesAuth (.statement (.expressionStatement (.identifier "request") 2 1)) := by
  have run : BodyRun emptyHost (Plain emptyHost) greeting.body
      ⟨0, .statement (.expressionStatement (.identifier "request") 2 1),
        Interpreter.new Environment.new none⟩ := by
    apply BodyRun.start
    · exact .inl (.inl ⟨rfl, rfl⟩)
    · constructor
      · intro text call
        cases call
      · intro text fills
        cases fills
      · intro call
        cases call
  have accepted : validateAuthContract [greeting] [] = .ok () := rfl
  exact publicRoute_spares_auth emptyHost accepted List.mem_cons_self rfl run

/-- The identifier is written inside a string. -/
def welcome : RouteDefinition :=
  { greeting with body := [.expressionStatement (.stringLiteral "#\x7bauth\x7d") 2 1] }

theorem interpolateString_auth :
    interpolateString emptyHost "#\x7bauth\x7d" =
      ([TemplatePart.code "auth".toList].mapM (interpolatePart emptyHost) >>=
        fun parts => return .string (String.join parts)) := by
  have written : hasTemplate "#\x7bauth\x7d".toList = true := by decide +kernel
  have parts : templateParts none "#\x7bauth\x7d".toList = [.code "auth".toList] := by
    decide +kernel
  rw [interpolateString, if_pos written, parts]

/-- An accepted public route evaluates the `auth` of an interpolated string. -/
theorem interpolated_auth_evaluated :
    welcome.auth = none ∧ validateAuthContract [welcome] [] = .ok () ∧
      ∃ reached : CallRun,
        BodyRun emptyHost (fun _ => True) welcome.body reached ∧
        EvaluatesAuth reached.call := by
  refine ⟨rfl, rfl, ?_⟩
  let start := Interpreter.new Environment.new none
  let moved := { start with line := 2, column := 1 }
  have statement : BodyRun emptyHost (fun _ => True) welcome.body
      ⟨2, .statement (.expressionStatement (.stringLiteral "#\x7bauth\x7d") 2 1), start⟩ :=
    .start (.inl (.inl ⟨rfl, rfl⟩)) trivial
  have literal : BodyRun emptyHost (fun _ => True) welcome.body
      ⟨1, .expression (.stringLiteral "#\x7bauth\x7d"), moved⟩ :=
    .step statement (.call (.inr ⟨(), moved, rfl, rfl, rfl⟩)) trivial
  have hole : BodyRun emptyHost (fun _ => True) welcome.body
      ⟨0, .expression (.identifier "auth"), moved⟩ := by
    apply BodyRun.step literal _ trivial
    apply CallRun.Leads.call
    change (interpolateString emptyHost "#\x7bauth\x7d").Executes _ _ _ _ _
    rw [interpolateString_auth]
    exact .inl (.inl (.inl ⟨rfl, rfl⟩))
  exact ⟨_, hole, .identifier⟩

end Marreta
