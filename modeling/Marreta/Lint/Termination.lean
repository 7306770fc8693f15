import Marreta.Lint.ProjectErrors
import Marreta.Runtime.Constituents
import Marreta.Runtime.Replies
import Marreta.Server.Bindings

namespace Marreta

open Foundation

/-! Statements that end a run.

Two rules of the linter read where a run can go: one looks for routes whose body can
finish without a response, the other for statements after a `reply`, a `fail` or a
`raise`.  Both are syntactic, and the evaluator ends bodies by errors. -/

namespace Lint

/-- A diagnostic of severity warning. -/
abbrev LintWarning := LintDiagnostic

/-! ## Routes without a response -/

def isFallback : MatchArm → Bool
  | .mk .fallback _ => true
  | .mk (.literal _) _ => false

mutual
/-- Some statement of the block is certain to end it. -/
def blockTerminates : List Statement → Bool
  | [] => false
  | statement :: rest => statementTerminates statement || blockTerminates rest

def statementTerminates : Statement → Bool
  | .reply .. | .fail .. => true
  | .raise _ none _ _ => true
  | .transaction body _ _ => blockTerminates body
  | .expressionStatement expression _ _ => expressionTerminates expression
  | .assignment _ value _ _ => expressionTerminates value
  | _ => false

/-- Pipelines and the handlers of `rescue` are not looked into. -/
def expressionTerminates : Expression → Bool
  | .functionCall name _ => name = "__fail__"
  | .ifElse _ thenBranch (some elseBranch) =>
      taskBodyTerminates elseBranch && taskBodyTerminates thenBranch
  | .matchOn _ arms => arms.any isFallback && armsTerminate arms
  | _ => false

def armsTerminate : List MatchArm → Bool
  | [] => true
  | .mk _ value :: rest => expressionTerminates value && armsTerminate rest

def taskBodyTerminates : TaskBody → Bool
  | .block statements result => blockTerminates statements || expressionTerminates result
  | .inline value => expressionTerminates value
end

def routeWithoutResponse (path : String) (line column : Nat) : LintWarning where
  path := path
  line := line
  column := column
  code := "route_without_response"
  message := "route can finish without a reply or fail, returning a silent 204"
  help := some ("End every path with reply or fail, or suppress with " ++
    "`# marreta: allow route_without_response` if the empty 204 is intended.")

def lintRouteStatement (path : String) : Statement → List LintWarning
  | .route _ _ _ _ _ body line column =>
      if blockTerminates body then [] else [routeWithoutResponse path line column]
  | .export statement => lintRouteStatement path statement
  | _ => []

def lintRouteWithoutResponse (path : String) (statements : List Statement) : List LintWarning :=
  statements.flatMap (lintRouteStatement path)

/-! ## Unreachable statements -/

def terminalStatementKind : Statement → Option String
  | .reply .. => some "reply"
  | .fail .. => some "fail"
  | .raise _ none _ _ => some "raise"
  | _ => none

def statementLocation : Statement → Nat × Nat
  | .assignment _ _ line column | .conditionalAssignment _ _ _ line column
  | .require _ _ _ line column | .reject _ _ _ line column
  | .while _ _ line column | .taskDef _ _ _ line column
  | .expressionStatement _ line column | .route _ _ _ _ _ _ line column
  | .schema _ _ _ line column | .authProvider _ line column
  | .reply _ _ _ _ _ line column | .fail _ _ line column
  | .raise _ _ line column | .transaction _ line column
  | .onQueue _ _ _ _ line column | .onTopic _ _ _ _ line column
  | .nack _ _ line column | .scenario _ _ line column => (line, column)
  | .export statement => statementLocation statement

def unreachableStatement (path kind : String) (statement : Statement) : LintWarning where
  path := path
  line := (statementLocation statement).1
  column := (statementLocation statement).2
  code := "unreachable_statement"
  message := "statement is unreachable after " ++ kind
  help := some ("Remove the statement or move it before the " ++ kind ++ ".")

/-- All statements after the first terminal one. -/
def lintUnreachableFrom (path : String) : Option String → List Statement → List LintWarning
  | _, [] => []
  | some kind, statement :: rest =>
      unreachableStatement path kind statement :: lintUnreachableFrom path (some kind) rest
  | none, statement :: rest => lintUnreachableFrom path (terminalStatementKind statement) rest

def lintUnreachable (path : String) (statements : List Statement) : List LintWarning :=
  lintUnreachableFrom path none statements

end Lint

/-! ## Actions that never return -/

/-- The action ends with a fault from every state. -/
def Action.Faults (host : Host) (calls : Call → Run Interpreter Fault Value) {α : Type}
    (action : Action α) : Prop :=
  ∀ state, ¬ Returns (action.run host calls state).1

namespace Action

variable {host : Host} {calls : Call → Run Interpreter Fault Value} {α β : Type}

theorem faults_raise (error : MarretaError) : Faults host calls (.raise error : Action α) := by
  intro state returned
  obtain ⟨value, equal⟩ := returned
  cases equal

theorem faults_stop (signal : StopSignal) : Faults host calls (.stop signal : Action α) := by
  intro state returned
  obtain ⟨value, equal⟩ := returned
  cases equal

theorem Faults.bind {first : Action α} (faults : Faults host calls first) (next : α → Action β) :
    Faults host calls (first >>= next) := by
  intro state returned
  apply faults state
  rw [run_bind, Run.bind_run] at returned
  split at returned
  · rename_i value after equal
    rw [equal]
    exact ⟨value, rfl⟩
  · obtain ⟨value, equal⟩ := returned
    cases equal

theorem faults_next (first : Action α) {next : α → Action β}
    (faults : ∀ value, Faults host calls (next value)) : Faults host calls (first >>= next) := by
  intro state returned
  rw [run_bind, Run.bind_run] at returned
  split at returned
  · rename_i value after equal
    exact faults value after returned
  · obtain ⟨value, equal⟩ := returned
    cases equal

theorem faults_typeError (message : String) : Faults host calls (typeError message : Action α) :=
  faults_next _ fun _ => faults_raise _

theorem Faults.branch {body : Action α} (faults : Faults host calls body) :
    Faults host calls (.branch body) :=
  fun state returned => faults state returned

/-- A transaction whose body does not return is rolled back, or was never begun. -/
theorem Faults.transaction {body : Action Unit} (faults : Faults host calls body) :
    Faults host calls (.transaction body) := by
  intro state returned
  change Returns (runTransaction host (body.run host calls) state).1 at returned
  unfold runTransaction at returned
  obtain ⟨value, equal⟩ := returned
  split at equal
  · cases equal
  · split at equal
    · cases equal
    · split at equal
      · cases equal
      · have inside := faults state.enterTransaction
        unfold finishTransaction at equal
        split at equal
        · rename_i done after finished
          rw [finished] at inside
          exact inside ⟨done, rfl⟩
        · split at equal <;> cases equal
        · cases equal

/-- A block ends when one of its statements does. -/
theorem faults_block {statement : Statement} {statements : List Statement}
    (member : statement ∈ statements) (faults : Faults host calls (exec statement)) :
    Faults host calls (block statements) := by
  induction statements with
  | nil => cases member
  | cons head rest induction =>
      rcases List.mem_cons.mp member with rfl | later
      · exact (faults.bind _).bind _
      · exact faults_next _ fun _ => induction later

end Action

/-! ## What terminates never returns -/

namespace Lint

open Marreta.Action (Faults eval exec block faults_raise faults_stop faults_next faults_typeError)

/-- What the linter takes for terminating ends at a depth of the recursion. -/
structure TerminatesAt (host : Host) (depth : Nat) : Prop where
  expression : ∀ value, expressionTerminates value = true →
    Faults host (perform host depth) (eval value)
  statement : ∀ value, statementTerminates value = true →
    Faults host (perform host depth) (exec value)

theorem exists_of_blockTerminates {statements : List Statement}
    (terminates : blockTerminates statements = true) :
    ∃ statement ∈ statements, statementTerminates statement = true := by
  induction statements with
  | nil => cases terminates
  | cons statement rest induction =>
      rw [blockTerminates, Bool.or_eq_true] at terminates
      rcases terminates with first | later
      · exact ⟨statement, List.mem_cons_self, first⟩
      · obtain ⟨other, member, ends⟩ := induction later
        exact ⟨other, List.mem_cons_of_mem _ member, ends⟩

theorem faults_executeReply (host : Host) (depth : Nat) (statusCode : Expression)
    (contentType : ReplyContentType) (body : Expression) (responseSchema : Option String)
    (extraHeaders : Option Expression) :
    Faults host (perform host depth)
      (executeReply host statusCode contentType body responseSchema extraHeaders) := by
  unfold executeReply
  apply faults_next
  intro status
  split
  · exact faults_next _ fun value => faults_next _ fun module => faults_next _ fun headers =>
      faults_stop _
  · exact faults_typeError _

/-- Without a condition a `raise` always raises. -/
theorem faults_raiseStatement (host : Host) (depth : Nat) (message : Expression)
    (line column : Nat) :
    Faults host (perform host depth) (executeKind host (.raise message none line column)) := by
  have raised : Faults host (perform host depth) (eval message >>= fun value =>
      (Action.raise (.raiseError (host.library.display value)) : Action Value)) :=
    faults_next _ fun value => faults_raise _
  exact fun state returned => raised state returned

section Bodies

variable {host : Host} {depth : Nat} (within : TerminatesAt host depth)

include within

theorem faults_block_of_terminates {statements : List Statement}
    (terminates : blockTerminates statements = true) :
    Faults host (perform host depth) (block statements) := by
  obtain ⟨statement, member, ends⟩ := exists_of_blockTerminates terminates
  exact Action.faults_block member (within.statement statement ends)

theorem faults_runBody {body : TaskBody} (terminates : taskBodyTerminates body = true) :
    Faults host (perform host depth) (runBody body) := by
  cases body with
  | inline value => exact within.expression value terminates
  | block statements result =>
      rw [taskBodyTerminates, Bool.or_eq_true] at terminates
      rcases terminates with inside | last
      · exact (faults_block_of_terminates within inside).bind _
      · exact faults_next _ fun _ => within.expression result last

/-- A match with a fallback takes one of its arms. -/
theorem faults_evaluateMatch {arms : List MatchArm} (covered : arms.any isFallback = true)
    (terminates : armsTerminate arms = true) (subject : Value) :
    Faults host (perform host depth) (evaluateMatch host subject arms) := by
  induction arms with
  | nil => cases covered
  | cons arm rest induction =>
      obtain ⟨pattern, value⟩ := arm
      rw [armsTerminate, Bool.and_eq_true] at terminates
      have taken := within.expression value terminates.1
      cases pattern with
      | fallback => exact taken
      | literal pattern =>
          rw [evaluateMatch]
          apply faults_next
          intro pattern
          split
          · exact taken
          · exact induction covered terminates.2

theorem faults_evaluate {value : Expression} (terminates : expressionTerminates value = true) :
    Faults host (perform host depth) (evaluate host value) := by
  unfold expressionTerminates at terminates
  split at terminates
  · rename_i name arguments
    obtain rfl : name = "__fail__" := of_decide_eq_true terminates
    exact faults_next _ fun values => faults_stop _
  · rename_i condition thenBranch elseBranch
    rw [Bool.and_eq_true] at terminates
    rw [evaluate]
    apply faults_next
    intro condition
    split
    · exact (faults_runBody within terminates.2).branch
    · exact (faults_runBody within terminates.1).branch
  · rename_i subject arms
    rw [Bool.and_eq_true] at terminates
    exact faults_next _ fun subject => faults_evaluateMatch within terminates.1 terminates.2 subject
  · cases terminates

theorem faults_executeKind {statement : Statement}
    (terminates : statementTerminates statement = true) :
    Faults host (perform host depth) (executeKind host statement) := by
  unfold statementTerminates at terminates
  split at terminates
  · exact faults_executeReply host depth _ _ _ _ _
  · exact faults_next _ fun message => faults_stop _
  · exact faults_raiseStatement host depth _ _ _
  · exact (faults_block_of_terminates within terminates).transaction.bind _
  · exact within.expression _ terminates
  · exact (within.expression _ terminates).bind _
  · cases terminates

end Bodies

theorem terminatesAt (host : Host) (depth : Nat) : TerminatesAt host depth := by
  induction depth with
  | zero =>
      constructor
      · intro value _ state returned
        obtain ⟨result, equal⟩ := returned
        cases equal
      · intro value _ state returned
        obtain ⟨result, equal⟩ := returned
        cases equal
  | succ depth within =>
      constructor
      · exact fun value terminates => faults_evaluate within terminates
      · intro value terminates
        have executed : Faults host (perform host depth) (executeStatement host value) := by
          unfold executeStatement
          split
          · exact faults_next _ fun _ => faults_executeKind within terminates
          · exact faults_executeKind within terminates
        exact fun state returned => executed state returned

/-! ## What a run of a list executes -/

theorem executes_block {host : Host} {depth : Nat} {statements : List Statement}
    {state reached : Interpreter} {made : Call}
    (executes : (block statements).Executes host (perform host depth) state made reached) :
    ∃ index statement, statements[index]? = some statement ∧ made = .statement statement ∧
      runAction host depth (block (statements.take index)) state = (.ok (), reached) := by
  induction statements generalizing state with
  | nil => cases executes
  | cons head rest induction =>
      rcases executes with (⟨rfl, rfl⟩ | ⟨_, _, _, nothing⟩) | ⟨⟨⟩, after, ran, later⟩
      · exact ⟨0, head, rfl, rfl, rfl⟩
      · cases nothing
      · obtain ⟨index, statement, found, same, before⟩ := induction later
        refine ⟨index + 1, statement, found, same, ?_⟩
        rw [List.take_succ_cons]
        exact (runAction_bind ran).trans before

theorem executes_execute {host : Host} {depth : Nat} {statements : List Statement}
    {state reached : Interpreter} {made : Call}
    (executes : (execute statements).Executes host (perform host depth) state made reached) :
    (block statements).Executes host (perform host depth) state made reached := by
  induction statements generalizing state with
  | nil => cases executes
  | cons head rest induction =>
      cases rest with
      | nil => exact .inl (.inl executes)
      | cons next rest =>
          rcases executes with first | ⟨value, after, ran, later⟩
          · exact .inl (.inl first)
          · refine .inr ⟨(), after, ?_, induction later⟩
            exact (runAction_bind ran).trans rfl

/-! ## What the linter flags -/

theorem lintUnreachableFrom_some (path kind : String) (statements : List Statement) :
    lintUnreachableFrom path (some kind) statements =
      statements.map (unreachableStatement path kind) := by
  induction statements with
  | nil => rfl
  | cons statement rest induction => rw [lintUnreachableFrom, induction, List.map_cons]

/-- The flagged statements are those behind a terminal one. -/
theorem lintUnreachable_split (path : String) (statements : List Statement) :
    ∃ kept flagged kind, statements = kept ++ flagged ∧
      lintUnreachable path statements = flagged.map (unreachableStatement path kind) ∧
      (flagged = [] ∨ ∃ statement ∈ kept, terminalStatementKind statement = some kind) := by
  unfold lintUnreachable
  induction statements with
  | nil => exact ⟨[], [], "", rfl, rfl, .inl rfl⟩
  | cons statement rest induction =>
      rw [lintUnreachableFrom]
      cases terminal : terminalStatementKind statement with
      | some kind =>
          exact ⟨[statement], rest, kind, rfl, lintUnreachableFrom_some path kind rest,
            .inr ⟨statement, List.mem_singleton_self _, terminal⟩⟩
      | none =>
          obtain ⟨kept, flagged, kind, split, reported, stops⟩ := induction
          refine ⟨statement :: kept, flagged, kind, by rw [split, List.cons_append], reported, ?_⟩
          apply stops.imp_right
          intro found
          obtain ⟨other, member, terminal⟩ := found
          exact ⟨other, List.mem_cons_of_mem _ member, terminal⟩

theorem terminates_of_terminal {statement : Statement} {kind : String}
    (terminal : terminalStatementKind statement = some kind) :
    statementTerminates statement = true := by
  unfold terminalStatementKind at terminal
  split at terminal <;> first | rfl | cases terminal

theorem isStartup_of_terminal {statement : Statement} {kind : String}
    (terminal : terminalStatementKind statement = some kind) : statement.isStartup = true := by
  unfold terminalStatementKind at terminal
  split at terminal <;> first | rfl | cases terminal

/-! ## Soundness -/

/-- Every statement that a run of the action executes stands in the list, and all before
it have returned. -/
def RunsOnly (kept : List Statement) {α : Type} (action : Action α) : Prop :=
  ∀ (host : Host) (depth : Nat) (state reached : Interpreter) (made : Call),
    action.Executes host (perform host depth) state made reached →
      ∃ index statement, kept[index]? = some statement ∧ made = .statement statement ∧
        runAction host depth (block (kept.take index)) state = (.ok (), reached)

/-- A run of a list does not come past a statement that terminates. -/
theorem runsOnly_block {kept flagged : List Statement}
    (stops : flagged = [] ∨ ∃ statement ∈ kept, statementTerminates statement = true) :
    RunsOnly kept (block (kept ++ flagged)) := by
  intro host depth state reached made executes
  obtain ⟨index, statement, found, same, before⟩ := executes_block executes
  have inside : index < kept.length := by
    by_contra past
    rcases stops with rfl | ⟨terminal, member, terminates⟩
    · rw [List.append_nil] at found
      exact past (List.getElem?_eq_some_iff.mp found).1
    · have behind : terminal ∈ (kept ++ flagged).take index := by
        rw [List.take_append]
        apply List.mem_append_left
        rwa [List.take_of_length_le (by omega)]
      have faults := Action.faults_block behind
        ((terminatesAt host depth).statement terminal terminates)
      exact faults state ⟨(), congrArg Prod.fst before⟩
  rw [List.getElem?_append_left inside] at found
  rw [List.take_append_of_le_length (by omega)] at before
  exact ⟨index, statement, found, same, before⟩

theorem mem_lintRouteWithoutResponse {path : String} {statements : List Statement}
    {verb : HttpVerb} {pattern : String} {auth : Option RouteAuth} {allow : List Expression}
    {take : List TakeBinding} {body : List Statement} {line column : Nat}
    (member : .route verb pattern auth allow take body line column ∈ statements)
    (unended : blockTerminates body = false) :
    routeWithoutResponse path line column ∈ lintRouteWithoutResponse path statements := by
  apply List.mem_flatMap_of_mem member
  rw [lintRouteStatement, unended]
  exact List.mem_singleton_self _

/-- A body that terminates never runs to its end, so that no route without a warning
answers with an empty response; and no run of a list of statements, of a program or of
its startup statements executes one that is flagged as unreachable. -/
theorem responseLints_sound :
    (∀ body, blockTerminates body = true → ∀ (host : Host) (depth : Nat) (state : Interpreter),
      ¬ Returns (runAction host depth (block body) state).1) ∧
    (∀ (file : SourceFile), ∀ route ∈ file.routes,
      routeWithoutResponse file.path route.line route.column ∉
        lintRouteWithoutResponse file.path file.program →
      ∀ (server : ServerContext) (runtime : ProjectRuntime) (request : RouteRequest)
        (after : Interpreter), executeRoute server runtime route request ≠ .ok (.ok (), after)) ∧
    (∀ (path : String) (statements : List Statement), ∃ kept flagged kind,
      statements = kept ++ flagged ∧
      lintUnreachable path statements = flagged.map (unreachableStatement path kind) ∧
      RunsOnly kept (block statements) ∧ RunsOnly kept (execute statements) ∧
      RunsOnly (kept.filter Statement.isStartup)
        (block (statements.filter Statement.isStartup))) := by
  have bodies : ∀ body, blockTerminates body = true →
      ∀ (host : Host) (depth : Nat) (state : Interpreter),
        ¬ Returns (runAction host depth (block body) state).1 :=
    fun body terminates host depth =>
      faults_block_of_terminates (terminatesAt host depth) terminates
  refine ⟨bodies, ?_, ?_⟩
  · intro file route member silent server runtime request after answered
    obtain ⟨statement, declared, found⟩ := List.mem_filterMap.mp member
    have terminates : blockTerminates route.body = true := by
      cases statement <;> simp only [Statement.route?, Option.some.injEq, reduceCtorEq] at found
      subst found
      by_contra unended
      exact silent (mem_lintRouteWithoutResponse declared (Bool.eq_false_iff.mpr unended))
    rw [executeRoute, bind_eq_ok] at answered
    obtain ⟨start, -, answered⟩ := answered
    exact bodies route.body terminates _ _ start
      ⟨(), congrArg Prod.fst (Except.ok.inj answered)⟩
  · intro path statements
    obtain ⟨kept, flagged, kind, split, reported, stops⟩ := lintUnreachable_split path statements
    have ending : flagged = [] ∨ ∃ statement ∈ kept, statementTerminates statement = true := by
      apply stops.imp_right
      intro found
      obtain ⟨statement, member, terminal⟩ := found
      exact ⟨statement, member, terminates_of_terminal terminal⟩
    have started : flagged.filter Statement.isStartup = [] ∨
        ∃ statement ∈ kept.filter Statement.isStartup, statementTerminates statement = true := by
      rcases stops with rfl | ⟨statement, member, terminal⟩
      · exact .inl rfl
      · exact .inr ⟨statement, List.mem_filter.mpr ⟨member, isStartup_of_terminal terminal⟩,
          terminates_of_terminal terminal⟩
    subst split
    refine ⟨kept, flagged, kind, rfl, reported, runsOnly_block ending, ?_, ?_⟩
    · intro host depth state reached made executes
      exact runsOnly_block ending host depth state reached made (executes_execute executes)
    · rw [List.filter_append]
      exact runsOnly_block started

/-- A route that answers in both branches of an `if`. -/
def choiceFile : SourceFile where
  path := "routes/choice.marreta"
  moduleId := "routes/choice"
  source := ("route GET \"/choice\"\n    if true\n        reply 200, \"yes\"\n" ++
    "    else\n        fail 404, \"no\"\n").toList

theorem responseLints_sound_choice :
    choiceFile.routes.length = 1 ∧
    (∀ route ∈ choiceFile.routes, ∀ (server : ServerContext) (runtime : ProjectRuntime)
        (request : RouteRequest) (after : Interpreter),
      executeRoute server runtime route request ≠ .ok (.ok (), after)) ∧
    ∀ (host : Host) (depth : Nat) (state : Interpreter), ¬ Returns (runAction host depth
      (block [.transaction [.fail 404 .null 2 5] 1 1, .nack true none 3 1]) state).1 := by
  have silent : lintRouteWithoutResponse choiceFile.path choiceFile.program = [] := by
    decide +kernel
  refine ⟨by decide +kernel, ?_, ?_⟩
  · intro route member
    apply responseLints_sound.2.1 choiceFile route member
    rw [silent]
    exact List.not_mem_nil
  · exact responseLints_sound.1 _ rfl

end Lint

end Marreta
