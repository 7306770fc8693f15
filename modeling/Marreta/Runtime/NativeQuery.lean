import Marreta.Runtime.Evaluate

namespace Marreta

open Foundation

/-! Statements written in SQL.

The text of a native query is a template.  Its expressions are evaluated from
left to right, and each is replaced by the placeholder its value is bound to. -/

/-! ## Templates -/

inductive StatementPiece where
  | text (char : Char)
  | bound (index : Nat)
deriving DecidableEq

namespace StatementPiece

def render : StatementPiece → String
  | text char => char.toString
  | bound index => placeholder index

def index? : StatementPiece → Option Nat
  | text _ => none
  | bound index => some index

end StatementPiece

/-- The pieces of a template, its expressions numbered from `next` on. -/
def numberHoles (next : Nat) : List TemplatePart → List StatementPiece
  | [] => []
  | .char char :: rest => .text char :: numberHoles next rest
  | .code _ :: rest => .bound next :: numberHoles (next + 1) rest

def holes : List TemplatePart → List (List Char)
  | [] => []
  | .char _ :: rest => holes rest
  | .code source :: rest => Text.trim source :: holes rest

theorem index?_numberHoles (next : Nat) (parts : List TemplatePart) :
    (numberHoles next parts).filterMap StatementPiece.index? =
      List.range' next (holes parts).length := by
  induction parts generalizing next with
  | nil => rfl
  | cons part rest induction =>
      cases part with
      | char char =>
          rw [numberHoles, List.filterMap_cons_none rfl, holes]
          exact induction next
      | code source =>
          rw [numberHoles, List.filterMap_cons, holes, List.length_cons, List.range'_succ]
          exact congrArg _ (induction (next + 1))

theorem holes_map_char (text : List Char) : holes (text.map .char) = [] := by
  induction text with
  | nil => rfl
  | cons char rest induction => exact induction

theorem join_numberHoles_map_char (next : Nat) (text : List Char) :
    String.join ((numberHoles next (text.map .char)).map StatementPiece.render) =
      String.ofList text := by
  induction text with
  | nil => rfl
  | cons char rest induction =>
      simp only [List.map_cons, numberHoles, String.join_cons, induction,
        StatementPiece.render]
      exact String.toList_injective (by simp)

theorem templateParts_of_not_hasTemplate {text : List Char}
    (plain : hasTemplate text = false) : templateParts none text = text.map .char := by
  induction text with
  | nil => rfl
  | cons char rest induction =>
      unfold hasTemplate at plain
      split at plain
      · cases plain
      · rename_i noHole equal
        obtain ⟨rfl, rfl⟩ := List.cons.inj equal
        rw [templateParts.eq_3 char rest noHole, induction plain]
        rfl
      · rename_i equal
        cases equal

/-- The pieces of the statement a template stands for. -/
def templatePieces (template : String) : List StatementPiece :=
  numberHoles 1 (templateParts none template.toList)

/-- The text of the statement a template stands for. -/
def templateSql (template : String) : String :=
  String.join ((templatePieces template).map StatementPiece.render)

/-- The expressions of a template, from left to right. -/
def templateHoles (template : String) : List (List Char) :=
  holes (templateParts none template.toList)

/-- A template without expressions is sent as it is. -/
theorem templateSql_of_not_hasTemplate {template : String}
    (plain : hasTemplate template.toList = false) :
    templateSql template = template ∧ templateHoles template = [] := by
  rw [templateSql, templatePieces, templateHoles, templateParts_of_not_hasTemplate plain,
    holes_map_char, join_numberHoles_map_char, String.ofList_toList]
  exact ⟨rfl, rfl⟩

example :
    templateSql "a = #\x7bx\x7d AND b = #\x7by.z\x7d" = "a = $1 AND b = $2" := by
  decide +kernel

/-! ## Reading a template -/

/-- One turn of the loop over the parts of a template. -/
def readPart : String × List Value → TemplatePart → Action (String × List Value)
  | (sql, params), .char char => return (sql.push char, params)
  | (sql, params), .code source => do
      let value ← evaluateSourceExpression (Text.trim source)
      let params := params ++ [value]
      return (sql ++ placeholder params.length, params)

theorem extractNativeQueryParams_eq (template : String) :
    extractNativeQueryParams template =
      if hasTemplate template.toList then
        (templateParts none template.toList).foldlM readPart ("", [])
      else return (template, []) := by
  unfold extractNativeQueryParams
  congr 2
  funext read part
  cases part <;> rfl

section Reading

variable (host : Host) (depth : Nat)

/-- The text of the parts is added to the statement, and the values of the
expressions to the parameters. -/
theorem run_readParts (parts : List TemplatePart) (sql : String) (params : List Value) :
    runAction host depth (parts.foldlM readPart (sql, params)) =
      (fun values =>
        (sql ++ String.join ((numberHoles (params.length + 1) parts).map
          StatementPiece.render), params ++ values)) <$>
        runAction host depth ((holes parts).mapM evaluateSourceExpression) := by
  induction parts generalizing sql params with
  | nil =>
      simp [numberHoles, holes, runAction, String.join]
  | cons part rest induction =>
      simp only [runAction, Action.run_mapM] at induction ⊢
      cases part with
      | char char =>
          simp only [List.foldlM_cons, readPart, Action.run_bind, Action.run_pure, pure_bind,
            induction]
          have pushed : sql.push char = sql ++ char.toString := String.push_eq_append char
          simp only [pushed, numberHoles, holes, List.map_cons, StatementPiece.render,
            String.join_cons, String.append_assoc]
      | code source =>
          simp only [List.foldlM_cons, readPart, Action.run_bind, Action.run_pure, pure_bind,
            bind_assoc, induction]
          simp [numberHoles, holes, StatementPiece.render, String.join_cons,
            String.append_assoc]

theorem run_extractNativeQueryParams (template : String) :
    runAction host depth (extractNativeQueryParams template) =
      (fun values => (templateSql template, values)) <$>
        runAction host depth ((templateHoles template).mapM evaluateSourceExpression) := by
  rw [extractNativeQueryParams_eq]
  split
  · rw [run_readParts]
    simp [templateSql, templatePieces, templateHoles]
  · rename_i plain
    obtain ⟨text, none⟩ := templateSql_of_not_hasTemplate (Bool.eq_false_iff.mpr plain)
    rw [text, none]
    rfl

end Reading

/-! ## What is sent -/

section Sending

variable (host : Host) (depth : Nat)

/-- The statement and the parameters of a call, as they are handed to the
driver. -/
def nativeQueryRequest (arguments : List Argument) : Action (String × List Value) := do
  requireDbEngine host
  let template ← nativeQueryTemplate arguments
  extractNativeQueryParams template

/-- Hand a statement to the driver. -/
def sendNative (sql : String) (params : List Value) : Run Interpreter Fault Value := do
  let rows ← Action.runDb host (.nativeQuery sql params)
  return .list (rows.map .map)

theorem run_dispatchNativeQuery (arguments : List Argument) :
    runAction host depth (dispatchNativeQuery host arguments) =
      runAction host depth (nativeQueryRequest host arguments) >>=
        fun (sql, params) => sendNative host sql params := by
  simp only [runAction, dispatchNativeQuery, nativeQueryRequest, Action.run_bind,
    Action.run_pure, bind_assoc]
  rfl

/-- The call sends a statement with its parameters, in the state `ready`. -/
def SendsNative (arguments : List Argument) (state : Interpreter) (sql : String)
    (params : List Value) (ready : Interpreter) : Prop :=
  runAction host depth (nativeQueryRequest host arguments) state = (.ok (sql, params), ready)

/-- Where the template of a call comes from: a literal is taken as it is written,
any other argument is evaluated. -/
inductive ReadsTemplate (state : Interpreter) :
    List Argument → String → Interpreter → Prop
  | literal (template : String) (rest : List Argument) :
      ReadsTemplate state (.positional (.stringLiteral template) :: rest) template state
  | value {arguments : List Argument} {template : String} {values : List Value}
      {started : Interpreter}
      (computed : ∀ literal rest, arguments ≠ .positional (.stringLiteral literal) :: rest)
      (evaluates : runAction host depth (evaluateArgs arguments) state =
        (.ok (.string template :: values), started)) :
      ReadsTemplate state arguments template started

variable {host depth}

theorem run_nativeQueryTemplate {arguments : List Argument} {state started : Interpreter}
    {template : String} :
    runAction host depth (nativeQueryTemplate arguments) state = (.ok template, started) ↔
      ReadsTemplate host depth state arguments template started := by
  constructor
  · intro runs
    unfold nativeQueryTemplate at runs
    split at runs
    · cases runs
    · obtain ⟨same, rfl⟩ := Prod.mk.inj runs
      obtain rfl := Except.ok.inj same
      exact .literal _ _
    · rename_i computed
      simp only [runAction, Action.run_bind, Run.bind_run] at runs
      split at runs
      · rename_i values after evaluates
        split at runs
        · rename_i text first
          obtain ⟨same, rfl⟩ := Prod.mk.inj runs
          obtain rfl := Except.ok.inj same
          obtain ⟨later, rfl⟩ := List.head?_eq_some_iff.mp first
          exact .value (fun literal rest equal => computed literal rest equal) evaluates
        · cases runs
        · cases runs
      · cases runs
  · intro reads
    cases reads with
    | literal template rest => rfl
    | value computed evaluates =>
        unfold nativeQueryTemplate
        split
        · cases evaluates
        · exact absurd rfl (computed _ _)
        · rw [runAction] at evaluates
          simp only [runAction, Action.run_bind, Run.bind_run, evaluates]
          rfl

/-- The text sent is that of the template, with the values of its expressions as
the parameters. -/
theorem sendsNative_iff {arguments : List Argument} {state ready : Interpreter}
    {sql : String} {params : List Value} :
    SendsNative host depth arguments state sql params ready ↔
      host.hasDb = true ∧
        ∃ template started, ReadsTemplate host depth state arguments template started ∧
          sql = templateSql template ∧
          runAction host depth ((templateHoles template).mapM evaluateSourceExpression)
            started = (.ok params, ready) := by
  unfold SendsNative nativeQueryRequest requireDbEngine
  cases engine : host.hasDb with
  | false =>
      simp only [Bool.false_eq_true, if_false, false_and, iff_false]
      intro sends
      cases sends
  | true =>
      simp only [if_true, true_and]
      rw [runAction, Action.run_bind, Action.run_pure, pure_bind, Action.run_bind,
        Run.bind_run]
      have extracts := run_extractNativeQueryParams host depth
      simp only [runAction] at extracts
      constructor
      · intro sends
        split at sends
        · rename_i template started reads
          rw [extracts, map_eq_pure_bind, Run.bind_run] at sends
          split at sends
          · rename_i values after evaluates
            obtain ⟨same, rfl⟩ := Prod.mk.inj sends
            obtain ⟨rfl, rfl⟩ := Prod.mk.inj (Except.ok.inj same)
            exact ⟨template, started, (run_nativeQueryTemplate).mp reads, rfl, evaluates⟩
          · cases sends
        · cases sends
      · rintro ⟨template, started, reads, rfl, evaluates⟩
        have runs := (run_nativeQueryTemplate).mpr reads
        rw [runAction] at runs evaluates
        simp only [runs, extracts, map_eq_pure_bind, Run.bind_run, evaluates]
        rfl

/-- As many values as turns come back. -/
theorem length_of_run_mapM {α β : Type} {inputs : List α} {turn : α → Action β} {results : List β}
    {state after : Interpreter}
    (runs : runAction host depth (inputs.mapM turn) state = (.ok results, after)) :
    results.length = inputs.length := by
  rw [runAction, Action.run_mapM] at runs
  induction inputs generalizing state results with
  | nil =>
      rw [List.mapM_nil] at runs
      obtain ⟨same, rfl⟩ := Prod.mk.inj runs
      obtain rfl := Except.ok.inj same
      rfl
  | cons input rest induction =>
      rw [List.mapM_cons, Run.bind_run] at runs
      split at runs
      · rw [Run.bind_run] at runs
        split at runs
        · rename_i later between runsLater
          obtain ⟨same, rfl⟩ := Prod.mk.inj runs
          obtain rfl := Except.ok.inj same
          rw [List.length_cons, List.length_cons, induction runsLater]
        · cases runs
      · cases runs

end Sending

/-- The text of a statement whose only argument is its template is a function of the
template alone, with one placeholder for each expression, bound to the value of that
expression in the order they are written.  A template that is written as a literal sends
the same text from every state. -/
theorem nativeQuery_bound_in_order (host : Host) (depth : Nat) (argument : Argument)
    (state ready : Interpreter) (sql : String) (params : List Value)
    (sends : SendsNative host depth [argument] state sql params ready) :
    runAction host depth (dispatchNativeQuery host [argument]) state =
      sendNative host sql params ready ∧
    (∃ template started, ReadsTemplate host depth state [argument] template started ∧
      sql = templateSql template ∧
      (templatePieces template).filterMap StatementPiece.index? =
        List.range' 1 params.length ∧
      runAction host depth ((templateHoles template).mapM evaluateSourceExpression)
        started = (.ok params, ready)) ∧
    ∀ literal, argument = .positional (.stringLiteral literal) →
      ∀ (host : Host) (depth : Nat) (state ready : Interpreter) (other : String)
        (params : List Value),
        SendsNative host depth [argument] state other params ready → other = sql := by
  have ofLiteral : ∀ literal, argument = .positional (.stringLiteral literal) →
      ∀ (host : Host) (depth : Nat) (state ready : Interpreter) (other : String)
        (params : List Value),
        SendsNative host depth [argument] state other params ready →
          other = templateSql literal := by
    rintro literal rfl host depth state ready other params sends
    obtain ⟨template, started, reads, text, -⟩ := (sendsNative_iff.mp sends).2
    cases reads with
    | literal => exact text
    | value computed _ => exact absurd rfl (computed literal [])
  refine ⟨?_, ?_, ?_⟩
  · have request : runAction host depth (nativeQueryRequest host [argument]) state =
        (.ok (sql, params), ready) := sends
    rw [run_dispatchNativeQuery, Run.bind_run, request]
  · obtain ⟨template, started, reads, text, evaluates⟩ := (sendsNative_iff.mp sends).2
    refine ⟨template, started, reads, text, ?_, evaluates⟩
    rw [templatePieces, index?_numberHoles, length_of_run_mapM evaluates, templateHoles]
  · intro literal written host' depth' state' ready' other params' sends'
    rw [ofLiteral literal written _ _ _ _ _ _ sends,
      ofLiteral literal written _ _ _ _ _ _ sends']

/-- How the template `id = #{user}` is read. -/
theorem userTemplate_reads :
    (match sourceExpression "user".toList with
      | .ok (some (.identifier name)) => decide (name = "user")
      | _ => false) = true ∧
      templateHoles "id = #\x7buser\x7d" = ["user".toList] ∧
      templateSql "id = #\x7buser\x7d" = "id = $1" := by
  decide +kernel

theorem sourceExpression_user :
    sourceExpression "user".toList = .ok (some (.identifier "user")) := by
  have reads := userTemplate_reads.1
  split at reads
  · rename_i name reads'
    rw [reads', of_decide_eq_true reads]
  · cases reads

/-- The state of a program with two variables. -/
def userState (sql : String) : Interpreter :=
  .new ((Environment.new.set "sql" (.string sql)).set "user" (.integer 7)) none

/-- The expression `user` is evaluated, and its value bound. -/
theorem sendsNative_user {arguments : List Argument} {sql : String}
    (reads : ReadsTemplate emptyHost 10 (userState sql) arguments "id = #\x7buser\x7d"
      (userState sql)) :
    SendsNative emptyHost 10 arguments (userState sql) "id = $1" [.integer 7]
      (userState sql) := by
  have holes := userTemplate_reads.2.1
  have text := userTemplate_reads.2.2
  refine (sendsNative_iff).mpr ⟨rfl, _, _, reads, text.symm, ?_⟩
  rw [holes, runAction, Action.run_mapM, List.mapM_cons, List.mapM_nil,
    evaluateSourceExpression, sourceExpression_user]
  rfl

theorem sendsNative_plain {arguments : List Argument} {sql text : String}
    (reads : ReadsTemplate emptyHost 10 (userState sql) arguments text (userState sql))
    (plain : hasTemplate text.toList = false) :
    SendsNative emptyHost 10 arguments (userState sql) text [] (userState sql) := by
  obtain ⟨same, none⟩ := templateSql_of_not_hasTemplate plain
  refine (sendsNative_iff).mpr ⟨rfl, _, _, reads, same.symm, ?_⟩
  rw [none]
  rfl

/-- `db.native_query("id = #{user}")`. -/
theorem nativeQuery_bound_in_order_user :
    SendsNative emptyHost 10 [.positional (.stringLiteral "id = #\x7buser\x7d")]
      (userState "") "id = $1" [.integer 7] (userState "") ∧
      templateSql "id = #\x7buser\x7d" = "id = $1" := by
  have sends : SendsNative emptyHost 10
      [.positional (.stringLiteral "id = #\x7buser\x7d")] (userState "") "id = $1"
      [.integer 7] (userState "") := sendsNative_user (.literal _ _)
  obtain ⟨-, ⟨template, started, reads, text, -⟩, -⟩ :=
    nativeQuery_bound_in_order emptyHost 10 _ _ _ _ _ sends
  cases reads with
  | literal => exact ⟨sends, text.symm⟩
  | value computed _ => exact absurd rfl (computed _ _)

/-- With `db.native_query(sql)` the text follows a variable, and an expression in
the variable's text is evaluated.  In `db.native_query("id = $1", 7)` the value is
bound to nothing. -/
theorem nativeQuery_computed_template :
    (SendsNative emptyHost 10 [.positional (.identifier "sql")] (userState "SELECT 1")
      "SELECT 1" [] (userState "SELECT 1") ∧
    SendsNative emptyHost 10 [.positional (.identifier "sql")] (userState "SELECT 2")
      "SELECT 2" [] (userState "SELECT 2")) ∧
    SendsNative emptyHost 10 [.positional (.identifier "sql")]
      (userState "id = #\x7buser\x7d") "id = $1" [.integer 7]
      (userState "id = #\x7buser\x7d") ∧
    SendsNative emptyHost 10
      [.positional (.stringLiteral "id = $1"), .positional (.integer 7)]
      (userState "") "id = $1" [] (userState "") := by
  have reads : ∀ sql, ReadsTemplate emptyHost 10 (userState sql)
      [.positional (.identifier "sql")] sql (userState sql) :=
    fun sql => .value (fun _ _ equal => by cases equal) rfl
  refine ⟨⟨?_, ?_⟩, ?_, ?_⟩
  · exact sendsNative_plain (reads _) (by decide)
  · exact sendsNative_plain (reads _) (by decide)
  · exact sendsNative_user (reads _)
  · exact sendsNative_plain (.literal _ _) (by decide)

end Marreta
