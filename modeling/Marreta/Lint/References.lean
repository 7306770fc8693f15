import Marreta.Lint.BlockLints

namespace Marreta

open Foundation

/-! The names that the linter collects from a project.

To find declarations without a use, the linter collects the schemas that are named anywhere
and the tasks that are called anywhere.  It looks at the syntax of the files only; code that
the interpreter reads from a text is not parsed by then. -/

namespace Lint

/-- A parsed file of a project.  Its stem is the name of the file without the extension. -/
structure ParsedFile where
  path : String
  stem : String
  program : Program

/-- The entrypoint is the global scope and no namespace. -/
def fileNamespace (file : ParsedFile) : Option String :=
  if file.stem = "app" then none else some file.stem

/-! ## Schemas -/

def taskBodyStatements : TaskBody → List Statement
  | .inline _ => []
  | .block statements _ => statements

def stageStatements : PipelineStage → List Statement
  | .map _ body => body.filterMap fun
      | .statement statement => some statement
      | _ => none
  | .reduce _ _ _ body => taskBodyStatements body
  | .rescue (.block statements) => statements
  | _ => []

/-- The statements in the blocks of an expression itself. -/
def directBlockStatements : Expression → List Statement
  | .ifElse _ thenBranch elseBranch =>
      taskBodyStatements thenBranch ++ elseBranch.toList.flatMap taskBodyStatements
  | .pipeline _ stages => stages.flatMap stageStatements
  | _ => []

/-- The schemas that a statement names: by itself, in its expressions, and by the statements in
the blocks of these.  Bodies come later. -/
def statementSchemaRefs (statement : Statement) : List String :=
  statementReferences statement ++ (localExpressions statement).flatMap fun located =>
    (walkExpression 0 located.expression).flatMap fun value =>
      (expressionReference value).toList ++
        (directBlockStatements value).flatMap statementReferences

def collectSchemaRefsInStatement (statement : Statement) : List String :=
  lintStatement statementSchemaRefs statement

def collectSchemaReferences (files : List ParsedFile) : List String :=
  files.flatMap fun file => file.program.flatMap collectSchemaRefsInStatement

/-! ## Tasks -/

/-- How a call names its task. -/
inductive TaskName where
  | bare (name : String)
  /-- A file and an exported task of it, with a dot between. -/
  | qualified (text : String)
deriving DecidableEq

def fileTask (file name : String) : TaskName :=
  .qualified (file ++ "." ++ name)

def recordTaskCall : Expression → List TaskName
  | .functionCall name _ | .taskCall name => [.bare name]
  | .methodCall (.identifier file) method _ => [fileTask file method]
  | .propertyAccess (.identifier file) property => [fileTask file property]
  | .pipeline _ stages => stages.filterMap fun
      | .expression (.identifier name) => some (.bare name)
      | _ => none
  | .broadcast _ targets => targets.filterMap fun
      | .identifier name => some (.bare name)
      | _ => none
  | _ => []

/-- What is walked at a statement, before the statements of its body. -/
def taskCallWalk (statement : Statement) : List Expression :=
  walkStatementExpressions statement ++
    match statement with
    | .taskDef _ _ body _ _ => walkExpression 0 (bodyResult body)
    | .scenario _ steps _ _ => (steps.flatMap stepExpressions).flatMap (walkExpression 0)
    | _ => []

def collectTaskCallsFromStatements (statements : List Statement) : List TaskName :=
  lintStatementBlock (fun statement => (taskCallWalk statement).flatMap recordTaskCall) statements

structure TaskCallIndex where
  bareAny : List String
  bareByNamespace : List (String × String)
  qualified : List String

/-- Names of tasks, each with the namespace of the file it comes from. -/
def taskCallIndex (calls : List (Option String × TaskName)) : TaskCallIndex where
  bareAny := calls.filterMap fun
    | (_, .bare name) => some name
    | _ => none
  bareByNamespace := calls.filterMap fun
    | (some file, .bare name) => some (file, name)
    | _ => none
  qualified := calls.filterMap fun
    | (_, .qualified text) => some text
    | _ => none

def collectTaskCalls (files : List ParsedFile) : TaskCallIndex :=
  taskCallIndex (files.flatMap fun file =>
    (collectTaskCallsFromStatements file.program).map (fileNamespace file, ·))

/-- A call from a file is in the index.  A bare name must be there for its file, too. -/
def TaskCallIndex.Records (index : TaskCallIndex) (file : Option String) : TaskName → Prop
  | .bare name =>
      name ∈ index.bareAny ∧ ∀ name', file = some name' → (name', name) ∈ index.bareByNamespace
  | .qualified text => text ∈ index.qualified

/-! ## Code -/

/-- Where code stands: in a file, or in a text that the interpreter reads code from. -/
inductive Origin where
  | written
  | text
deriving DecidableEq

/-- The expressions and statements that an expression or a statement has. -/
def codeParts : Call → List Call
  | .expression value => value.parts
  | .statement statement =>
      (localExpressions statement).map (fun located => .expression located.expression) ++
        (bodyStatements statement).map .statement

/-- The code of a program, with the code in the holes of its string literals. -/
inductive Code (program : Program) : Origin → Call → Prop
  | statement {statement : Statement} (member : statement ∈ program) :
      Code program .written (.statement statement)
  | part {origin : Origin} {call part : Call} (code : Code program origin call)
      (member : part ∈ codeParts call) : Code program origin part
  | hole {origin : Origin} {text : String} {source : List Char} {value : Expression}
      (code : Code program origin (.expression (.stringLiteral text)))
      (member : source ∈ templateHoles text)
      (reads : sourceExpression source = .ok (some value)) :
      Code program .text (.expression value)

/-- The schemas that a call has to resolve. -/
def callReferences : Call → List String
  | .expression value => (expressionReference value).toList
  | .statement statement => statementReferences statement

/-- The code whose names of schemas are collected. -/
inductive Visited (program : Program) : Call → Prop
  | body {statement : Statement} (member : statement ∈ reachedBlock program) :
      Visited program (.statement statement)
  | expression {located : Located} {value : Expression}
      (top : located ∈ blockExpressions program)
      (inside : value ∈ subexpressions located.expression) : Visited program (.expression value)
  | block {value : Expression} {statement : Statement}
      (visited : Visited program (.expression value))
      (member : .statement statement ∈ value.parts) : Visited program (.statement statement)

/-- The code that is passed over: bodies of statements in blocks of expressions, and code in
texts. -/
inductive Unvisited (program : Program) : Call → Prop
  | body {value : Expression} {direct statement : Statement}
      (visited : Visited program (.expression value))
      (member : .statement direct ∈ value.parts)
      (inside : statement ∈ reachedBlock (bodyStatements direct)) :
      Unvisited program (.statement statement)
  | text {call : Call} (code : Code program .text call) : Unvisited program call

/-! ## Parts of code -/

theorem mem_blockExpressions_iff {located : Located} {block : List Statement} :
    located ∈ blockExpressions block ↔
      ∃ statement ∈ reachedBlock block, located ∈ localExpressions statement := by
  rw [← (lintStatementBlock_localExpressions block).mem_iff, lintStatementBlock_eq,
    List.mem_flatMap]

theorem mem_statementExpressions_iff {located : Located} {statement : Statement} :
    located ∈ statementExpressions statement ↔
      ∃ inner ∈ reached statement, located ∈ localExpressions inner := by
  rw [← (lintStatement_localExpressions statement).mem_iff, lintStatement_eq, List.mem_flatMap]

theorem mem_subexpressions_trans {value inner part : Expression}
    (inside : inner ∈ subexpressions value) (deeper : part ∈ subexpressions inner) :
    part ∈ subexpressions value := by
  induction value using expression_induction with
  | step value children blocks =>
      rw [subexpressions_eq, List.mem_cons, below_eq, mem_inPart_iff] at inside
      rcases inside with rfl | ⟨child, member, inside⟩ | ⟨statement, member, located, top, inside⟩
      · exact deeper
      · rw [subexpressions_eq, List.mem_cons, below_eq, mem_inPart_iff]
        exact .inr (.inl ⟨child, member, children child member inside⟩)
      · rw [subexpressions_eq, List.mem_cons, below_eq, mem_inPart_iff]
        exact .inr (.inr ⟨statement, member, located, top,
          blocks statement member located top inside⟩)

theorem Visited.child {program : Program} {value child : Expression}
    (visited : Visited program (.expression value))
    (member : .expression child ∈ value.parts) : Visited program (.expression child) := by
  cases visited with
  | expression top inside =>
      apply Visited.expression top
      apply mem_subexpressions_trans inside
      rw [subexpressions_eq, List.mem_cons, below_eq, mem_inPart_iff]
      refine .inr (.inl ⟨child, member, ?_⟩)
      rw [subexpressions_eq]
      exact List.mem_cons_self

theorem Visited.inner {program : Program} {value : Expression} {direct statement : Statement}
    {located : Located} (visited : Visited program (.expression value))
    (member : .statement direct ∈ value.parts) (inside : statement ∈ reached direct)
    (found : located ∈ localExpressions statement) :
    Visited program (.expression located.expression) := by
  cases visited with
  | expression top within =>
      apply Visited.expression top
      apply mem_subexpressions_trans within
      rw [subexpressions_eq, List.mem_cons, below_eq, mem_inPart_iff]
      refine .inr (.inr ⟨direct, member, located, ?_, ?_⟩)
      · exact (mem_statementExpressions_iff).mpr ⟨statement, inside, found⟩
      · rw [subexpressions_eq]
        exact List.mem_cons_self

/-- Written statements are reached by way of bodies, or stand in a block of an expression. -/
inductive Placed (program : Program) : Call → Prop
  | body {statement : Statement} (member : statement ∈ reachedBlock program) :
      Placed program (.statement statement)
  | expression {value : Expression} (visited : Visited program (.expression value)) :
      Placed program (.expression value)
  | block {value : Expression} {direct statement : Statement}
      (visited : Visited program (.expression value))
      (member : .statement direct ∈ value.parts) (inside : statement ∈ reached direct) :
      Placed program (.statement statement)

theorem Placed.part {program : Program} {call part : Call} (placed : Placed program call)
    (member : part ∈ codeParts call) : Placed program part := by
  cases placed with
  | body reached =>
      rcases List.mem_append.mp member with member | member
      · obtain ⟨located, found, rfl⟩ := List.mem_map.mp member
        apply Placed.expression
        apply Visited.expression ((mem_blockExpressions_iff).mpr ⟨_, reached, found⟩)
        rw [subexpressions_eq]
        exact List.mem_cons_self
      · obtain ⟨body, found, rfl⟩ := List.mem_map.mp member
        exact .body (mem_reachedBlock_body found reached)
  | expression visited =>
      cases part with
      | expression child => exact .expression (visited.child member)
      | statement statement => exact .block visited member (mem_reached_self statement)
  | block visited direct inside =>
      rcases List.mem_append.mp member with member | member
      · obtain ⟨located, found, rfl⟩ := List.mem_map.mp member
        exact .expression (visited.inner direct inside found)
      · obtain ⟨body, found, rfl⟩ := List.mem_map.mp member
        exact .block visited direct (mem_reached_body found _ inside)

theorem placed_of_written {program : Program} {origin : Origin} {call : Call}
    (code : Code program origin call) (written : origin = .written) : Placed program call := by
  induction code with
  | statement member => exact .body (mem_reachedBlock_self member)
  | part code member induction => exact (induction written).part member
  | hole => cases written

/-- All code is visited or passed over. -/
theorem visited_or_unvisited {program : Program} {origin : Origin} {call : Call}
    (code : Code program origin call) : Visited program call ∨ Unvisited program call := by
  cases origin with
  | text => exact .inr (.text code)
  | written =>
      cases placed_of_written code rfl with
      | body member => exact .inl (.body member)
      | expression visited => exact .inl visited
      | block visited member inside =>
          rw [reached_eq, List.mem_cons] at inside
          rcases inside with rfl | inside
          · exact .inl (.block visited member)
          · exact .inr (.body visited member inside)

/-! ## What is collected -/

theorem mem_taskBodyStatements_iff {statement : Statement} {body : TaskBody} :
    statement ∈ taskBodyStatements body ↔ .statement statement ∈ body.parts := by
  cases body <;> simp [taskBodyStatements, TaskBody.parts]

theorem not_mem_optionalPart {statement : Statement} {value : Option Expression} :
    .statement statement ∉ optionalPart value := by
  cases value <;> simp [optionalPart]

theorem mem_stageStatements_iff {statement : Statement} {stage : PipelineStage} :
    statement ∈ stageStatements stage ↔ .statement statement ∈ stage.parts := by
  cases stage with
  | expression value => simp [stageStatements, PipelineStage.parts]
  | map element body =>
      simp only [stageStatements, PipelineStage.parts, List.mem_filterMap, List.mem_flatMap]
      apply exists_congr
      intro part
      cases part <;> simp [MapStatement.parts, not_mem_optionalPart, eq_comm]
  | reduce initial accumulator item body =>
      simp [stageStatements, PipelineStage.parts, mem_taskBodyStatements_iff]
  | rescue handler =>
      cases handler <;> simp [stageStatements, PipelineStage.parts, RescueHandler.parts]

/-- No other part of an expression is a statement. -/
theorem mem_directBlockStatements_iff {statement : Statement} {value : Expression} :
    statement ∈ directBlockStatements value ↔ .statement statement ∈ value.parts := by
  cases value with
  | ifElse condition thenBranch elseBranch =>
      simp only [directBlockStatements, Expression.parts, List.mem_append, List.mem_flatMap,
        List.mem_cons, mem_taskBodyStatements_iff]
      simp
  | pipeline input stages =>
      simp only [directBlockStatements, Expression.parts, List.mem_flatMap, List.mem_cons,
        mem_stageStatements_iff]
      simp
  | matchOn subject arms =>
      have arm : ∀ arm : MatchArm, .statement statement ∉ arm.parts := by
        rintro ⟨pattern, result⟩
        cases pattern <;> simp [MatchArm.parts]
      simp [directBlockStatements, Expression.parts, arm]
  | queuePush | topicPublish =>
      simp [directBlockStatements, Expression.parts, not_mem_optionalPart]
  | methodCall | functionCall => simp [directBlockStatements, Expression.parts, Argument.part]
  | _ => simp [directBlockStatements, Expression.parts]

theorem mem_walkExpression_iff {level : Nat} {value part : Expression} :
    part ∈ walkExpression level value ↔ part ∈ subexpressions value :=
  ⟨fun inside => walkExpression_subset value level inside,
    fun inside => (sublist_walkExpression value level).subset inside⟩

theorem mem_reachedBlock_reached {block : List Statement} {statement inner : Statement}
    (member : statement ∈ reachedBlock block) (inside : inner ∈ reached statement) :
    inner ∈ reachedBlock block := by
  rw [reached_eq, List.mem_cons] at inside
  rcases inside with rfl | inside
  · exact member
  · obtain ⟨top, found, inside⟩ := mem_reachedBlock_iff.mp inside
    exact mem_reachedBlock_reached (mem_reachedBlock_body found member) inside
termination_by sizeOf statement
decreasing_by exact sizeOf_body found

/-- The names of schemas in the code that is visited are collected, and no others. -/
theorem mem_collectSchemaReferences_iff {files : List ParsedFile} {name : String} :
    name ∈ collectSchemaReferences files ↔
      ∃ file ∈ files, ∃ seen, Visited file.program seen ∧ name ∈ callReferences seen := by
  have bodies : ∀ program : Program,
      program.flatMap collectSchemaRefsInStatement =
        (reachedBlock program).flatMap statementSchemaRefs := by
    intro program
    rw [← lintStatementBlock_eq]
    induction program with
    | nil => rfl
    | cons statement rest induction =>
        rw [List.flatMap_cons, induction, lintStatementBlock, collectSchemaRefsInStatement]
  rw [collectSchemaReferences, List.mem_flatMap]
  apply exists_congr
  intro file
  apply and_congr_right
  intro _
  rw [bodies, List.mem_flatMap]
  constructor
  · intro ⟨statement, reached, member⟩
    rcases List.mem_append.mp member with member | member
    · exact ⟨_, .body reached, member⟩
    · obtain ⟨located, found, member⟩ := List.mem_flatMap.mp member
      obtain ⟨value, walked, member⟩ := List.mem_flatMap.mp member
      have visited : Visited file.program (.expression value) :=
        .expression ((mem_blockExpressions_iff).mpr ⟨statement, reached, found⟩)
          ((mem_walkExpression_iff).mp walked)
      rcases List.mem_append.mp member with member | member
      · exact ⟨_, visited, member⟩
      · obtain ⟨direct, inside, member⟩ := List.mem_flatMap.mp member
        exact ⟨_, .block visited ((mem_directBlockStatements_iff).mp inside), member⟩
  · have ofExpression : ∀ {value : Expression}, Visited file.program (.expression value) →
        ∀ extra : List String, name ∈ extra →
          extra ⊆ (expressionReference value).toList ++
            (directBlockStatements value).flatMap statementReferences →
          ∃ statement ∈ reachedBlock file.program, name ∈ statementSchemaRefs statement := by
      intro value visited extra member within
      cases visited with
      | expression top inside =>
          obtain ⟨statement, reached, found⟩ := (mem_blockExpressions_iff).mp top
          refine ⟨statement, reached, List.mem_append_right _ ?_⟩
          refine List.mem_flatMap.mpr ⟨_, found, ?_⟩
          exact List.mem_flatMap.mpr ⟨value, (mem_walkExpression_iff).mpr inside, within member⟩
    rintro ⟨seen, visited, member⟩
    cases visited with
    | body reached => exact ⟨_, reached, List.mem_append_left _ member⟩
    | expression top inside =>
        exact ofExpression (.expression top inside) _ member (List.subset_append_left _ _)
    | block visited inside =>
        apply ofExpression visited _ member
        intro other within
        apply List.mem_append_right
        exact List.mem_flatMap.mpr
          ⟨_, (mem_directBlockStatements_iff).mpr inside, within⟩

theorem mem_collectTaskCallsFromStatements_iff {program : Program} {task : TaskName} :
    task ∈ collectTaskCallsFromStatements program ↔
      ∃ value, Visited program (.expression value) ∧ task ∈ recordTaskCall value := by
  simp only [collectTaskCallsFromStatements, lintStatementBlock_eq, List.mem_flatMap]
  constructor
  · intro ⟨statement, reached, value, walked, member⟩
    refine ⟨value, ?_, member⟩
    rcases List.mem_append.mp walked with walked | walked
    · obtain ⟨located, top, inside⟩ := List.mem_flatMap.mp walked
      obtain ⟨inner, deeper, found⟩ := (mem_statementExpressions_iff).mp top
      apply Visited.expression _ ((mem_walkExpression_iff).mp inside)
      exact (mem_blockExpressions_iff).mpr ⟨inner, mem_reachedBlock_reached reached deeper, found⟩
    · have found : ∃ located ∈ localExpressions statement,
          value ∈ subexpressions located.expression := by
        cases statement with
        | taskDef name params body line column =>
            exact ⟨_, List.mem_singleton_self _, (mem_walkExpression_iff).mp walked⟩
        | scenario name steps line column =>
            obtain ⟨top, member, inside⟩ := List.mem_flatMap.mp walked
            exact ⟨_, List.mem_map_of_mem member, (mem_walkExpression_iff).mp inside⟩
        | _ => cases walked
      obtain ⟨located, found, inside⟩ := found
      exact .expression ((mem_blockExpressions_iff).mpr ⟨statement, reached, found⟩) inside
  · intro ⟨value, visited, member⟩
    cases visited with
    | expression top inside =>
        obtain ⟨statement, reached, found⟩ := (mem_blockExpressions_iff).mp top
        refine ⟨statement, reached, value, List.mem_append_left _ ?_, member⟩
        rw [walkStatementExpressions, List.mem_flatMap]
        refine ⟨_, ?_, (mem_walkExpression_iff).mpr inside⟩
        exact (mem_statementExpressions_iff).mpr ⟨statement, mem_reached_self statement, found⟩

end Lint

end Marreta
