import Marreta.Lint.References
import Marreta.Project.PublicRoutes

namespace Marreta

open Foundation

/-! Declarations that the linter reports as unused.

A schema without a table is reported when its name is not among the names that are collected,
a task when no call of it is.  A declaration that some run uses must not be reported. -/

namespace Lint

/-! ## Declarations -/

structure Declaration where
  name : String
  path : String
  line : Nat
  column : Nat
deriving DecidableEq

def taskDeclaration? (path : String) : Statement → Option Declaration
  | .taskDef name _ _ line column => some { name, path, line, column }
  | _ => none

def collectPrivateTaskDefs (files : List ParsedFile) : List Declaration :=
  files.flatMap fun file => file.program.filterMap (taskDeclaration? file.path)

/-- Exported tasks with the namespaces of their files. -/
def collectExportedTaskDefs (files : List ParsedFile) : List (String × Declaration) :=
  files.flatMap fun file =>
    (fileNamespace file).toList.flatMap fun namespaceName =>
      file.program.filterMap fun
        | .export statement => (taskDeclaration? file.path statement).map (namespaceName, ·)
        | _ => none

/-- A declaration of a schema, and whether it is persistent. -/
def schemaDeclaration? (path : String) : Statement → Option (Declaration × Bool)
  | .schema name dbTable _ line column => some ({ name, path, line, column }, dbTable.isSome)
  | .export statement => schemaDeclaration? path statement
  | _ => none

def collectSchemaDecls (files : List ParsedFile) : List (Declaration × Bool) :=
  files.flatMap fun file => file.program.filterMap (schemaDeclaration? file.path)

/-! ## Warnings -/

def unusedPrivateTasks (files : List ParsedFile) : List Declaration :=
  (collectPrivateTaskDefs files).filter fun task =>
    task.name ∉ (collectTaskCalls files).bareAny

/-- A bare call in another file is no use of an exported task. -/
def unusedExportedTasks (files : List ParsedFile) : List (String × Declaration) :=
  (collectExportedTaskDefs files).filter fun (file, task) =>
    file ++ "." ++ task.name ∉ (collectTaskCalls files).qualified ∧
      (file, task.name) ∉ (collectTaskCalls files).bareByNamespace

def unusedSchemas (files : List ParsedFile) : List Declaration :=
  ((collectSchemaDecls files).filter fun (schema, persistent) =>
    !persistent && schema.name ∉ collectSchemaReferences files).map (·.1)

def unusedPrivateTask (task : Declaration) : LintWarning where
  path := task.path
  line := task.line
  column := task.column
  code := "unused_private_task"
  message := "private task '" ++ task.name ++ "' is never called"
  help := some "Remove the task, export it, or call it from project code."

def unusedExportedTask (file : String) (task : Declaration) : LintWarning :=
  let qualified := file ++ "." ++ task.name
  { path := task.path
    line := task.line
    column := task.column
    code := "unused_exported_task"
    message := "exported task '" ++ qualified ++ "' is never referenced"
    help := some ("Call it as '" ++ qualified ++
      "' from another file, use it in its own file, or remove the export.") }

def unusedSchema (schema : Declaration) : LintWarning where
  path := schema.path
  line := schema.line
  column := schema.column
  code := "unused_schema"
  message := "schema '" ++ schema.name ++ "' is declared but never referenced"
  help := some ("Use it to validate or shape a payload, reference it from another schema, " ++
    "or remove it.")

def lintUnusedDeclarations (files : List ParsedFile) : List LintWarning :=
  (unusedPrivateTasks files).map unusedPrivateTask ++
    (unusedExportedTasks files).map (fun (file, task) => unusedExportedTask file task) ++
    (unusedSchemas files).map unusedSchema

/-! ## Calls of tasks -/

def isBuiltin (name : String) : Bool :=
  name ∈ ["__fail__", "print", "type", "decimal", "len", "range"]

theorem builtinFunction_isSome (host : Host) (name : String) (arguments : List Value) :
    (builtinFunction host name arguments).isSome = isBuiltin name := by
  unfold builtinFunction
  split <;> simp_all [isBuiltin]

/-- The task that a stage of a pipeline or a target of a broadcast calls, if it is one. -/
def stageTask : Expression → Option TaskName
  | .taskCall name | .identifier name => if isFetch name then none else some (.bare name)
  | .functionCall name _ => if isBuiltin name then none else some (.bare name)
  | .propertyAccess (.identifier file) property => some (fileTask file property)
  | .methodCall (.identifier file) method _ => some (fileTask file method)
  | _ => none

/-- The names under which the interpreter looks tasks up when it runs a call. -/
def calledTasks : Call → List TaskName
  | .expression (.functionCall name _) => if isBuiltin name then [] else [.bare name]
  | .expression (.methodCall (.identifier file) method _) => [fileTask file method]
  | .expression (.pipeline _ stages) => stages.filterMap fun
      | .expression stage => stageTask stage
      | _ => none
  | .expression (.broadcast _ targets) => targets.filterMap stageTask
  | _ => []

/-- The names that a call evaluates as variables.  A task's name gives the task as a value, and
this is where each call through another variable begins. -/
def evaluatedNames : Call → List String
  | .expression (.identifier name) | .expression (.taskCall name) => [name]
  | _ => []

/-- A task of this name is declared in the project. -/
def DeclaresTask (files : List ParsedFile) : TaskName → Prop
  | .bare name =>
      ∃ file ∈ files, ∃ origin params body line column,
        Code file.program origin (.statement (.taskDef name params body line column))
  | .qualified text =>
      ∃ file ∈ files, ∃ namespaceName, fileNamespace file = some namespaceName ∧
        ∃ name params body line column,
          .export (.taskDef name params body line column) ∈ file.program ∧
            text = namespaceName ++ "." ++ name

/-- Calls in a run of code of a program, from any state.  Templates of `db.native_query` are
written where they are sent. -/
inductive CodeRun (host : Host) (program : Program) : CallRun → Prop
  | statement {statement : Statement} (member : statement ∈ reachedBlock program) (depth : Nat)
      (state : Interpreter) : CodeRun host program ⟨depth, .statement statement, state⟩
  | expression {located : Located} (member : located ∈ blockExpressions program) (depth : Nat)
      (state : Interpreter) : CodeRun host program ⟨depth, .expression located.expression, state⟩
  | step {before after : CallRun} (run : CodeRun host program before)
      (templates : ∀ object arguments,
        before.call = .expression (.methodCall object "native_query" arguments) →
          ∃ text rest, arguments = .positional (.stringLiteral text) :: rest)
      (leads : before.Leads host after) : CodeRun host program after

/-! ## What is claimed -/

def SchemasCollected (files : List ParsedFile) : Prop :=
  ∀ file ∈ files, ∀ origin call, Code file.program origin call →
    ∀ name ∈ callReferences call, name ∈ collectSchemaReferences files

def TaskCallsRecorded (files : List ParsedFile) : Prop :=
  ∀ file ∈ files, ∀ origin call, Code file.program origin call →
    ∀ task ∈ calledTasks call, DeclaresTask files task →
      (collectTaskCalls files).Records (fileNamespace file) task

/-- No declaration is reported that a run uses.  A task is used where it is called and where
its own file takes it as a value. -/
def UsedUnreported (files : List ParsedFile) : Prop :=
  ∀ host, ∀ file ∈ files, ∀ reached, CodeRun host file.program reached →
    (∀ name ∈ callReferences reached.call, ∀ schema ∈ unusedSchemas files,
      schema.name ≠ name) ∧
    (∀ name, .bare name ∈ calledTasks reached.call →
      (∀ task ∈ unusedPrivateTasks files, task.name ≠ name) ∧
        ∀ task ∈ unusedExportedTasks files, fileNamespace file = some task.1 →
          task.2.name ≠ name) ∧
    (∀ name ∈ evaluatedNames reached.call,
      (∀ task ∈ unusedPrivateTasks files, task.path = file.path → task.name ≠ name) ∧
        ∀ task ∈ unusedExportedTasks files, fileNamespace file = some task.1 →
          task.2.name ≠ name) ∧
    ∀ text, .qualified text ∈ calledTasks reached.call → ∀ task ∈ unusedExportedTasks files,
      task.1 ++ "." ++ task.2.name ≠ text

/-- A call of the task is written in the files, for a bare name also in a file of the
namespace. -/
def WritesCall (files : List ParsedFile) (namespaceName : Option String) (task : TaskName) :
    Prop :=
  let written (file : ParsedFile) :=
    ∃ value, Visited file.program (.expression value) ∧ task ∈ recordTaskCall value
  (∃ file ∈ files, written file) ∧
    ∀ name, task = .bare name → ∀ other, namespaceName = some other →
      ∃ file ∈ files, fileNamespace file = some other ∧ written file

/-- Code that is passed over names no schema and calls no declared task that is not named, or
called, in the code that is visited. -/
structure NamedElsewhere (files : List ParsedFile) : Prop where
  schemas : ∀ file ∈ files, ∀ call, Unvisited file.program call →
    ∀ name ∈ callReferences call,
      ∃ other ∈ files, ∃ seen, Visited other.program seen ∧ name ∈ callReferences seen
  tasks : ∀ file ∈ files, ∀ call, Code file.program .text call →
    ∀ task ∈ calledTasks call, DeclaresTask files task →
      WritesCall files (fileNamespace file) task

/-- Every task that code of its own file takes as a value is also called under its name. -/
def ValuesCalled (files : List ParsedFile) : Prop :=
  ∀ file ∈ files, ∀ origin call, Code file.program origin call →
    ∀ name ∈ evaluatedNames call,
      (∀ task ∈ collectPrivateTaskDefs files, task.path = file.path → task.name = name →
        WritesCall files none (.bare name)) ∧
      ∀ task ∈ collectExportedTaskDefs files, fileNamespace file = some task.1 →
        task.2.name = name → WritesCall files (some task.1) (.bare name) ∨
          WritesCall files none (fileTask task.1 name)

/-! ## Names that are recorded -/

theorem mem_calls_iff {files : List ParsedFile} {namespaceName : Option String}
    {task : TaskName} :
    (namespaceName, task) ∈ (files.flatMap fun file =>
        (collectTaskCallsFromStatements file.program).map (fileNamespace file, ·)) ↔
      ∃ file ∈ files, fileNamespace file = namespaceName ∧
        ∃ value, Visited file.program (.expression value) ∧ task ∈ recordTaskCall value := by
  simp only [List.mem_flatMap, List.mem_map, Prod.mk.injEq,
    ← mem_collectTaskCallsFromStatements_iff]
  constructor
  · rintro ⟨file, member, task, recorded, same, rfl⟩
    exact ⟨file, member, same, recorded⟩
  · rintro ⟨file, member, same, recorded⟩
    exact ⟨file, member, task, recorded, same, rfl⟩

theorem mem_bareAny_iff {calls : List (Option String × TaskName)} {name : String} :
    name ∈ (taskCallIndex calls).bareAny ↔ ∃ file, (file, .bare name) ∈ calls := by
  simp only [taskCallIndex, List.mem_filterMap]
  constructor
  · rintro ⟨⟨file, task⟩, member, found⟩
    cases task <;> simp_all
    exact ⟨file, member⟩
  · rintro ⟨file, member⟩
    exact ⟨_, member, rfl⟩

theorem mem_bareByNamespace_iff {calls : List (Option String × TaskName)} {file name : String} :
    (file, name) ∈ (taskCallIndex calls).bareByNamespace ↔ (some file, .bare name) ∈ calls := by
  simp only [taskCallIndex, List.mem_filterMap]
  constructor
  · rintro ⟨⟨file, task⟩, member, found⟩
    cases file <;> cases task <;> simp_all
  · intro member
    exact ⟨_, member, rfl⟩

theorem mem_qualified_iff {calls : List (Option String × TaskName)} {text : String} :
    text ∈ (taskCallIndex calls).qualified ↔ ∃ file, (file, .qualified text) ∈ calls := by
  simp only [taskCallIndex, List.mem_filterMap]
  constructor
  · rintro ⟨⟨file, task⟩, member, found⟩
    cases task <;> simp_all
    exact ⟨file, member⟩
  · rintro ⟨file, member⟩
    exact ⟨_, member, rfl⟩

theorem records_iff {files : List ParsedFile} {namespaceName : Option String} {task : TaskName} :
    (collectTaskCalls files).Records namespaceName task ↔
      WritesCall files namespaceName task := by
  cases task with
  | bare name =>
      simp only [TaskCallIndex.Records, collectTaskCalls, mem_bareAny_iff,
        mem_bareByNamespace_iff, mem_calls_iff, WritesCall, TaskName.bare.injEq]
      constructor
      · rintro ⟨⟨_, file, member, -, written⟩, own⟩
        refine ⟨⟨file, member, written⟩, ?_⟩
        rintro _ rfl other same
        exact own other same
      · rintro ⟨⟨file, member, written⟩, own⟩
        exact ⟨⟨_, file, member, rfl, written⟩, fun other same => own name rfl other same⟩
  | qualified text =>
      simp only [TaskCallIndex.Records, collectTaskCalls, mem_qualified_iff, mem_calls_iff,
        WritesCall]
      constructor
      · rintro ⟨_, file, member, -, written⟩
        exact ⟨⟨file, member, written⟩, nofun⟩
      · rintro ⟨⟨file, member, written⟩, -⟩
        exact ⟨_, file, member, rfl, written⟩

theorem recordTaskCall_of_stageTask {value : Expression} {task : TaskName}
    (calls : stageTask value = some task) :
    (∃ name, value = .identifier name ∧ task = .bare name) ∨ task ∈ recordTaskCall value := by
  fun_cases stageTask value with
  | case1 name fetch => simp [stageTask, fetch] at calls
  | case2 name plain =>
      simp only [stageTask, plain, Bool.false_eq_true, if_false, Option.some.injEq] at calls
      simp [recordTaskCall, ← calls]
  | case3 name fetch => simp [stageTask, fetch] at calls
  | case4 name plain =>
      simp only [stageTask, plain, Bool.false_eq_true, if_false, Option.some.injEq] at calls
      exact .inl ⟨name, rfl, calls.symm⟩
  | case5 name arguments builtin => simp [stageTask, builtin] at calls
  | case6 name arguments plain =>
      simp only [stageTask, plain, Bool.false_eq_true, if_false, Option.some.injEq] at calls
      simp [recordTaskCall, ← calls]
  | case7 file property =>
      obtain rfl := Option.some.inj calls
      exact .inr (List.mem_singleton_self _)
  | case8 file method arguments =>
      obtain rfl := Option.some.inj calls
      exact .inr (List.mem_singleton_self _)
  | case9 => simp_all [stageTask]

/-- A call of a task is recorded at the call or at one of its parts. -/
theorem exists_recordTaskCall {value : Expression} {task : TaskName}
    (member : task ∈ calledTasks (.expression value)) :
    task ∈ recordTaskCall value ∨
      ∃ part, .expression part ∈ value.parts ∧ task ∈ recordTaskCall part := by
  cases value with
  | functionCall name arguments =>
      rw [calledTasks] at member
      split at member
      · cases member
      · exact .inl member
  | methodCall object method arguments =>
      cases object with
      | identifier file => exact .inl member
      | _ => cases member
  | pipeline input stages =>
      obtain ⟨stage, inside, calls⟩ := List.mem_filterMap.mp member
      cases stage with
      | expression stage =>
          rcases recordTaskCall_of_stageTask calls with ⟨name, rfl, rfl⟩ | recorded
          · exact .inl (List.mem_filterMap.mpr ⟨_, inside, rfl⟩)
          · refine .inr ⟨stage, List.mem_cons_of_mem _ ?_, recorded⟩
            exact List.mem_flatMap.mpr ⟨_, inside, List.mem_singleton_self _⟩
      | map | reduce | rescue => cases calls
  | broadcast input targets =>
      obtain ⟨target, inside, calls⟩ := List.mem_filterMap.mp member
      rcases recordTaskCall_of_stageTask calls with ⟨name, rfl, rfl⟩ | recorded
      · exact .inl (List.mem_filterMap.mpr ⟨_, inside, rfl⟩)
      · exact .inr ⟨target, List.mem_cons_of_mem _ (List.mem_map_of_mem inside), recorded⟩
  | _ => cases member

/-! ## Code of a run -/

theorem codeParts_of_parts {statement : Statement} {part : Call}
    (member : part ∈ statement.parts) : part ∈ codeParts (.statement statement) := by
  cases statement with
  | taskDef | route | schema | authProvider | onQueue | onTopic | scenario => cases member
  | reply status contentType body schema headers line column =>
      cases headers <;> simpa [Statement.parts, codeParts, localExpressions, optionalPart,
        bodyStatements] using member
  | raise message condition line column | nack message condition line column =>
      cases condition <;> simp_all [Statement.parts, codeParts, localExpressions, optionalPart,
        bodyStatements]
  | conditionalAssignment target value condition line column =>
      simpa [Statement.parts, codeParts, localExpressions, bodyStatements, or_comm] using member
  | _ =>
      simpa [Statement.parts, codeParts, localExpressions, bodyStatements] using member

def InCode (program : Program) (call : Call) : Prop :=
  ∃ origin, Code program origin call

theorem hereditary_inCode (program : Program) : Hereditary (InCode program) := by
  constructor
  rintro call ⟨origin, code⟩ part member
  cases call with
  | expression value => exact ⟨origin, .part code member⟩
  | statement statement => exact ⟨origin, .part code (codeParts_of_parts member)⟩

theorem inCode_body {program : Program} (name : String) (params : List ParamDef)
    (body : TaskBody) (line column : Nat)
    (code : InCode program (.statement (.taskDef name params body line column)))
    (part : Call) (member : part ∈ body.parts) : InCode program part := by
  obtain ⟨origin, code⟩ := code
  refine ⟨origin, .part code ?_⟩
  cases body with
  | inline value =>
      simpa [TaskBody.parts, codeParts, localExpressions, bodyStatements, bodyResult] using member
  | block statements result =>
      simp only [TaskBody.parts, List.mem_append, List.mem_singleton] at member
      simp only [codeParts, localExpressions, bodyStatements, bodyResult, List.mem_append,
        List.map_cons, List.map_nil, List.mem_singleton]
      exact member.symm

theorem allowsCode_hole {program : Program} {text : String}
    (code : InCode program (.expression (.stringLiteral text))) :
    ∀ hole ∈ templateHoles text, AllowsCode (InCode program) hole := by
  obtain ⟨origin, code⟩ := code
  intro hole member value reads
  exact ⟨.text, .hole code member reads⟩

theorem inCode_reached {program : Program} {statement inner : Statement}
    (code : InCode program (.statement statement)) (inside : inner ∈ reached statement) :
    InCode program (.statement inner) := by
  rw [reached_eq, List.mem_cons] at inside
  rcases inside with rfl | inside
  · exact code
  · obtain ⟨top, found, inside⟩ := mem_reachedBlock_iff.mp inside
    obtain ⟨origin, code⟩ := code
    have body : InCode program (.statement top) :=
      ⟨origin, .part code (List.mem_append_right _ (List.mem_map_of_mem found))⟩
    exact inCode_reached body inside
termination_by sizeOf statement
decreasing_by exact sizeOf_body found

theorem inCode_reachedBlock {program : Program} {statement : Statement}
    (member : statement ∈ reachedBlock program) : InCode program (.statement statement) := by
  obtain ⟨top, found, inside⟩ := mem_reachedBlock_iff.mp member
  exact inCode_reached ⟨.written, .statement found⟩ inside

theorem inCode_local {program : Program} {statement : Statement} {located : Located}
    (code : InCode program (.statement statement)) (found : located ∈ localExpressions statement) :
    InCode program (.expression located.expression) := by
  obtain ⟨origin, code⟩ := code
  exact ⟨origin, .part code (List.mem_append_left _ (List.mem_map_of_mem found))⟩

theorem literal_of_fillsTemplate {host : Host} {depth : Nat} {call : Call} {state : Interpreter}
    {text : String}
    (templates : ∀ object arguments,
      call = .expression (.methodCall object "native_query" arguments) →
        ∃ text rest, arguments = .positional (.stringLiteral text) :: rest)
    (fills : FillsTemplate host depth call state text) :
    .expression (.stringLiteral text) ∈ call.parts := by
  cases fills with
  | native database reads =>
      obtain ⟨literal, rest, rfl⟩ := templates _ _ rfl
      cases reads with
      | literal => exact List.mem_cons_of_mem _ List.mem_cons_self
      | value computed evaluates => exact absurd rfl (computed _ _)

/-- All calls of a run are in the code of the program. -/
theorem inCode_of_codeRun {host : Host} {program : Program} {reached : CallRun}
    (run : CodeRun host program reached) : InCode program reached.call := by
  induction run with
  | statement member => exact inCode_reachedBlock member
  | expression member =>
      obtain ⟨statement, reached, found⟩ := mem_blockExpressions_iff.mp member
      exact inCode_local (inCode_reachedBlock reached) found
  | @step before after run templates leads induction =>
      apply allowed_of_leads (hereditary_inCode program) induction inCode_body _ _ leads
      · intro text literal
        rw [literal] at induction
        exact allowsCode_hole induction
      · intro text fills
        have part := literal_of_fillsTemplate templates fills
        exact allowsCode_hole ((hereditary_inCode program).parts _ induction _ part)

/-! ## Names of schemas and tasks -/

theorem inCode_subexpressions {program : Program} {value : Expression}
    (code : InCode program (.expression value)) :
    ∀ part ∈ subexpressions value, InCode program (.expression part) := by
  induction value using expression_induction with
  | step value children blocks =>
      intro part inside
      have each := (hereditary_inCode program).parts _ code
      rw [subexpressions_eq, List.mem_cons, below_eq, mem_inPart_iff] at inside
      rcases inside with rfl | ⟨child, member, inside⟩ | ⟨statement, member, located, top, inside⟩
      · exact code
      · exact children child member (each _ member) part inside
      · obtain ⟨inner, deeper, found⟩ := mem_statementExpressions_iff.mp top
        have local' := inCode_local (inCode_reached (each _ member) deeper) found
        exact blocks statement member located top local' part inside

theorem inCode_of_visited {program : Program} {call : Call} (visited : Visited program call) :
    InCode program call := by
  induction visited with
  | body member => exact inCode_reachedBlock member
  | expression top inside =>
      obtain ⟨statement, reached, found⟩ := mem_blockExpressions_iff.mp top
      exact inCode_subexpressions (inCode_local (inCode_reachedBlock reached) found) _ inside
  | block visited member induction =>
      exact (hereditary_inCode program).parts _ induction _ member

theorem inCode_of_unvisited {program : Program} {call : Call}
    (unvisited : Unvisited program call) : InCode program call := by
  cases unvisited with
  | body visited member inside =>
      have direct := (hereditary_inCode program).parts _ (inCode_of_visited visited) _ member
      apply inCode_reached direct
      rw [reached_eq]
      exact List.mem_cons_of_mem _ inside
  | text code => exact ⟨.text, code⟩

theorem schemasCollected_iff (files : List ParsedFile) :
    SchemasCollected files ↔
      ∀ file ∈ files, ∀ call, Unvisited file.program call → ∀ name ∈ callReferences call,
        ∃ other ∈ files, ∃ seen, Visited other.program seen ∧ name ∈ callReferences seen := by
  constructor
  · intro collected file inside call unvisited name member
    obtain ⟨origin, code⟩ := inCode_of_unvisited unvisited
    exact mem_collectSchemaReferences_iff.mp (collected file inside origin call code name member)
  · intro elsewhere file inside origin call code name member
    rw [mem_collectSchemaReferences_iff]
    rcases visited_or_unvisited code with visited | unvisited
    · exact ⟨file, inside, call, visited, member⟩
    · exact elsewhere file inside call unvisited name member

/-- A call in written code is recorded. -/
theorem writesCall_of_written {files : List ParsedFile} {file : ParsedFile}
    (inside : file ∈ files) {call : Call} (code : Code file.program .written call)
    {task : TaskName} (member : task ∈ calledTasks call) :
    WritesCall files (fileNamespace file) task := by
  have written : ∃ value, Visited file.program (.expression value) ∧
      task ∈ recordTaskCall value := by
    cases placed_of_written code rfl with
    | body | block => cases member
    | expression visited =>
        rcases exists_recordTaskCall member with recorded | ⟨part, deeper, recorded⟩
        · exact ⟨_, visited, recorded⟩
        · exact ⟨part, visited.child deeper, recorded⟩
  exact ⟨⟨file, inside, written⟩, fun _ _ _ same => ⟨file, inside, same, written⟩⟩

theorem taskCallsRecorded_iff (files : List ParsedFile) :
    TaskCallsRecorded files ↔
      ∀ file ∈ files, ∀ call, Code file.program .text call → ∀ task ∈ calledTasks call,
        DeclaresTask files task → WritesCall files (fileNamespace file) task := by
  constructor
  · intro recorded file inside call code task member declared
    exact (records_iff).mp (recorded file inside .text call code task member declared)
  · intro elsewhere file inside origin call code task member declared
    rw [records_iff]
    cases origin with
    | written => exact writesCall_of_written inside code member
    | text => exact elsewhere file inside call code task member declared

/-! ## Runs -/

theorem declaresTask_of_private {files : List ParsedFile} {task : Declaration}
    (member : task ∈ collectPrivateTaskDefs files) : DeclaresTask files (.bare task.name) := by
  obtain ⟨file, inside, member⟩ := List.mem_flatMap.mp member
  obtain ⟨statement, top, found⟩ := List.mem_filterMap.mp member
  cases statement with
  | taskDef name params body line column =>
      obtain rfl := Option.some.inj found
      exact ⟨file, inside, .written, params, body, line, column, .statement top⟩
  | _ => cases found

theorem declaresTask_of_exported {files : List ParsedFile} {file : String} {task : Declaration}
    (member : (file, task) ∈ collectExportedTaskDefs files) :
    DeclaresTask files (.bare task.name) ∧ DeclaresTask files (fileTask file task.name) := by
  obtain ⟨source, inside, member⟩ := List.mem_flatMap.mp member
  obtain ⟨namespaceName, named, member⟩ := List.mem_flatMap.mp member
  obtain ⟨statement, top, found⟩ := List.mem_filterMap.mp member
  cases statement with
  | «export» statement =>
      cases statement with
      | taskDef name params body line column =>
          obtain ⟨rfl, rfl⟩ := Prod.mk.inj (Option.some.inj found)
          constructor
          · refine ⟨source, inside, .written, params, body, line, column, ?_⟩
            exact .part (.statement top) (List.mem_singleton_self _)
          · exact ⟨source, inside, _, Option.mem_toList.mp named, name, params, body, line,
              column, top, rfl⟩
      | _ => cases found
  | _ => cases found

theorem recorded_of_unusedPrivate {files : List ParsedFile} {task : Declaration}
    (reported : task ∈ unusedPrivateTasks files) :
    task ∈ collectPrivateTaskDefs files ∧
      ∀ file, ¬ (collectTaskCalls files).Records file (.bare task.name) := by
  obtain ⟨defined, unused⟩ := List.mem_filter.mp reported
  refine ⟨defined, ?_⟩
  rintro file ⟨known, -⟩
  simp_all

theorem recorded_of_unusedExported {files : List ParsedFile} {file : String} {task : Declaration}
    (reported : (file, task) ∈ unusedExportedTasks files) :
    (file, task) ∈ collectExportedTaskDefs files ∧
      ¬ (collectTaskCalls files).Records (some file) (.bare task.name) ∧
      ∀ other, ¬ (collectTaskCalls files).Records other (fileTask file task.name) := by
  obtain ⟨defined, unused⟩ := List.mem_filter.mp reported
  simp only [decide_eq_true_eq] at unused
  refine ⟨defined, ?_, ?_⟩
  · rintro ⟨-, own⟩
    exact unused.2 (own file rfl)
  · intro other known
    exact unused.1 known

/-- What a run uses is not reported, as soon as all names are collected and all values called. -/
theorem usedUnreported {files : List ParsedFile} (collected : SchemasCollected files)
    (recorded : TaskCallsRecorded files) (called : ValuesCalled files) :
    UsedUnreported files := by
  intro host file inside reached run
  obtain ⟨origin, code⟩ := inCode_of_codeRun run
  refine ⟨?_, ?_, ?_, ?_⟩
  · rintro name member schema reported rfl
    obtain ⟨⟨_, persistent⟩, unused, rfl⟩ := List.mem_map.mp reported
    have known := collected file inside origin _ code _ member
    simp_all
  · intro name member
    constructor
    · rintro task reported rfl
      obtain ⟨defined, unrecorded⟩ := recorded_of_unusedPrivate reported
      exact unrecorded _
        (recorded file inside origin _ code _ member (declaresTask_of_private defined))
    · rintro ⟨space, task⟩ reported same rfl
      obtain ⟨defined, unrecorded, -⟩ := recorded_of_unusedExported reported
      apply unrecorded
      rw [← same]
      exact recorded file inside origin _ code _ member (declaresTask_of_exported defined).1
  · intro name member
    have written := called file inside origin _ code name member
    constructor
    · rintro task reported own rfl
      obtain ⟨defined, unrecorded⟩ := recorded_of_unusedPrivate reported
      exact unrecorded none (records_iff.mpr (written.1 task defined own rfl))
    · rintro ⟨space, task⟩ reported same rfl
      obtain ⟨defined, unrecorded, unqualified⟩ := recorded_of_unusedExported reported
      rcases written.2 _ defined same rfl with bare | qualified
      · exact unrecorded (records_iff.mpr bare)
      · exact unqualified none (records_iff.mpr qualified)
  · rintro text member ⟨space, task⟩ reported rfl
    obtain ⟨defined, -, unqualified⟩ := recorded_of_unusedExported reported
    exact unqualified _
      (recorded file inside origin _ code _ member (declaresTask_of_exported defined).2)

/-- Collection misses nothing exactly where the code that is passed over adds no name.  Where
tasks that are values are also called, no declaration that a run uses is then reported. -/
theorem collection_complete_iff (files : List ParsedFile) :
    (SchemasCollected files ∧ TaskCallsRecorded files ↔ NamedElsewhere files) ∧
      (NamedElsewhere files ∧ ValuesCalled files → UsedUnreported files) := by
  have complete : SchemasCollected files ∧ TaskCallsRecorded files ↔ NamedElsewhere files := by
    constructor
    · rintro ⟨collected, recorded⟩
      exact ⟨(schemasCollected_iff files).mp collected, (taskCallsRecorded_iff files).mp recorded⟩
    · rintro ⟨schemas, tasks⟩
      exact ⟨(schemasCollected_iff files).mpr schemas, (taskCallsRecorded_iff files).mpr tasks⟩
  refine ⟨complete, ?_⟩
  rintro ⟨named, called⟩
  obtain ⟨collected, recorded⟩ := complete.mpr named
  exact usedUnreported collected recorded called

section Missed

/-- A reply that names `Order` and calls `helper`. -/
def orderReply : Statement :=
  .reply (.integer 200) .json (.stringLiteral "#\x7bhelper()\x7d") (some "Order") none 7 13

def orderRoute : Statement :=
  .route .get "/x" none [] [] [.expressionStatement (.ifElse (.identifier "ready")
    (.block [.while (.identifier "ready") [orderReply] 6 9] .null) none) 5 5] 4 1

def missedFile : ParsedFile where
  path := "app.marreta"
  stem := "app"
  program :=
    [.schema "Order" none [] 1 1, .taskDef "helper" [] (.inline (.integer 1)) 3 1, orderRoute]

theorem collected_missedFile :
    collectSchemaReferences [missedFile] = [] ∧ (collectTaskCalls [missedFile]).bareAny = [] := by
  constructor
  · simp [collectSchemaReferences, missedFile, collectSchemaRefsInStatement, lintStatement,
      lintStatementBlock, statementSchemaRefs, statementReferences, localExpressions, orderRoute,
      walkExpression_zero, walkExpression_succ, walkChildren_eq, Expression.parts, TaskBody.parts,
      inPart, statementExpressions, blockExpressions, directBlockStatements, taskBodyStatements,
      expressionReference, orderReply, bodyResult]
  · simp [collectTaskCalls, collectTaskCallsFromStatements, missedFile, lintStatement,
      lintStatementBlock, taskCallWalk, walkStatementExpressions, localExpressions, orderRoute,
      walkExpression_zero, walkExpression_succ, walkChildren_eq, Expression.parts, TaskBody.parts,
      inPart, statementExpressions, blockExpressions, recordTaskCall, orderReply, bodyResult,
      taskCallIndex]

theorem code_orderReply : Code missedFile.program .written (.statement orderReply) := by
  have route : Code missedFile.program .written (.statement orderRoute) :=
    .statement (by simp [missedFile])
  have condition := Code.part route (List.mem_append_right _ List.mem_cons_self)
  have value := Code.part condition List.mem_cons_self
  have loop : Code missedFile.program .written
      (.statement (.while (.identifier "ready") [orderReply] 6 9)) :=
    .part value (by simp [codeParts, Expression.parts, TaskBody.parts])
  exact .part loop (List.mem_append_right _ List.mem_cons_self)

/-- How the text `#{helper()}` is read. -/
theorem helperText_reads :
    (match sourceExpression "helper()".toList with
      | .ok (some (.functionCall name [])) => decide (name = "helper")
      | _ => false) = true ∧
      "helper()".toList ∈ templateHoles "#\x7bhelper()\x7d" := by
  decide +kernel

theorem reads_helper :
    sourceExpression "helper()".toList = .ok (some (.functionCall "helper" [])) := by
  have reads := helperText_reads.1
  split at reads
  · rename_i name reads'
    rw [reads', of_decide_eq_true reads]
  · cases reads

theorem mem_templateHoles_helper :
    "helper()".toList ∈ templateHoles "#\x7bhelper()\x7d" :=
  helperText_reads.2

/-- A task that another one returns, for its callers to call. -/
def passingFile : ParsedFile where
  path := "core.marreta"
  stem := "core"
  program :=
    [.taskDef "double" [] (.inline (.integer 2)) 1 1,
      .export (.taskDef "choose_double" [] (.inline (.identifier "double")) 2 8)]

theorem collected_passingFile : (collectTaskCalls [passingFile]).bareAny = [] := by
  simp [collectTaskCalls, collectTaskCallsFromStatements, passingFile, lintStatement,
    lintStatementBlock, taskCallWalk, walkStatementExpressions, localExpressions,
    walkExpression_zero, walkChildren_eq, Expression.parts, TaskBody.parts, statementExpressions,
    recordTaskCall, bodyResult, taskCallIndex]

theorem not_usedUnreported_passingFile (host : Host) : ¬ UsedUnreported [passingFile] := by
  intro unreported
  have run : CodeRun host passingFile.program
      ⟨0, .expression (.identifier "double"), .new Environment.new none⟩ := by
    have member : ⟨.identifier "double", 2, 8⟩ ∈ blockExpressions passingFile.program := by
      simp [passingFile, blockExpressions, statementExpressions, localExpressions, bodyResult]
    exact .expression member 0 _
  have values := (unreported host passingFile List.mem_cons_self _ run).2.2.1
  obtain ⟨free, -⟩ := values "double" List.mem_cons_self
  have reported : { name := "double", path := "core.marreta", line := 1, column := 1 } ∈
      unusedPrivateTasks [passingFile] := by
    rw [unusedPrivateTasks, collected_passingFile]
    decide
  exact free _ reported rfl rfl

/-- A schema and a task that the reply uses are missed, and a task that is returned is
reported. -/
theorem collection_incomplete :
    ¬ SchemasCollected [missedFile] ∧ ¬ TaskCallsRecorded [missedFile] ∧
      ¬ UsedUnreported [passingFile] := by
  have code := code_orderReply
  refine ⟨?_, ?_, not_usedUnreported_passingFile emptyHost⟩
  · intro collected
    have named := collected missedFile List.mem_cons_self _ _ code "Order" List.mem_cons_self
    rw [collected_missedFile.1] at named
    cases named
  · intro recorded
    have literal := Code.part code (List.mem_cons_of_mem _ List.mem_cons_self)
    have call := Code.hole literal mem_templateHoles_helper reads_helper
    have declared : DeclaresTask [missedFile] (.bare "helper") :=
      ⟨missedFile, List.mem_cons_self, .written, [], .inline (.integer 1), 3, 1,
        .statement (by simp [missedFile])⟩
    have known := recorded missedFile List.mem_cons_self _ _ call (.bare "helper")
      (by decide) declared
    rw [TaskCallIndex.Records, collected_missedFile.2] at known
    cases known.1

end Missed

end Lint

end Marreta
