import Marreta.Config.FeatureFlags
import Marreta.Lint.Termination
import Marreta.Lint.Walk

namespace Marreta

open Foundation

/-! The rules that the linter applies statement by statement.

The linter goes through a program and the bodies of its statements.  At each statement it
reports flags whose literal names are invalid and names of schemas that are not declared. -/

namespace Lint

/-! ## Statements and their bodies -/

section Blocks

variable {δ : Type} (rules : Statement → List δ)

mutual
def lintStatement : Statement → List δ
  | .taskDef name params (.block body result) line column =>
      rules (.taskDef name params (.block body result) line column) ++ lintStatementBlock body
  | .route verb path auth allow take body line column =>
      rules (.route verb path auth allow take body line column) ++ lintStatementBlock body
  | .while condition body line column =>
      rules (.while condition body line column) ++ lintStatementBlock body
  | .transaction body line column =>
      rules (.transaction body line column) ++ lintStatementBlock body
  | .onQueue queueName binding schema body line column =>
      rules (.onQueue queueName binding schema body line column) ++ lintStatementBlock body
  | .onTopic pattern binding schema body line column =>
      rules (.onTopic pattern binding schema body line column) ++ lintStatementBlock body
  | .export statement => rules (.export statement) ++ lintStatement statement
  | statement => rules statement

/-- What the rules report on the statements of a block and of their bodies. -/
def lintStatementBlock : List Statement → List δ
  | [] => []
  | statement :: rest => lintStatement statement ++ lintStatementBlock rest
end

end Blocks

/-- A statement and all statements in its body. -/
def reached (statement : Statement) : List Statement :=
  lintStatement (fun statement => [statement]) statement

def reachedBlock (block : List Statement) : List Statement :=
  lintStatementBlock (fun statement => [statement]) block

section Reached

variable {δ : Type} (rules : Statement → List δ)

mutual
theorem lintStatement_eq : ∀ statement,
    lintStatement rules statement = (reached statement).flatMap rules
  | .taskDef _ _ (.block body _) _ _ | .route _ _ _ _ _ body _ _ | .while _ body _ _
  | .transaction body _ _ | .onQueue _ _ _ body _ _ | .onTopic _ _ _ body _ _ => by
      simp only [reached, lintStatement, List.flatMap_append, List.flatMap_singleton]
      rw [lintStatementBlock_eq body, reachedBlock]
  | .export statement => by
      simp only [reached, lintStatement, List.flatMap_append, List.flatMap_singleton]
      rw [lintStatement_eq statement, reached]
  | .taskDef name params (.inline value) line column => by
      simp only [reached, lintStatement, List.flatMap_singleton]
  | .assignment .. | .conditionalAssignment .. | .require .. | .reject ..
  | .expressionStatement .. | .schema .. | .authProvider .. | .reply .. | .fail .. | .raise ..
  | .nack .. | .scenario .. => by
      simp only [reached, lintStatement, List.flatMap_singleton]

theorem lintStatementBlock_eq : ∀ block,
    lintStatementBlock rules block = (reachedBlock block).flatMap rules
  | [] => rfl
  | statement :: rest => by
      rw [lintStatementBlock, lintStatement_eq statement, lintStatementBlock_eq rest,
        reachedBlock, reachedBlock, lintStatementBlock, List.flatMap_append, reached]
end

end Reached

mutual
/-- The expressions that stand outside of bodies, statement by statement, are those of the
statement and its body. -/
theorem lintStatement_localExpressions : ∀ statement,
    (lintStatement localExpressions statement).Perm (statementExpressions statement)
  | .taskDef name params (.block body result) line column => by
      rw [lintStatement, statementExpressions]
      exact List.perm_append_comm.trans
        ((lintStatementBlock_localExpressions body).append_right _)
  | .route verb path auth allow take body line column =>
      (lintStatementBlock_localExpressions body).append_left _
  | .while _ body _ _ | .onQueue _ _ _ body _ _ | .onTopic _ _ _ body _ _ =>
      (lintStatementBlock_localExpressions body).cons _
  | .transaction body line column => lintStatementBlock_localExpressions body
  | .export statement => lintStatement_localExpressions statement
  | .taskDef name params (.inline value) line column => .refl _
  | .assignment .. | .conditionalAssignment .. | .require .. | .reject ..
  | .expressionStatement .. | .schema .. | .authProvider .. | .reply .. | .fail .. | .raise ..
  | .nack .. | .scenario .. => .refl _

theorem lintStatementBlock_localExpressions : ∀ block,
    (lintStatementBlock localExpressions block).Perm (blockExpressions block)
  | [] => .refl _
  | statement :: rest =>
      (lintStatement_localExpressions statement).append (lintStatementBlock_localExpressions rest)
end

/-! ## Names of flags -/

/-- The name of a flag that is written as a literal and is not a name of a flag. -/
def invalidFlag : Expression → Option String
  | .methodCall (.identifier object) method (.positional (.stringLiteral name) :: _) =>
      if object = "feature" ∧ method = "enabled" ∧ ¬ Config.isValidFeatureName name.toList then
        some name
      else none
  | _ => none

def invalidFeatureFlagName (path : String) (line column : Nat) (name : String) :
    LintDiagnostic where
  path
  line
  column
  code := "invalid_feature_flag_name"
  message := "feature flag name '" ++ name ++ "' is invalid"
  help := some "Use lower_snake_case in code, without double or trailing underscores."

/-- The report on an expression, at the position of its statement. -/
def flagReport (path : String) (line column : Nat) (value : Expression) :
    Option LintDiagnostic :=
  (invalidFlag value).map (invalidFeatureFlagName path line column)

def lintFeatureFlagsInStatement (path : String) (statement : Statement) : List LintDiagnostic :=
  (localExpressions statement).flatMap fun located =>
    (walkExpression 0 located.expression).filterMap (flagReport path located.line located.column)

/-! ## Names of schemas -/

def schemaTypeReferences : SchemaType → List String
  | .reference name => [name]
  | .typedList element => schemaTypeReferences element
  | _ => []

/-- The schemas that a statement itself names, outside of its expressions and its body. -/
def statementReferences : Statement → List String
  | .taskDef _ params _ _ _ => params.filterMap ParamDef.schema
  | .schema _ _ fields _ _ => fields.flatMap fun field => schemaTypeReferences field.fieldType
  | .route _ _ _ _ take _ _ _ => take.filterMap TakeBinding.schema
  | .reply _ _ _ responseSchema _ _ _ => responseSchema.toList
  | .onQueue _ _ schema _ _ _ | .onTopic _ _ schema _ _ _ => schema.toList
  | _ => []

def expressionReference : Expression → Option String
  | .schemaConstructor name _ | .httpClientResponseSchema _ name => some name
  | .queuePush _ schema _ | .topicPublish _ schema _ => schema
  | _ => none

section Schemas

variable (declared : String → Bool) (path : String)

def unknownSchema (line column : Nat) (name : String) : Option LintDiagnostic :=
  if declared name then none
  else some {
    path, line, column
    code := "unknown_schema_reference"
    message := "schema '" ++ name ++ "' is not declared"
    help := some "Declare the schema or fix the schema name." }

/-- The reports on the names that a statement itself has. -/
def statementReports (statement : Statement) : List LintDiagnostic :=
  (statementReferences statement).filterMap
    (unknownSchema declared path (statementLocation statement).1 (statementLocation statement).2)

def referenceReport (line column : Nat) (value : Expression) : Option LintDiagnostic :=
  (expressionReference value).bind (unknownSchema declared path line column)

/-- The reports on the expressions of a statement outside of its body. -/
def localReferenceReports (statement : Statement) : List LintDiagnostic :=
  (localExpressions statement).flatMap fun located =>
    (walkExpression 0 located.expression).filterMap
      (referenceReport declared path located.line located.column)

/-- For an exported statement the rule goes on to the statement itself. -/
def lintSchemaReferencesInStatement : Statement → List LintDiagnostic
  | .export statement =>
      lintSchemaReferencesInStatement statement ++
        localReferenceReports declared path (.export statement)
  | statement =>
      statementReports declared path statement ++ localReferenceReports declared path statement

end Schemas

/-! ## What there is to report -/

/-- The statements in blocks inside of an expression, with the statements in their bodies. -/
def innerStatements (value : Expression) : List Statement :=
  (subexpressions value).flatMap fun inner =>
    inner.parts.flatMap fun
      | .expression _ => []
      | .statement statement => reached statement

/-- Where a statement stands: in the program or a body, or in a block of an expression. -/
inductive Place where
  | body
  | block
deriving DecidableEq

/-- What there is to report on flags, each literal of the program once. -/
def flagsToReport (path : String) (program : Program) : List LintDiagnostic :=
  (blockExpressions program).flatMap fun located =>
    (subexpressions located.expression).filterMap (flagReport path located.line located.column)

/-- What there is to report on names of schemas, each name of the program once. -/
def referencesToReport (declared : String → Bool) (path : String) (program : Program) :
    List (Place × LintDiagnostic) :=
  ((reachedBlock program).flatMap (statementReports declared path) ++
      (blockExpressions program).flatMap fun located =>
        (subexpressions located.expression).filterMap
          (referenceReport declared path located.line located.column)).map (Place.body, ·) ++
    ((blockExpressions program).flatMap fun located =>
      (innerStatements located.expression).flatMap
        (statementReports declared path)).map (Place.block, ·)

/-! ## Rules over expressions -/

theorem flat_congr {β γ : Type} {first : Expression → Option β} {second : Expression → Option γ}
    (same : ∀ value, first value = none ↔ second value = none) (value : Expression) :
    Flat first value ↔ Flat second value := by
  simp only [Flat, same]

section Rules

variable {δ : Type} (report : Nat → Nat → Expression → Option δ)

/-- What a rule over expressions reports in the bodies of a program. -/
theorem reports_perm (program : Program) :
    (lintStatementBlock (fun statement => (localExpressions statement).flatMap fun located =>
        (walkExpression 0 located.expression).filterMap (report located.line located.column))
      program).Perm
    ((blockExpressions program).flatMap fun located =>
      (walkExpression 0 located.expression).filterMap
        (report located.line located.column)) := by
  rw [lintStatementBlock_eq, ← List.flatMap_assoc, ← lintStatementBlock_eq]
  exact (lintStatementBlock_localExpressions program).flatMap_right _

/-- A walk of all expressions covers what there is to report. -/
theorem reports_covered (found : List Located) :
    List.Sublist
      (found.flatMap fun located =>
        (subexpressions located.expression).filterMap (report located.line located.column))
      (found.flatMap fun located =>
        (walkExpression 0 located.expression).filterMap
          (report located.line located.column)) := by
  apply List.Sublist.flatMap_right
  intro located _
  exact (sublist_walkExpression located.expression 0).filterMap _

theorem reports_eq_iff (found : List Located) :
    (found.flatMap fun located =>
        (walkExpression 0 located.expression).filterMap (report located.line located.column)) =
      (found.flatMap fun located =>
        (subexpressions located.expression).filterMap (report located.line located.column)) ↔
      ∀ located ∈ found, Flat (report located.line located.column) located.expression := by
  rw [Repetition.flatMap_eq_flatMap_iff]
  · simp only [filterMap_walkExpression_iff]
  · intro located _
    exact (sublist_walkExpression located.expression 0).filterMap _

end Rules

/-! ## Flags -/

theorem flagReport_eq_none_iff (path : String) (line column : Nat) (value : Expression) :
    flagReport path line column value = none ↔ invalidFlag value = none :=
  Option.map_eq_none_iff

theorem flags_perm_iff (path : String) (program : Program) :
    (lintStatementBlock (lintFeatureFlagsInStatement path) program).Perm
        (flagsToReport path program) ↔
      ∀ located ∈ blockExpressions program, Flat invalidFlag located.expression := by
  have walked := reports_perm (flagReport path) program
  have covered := reports_covered (flagReport path) (blockExpressions program)
  have each := reports_eq_iff (flagReport path) (blockExpressions program)
  simp only [flat_congr (flagReport_eq_none_iff path _ _)] at each
  rw [← each]
  exact (walked.congr_left _).trans (Repetition.perm_iff_eq covered)

/-! ## Schemas -/

/-- The schema that an expression names, where it is not declared. -/
def unknownReference (declared : String → Bool) (value : Expression) : Option String :=
  (expressionReference value).filter fun name => !declared name

/-- Where the names of schemas get one report each: exported statements and the statements in
blocks of expressions name no schema that is unknown, and nothing repeats in a walk. -/
structure ReferencesOnce (declared : String → Bool) (program : Program) : Prop where
  exported : ∀ statement, .export statement ∈ reachedBlock program →
    (∀ name ∈ statementReferences statement, declared name) ∧
      ∀ located ∈ localExpressions statement, ∀ part ∈ subexpressions located.expression,
        ∀ name ∈ expressionReference part, declared name
  blocks : ∀ located ∈ blockExpressions program, ∀ statement ∈ innerStatements located.expression,
    ∀ name ∈ statementReferences statement, declared name
  flat : ∀ located ∈ blockExpressions program,
    Flat (unknownReference declared) located.expression

section References

variable (declared : String → Bool) (path : String)

theorem unknownSchema_eq_none_iff (line column : Nat) (name : String) :
    unknownSchema declared path line column name = none ↔ declared name := by
  rw [unknownSchema]
  split <;> simp_all

theorem statementReports_eq_nil_iff (statement : Statement) :
    statementReports declared path statement = [] ↔
      ∀ name ∈ statementReferences statement, declared name := by
  rw [statementReports, List.filterMap_eq_nil_iff]
  simp only [unknownSchema_eq_none_iff]

theorem referenceReport_eq_none_iff (line column : Nat) (value : Expression) :
    referenceReport declared path line column value = none ↔
      ∀ name ∈ expressionReference value, declared name := by
  rw [referenceReport, Option.bind_eq_none_iff]
  simp only [unknownSchema_eq_none_iff, Option.mem_def]

theorem unknownReference_eq_none_iff (value : Expression) :
    unknownReference declared value = none ↔
      ∀ name ∈ expressionReference value, declared name := by
  rw [unknownReference, Option.filter_eq_none_iff]
  simp

theorem localReferenceReports_eq_nil_iff (statement : Statement) :
    localReferenceReports declared path statement = [] ↔
      ∀ located ∈ localExpressions statement, ∀ part ∈ subexpressions located.expression,
        ∀ name ∈ expressionReference part, declared name := by
  rw [localReferenceReports, List.flatMap_eq_nil_iff]
  apply forall₂_congr
  intro located _
  rw [List.filterMap_eq_nil_iff]
  simp only [referenceReport_eq_none_iff]
  constructor
  · intro each part member
    exact each part ((sublist_walkExpression located.expression 0).subset member)
  · intro each part member
    exact each part (walkExpression_subset located.expression 0 member)

/-- What the rule reports on an exported statement, which it comes to once more. -/
def exportedReports : Statement → List LintDiagnostic
  | .export statement => lintSchemaReferencesInStatement declared path statement
  | _ => []

theorem lintSchemaReferencesInStatement_eq (statement : Statement) :
    lintSchemaReferencesInStatement declared path statement =
      exportedReports declared path statement ++
        (statementReports declared path statement ++
          localReferenceReports declared path statement) := by
  cases statement <;> rfl

theorem lintSchemaReferences_perm (program : Program) :
    (lintStatementBlock (lintSchemaReferencesInStatement declared path) program).Perm
      (((reachedBlock program).flatMap (statementReports declared path) ++
          (blockExpressions program).flatMap fun located =>
            (walkExpression 0 located.expression).filterMap
              (referenceReport declared path located.line located.column)) ++
        (reachedBlock program).flatMap (exportedReports declared path)) := by
  have walked := reports_perm (referenceReport declared path) program
  rw [lintStatementBlock_eq] at walked
  rw [lintStatementBlock_eq, funext (lintSchemaReferencesInStatement_eq declared path)]
  have parted := (List.flatMap_append_perm (reachedBlock program) (exportedReports declared path)
    fun statement => statementReports declared path statement ++
      localReferenceReports declared path statement).symm
  have local' := (List.flatMap_append_perm (reachedBlock program) (statementReports declared path)
    (localReferenceReports declared path)).symm
  exact (parted.trans ((local'.trans (walked.append_left _)).append_left _)).trans
    List.perm_append_comm

/-- A place tells the reports of two kinds apart. -/
theorem places_perm_iff {reports named hidden : List LintDiagnostic} :
    (reports.map (Place.body, ·)).Perm
        (named.map (Place.body, ·) ++ hidden.map (Place.block, ·)) ↔
      reports.Perm named ∧ hidden = [] := by
  have injective : Function.Injective (Prod.mk Place.body : LintDiagnostic → _) :=
    Prod.mk_right_injective _
  constructor
  · intro same
    have empty : hidden = [] := by
      cases hidden with
      | nil => rfl
      | cons first rest =>
          have member : (Place.block, first) ∈ reports.map (Place.body, ·) :=
            same.mem_iff.mpr (List.mem_append_right _ List.mem_cons_self)
          simp at member
    subst empty
    rw [List.map_nil, List.append_nil] at same
    exact ⟨(List.map_perm_map_iff injective).mp same, rfl⟩
  · rintro ⟨same, rfl⟩
    rw [List.map_nil, List.append_nil]
    exact same.map _

end References

section Bodies

theorem mem_reached_self (statement : Statement) : statement ∈ reached statement := by
  rw [reached]
  fun_cases lintStatement <;> simp

theorem reached_eq (statement : Statement) :
    reached statement = statement :: reachedBlock (bodyStatements statement) := by
  rw [reached]
  fun_cases bodyStatements <;> simp [lintStatement, reachedBlock, lintStatementBlock]

theorem mem_reachedBlock_iff {statement : Statement} {block : List Statement} :
    statement ∈ reachedBlock block ↔ ∃ top ∈ block, statement ∈ reached top := by
  induction block with
  | nil => simp [reachedBlock, lintStatementBlock]
  | cons first rest induction =>
      rw [reachedBlock, lintStatementBlock, List.mem_append, ← reachedBlock, induction]
      simp [reached]

theorem mem_reachedBlock_self {statement : Statement} {block : List Statement}
    (member : statement ∈ block) : statement ∈ reachedBlock block :=
  (mem_reachedBlock_iff).mpr ⟨statement, member, mem_reached_self statement⟩

theorem sizeOf_body {statement body : Statement} (member : body ∈ bodyStatements statement) :
    sizeOf body < sizeOf statement := by
  fun_cases bodyStatements statement with
  | case1 | case2 | case3 | case4 | case5 | case6 =>
      rw [bodyStatements] at member
      exact Nat.lt_trans (List.sizeOf_lt_of_mem member) (by simp; omega)
  | case7 exported =>
      obtain rfl := List.mem_singleton.mp member
      simp
  | case8 => simp_all [bodyStatements]

/-- With a statement its body is reached. -/
theorem mem_reached_body {inner body : Statement} (member : body ∈ bodyStatements inner)
    (statement : Statement) (inside : inner ∈ reached statement) : body ∈ reached statement := by
  rw [reached_eq, List.mem_cons] at inside ⊢
  rcases inside with rfl | inside
  · exact .inr (mem_reachedBlock_self member)
  · obtain ⟨top, found, inside⟩ := (mem_reachedBlock_iff).mp inside
    exact .inr ((mem_reachedBlock_iff).mpr ⟨top, found, mem_reached_body member top inside⟩)
termination_by sizeOf statement
decreasing_by exact sizeOf_body found

theorem mem_reachedBlock_body {inner body : Statement} (member : body ∈ bodyStatements inner)
    {block : List Statement} (inside : inner ∈ reachedBlock block) :
    body ∈ reachedBlock block := by
  obtain ⟨top, found, inside⟩ := (mem_reachedBlock_iff).mp inside
  exact (mem_reachedBlock_iff).mpr ⟨top, found, mem_reached_body member top inside⟩

end Bodies

section Exported

variable (declared : String → Bool) (path : String)

theorem lintSchemaReferencesInStatement_eq_nil {program : Program}
    (known : ∀ statement, .export statement ∈ reachedBlock program →
      (∀ name ∈ statementReferences statement, declared name) ∧
        ∀ located ∈ localExpressions statement, ∀ part ∈ subexpressions located.expression,
          ∀ name ∈ expressionReference part, declared name)
    (statement : Statement) (member : .export statement ∈ reachedBlock program) :
    lintSchemaReferencesInStatement declared path statement = [] := by
  fun_induction lintSchemaReferencesInStatement declared path statement with
  | case1 statement induction =>
      rw [induction (mem_reachedBlock_body List.mem_cons_self member)]
      exact (localReferenceReports_eq_nil_iff declared path _).mpr (known _ member).2
  | case2 statement plain =>
      rw [List.append_eq_nil_iff, statementReports_eq_nil_iff, localReferenceReports_eq_nil_iff]
      exact known statement member

theorem exportedReports_eq_nil_iff (program : Program) :
    (reachedBlock program).flatMap (exportedReports declared path) = [] ↔
      ∀ statement, .export statement ∈ reachedBlock program →
        (∀ name ∈ statementReferences statement, declared name) ∧
          ∀ located ∈ localExpressions statement, ∀ part ∈ subexpressions located.expression,
            ∀ name ∈ expressionReference part, declared name := by
  rw [List.flatMap_eq_nil_iff]
  constructor
  · intro empty statement member
    have nothing := empty _ member
    rw [exportedReports, lintSchemaReferencesInStatement_eq, List.append_eq_nil_iff,
      List.append_eq_nil_iff] at nothing
    exact ⟨(statementReports_eq_nil_iff declared path statement).mp nothing.2.1,
      (localReferenceReports_eq_nil_iff declared path statement).mp nothing.2.2⟩
  · intro known statement member
    cases statement with
    | «export» statement =>
        exact lintSchemaReferencesInStatement_eq_nil declared path known statement member
    | _ => rfl

/-- The property and the condition, for the names of schemas. -/
theorem references_perm_iff (program : Program) :
    ((lintStatementBlock (lintSchemaReferencesInStatement declared path) program).map
        (Place.body, ·)).Perm (referencesToReport declared path program) ↔
      ReferencesOnce declared program := by
  have walked := lintSchemaReferences_perm declared path program
  have covered := reports_covered (referenceReport declared path) (blockExpressions program)
  have each := reports_eq_iff (referenceReport declared path) (blockExpressions program)
  simp only [flat_congr fun value => (referenceReport_eq_none_iff declared path _ _ value).trans
    (unknownReference_eq_none_iff declared value).symm] at each
  have whole := (List.Sublist.refl
    ((reachedBlock program).flatMap (statementReports declared path))).append covered
  rw [referencesToReport, places_perm_iff, walked.congr_left,
    Repetition.perm_iff_eq (whole.trans (List.sublist_append_left _ _)),
    Repetition.append_eq_iff whole, List.append_cancel_left_eq, each,
    exportedReports_eq_nil_iff, List.flatMap_eq_nil_iff]
  simp only [List.flatMap_eq_nil_iff, statementReports_eq_nil_iff]
  constructor
  · intro ⟨⟨flat, exported⟩, blocks⟩
    exact ⟨exported, blocks, flat⟩
  · intro ⟨exported, blocks, flat⟩
    exact ⟨⟨flat, exported⟩, blocks⟩

end Exported

/-! ## Exactly once -/

/-- Expressions get one visit each, and invalid flags and unknown schemas one report each, exactly
where blocks of expressions have nothing deeper in their expressions; names of schemas must also
keep away from exported statements and from the statements of such blocks. -/
theorem visited_once_iff (statement : Statement) (declared : String → Bool) (path : String)
    (program : Program) :
    ((walkStatementExpressions statement).Perm (statementSubexpressions statement) ↔
        ∀ located ∈ statementExpressions statement, Flat some located.expression) ∧
      ((lintStatementBlock (lintFeatureFlagsInStatement path) program).Perm
          (flagsToReport path program) ↔
        ∀ located ∈ blockExpressions program, Flat invalidFlag located.expression) ∧
      (((lintStatementBlock (lintSchemaReferencesInStatement declared path) program).map
          (Place.body, ·)).Perm (referencesToReport declared path program) ↔
        ReferencesOnce declared program) :=
  ⟨walkStatementExpressions_perm_iff statement, flags_perm_iff path program,
    references_perm_iff declared path program⟩

section Repeated

def badFlag : Expression :=
  .methodCall (.identifier "feature") "enabled" [.positional (.stringLiteral "Bad__Name")]

def missingSchema : Expression :=
  .schemaConstructor "Missing" []

/-- `y = if ready` with a block that assigns `[feature.enabled("Bad__Name"), Missing {}]`. -/
def nestedBlock : Statement :=
  .assignment "y" (.ifElse (.identifier "ready")
    (.block [.assignment "z" (.list [badFlag, missingSchema]) 2 5] (.identifier "z")) none) 1 1

theorem not_flat_nestedBlock {β : Type} {report : Expression → Option β}
    (reports : report badFlag ≠ none ∨ report missingSchema ≠ none) :
    ¬ ∀ located ∈ statementExpressions nestedBlock, Flat report located.expression := by
  intro flat
  have nothing := flat _ List.mem_cons_self _ (by rw [subexpressions_eq]; exact List.mem_cons_self)
    (.assignment "z" (.list [badFlag, missingSchema]) 2 5) (by simp [Expression.parts, TaskBody.parts])
    _ List.mem_cons_self
  have inside : ∀ value ∈ [badFlag, missingSchema],
      value ∈ below (.list [badFlag, missingSchema]) := by
    intro value member
    rw [below_eq, mem_inPart_iff]
    refine .inl ⟨value, List.mem_map_of_mem member, ?_⟩
    rw [subexpressions_eq]
    exact List.mem_cons_self
  rcases reports with some | some
  · exact some (nothing badFlag (inside _ (by simp)))
  · exact some (nothing missingSchema (inside _ (by simp)))

theorem visited_twice :
    ¬ (walkStatementExpressions nestedBlock).Perm (statementSubexpressions nestedBlock) ∧
      ¬ (lintStatementBlock (lintFeatureFlagsInStatement "app.marreta") [nestedBlock]).Perm
        (flagsToReport "app.marreta" [nestedBlock]) ∧
      ¬ ((lintStatementBlock (lintSchemaReferencesInStatement (fun _ => false) "app.marreta")
          [nestedBlock]).map (Place.body, ·)).Perm
        (referencesToReport (fun _ => false) "app.marreta" [nestedBlock]) := by
  have whole : blockExpressions [nestedBlock] = statementExpressions nestedBlock :=
    List.append_nil _
  rw [walkStatementExpressions_perm_iff, flags_perm_iff, references_perm_iff, whole]
  refine ⟨not_flat_nestedBlock (.inl nofun), not_flat_nestedBlock (.inl ?_), ?_⟩
  · rw [badFlag, invalidFlag, if_pos (by decide)]
    nofun
  · intro once
    have flat := once.flat
    rw [whole] at flat
    exact not_flat_nestedBlock (.inr (by simp [unknownReference, missingSchema,
      expressionReference])) flat

end Repeated

end Lint

end Marreta
