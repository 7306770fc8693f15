import Marreta.Foundation.Repetition
import Marreta.Runtime.Constituents

namespace Marreta

open Foundation

/-! How the linter walks over expressions.

A walk hands an expression and all its parts to a visitor.  A statement of a block inside an
expression is walked too, with a visitor that is itself a walk: what such a visitor is handed, it
walks over again. -/

namespace Lint

/-- An expression with the position that a diagnostic about it gets. -/
structure Located where
  expression : Expression
  line : Nat
  column : Nat

/-! ## Expressions of statements -/

def stepExpressions : ScenarioStep → List Expression
  | .given target returns _ _ => [target, returns]
  | .when _ _ body headers _ _ => body.toList ++ headers.toList
  | .thenStatus status _ _ => [status]
  | .thenResponse expected _ _ => [expected]

def fieldExpression : AuthProviderField → Located
  | .mk _ value line column => ⟨value, line, column⟩

def providerFields : AuthProvider → List AuthProviderField
  | .jwt _ fields | .apiKey _ fields => fields

def bodyResult : TaskBody → Expression
  | .inline value | .block _ value => value

/-- The expressions of a statement outside of its body. -/
def localExpressions : Statement → List Located
  | .assignment _ value line column => [⟨value, line, column⟩]
  | .conditionalAssignment _ value condition line column =>
      [⟨value, line, column⟩, ⟨condition, line, column⟩]
  | .require condition _ _ line column | .reject condition _ _ line column =>
      [⟨condition, line, column⟩]
  | .while condition _ line column => [⟨condition, line, column⟩]
  | .taskDef _ _ body line column => [⟨bodyResult body, line, column⟩]
  | .expressionStatement expression line column => [⟨expression, line, column⟩]
  | .route _ _ _ allow _ _ line column => allow.map (⟨·, line, column⟩)
  | .authProvider provider _ _ => (providerFields provider).map fieldExpression
  | .reply statusCode _ body _ extraHeaders line column =>
      (statusCode :: body :: extraHeaders.toList).map (⟨·, line, column⟩)
  | .fail _ message line column => [⟨message, line, column⟩]
  | .raise message condition line column =>
      (message :: condition.toList).map (⟨·, line, column⟩)
  | .onQueue queueName _ _ _ line column => [⟨queueName, line, column⟩]
  | .onTopic pattern _ _ _ line column => [⟨pattern, line, column⟩]
  | .nack _ condition line column => condition.toList.map (⟨·, line, column⟩)
  | .scenario _ steps line column => (steps.flatMap stepExpressions).map (⟨·, line, column⟩)
  | .schema .. | .export _ | .transaction .. => []

/-- The statements in the body of a statement. -/
def bodyStatements : Statement → List Statement
  | .taskDef _ _ (.block statements _) _ _ => statements
  | .route _ _ _ _ _ body _ _ | .while _ body _ _ | .transaction body _ _
  | .onQueue _ _ _ body _ _ | .onTopic _ _ _ body _ _ => body
  | .export statement => [statement]
  | _ => []

mutual
/-- The expressions of a statement and of its body, in the order of their walks. -/
def statementExpressions : Statement → List Located
  | .while condition body line column => ⟨condition, line, column⟩ :: blockExpressions body
  | .taskDef _ _ (.block statements result) line column =>
      blockExpressions statements ++ [⟨result, line, column⟩]
  | .route _ _ _ allow _ body line column =>
      allow.map (⟨·, line, column⟩) ++ blockExpressions body
  | .transaction body _ _ => blockExpressions body
  | .export statement => statementExpressions statement
  | .onQueue queueName _ _ body line column => ⟨queueName, line, column⟩ :: blockExpressions body
  | .onTopic pattern _ _ body line column => ⟨pattern, line, column⟩ :: blockExpressions body
  | statement => localExpressions statement

def blockExpressions : List Statement → List Located
  | [] => []
  | statement :: rest => statementExpressions statement ++ blockExpressions rest
end

/-! ## Sizes -/

noncomputable def callSize : Call → Nat
  | .expression value => sizeOf value
  | .statement value => sizeOf value

/-- Parts that are smaller than what they are parts of. -/
def Smaller (parts : List Call) (size : Nat) : Prop :=
  ∀ part ∈ parts, callSize part < size

theorem Smaller.weaken {parts : List Call} {size larger : Nat} (smaller : Smaller parts size)
    (less : size ≤ larger) : Smaller parts larger :=
  fun part member => Nat.lt_of_lt_of_le (smaller part member) less

theorem smaller_flatMap {α : Type} [SizeOf α] {items : List α} {parts : α → List Call}
    (each : ∀ item, Smaller (parts item) (sizeOf item)) :
    Smaller (items.flatMap parts) (sizeOf items) := by
  intro part member
  obtain ⟨item, inside, member⟩ := List.mem_flatMap.mp member
  exact Nat.lt_trans (each item part member) (List.sizeOf_lt_of_mem inside)

theorem smaller_expressions (values : List Expression) :
    Smaller (values.map .expression) (sizeOf values) := by
  intro part member
  obtain ⟨value, inside, rfl⟩ := List.mem_map.mp member
  exact List.sizeOf_lt_of_mem inside

theorem smaller_statements (statements : List Statement) :
    Smaller (statements.map .statement) (sizeOf statements) := by
  intro part member
  obtain ⟨statement, inside, rfl⟩ := List.mem_map.mp member
  exact List.sizeOf_lt_of_mem inside

theorem smaller_pairs (pairs : List (String × Expression)) :
    Smaller (pairs.map fun pair => .expression pair.2) (sizeOf pairs) := by
  intro part member
  obtain ⟨pair, inside, rfl⟩ := List.mem_map.mp member
  have whole := List.sizeOf_lt_of_mem inside
  have size : sizeOf pair = 1 + sizeOf pair.1 + sizeOf pair.2 := by cases pair; rfl
  change sizeOf pair.2 < _
  omega

theorem smaller_arguments (arguments : List Argument) :
    Smaller (arguments.map Argument.part) (sizeOf arguments) := by
  intro part member
  obtain ⟨argument, inside, rfl⟩ := List.mem_map.mp member
  have whole := List.sizeOf_lt_of_mem inside
  cases argument with
  | positional value =>
      change sizeOf value < _
      simp only [Argument.positional.sizeOf_spec] at whole
      omega
  | named name value =>
      change sizeOf value < _
      simp only [Argument.named.sizeOf_spec] at whole
      omega

theorem smaller_optional (value : Option Expression) :
    Smaller (optionalPart value) (sizeOf value) := by
  intro part member
  cases value with
  | none => cases member
  | some value =>
      obtain rfl := List.mem_singleton.mp member
      simp [callSize]

theorem Smaller.nil (size : Nat) : Smaller [] size :=
  nofun

theorem Smaller.cons {first : Call} {parts : List Call} {size : Nat}
    (less : callSize first < size) (smaller : Smaller parts size) :
    Smaller (first :: parts) size :=
  List.forall_mem_cons.mpr ⟨less, smaller⟩

theorem Smaller.append {parts others : List Call} {size : Nat} (smaller : Smaller parts size)
    (second : Smaller others size) : Smaller (parts ++ others) size :=
  List.forall_mem_append.mpr ⟨smaller, second⟩

theorem smaller_arm (arm : MatchArm) : Smaller arm.parts (sizeOf arm) := by
  cases arm with
  | mk pattern value =>
      cases pattern with
      | literal pattern =>
          refine .cons ?_ (.cons ?_ (.nil _)) <;> simp [callSize]
          omega
      | fallback =>
          refine .cons ?_ (.nil _)
          simp [callSize]

theorem smaller_taskBody (body : TaskBody) : Smaller body.parts (sizeOf body) := by
  cases body with
  | inline value =>
      refine .cons ?_ (.nil _)
      simp [callSize]
  | block statements result =>
      apply Smaller.append
      · exact (smaller_statements statements).weaken (by simp; omega)
      · refine .cons ?_ (.nil _)
        rw [callSize, TaskBody.block.sizeOf_spec]
        omega

theorem smaller_handler (handler : RescueHandler) : Smaller handler.parts (sizeOf handler) := by
  cases handler with
  | inline value =>
      refine .cons ?_ (.nil _)
      simp [callSize]
  | block statements => exact (smaller_statements statements).weaken (by simp)

theorem smaller_mapStatement (statement : MapStatement) :
    Smaller statement.parts (sizeOf statement) := by
  cases statement with
  | statement value =>
      refine .cons ?_ (.nil _)
      simp [callSize]
  | keep value condition =>
      refine .cons ?_ ((smaller_optional condition).weaken (by simp))
      simp [callSize]
      omega
  | skip condition =>
      refine .cons ?_ (.nil _)
      simp [callSize]

theorem smaller_stage (stage : PipelineStage) : Smaller stage.parts (sizeOf stage) := by
  cases stage with
  | expression value =>
      refine .cons ?_ (.nil _)
      simp [callSize]
  | map element body => exact (smaller_flatMap smaller_mapStatement).weaken (by simp)
  | reduce initial accumulator item body =>
      refine .cons ?_ ((smaller_taskBody body).weaken (by simp))
      simp [callSize]
      omega
  | rescue handler => exact (smaller_handler handler).weaken (by simp)

/-- The parts of an expression are smaller than the expression. -/
theorem smaller_expression (value : Expression) : Smaller value.parts (sizeOf value) := by
  cases value with
  | integer | float | stringLiteral | boolean | null | identifier | taskCall => exact .nil _
  | list items => exact (smaller_expressions items).weaken (by simp)
  | mapLiteral pairs => exact (smaller_pairs pairs).weaken (by simp)
  | schemaConstructor name pairs => exact (smaller_pairs pairs).weaken (by simp)
  | binaryOp left operator right =>
      refine .cons ?_ (.cons ?_ (.nil _)) <;> simp [callSize]
      omega
  | unaryOp operator operand =>
      refine .cons ?_ (.nil _)
      rw [callSize, Expression.unaryOp.sizeOf_spec]
      omega
  | propertyAccess object property =>
      refine .cons ?_ (.nil _)
      simp [callSize]
      omega
  | methodCall object method arguments =>
      refine .cons ?_ ((smaller_arguments arguments).weaken (by simp))
      simp [callSize]
      omega
  | httpClientResponseSchema call name =>
      refine .cons ?_ (.nil _)
      simp [callSize]
      omega
  | functionCall name arguments => exact (smaller_arguments arguments).weaken (by simp)
  | matchOn subject arms =>
      refine .cons ?_ ((smaller_flatMap smaller_arm).weaken (by simp))
      simp [callSize]
      omega
  | ifElse condition thenBranch elseBranch =>
      apply Smaller.append
      · refine .cons ?_ ((smaller_taskBody thenBranch).weaken (by simp; omega))
        simp [callSize]
        omega
      · cases elseBranch with
        | none => exact .nil _
        | some body =>
            rw [Option.toList_some, List.flatMap_singleton]
            exact (smaller_taskBody body).weaken (by simp; omega)
  | subscript object key =>
      refine .cons ?_ (.cons ?_ (.nil _)) <;> simp [callSize]
      omega
  | pipeline input stages =>
      refine .cons ?_ ((smaller_flatMap smaller_stage).weaken (by simp))
      simp [callSize]
      omega
  | broadcast input targets =>
      refine .cons ?_ ((smaller_expressions targets).weaken (by simp))
      simp [callSize]
      omega
  | rescue expr handler =>
      refine .cons ?_ (.cons ?_ (.nil _)) <;> simp [callSize]
      omega
  | queuePush queueName schema payload =>
      refine .cons ?_ ((smaller_optional payload).weaken (by simp))
      simp [callSize]
      omega
  | topicPublish topic schema payload =>
      refine .cons ?_ ((smaller_optional payload).weaken (by simp))
      simp [callSize]
      omega

/-- Located expressions that are smaller than what they are found in. -/
def SmallerLocated (found : List Located) (size : Nat) : Prop :=
  ∀ located ∈ found, sizeOf located.expression < size

theorem SmallerLocated.nil (size : Nat) : SmallerLocated [] size :=
  nofun

theorem SmallerLocated.cons {first : Located} {found : List Located} {size : Nat}
    (less : sizeOf first.expression < size) (smaller : SmallerLocated found size) :
    SmallerLocated (first :: found) size :=
  List.forall_mem_cons.mpr ⟨less, smaller⟩

theorem SmallerLocated.append {found others : List Located} {size : Nat}
    (smaller : SmallerLocated found size) (second : SmallerLocated others size) :
    SmallerLocated (found ++ others) size :=
  List.forall_mem_append.mpr ⟨smaller, second⟩

theorem SmallerLocated.weaken {found : List Located} {size larger : Nat}
    (smaller : SmallerLocated found size) (less : size ≤ larger) : SmallerLocated found larger :=
  fun located member => Nat.lt_of_lt_of_le (smaller located member) less

theorem smallerLocated_map (values : List Expression) (line column : Nat) :
    SmallerLocated (values.map (⟨·, line, column⟩)) (sizeOf values) := by
  intro located member
  obtain ⟨value, inside, rfl⟩ := List.mem_map.mp member
  exact List.sizeOf_lt_of_mem inside

theorem smallerLocated_optional (value : Option Expression) (line column : Nat) :
    SmallerLocated (value.toList.map (⟨·, line, column⟩)) (sizeOf value) := by
  cases value with
  | none => exact .nil _
  | some value =>
      refine .cons ?_ (.nil _)
      simp

theorem smallerLocated_fields (fields : List AuthProviderField) :
    SmallerLocated (fields.map fieldExpression) (sizeOf fields) := by
  intro located member
  obtain ⟨field, inside, rfl⟩ := List.mem_map.mp member
  have whole := List.sizeOf_lt_of_mem inside
  cases field with
  | mk name value line column =>
      simp only [AuthProviderField.mk.sizeOf_spec] at whole
      change sizeOf value < _
      omega

theorem smallerLocated_steps (steps : List ScenarioStep) (line column : Nat) :
    SmallerLocated ((steps.flatMap stepExpressions).map (⟨·, line, column⟩))
      (sizeOf steps) := by
  intro located member
  obtain ⟨value, inside, rfl⟩ := List.mem_map.mp member
  obtain ⟨step, found, inside⟩ := List.mem_flatMap.mp inside
  have whole := List.sizeOf_lt_of_mem found
  have part : sizeOf value < sizeOf step := by
    cases step with
    | given target returns line column =>
        rcases List.mem_pair.mp inside with rfl | rfl <;> simp <;> omega
    | when verb path body headers line column =>
        rcases List.mem_append.mp inside with inside | inside
        · obtain rfl := Option.mem_toList.mp inside
          simp
          omega
        · obtain rfl := Option.mem_toList.mp inside
          simp
          omega
    | thenStatus status line column =>
        obtain rfl := List.mem_singleton.mp inside
        simp
        omega
    | thenResponse expected line column =>
        obtain rfl := List.mem_singleton.mp inside
        simp
        omega
  exact Nat.lt_trans part whole

theorem smallerLocated_local (statement : Statement) :
    SmallerLocated (localExpressions statement) (sizeOf statement) := by
  cases statement with
  | schema | «export» | transaction => exact .nil _
  | assignment target value line column | fail target value line column =>
      refine .cons ?_ (.nil _)
      simp
      omega
  | expressionStatement expression line column | «while» expression body line column
  | require expression code text line column | reject expression code text line column =>
      refine .cons ?_ (.nil _)
      simp
      omega
  | onQueue pattern binding schema body line column
  | onTopic pattern binding schema body line column =>
      refine .cons ?_ (.nil _)
      simp
      omega
  | conditionalAssignment target value condition line column =>
      refine .cons ?_ (.cons ?_ (.nil _)) <;> simp <;> omega
  | taskDef name params body line column =>
      refine .cons ?_ (.nil _)
      cases body with
      | inline value => simp [bodyResult]; omega
      | block statements result => simp [bodyResult]; omega
  | route verb path auth allow take body line column =>
      exact (smallerLocated_map allow line column).weaken (by simp; omega)
  | authProvider provider line column =>
      cases provider with
      | jwt name fields => exact (smallerLocated_fields fields).weaken (by simp; omega)
      | apiKey name fields => exact (smallerLocated_fields fields).weaken (by simp; omega)
  | reply status contentType body schema headers line column =>
      refine .cons ?_ (.cons ?_ ((smallerLocated_optional headers line column).weaken ?_)) <;>
        simp <;> omega
  | raise message condition line column =>
      refine .cons ?_ ((smallerLocated_optional condition line column).weaken ?_) <;>
        simp <;> omega
  | nack requeue condition line column =>
      exact (smallerLocated_optional condition line column).weaken (by simp; omega)
  | scenario name steps line column =>
      exact (smallerLocated_steps steps line column).weaken (by simp; omega)

mutual
theorem smallerLocated_statement : ∀ statement : Statement,
    SmallerLocated (statementExpressions statement) (sizeOf statement)
  | .while _ body _ _ | .onQueue _ _ _ body _ _ | .onTopic _ _ _ body _ _ => by
      refine .cons ?_ ((smallerLocated_block body).weaken ?_) <;> simp <;> omega
  | .taskDef name params (.inline value) line column => smallerLocated_local _
  | .taskDef name params (.block statements result) line column => by
      refine ((smallerLocated_block statements).weaken ?_).append (.cons ?_ (.nil _)) <;>
        simp <;> omega
  | .route verb path auth allow take body line column => by
      refine ((smallerLocated_map allow line column).weaken ?_).append
        ((smallerLocated_block body).weaken ?_) <;> simp <;> omega
  | .transaction body line column => (smallerLocated_block body).weaken (by simp; omega)
  | .export statement => (smallerLocated_statement statement).weaken (by simp)
  | .assignment .. | .conditionalAssignment .. | .require .. | .reject ..
  | .expressionStatement .. | .schema .. | .authProvider .. | .reply .. | .fail .. | .raise ..
  | .nack .. | .scenario .. => smallerLocated_local _

theorem smallerLocated_block : ∀ statements : List Statement,
    SmallerLocated (blockExpressions statements) (sizeOf statements)
  | [] => .nil _
  | statement :: rest => by
      refine ((smallerLocated_statement statement).weaken ?_).append
        ((smallerLocated_block rest).weaken ?_) <;> simp
      omega
end

/-! ## Walks -/

mutual
/-- What the visitor of a rule is handed by a walk.  The visitor of the walk is the rule's own
at level zero, and at each level above it is the walk of the level below. -/
def walkExpression (level : Nat) (value : Expression) : List Expression :=
  match level with
  | 0 => value :: walkChildren 0 value
  | level + 1 => walkExpression level value ++ walkChildren (level + 1) value
termination_by (sizeOf value, level, 1)

/-- The parts go to the walk, and the expressions of statements in blocks to a walk whose visitor
is this walk. -/
def walkChildren (level : Nat) (value : Expression) : List Expression :=
  value.parts.attach.flatMap fun part =>
    match known : part.val with
    | .expression child => walkExpression level child
    | .statement statement =>
        (statementExpressions statement).attach.flatMap fun located =>
          walkExpression (level + 1) located.val.expression
termination_by (sizeOf value, level, 0)
decreasing_by
  · have smaller := smaller_expression value part.val part.property
    rw [known, callSize] at smaller
    exact Prod.Lex.left _ _ smaller
  · have smaller := smaller_expression value part.val part.property
    have inner := smallerLocated_statement statement located.val located.property
    rw [known, callSize] at smaller
    exact Prod.Lex.left _ _ (Nat.lt_trans inner smaller)
end

mutual
/-- An expression and all that is written inside of it. -/
def subexpressions (value : Expression) : List Expression :=
  value :: below value
termination_by (sizeOf value, 1)

def below (value : Expression) : List Expression :=
  value.parts.attach.flatMap fun part =>
    match _known : part.val with
    | .expression child => subexpressions child
    | .statement statement =>
        (statementExpressions statement).attach.flatMap fun located =>
          subexpressions located.val.expression
termination_by (sizeOf value, 0)
decreasing_by
  · have smaller := smaller_expression value part.val part.property
    rw [_known, callSize] at smaller
    exact Prod.Lex.left _ _ smaller
  · have smaller := smaller_expression value part.val part.property
    have inner := smallerLocated_statement statement located.val located.property
    rw [_known, callSize] at smaller
    exact Prod.Lex.left _ _ (Nat.lt_trans inner smaller)
end

/-! ## Parts -/

section Parts

variable {α β : Type}

/-- What is found in a part, where blocks are searched in their own way. -/
def inPart (child top : Expression → List β) : Call → List β
  | .expression value => child value
  | .statement statement =>
      (statementExpressions statement).flatMap fun located => top located.expression

theorem flatMap_attach (items : List α) {attached : {item // item ∈ items} → List β}
    {plain : α → List β} (same : ∀ item : {item // item ∈ items}, attached item = plain item.val) :
    items.attach.flatMap attached = items.flatMap plain := by
  conv => rhs; rw [← List.attach_map_subtype_val items, List.flatMap_map]
  exact List.flatMap_congr fun item _ => same item

theorem walkChildren_eq (level : Nat) (value : Expression) :
    walkChildren level value =
      value.parts.flatMap (inPart (walkExpression level) (walkExpression (level + 1))) := by
  rw [walkChildren]
  apply flatMap_attach
  intro part
  obtain ⟨part, member⟩ := part
  cases part with
  | expression child => rfl
  | statement statement => exact flatMap_attach _ fun _ => rfl

theorem below_eq (value : Expression) :
    below value = value.parts.flatMap (inPart subexpressions subexpressions) := by
  rw [below]
  apply flatMap_attach
  intro part
  obtain ⟨part, member⟩ := part
  cases part with
  | expression child => rfl
  | statement statement => exact flatMap_attach _ fun _ => rfl

theorem mem_inPart_iff {child top : Expression → List β} {parts : List Call} {item : β} :
    item ∈ parts.flatMap (inPart child top) ↔
      (∃ value, .expression value ∈ parts ∧ item ∈ child value) ∨
        ∃ statement, .statement statement ∈ parts ∧
          ∃ located ∈ statementExpressions statement, item ∈ top located.expression := by
  rw [List.mem_flatMap]
  constructor
  · rintro ⟨part, member, inside⟩
    cases part with
    | expression value => exact .inl ⟨value, member, inside⟩
    | statement statement => exact .inr ⟨statement, member, List.mem_flatMap.mp inside⟩
  · rintro (⟨value, member, inside⟩ | ⟨statement, member, inside⟩)
    · exact ⟨_, member, inside⟩
    · exact ⟨_, member, List.mem_flatMap.mpr inside⟩

/-- Induction on an expression, over its parts and the expressions in its blocks. -/
theorem expression_induction {motive : Expression → Prop}
    (step : ∀ value,
      (∀ child, .expression child ∈ value.parts → motive child) →
      (∀ statement, .statement statement ∈ value.parts →
        ∀ located ∈ statementExpressions statement, motive located.expression) →
      motive value) (value : Expression) : motive value := by
  apply step value
  · intro child member
    exact expression_induction step child
  · intro statement member located inside
    exact expression_induction step located.expression
termination_by sizeOf value
decreasing_by
  · exact smaller_expression value _ member
  · exact Nat.lt_trans (smallerLocated_statement statement located inside)
      (smaller_expression value _ member)

end Parts

/-! ## Exactly once -/

theorem subexpressions_eq (value : Expression) : subexpressions value = value :: below value := by
  rw [subexpressions]

theorem walkExpression_zero (value : Expression) :
    walkExpression 0 value = value :: walkChildren 0 value := by
  rw [walkExpression]

theorem walkExpression_succ (level : Nat) (value : Expression) :
    walkExpression (level + 1) value =
      walkExpression level value ++ walkChildren (level + 1) value := by
  rw [walkExpression]

/-- Every walk visits each expression, in the order in which they are written. -/
theorem sublist_walkExpression (value : Expression) :
    ∀ level, List.Sublist (subexpressions value) (walkExpression level value) := by
  induction value using expression_induction with
  | step value children blocks =>
      intro level
      induction level with
      | zero =>
          rw [subexpressions_eq, walkExpression_zero, below_eq, walkChildren_eq]
          apply List.Sublist.cons_cons
          apply List.Sublist.flatMap_right
          intro part member
          cases part with
          | expression child => exact children child member 0
          | statement statement =>
              apply List.Sublist.flatMap_right
              intro located inside
              exact blocks statement member located inside 1
      | succ level induction =>
          rw [walkExpression_succ]
          exact induction.trans (List.sublist_append_left _ _)

theorem sublist_inPart (level : Nat) (part : Call) :
    List.Sublist (inPart subexpressions subexpressions part)
      (inPart (walkExpression level) (walkExpression (level + 1)) part) := by
  cases part with
  | expression child => exact sublist_walkExpression child level
  | statement statement =>
      apply List.Sublist.flatMap_right
      intro located _
      exact sublist_walkExpression located.expression (level + 1)

theorem sublist_walkChildren (level : Nat) (value : Expression) :
    List.Sublist (below value) (walkChildren level value) := by
  rw [below_eq, walkChildren_eq]
  exact List.Sublist.flatMap_right _ fun part _ => sublist_inPart level part

/-- A walk visits nothing else. -/
theorem walkExpression_subset (value : Expression) :
    ∀ level, walkExpression level value ⊆ subexpressions value := by
  induction value using expression_induction with
  | step value children blocks =>
      have inner : ∀ level, walkChildren level value ⊆ below value := by
        intro level visited
        rw [walkChildren_eq, below_eq, mem_inPart_iff, mem_inPart_iff]
        rintro (⟨child, member, inside⟩ | ⟨statement, member, located, top, inside⟩)
        · exact .inl ⟨child, member, children child member level inside⟩
        · exact .inr ⟨statement, member, located, top,
            blocks statement member located top (level + 1) inside⟩
      intro level
      rw [subexpressions_eq]
      induction level with
      | zero =>
          rw [walkExpression_zero]
          exact List.cons_subset_cons _ (inner 0)
      | succ level induction =>
          rw [walkExpression_succ]
          exact List.append_subset.mpr ⟨induction, List.subset_cons_of_subset _ (inner _)⟩

theorem mem_walkChildren_iff {level : Nat} {value part : Expression} :
    part ∈ walkChildren level value ↔ part ∈ below value := by
  constructor
  · rw [walkChildren_eq, below_eq, mem_inPart_iff, mem_inPart_iff]
    rintro (⟨child, member, inside⟩ | ⟨statement, member, located, top, inside⟩)
    · exact .inl ⟨child, member, walkExpression_subset child level inside⟩
    · exact .inr ⟨statement, member, located, top,
        walkExpression_subset located.expression (level + 1) inside⟩
  · exact fun inside => (sublist_walkChildren level value).subset inside

/-- What a rule reports on is nowhere inside of an expression of a statement in a block, where
the block itself is inside of the expression. -/
def Flat {β : Type} (report : Expression → Option β) (value : Expression) : Prop :=
  ∀ inner ∈ subexpressions value, ∀ statement, .statement statement ∈ inner.parts →
    ∀ located ∈ statementExpressions statement, ∀ part ∈ below located.expression,
      report part = none

theorem flat_iff {β : Type} (report : Expression → Option β) (value : Expression) :
    Flat report value ↔
      (∀ child, .expression child ∈ value.parts → Flat report child) ∧
        ∀ statement, .statement statement ∈ value.parts →
          ∀ located ∈ statementExpressions statement,
            Flat report located.expression ∧
              ∀ part ∈ below located.expression, report part = none := by
  constructor
  · intro flat
    have deeper : ∀ inner ∈ below value, ∀ statement, .statement statement ∈ inner.parts →
        ∀ located ∈ statementExpressions statement, ∀ part ∈ below located.expression,
          report part = none := by
      intro inner member
      exact flat inner (by rw [subexpressions_eq]; exact List.mem_cons_of_mem _ member)
    rw [below_eq] at deeper
    constructor
    · intro child member inner inside
      exact deeper inner ((mem_inPart_iff).mpr (.inl ⟨child, member, inside⟩))
    · intro statement member located top
      constructor
      · intro inner inside
        exact deeper inner ((mem_inPart_iff).mpr (.inr ⟨statement, member, located, top, inside⟩))
      · exact flat value (by rw [subexpressions_eq]; exact List.mem_cons_self) statement member
          located top
  · intro ⟨children, blocks⟩ inner inside
    rw [subexpressions_eq, List.mem_cons, below_eq, mem_inPart_iff] at inside
    rcases inside with rfl | ⟨child, member, inside⟩ | ⟨statement, member, located, top, inside⟩
    · exact fun statement member located top => (blocks statement member located top).2
    · exact children child member inner inside
    · exact (blocks statement member located top).1 inner inside

section Reports

variable {β : Type} (report : Expression → Option β)

/-- A walk of the next level repeats nothing exactly when there is nothing below to repeat. -/
theorem filterMap_walkExpression_one (value : Expression) :
    (walkExpression 1 value).filterMap report = (subexpressions value).filterMap report ↔
      (walkExpression 0 value).filterMap report = (subexpressions value).filterMap report ∧
        ∀ part ∈ below value, report part = none := by
  rw [walkExpression_succ, List.filterMap_append,
    Repetition.append_eq_iff ((sublist_walkExpression value 0).filterMap report),
    List.filterMap_eq_nil_iff]
  simp only [mem_walkChildren_iff]

theorem filterMap_inPart_iff (part : Call) :
    (inPart (walkExpression 0) (walkExpression 1) part).filterMap report =
        (inPart subexpressions subexpressions part).filterMap report ↔
      match part with
      | .expression child =>
          (walkExpression 0 child).filterMap report = (subexpressions child).filterMap report
      | .statement statement =>
          ∀ located ∈ statementExpressions statement,
            (walkExpression 0 located.expression).filterMap report =
                (subexpressions located.expression).filterMap report ∧
              ∀ part ∈ below located.expression, report part = none := by
  cases part with
  | expression child => rfl
  | statement statement =>
      simp only [inPart, List.filterMap_flatMap]
      rw [Repetition.flatMap_eq_flatMap_iff]
      · simp only [filterMap_walkExpression_one]
      · intro located _
        exact (sublist_walkExpression located.expression 1).filterMap report

theorem filterMap_walkChildren_iff (value : Expression) :
    (walkChildren 0 value).filterMap report = (below value).filterMap report ↔
      ∀ part ∈ value.parts,
        (inPart (walkExpression 0) (walkExpression 1) part).filterMap report =
          (inPart subexpressions subexpressions part).filterMap report := by
  rw [walkChildren_eq, below_eq, List.filterMap_flatMap, List.filterMap_flatMap]
  exact Repetition.flatMap_eq_flatMap_iff fun part _ => (sublist_inPart 0 part).filterMap report

/-- The reports of a walk are those on the expressions that are written, none of them twice, where
no block inside of the expression has something to report on deep inside of it. -/
theorem filterMap_walkExpression_iff (value : Expression) :
    (walkExpression 0 value).filterMap report = (subexpressions value).filterMap report ↔
      Flat report value := by
  induction value using expression_induction with
  | step value children blocks =>
      have parts : (walkChildren 0 value).filterMap report = (below value).filterMap report ↔
          Flat report value := by
        rw [filterMap_walkChildren_iff, flat_iff]
        constructor
        · intro each
          constructor
          · intro child member
            exact (children child member).mp ((filterMap_inPart_iff report _).mp (each _ member))
          · intro statement member located top
            have once := (filterMap_inPart_iff report _).mp (each _ member) located top
            exact ⟨(blocks statement member located top).mp once.1, once.2⟩
        · intro ⟨flat, inner⟩ part member
          apply (filterMap_inPart_iff report part).mpr
          cases part with
          | expression child => exact (children child member).mpr (flat child member)
          | statement statement =>
              intro located top
              have once := inner statement member located top
              exact ⟨(blocks statement member located top).mpr once.1, once.2⟩
      rw [walkExpression_zero, subexpressions_eq, ← parts, List.filterMap_cons,
        List.filterMap_cons]
      cases report value with
      | none => rfl
      | some found => exact List.cons_inj_right found

end Reports

/-- What a visitor gets for a statement. -/
def walkStatementExpressions (statement : Statement) : List Expression :=
  (statementExpressions statement).flatMap fun located => walkExpression 0 located.expression

/-- All expressions of a statement, each as often as it is written. -/
def statementSubexpressions (statement : Statement) : List Expression :=
  (statementExpressions statement).flatMap fun located => subexpressions located.expression

theorem walkStatementExpressions_perm_iff (statement : Statement) :
    (walkStatementExpressions statement).Perm (statementSubexpressions statement) ↔
      ∀ located ∈ statementExpressions statement, Flat some located.expression := by
  have covered : List.Sublist (statementSubexpressions statement)
      (walkStatementExpressions statement) :=
    List.Sublist.flatMap_right _ fun located _ => sublist_walkExpression located.expression 0
  rw [Repetition.perm_iff_eq covered, walkStatementExpressions, statementSubexpressions,
    Repetition.flatMap_eq_flatMap_iff fun located _ =>
      sublist_walkExpression located.expression 0]
  simp only [← filterMap_walkExpression_iff, List.filterMap_some]

end Lint

end Marreta
