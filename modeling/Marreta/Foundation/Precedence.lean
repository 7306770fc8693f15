import Mathlib

namespace Foundation

/-! Operator trees ordered by precedence.

A sequence of operands with binary operators between them has many trees.  With
left-associative operators of fixed precedence exactly one is ordered: below every
operator, the left operand binds at least as tightly as it and the right operand
more tightly. -/

inductive OperatorTree (α ω : Type) where
  | leaf (operand : α)
  | node (left : OperatorTree α ω) (operator : ω) (right : OperatorTree α ω)

namespace OperatorTree

variable {α ω : Type}

def root? : OperatorTree α ω → Option ω
  | .leaf _ => none
  | .node _ operator _ => some operator

/-- The operands and operators in order. -/
def inOrder : OperatorTree α ω → α × List (ω × α)
  | .leaf operand => (operand, [])
  | .node left operator right =>
      (left.inOrder.1, left.inOrder.2 ++ (operator, right.inOrder.1) :: right.inOrder.2)

variable (precedence : ω → Nat)

def Ordered : OperatorTree α ω → Prop
  | .leaf _ => True
  | .node left operator right =>
      left.Ordered ∧ right.Ordered ∧
        (∀ inner ∈ left.root?, precedence operator ≤ precedence inner) ∧
        ∀ inner ∈ right.root?, precedence operator < precedence inner

variable {precedence}

theorem Ordered.root_le {tree : OperatorTree α ω} (ordered : tree.Ordered precedence) :
    ∀ root ∈ tree.root?, ∀ pair ∈ tree.inOrder.2, precedence root ≤ precedence pair.1 := by
  induction tree with
  | leaf operand => simp [root?]
  | node left operator right leftIh rightIh =>
      obtain ⟨leftOrdered, rightOrdered, leftRoot, rightRoot⟩ := ordered
      intro root same pair member
      obtain rfl : operator = root := Option.some.inj same
      rcases List.mem_append.mp member with member | member
      · cases left with
        | leaf operand => cases member
        | node first inner second =>
            exact Nat.le_trans (leftRoot inner rfl) (leftIh leftOrdered inner rfl pair member)
      · rcases List.mem_cons.mp member with rfl | member
        · exact Nat.le_refl _
        · cases right with
          | leaf operand => cases member
          | node first inner second =>
              exact Nat.le_trans (Nat.le_of_lt (rightRoot inner rfl))
                (rightIh rightOrdered inner rfl pair member)

/-- The operators to the right of the root bind more tightly. -/
theorem Ordered.root_lt {left right : OperatorTree α ω} {operator : ω}
    (ordered : (node left operator right).Ordered precedence) :
    ∀ pair ∈ right.inOrder.2, precedence operator < precedence pair.1 := by
  obtain ⟨-, rightOrdered, -, rightRoot⟩ := ordered
  intro pair member
  cases right with
  | leaf operand => cases member
  | node first inner second =>
      exact Nat.lt_of_lt_of_le (rightRoot inner rfl)
        (rightOrdered.root_le inner rfl pair member)

theorem Ordered.left_le {left right : OperatorTree α ω} {operator : ω}
    (ordered : (node left operator right).Ordered precedence) :
    ∀ pair ∈ left.inOrder.2, precedence operator ≤ precedence pair.1 :=
  fun pair member => ordered.root_le operator rfl pair (List.mem_append_left _ member)

/-- Two cuts of a list, each before the last of its least elements, are the same. -/
theorem cut_unique {one two : List (ω × α)} {oneRest twoRest : List (ω × α)}
    {first second : ω × α} (same : one ++ first :: oneRest = two ++ second :: twoRest)
    (oneBefore : ∀ pair ∈ one, precedence first.1 ≤ precedence pair.1)
    (twoBefore : ∀ pair ∈ two, precedence second.1 ≤ precedence pair.1)
    (oneAfter : ∀ pair ∈ oneRest, precedence first.1 < precedence pair.1)
    (twoAfter : ∀ pair ∈ twoRest, precedence second.1 < precedence pair.1) :
    one = two ∧ first = second ∧ oneRest = twoRest := by
  rcases List.append_eq_append_iff.mp same with ⟨middle, longer, rest⟩ | ⟨middle, longer, rest⟩
  · cases middle with
    | nil =>
        obtain ⟨rfl, rfl⟩ := List.cons.inj rest
        exact ⟨by simpa using longer.symm, rfl, rfl⟩
    | cons pair middle =>
        obtain ⟨rfl, rfl⟩ := List.cons.inj rest
        have before := twoBefore first (by simp [longer])
        have after := oneAfter second (by simp)
        omega
  · cases middle with
    | nil =>
        obtain ⟨rfl, rfl⟩ := List.cons.inj rest
        exact ⟨by simpa using longer, rfl, rfl⟩
    | cons pair middle =>
        obtain ⟨rfl, rfl⟩ := List.cons.inj rest
        have before := oneBefore second (by simp [longer])
        have after := twoAfter first (by simp)
        omega

theorem Ordered.unique {one two : OperatorTree α ω} (oneOrdered : one.Ordered precedence)
    (twoOrdered : two.Ordered precedence) (same : one.inOrder = two.inOrder) : one = two := by
  induction one generalizing two with
  | leaf operand =>
      cases two with
      | leaf other =>
          obtain rfl : operand = other := congrArg Prod.fst same
          rfl
      | node left operator right => simpa [inOrder] using congrArg Prod.snd same
  | node left operator right leftIh rightIh =>
      cases two with
      | leaf other => simpa [inOrder] using congrArg Prod.snd same
      | node otherLeft otherOperator otherRight =>
          obtain ⟨first, rest⟩ := Prod.mk.inj same
          obtain ⟨before, middle, after⟩ := cut_unique rest oneOrdered.left_le
            twoOrdered.left_le oneOrdered.root_lt twoOrdered.root_lt
          obtain ⟨rfl, second⟩ := Prod.mk.inj middle
          obtain rfl := leftIh oneOrdered.1 twoOrdered.1 (Prod.ext first before)
          obtain rfl := rightIh oneOrdered.2.1 twoOrdered.2.1 (Prod.ext second after)
          rfl

/-! ## Every sequence has an ordered tree -/

variable (precedence)

/-- Add an operator and an operand on the right. -/
def extend (tree : OperatorTree α ω) (operator : ω) (operand : α) : OperatorTree α ω :=
  match tree with
  | .leaf first => .node (.leaf first) operator (.leaf operand)
  | .node left root right =>
      if precedence operator ≤ precedence root then
        .node (.node left root right) operator (.leaf operand)
      else .node left root (right.extend operator operand)

variable {precedence}

theorem extend_node (left right : OperatorTree α ω) (root operator : ω) (operand : α) :
    (node left root right).extend precedence operator operand =
      if precedence operator ≤ precedence root then
        .node (.node left root right) operator (.leaf operand)
      else .node left root (right.extend precedence operator operand) := by
  rw [extend]

theorem inOrder_extend (tree : OperatorTree α ω) (operator : ω) (operand : α) :
    (tree.extend precedence operator operand).inOrder =
      (tree.inOrder.1, tree.inOrder.2 ++ [(operator, operand)]) := by
  induction tree with
  | leaf first => rfl
  | node left root right _ ih =>
      rw [extend_node]
      split
      · rfl
      · simp [inOrder, ih]

theorem root?_extend (tree : OperatorTree α ω) (operator : ω) (operand : α) :
    (tree.extend precedence operator operand).root? = some operator ∨
      (tree.extend precedence operator operand).root? = tree.root? := by
  cases tree with
  | leaf first => exact .inl rfl
  | node left root right =>
      rw [extend_node]
      split
      · exact .inl rfl
      · exact .inr rfl

theorem Ordered.extend {tree : OperatorTree α ω} (ordered : tree.Ordered precedence)
    (operator : ω) (operand : α) : (tree.extend precedence operator operand).Ordered precedence := by
  induction tree with
  | leaf first => exact ⟨trivial, trivial, by simp [root?], by simp [root?]⟩
  | node left root right _ ih =>
      obtain ⟨leftOrdered, rightOrdered, leftRoot, rightRoot⟩ := ordered
      rw [extend_node]
      split
      · rename_i looser
        refine ⟨⟨leftOrdered, rightOrdered, leftRoot, rightRoot⟩, trivial, ?_, by simp [root?]⟩
        intro inner same
        rw [← Option.some.inj same]
        exact looser
      · rename_i tighter
        refine ⟨leftOrdered, ih rightOrdered, leftRoot, fun inner same => ?_⟩
        rcases root?_extend right operator operand with root | root
        · rw [root] at same
          rw [← Option.some.inj same]
          omega
        · rw [root] at same
          exact rightRoot inner same

theorem exists_ordered (first : α) (rest : List (ω × α)) :
    ∃ tree : OperatorTree α ω, tree.Ordered precedence ∧ tree.inOrder = (first, rest) := by
  generalize turned : rest.reverse = backward
  induction backward generalizing rest with
  | nil =>
      obtain rfl := List.reverse_eq_nil_iff.mp turned
      exact ⟨.leaf first, trivial, rfl⟩
  | cons pair backward ih =>
      obtain ⟨tree, ordered, same⟩ := ih backward.reverse (List.reverse_reverse backward)
      refine ⟨tree.extend precedence pair.1 pair.2, ordered.extend pair.1 pair.2, ?_⟩
      rw [inOrder_extend, same, ← List.reverse_reverse rest, turned, List.reverse_cons]

end OperatorTree
end Foundation
