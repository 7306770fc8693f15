import Mathlib

namespace Foundation

/-! Names told apart by numbers.

The first use of a name keeps it.  A later use gets a label made of the name and the
number of uses so far. -/

/-- Two labels are equal only when they are made of the same. -/
def Labels {α : Type} (label : α → Nat → α) : Prop :=
  ∀ name other number rank, label name number = label other rank → name = other ∧ number = rank

/-- A name with the number of a use of it. -/
def numbered {α : Type} (label : α → Nat → α) (name : α) (number : Nat) : α :=
  if number = 1 then name else label name number

section Numbered

variable {α : Type} {label : α → Nat → α} {name other : α} {number rank : Nat}

@[simp] theorem numbered_one : numbered label name 1 = name := if_pos rfl

theorem numbered_of_ne (later : number ≠ 1) : numbered label name number = label name number :=
  if_neg later

/-- Numbered names are equal for one of two reasons: they are the same, or one of the names is
the label of the other. -/
theorem eq_of_numbered_eq (labels : Labels label)
    (same : numbered label name number = numbered label other rank) :
    (name = other ∧ number = rank) ∨
      (number = 1 ∧ rank ≠ 1 ∧ name = label other rank) ∨
      (rank = 1 ∧ number ≠ 1 ∧ other = label name number) := by
  by_cases first : number = 1
  · by_cases second : rank = 1
    · subst first second
      rw [numbered_one, numbered_one] at same
      exact .inl ⟨same, rfl⟩
    · subst first
      rw [numbered_one, numbered_of_ne second] at same
      exact .inr (.inl ⟨rfl, second, same⟩)
  · by_cases second : rank = 1
    · subst second
      rw [numbered_one, numbered_of_ne first] at same
      exact .inr (.inr ⟨rfl, first, same.symm⟩)
    · rw [numbered_of_ne first, numbered_of_ne second] at same
      exact .inl (labels _ _ _ _ same)

end Numbered

section Uses

variable {β α : Type} [DecidableEq α] (nameOf : β → α)

/-- The number of the use of a name by an item, the items before it being known. -/
def useOf (before : List β) (item : β) : Nat :=
  (before.map nameOf).count (nameOf item) + 1

variable {nameOf}

theorem useOf_eq_one_iff {before : List β} {item : β} :
    useOf nameOf before item = 1 ↔ nameOf item ∉ before.map nameOf := by
  rw [useOf, Nat.add_eq_right, List.count_eq_zero]

/-- A later use has a greater number. -/
theorem useOf_lt {before between : List β} {item later : β} (same : nameOf item = nameOf later) :
    useOf nameOf before item < useOf nameOf (before ++ item :: between) later := by
  rw [useOf, useOf, List.map_append, List.map_cons, List.count_append, same, List.count_cons_self]
  omega

/-- Two places of a list are the same, or one comes before the other. -/
theorem eq_or_before {before after before' after' : List β} {item item' : β}
    (same : before ++ item :: after = before' ++ item' :: after') :
    (before = before' ∧ item = item' ∧ after = after') ∨
      (∃ between, before' = before ++ item :: between ∧ after = between ++ item' :: after') ∨
      ∃ between, before = before' ++ item' :: between ∧ after' = between ++ item :: after := by
  rcases List.append_eq_append_iff.mp same with ⟨between, eq, rest⟩ | ⟨between, eq, rest⟩
  · cases between with
    | nil =>
        obtain ⟨rfl, rfl⟩ := List.cons.inj rest
        exact .inl ⟨(by simpa using eq.symm), rfl, rfl⟩
    | cons first between =>
        obtain ⟨rfl, rfl⟩ := List.cons.inj rest
        exact .inr (.inl ⟨between, eq, rfl⟩)
  · cases between with
    | nil =>
        obtain ⟨rfl, rfl⟩ := List.cons.inj rest
        exact .inl ⟨(by simpa using eq), rfl, rfl⟩
    | cons first between =>
        obtain ⟨rfl, rfl⟩ := List.cons.inj rest
        exact .inr (.inr ⟨between, eq, rfl⟩)

/-- No two places of a list use one name with one number. -/
theorem place_of_use {before after before' after' : List β} {item item' : β}
    (same : before ++ item :: after = before' ++ item' :: after')
    (sameName : nameOf item = nameOf item')
    (sameUse : useOf nameOf before item = useOf nameOf before' item') :
    before = before' ∧ item = item' ∧ after = after' := by
  rcases eq_or_before same with here | ⟨between, rfl, -⟩ | ⟨between, rfl, -⟩
  · exact here
  · have later : useOf nameOf before item < useOf nameOf (before ++ item :: between) item' :=
      useOf_lt sameName
    omega
  · have later : useOf nameOf before' item' < useOf nameOf (before' ++ item' :: between) item :=
      useOf_lt sameName.symm
    omega

end Uses

end Foundation
