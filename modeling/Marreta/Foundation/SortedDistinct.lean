import Mathlib

namespace Foundation

/-! Lists sorted, with repeated values dropped. -/

variable {α : Type} [DecidableEq α] (le : α → α → Prop) [DecidableRel le]

def sortedDistinct (values : List α) : List α :=
  (values.insertionSort le).destutter (· ≠ ·)

theorem mem_destutter'_ne {value first : α} {rest : List α} :
    value ∈ rest.destutter' (· ≠ ·) first ↔ value = first ∨ value ∈ rest := by
  induction rest generalizing first with
  | nil => simp
  | cons second rest induction =>
      by_cases same : first = second
      · subst same
        rw [List.destutter'_cons_neg _ (not_not_intro rfl), induction, List.mem_cons]
        tauto
      · rw [List.destutter'_cons_pos _ same, List.mem_cons, induction, List.mem_cons]

theorem mem_destutter_ne {value : α} {values : List α} :
    value ∈ values.destutter (· ≠ ·) ↔ value ∈ values := by
  cases values with
  | nil => rfl
  | cons first rest => rw [List.destutter_cons', mem_destutter'_ne, List.mem_cons]

theorem mem_sortedDistinct {value : α} {values : List α} :
    value ∈ sortedDistinct le values ↔ value ∈ values := by
  rw [sortedDistinct, mem_destutter_ne, List.mem_insertionSort]

end Foundation
