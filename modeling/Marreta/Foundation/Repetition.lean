import Mathlib

namespace Foundation

/-! Reports that cover what they report on.

Where the reports contain every item once, in the order of the items, they repeat nothing
exactly when they are as many as the items; for reports that are put together from parts this
is a question about each of the parts. -/

namespace Repetition

variable {α β : Type}

theorem perm_iff_eq {items reports : List α} (covered : List.Sublist items reports) :
    reports.Perm items ↔ reports = items := by
  constructor
  · intro same
    exact (covered.eq_of_length same.length_eq.symm).symm
  · intro same
    rw [same]

theorem append_eq_append_iff {items reports others repeated : List α}
    (covered : List.Sublist items reports) (rest : List.Sublist others repeated) :
    reports ++ repeated = items ++ others ↔ reports = items ∧ repeated = others := by
  constructor
  · intro same
    have lengths := congrArg List.length same
    rw [List.length_append, List.length_append] at lengths
    have first := covered.length_le
    have second := rest.length_le
    exact ⟨(covered.eq_of_length (by omega)).symm, (rest.eq_of_length (by omega)).symm⟩
  · intro ⟨first, second⟩
    rw [first, second]

theorem append_eq_iff {items reports extra : List α} (covered : List.Sublist items reports) :
    reports ++ extra = items ↔ reports = items ∧ extra = [] := by
  have parts := append_eq_append_iff covered (List.nil_sublist extra)
  rwa [List.append_nil] at parts

/-- The reports on several things repeat nothing exactly when none of them does. -/
theorem flatMap_eq_flatMap_iff {things : List α} {items reports : α → List β}
    (covered : ∀ thing ∈ things, List.Sublist (items thing) (reports thing)) :
    things.flatMap reports = things.flatMap items ↔
      ∀ thing ∈ things, reports thing = items thing := by
  induction things with
  | nil => simp
  | cons thing rest induction =>
      have covers := List.forall_mem_cons.mp covered
      rw [List.flatMap_cons, List.flatMap_cons,
        append_eq_append_iff covers.1 (List.Sublist.flatMap_right rest covers.2),
        induction covers.2, List.forall_mem_cons]

end Repetition

end Foundation
