import Mathlib

namespace Foundation

/-! Stable sorting by one relation, judged by another.

A list is sorted stably by a total preorder.  The elements are to stand in the order of a
second relation, which need not relate all of them, and those that it relates in both
ways are to keep the order they had.  That is so exactly when the two relations agree on
each element and those behind it in the list. -/

variable {α : Type}

/-- The relation holds in both ways. -/
def tied (atMost : α → α → Bool) (one other : α) : Bool :=
  atMost one other && atMost other one

structure SortsStably (atMost : α → α → Bool) (items sorted : List α) : Prop where
  permutes : sorted.Perm items
  ordered : sorted.Pairwise fun one other =>
    atMost one other = true ∨ atMost other one = true → atMost one other = true
  stable : ∀ one ∈ items, sorted.filter (tied atMost one) = items.filter (tied atMost one)

/-- The two relations agree on each element and those behind it, where the second one
relates them at all. -/
def AgreesForward (le atMost : α → α → Bool) (items : List α) : Prop :=
  items.Pairwise fun one other =>
    atMost one other = true ∨ atMost other one = true → le one other = atMost one other

/-- Two different elements of a list stand in it in one order or the other. -/
theorem pair_sublist_or {items : List α} {one other : α} (first : one ∈ items)
    (second : other ∈ items) (different : one ≠ other) :
    [one, other].Sublist items ∨ [other, one].Sublist items := by
  induction items with
  | nil => cases first
  | cons item items induction =>
      rcases List.mem_cons.mp first with same | firstLater
      · rcases List.mem_cons.mp second with again | secondLater
        · exact absurd (same.trans again.symm) different
        · subst same
          exact .inl ((List.singleton_sublist.mpr secondLater).cons_cons _)
      · rcases List.mem_cons.mp second with same | secondLater
        · subst same
          exact .inr ((List.singleton_sublist.mpr firstLater).cons_cons _)
        · exact (induction firstLater secondLater).imp (.cons _) (.cons _)

section MergeSort

variable {le atMost : α → α → Bool}
variable (trans : ∀ one two three, le one two → le two three → le one three)
variable (total : ∀ one two, le one two || le two one)

include trans total

/-- Elements that are in order already keep their places among each other. -/
theorem filter_mergeSort {items : List α} {keep : α → Bool}
    (ordered : (items.filter keep).Pairwise fun one other => le one other) :
    (items.mergeSort le).filter keep = items.filter keep := by
  have inside : (items.filter keep).Sublist (items.mergeSort le) :=
    List.sublist_mergeSort trans total ordered List.filter_sublist
  have kept := inside.filter keep
  rw [List.filter_filter] at kept
  simp only [Bool.and_self] at kept
  have lengths := ((List.mergeSort_perm items le).filter keep).length_eq
  exact (kept.eq_of_length lengths.symm).symm

/-- An element that the sort puts before another one, where it could have stayed behind,
stood before it. -/
theorem sublist_of_sublist_mergeSort {items : List α} {one other : α}
    (sublist : [one, other].Sublist (items.mergeSort le)) (back : le other one = true) :
    [one, other].Sublist items := by
  have forth : le one other = true :=
    List.pairwise_iff_forall_sublist.mp (List.pairwise_mergeSort trans total items) sublist
  have reflexive : le one one = true := trans one other one forth back
  have together : (items.filter (tied le one)).Pairwise fun two three => le two three := by
    apply List.Pairwise.imp_of_mem (R := fun _ _ => True)
    · intro two three twoMember threeMember _
      have twoTied := (List.mem_filter.mp twoMember).2
      have threeTied := (List.mem_filter.mp threeMember).2
      rw [tied, Bool.and_eq_true] at twoTied threeTied
      exact trans two one three twoTied.2 threeTied.1
    · exact List.pairwise_of_forall fun _ _ => trivial
  have kept := sublist.filter (tied le one)
  rw [filter_mergeSort trans total together, List.filter_cons_of_pos, List.filter_cons_of_pos,
    List.filter_nil] at kept
  · exact kept.trans List.filter_sublist
  · rw [tied, forth, back]
    rfl
  · rw [tied, reflexive]
    rfl

variable (transitive : ∀ one two three, atMost one two → atMost two three → atMost one three)

include transitive

theorem sortsStably_of_agreesForward {items : List α} (agrees : AgreesForward le atMost items) :
    SortsStably atMost items (items.mergeSort le) := by
  rw [AgreesForward, List.pairwise_iff_forall_sublist] at agrees
  refine ⟨List.mergeSort_perm items le, ?_, ?_⟩
  · rw [List.pairwise_iff_forall_sublist]
    intro one other sublist related
    have forth : le one other = true :=
      List.pairwise_iff_forall_sublist.mp (List.pairwise_mergeSort trans total items) sublist
    by_cases same : one = other
    · subst same
      exact or_self_iff.mp related
    by_cases back : le other one = true
    · rw [← agrees (sublist_of_sublist_mergeSort trans total sublist back) related]
      exact forth
    · have members := sublist.subset
      rcases pair_sublist_or (List.mem_mergeSort.mp (members List.mem_cons_self))
        (List.mem_mergeSort.mp (members (List.mem_cons_of_mem _ List.mem_cons_self))) same with
        before | after
      · rw [← agrees before related]
        exact forth
      · rw [agrees after related.symm] at back
        exact related.resolve_right back
  · intro one _
    apply filter_mergeSort trans total
    rw [List.pairwise_iff_forall_sublist]
    intro two three sublist
    have members := sublist.subset
    have twoTied := (List.mem_filter.mp (members List.mem_cons_self)).2
    have threeTied :=
      (List.mem_filter.mp (members (List.mem_cons_of_mem _ List.mem_cons_self))).2
    rw [tied, Bool.and_eq_true] at twoTied threeTied
    have related : atMost two three = true := transitive two one three twoTied.2 threeTied.1
    rw [agrees (sublist.trans List.filter_sublist) (.inl related)]
    exact related

theorem agreesForward_of_sortsStably {items : List α}
    (sorts : SortsStably atMost items (items.mergeSort le)) : AgreesForward le atMost items := by
  have sorted {two three : α} (sublist : [two, three].Sublist (items.mergeSort le)) :
      le two three = true :=
    List.pairwise_iff_forall_sublist.mp (List.pairwise_mergeSort trans total items) sublist
  have ordered {two three : α} (sublist : [two, three].Sublist (items.mergeSort le)) :
      atMost two three = true ∨ atMost three two = true → atMost two three = true :=
    List.pairwise_iff_forall_sublist.mp sorts.ordered sublist
  rw [AgreesForward, List.pairwise_iff_forall_sublist]
  intro one other sublist related
  cases forth : le one other with
  | true => exact (ordered (List.pair_sublist_mergeSort trans total forth sublist) related).symm
  | false =>
      have back : le other one = true := by
        have both := total one other
        rwa [forth, Bool.false_or] at both
      by_contra differs
      have atLeast : atMost one other = true := by
        cases known : atMost one other with
        | true => rfl
        | false => exact absurd known.symm differs
      have members := sublist.subset
      have different : one ≠ other := by
        rintro rfl
        rw [forth] at back
        cases back
      -- The sort has turned the two around, so they are tied, and would have kept their order.
      have notBefore : ¬ [one, other].Sublist (items.mergeSort le) := by
        intro before
        rw [sorted before] at forth
        cases forth
      have turned := (pair_sublist_or
        (List.mem_mergeSort.mpr (members List.mem_cons_self))
        (List.mem_mergeSort.mpr (members (List.mem_cons_of_mem _ List.mem_cons_self)))
        different).resolve_left notBefore
      have atMostBack : atMost other one = true := ordered turned (.inr atLeast)
      have kept := sublist.filter (tied atMost one)
      rw [← sorts.stable one (members List.mem_cons_self), List.filter_cons_of_pos,
        List.filter_cons_of_pos, List.filter_nil] at kept
      · exact notBefore (kept.trans List.filter_sublist)
      · rw [tied, atLeast, atMostBack]
        rfl
      · rw [tied, transitive one other one atLeast atMostBack]
        rfl

theorem sortsStably_mergeSort_iff {items : List α} :
    SortsStably atMost items (items.mergeSort le) ↔ AgreesForward le atMost items :=
  ⟨agreesForward_of_sortsStably trans total transitive,
    sortsStably_of_agreesForward trans total transitive⟩

end MergeSort

end Foundation
