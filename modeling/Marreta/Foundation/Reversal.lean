import Mathlib

namespace Foundation

/-! Sequences of partial steps, and undoing them.

A step may have a precondition; a sequence runs when each of its steps finds its
own satisfied.  What a step adds to a state and leaves there is followed through a
sequence, and a sequence is undone by undoing its steps from the last one. -/

section Steps

variable {σ ι : Type} (step : ι → σ → Option σ)

/-- Run steps in order. -/
def executeAll (steps : List ι) (start : σ) : Option σ :=
  steps.foldlM (fun state index => step index state) start

@[simp] theorem executeAll_nil (start : σ) : executeAll step [] start = some start := rfl

theorem executeAll_cons (first : ι) (rest : List ι) (start : σ) :
    executeAll step (first :: rest) start = (step first start).bind (executeAll step rest) := rfl

theorem executeAll_append (first second : List ι) (start : σ) :
    executeAll step (first ++ second) start =
      (executeAll step first start).bind (executeAll step second) := by
  induction first generalizing start with
  | nil => rfl
  | cons index rest induction =>
      rw [List.cons_append, executeAll_cons, executeAll_cons]
      cases step index start with
      | none => rfl
      | some next => exact induction next

theorem executeAll_map {κ : Type} (name : κ → ι) (steps : List κ) (start : σ) :
    executeAll step (steps.map name) start =
      executeAll (fun index => step (name index)) steps start :=
  List.foldlM_map

variable {step}

/-- A property that only some steps can establish. -/
theorem gained_of_executeAll {holds : σ → Prop} {gives : ι → Prop}
    (gained : ∀ index state next, step index state = some next → holds next →
      holds state ∨ gives index)
    {steps : List ι} {start after : σ} (run : executeAll step steps start = some after)
    (ends : holds after) : holds start ∨ ∃ index ∈ steps, gives index := by
  induction steps generalizing start with
  | nil =>
      obtain rfl := Option.some.inj run
      exact .inl ends
  | cons index rest induction =>
      obtain ⟨next, first, run⟩ := Option.bind_eq_some_iff.mp run
      rcases induction run with holdsNext | ⟨later, member, given⟩
      · rcases gained index start next first holdsNext with before | given
        · exact .inl before
        · exact .inr ⟨index, List.mem_cons_self, given⟩
      · exact .inr ⟨later, List.mem_cons_of_mem _ member, given⟩

/-- A property that some steps establish and no step takes away. -/
theorem kept_of_executeAll {holds : σ → Prop} {gives : ι → Prop}
    (kept : ∀ index state next, step index state = some next → holds state ∨ gives index →
      holds next)
    {steps : List ι} {start after : σ} (run : executeAll step steps start = some after)
    (starts : holds start ∨ ∃ index ∈ steps, gives index) : holds after := by
  induction steps generalizing start with
  | nil =>
      obtain rfl := Option.some.inj run
      rcases starts with holds | ⟨index, none, -⟩
      · exact holds
      · cases none
  | cons index rest induction =>
      obtain ⟨next, first, run⟩ := Option.bind_eq_some_iff.mp run
      apply induction run
      rcases starts with holds | ⟨later, member, given⟩
      · exact .inl (kept index start next first (.inl holds))
      · rcases List.mem_cons.mp member with rfl | member
        · exact .inl (kept later start next first (.inr given))
        · exact .inr ⟨later, member, given⟩

end Steps

section Undo

variable {σ ι : Type} {forward backward : ι → σ → Option σ}

/-- When every step that is reached can be done and undone, so can the sequence. -/
theorem executeAll_reverse {steps : List ι} {start : σ}
    (undone : ∀ before index after, steps = before ++ index :: after →
      ∀ state, executeAll forward before start = some state →
        ∃ next, forward index state = some next ∧ backward index next = some state) :
    ∃ after, executeAll forward steps start = some after ∧
      executeAll backward steps.reverse after = some start := by
  induction steps generalizing start with
  | nil => exact ⟨start, rfl, rfl⟩
  | cons first rest induction =>
      obtain ⟨next, done, back⟩ := undone [] first rest rfl start rfl
      have later : ∀ before index after, rest = before ++ index :: after →
          ∀ state, executeAll forward before next = some state →
            ∃ following, forward index state = some following ∧
              backward index following = some state := by
        intro before index after parts state run
        refine undone (first :: before) index after (by rw [parts, List.cons_append]) state ?_
        rw [executeAll_cons, done]
        exact run
      obtain ⟨after, run, undo⟩ := induction later
      refine ⟨after, ?_, ?_⟩
      · rw [executeAll_cons, done]
        exact run
      · rw [List.reverse_cons, executeAll_append, undo]
        change (backward first next).bind _ = _
        rw [back]
        rfl

end Undo
end Foundation
