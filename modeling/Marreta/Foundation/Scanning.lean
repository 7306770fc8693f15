import Mathlib

namespace Foundation

/-! Texts read from left to right, token after token.

A token is recognised where the text behind the last one begins and covers some of its items.
Replacing all occurrences of a pattern is such a reading. -/

variable {α β : Type}

/-- The tokens of a text.  Each comes with the number of items it covers behind its first. -/
def scan (token : List α → β × Nat) : Nat → List α → List β
  | _, [] => []
  | skip + 1, _ :: rest => scan token skip rest
  | 0, item :: rest =>
      let (result, covered) := token (item :: rest)
      result :: scan token covered rest

theorem scan_drop (token : List α → β × Nat) (skip : Nat) (text : List α) :
    scan token skip text = scan token 0 (text.drop skip) := by
  induction text generalizing skip with
  | nil => rw [List.drop_nil, scan, scan]
  | cons item rest induction =>
      cases skip with
      | zero => rfl
      | succ skip => exact induction skip

theorem scan_cons {token : List α → β × Nat} {item : α} {rest : List α} {result : β}
    {covered : Nat} (found : token (item :: rest) = (result, covered)) :
    scan token 0 (item :: rest) = result :: scan token 0 (rest.drop covered) := by
  rw [scan, found]
  exact congrArg (result :: ·) (scan_drop token covered rest)

theorem scan_append {token : List α → β × Nat} {taken rest : List α} {result : β}
    (nonempty : taken ≠ []) (found : token (taken ++ rest) = (result, taken.length - 1)) :
    scan token 0 (taken ++ rest) = result :: scan token 0 rest := by
  cases taken with
  | nil => exact absurd rfl nonempty
  | cons item taken =>
      rw [List.cons_append] at found ⊢
      rw [scan_cons found, List.length_cons, Nat.add_sub_cancel, List.drop_left]

/-! ## Parts that may be missing -/

/-- The parts one after the other, if none of them is missing. -/
def concat? : List (Option (List β)) → Option (List β)
  | [] => some []
  | part :: parts => part.bind fun text => (concat? parts).map (text ++ ·)

theorem concat?_cons_eq_some {part : Option (List β)} {parts : List (Option (List β))}
    {text : List β} : concat? (part :: parts) = some text ↔
      ∃ first rest, part = some first ∧ concat? parts = some rest ∧ first ++ rest = text := by
  rw [concat?, Option.bind_eq_some_iff]
  constructor
  · rintro ⟨first, known, later⟩
    obtain ⟨rest, others, same⟩ := Option.map_eq_some_iff.mp later
    exact ⟨first, rest, known, others, same⟩
  · rintro ⟨first, rest, known, others, same⟩
    exact ⟨first, known, Option.map_eq_some_iff.mpr ⟨rest, others, same⟩⟩

/-! ## Replacement -/

variable [DecidableEq α]

/-- Replace the occurrences of a pattern that is not empty, from left to right and without
overlap. -/
def replaceAll (pattern replacement text : List α) : List α :=
  (scan (fun text =>
    if pattern.isPrefixOf text then (replacement, pattern.length - 1)
    else (text.take 1, 0)) 0 text).flatten

section Replacement

variable {pattern replacement : List α}

@[simp] theorem replaceAll_nil : replaceAll pattern replacement [] = [] := rfl

theorem replaceAll_pattern (nonempty : pattern ≠ []) (rest : List α) :
    replaceAll pattern replacement (pattern ++ rest) =
      replacement ++ replaceAll pattern replacement rest := by
  have found : pattern.isPrefixOf (pattern ++ rest) = true :=
    List.isPrefixOf_iff_prefix.mpr (List.prefix_append pattern rest)
  rw [replaceAll, scan_append nonempty (if_pos found)]
  rfl

theorem replaceAll_cons {item : α} {rest : List α} (other : ¬ pattern <+: item :: rest) :
    replaceAll pattern replacement (item :: rest) =
      item :: replaceAll pattern replacement rest := by
  have missing : ¬ pattern.isPrefixOf (item :: rest) = true := fun found =>
    other (List.isPrefixOf_iff_prefix.mp found)
  rw [replaceAll, scan_cons (if_neg missing)]
  rfl

theorem replaceAll_cons_of_ne {first item : α} {tail rest : List α} (other : first ≠ item) :
    replaceAll (first :: tail) replacement (item :: rest) =
      item :: replaceAll (first :: tail) replacement rest :=
  replaceAll_cons fun found => other (List.cons_prefix_cons.mp found).1

/-- What the result begins with was there before, up to the first item of a replacement. -/
theorem prefix_of_prefix_replaceAll {mark : α} {tail front text : List α}
    (nonempty : pattern ≠ []) (clear : mark ∉ front)
    (found : front <+: replaceAll pattern (mark :: tail) text) : front <+: text := by
  induction front generalizing text with
  | nil => exact List.nil_prefix
  | cons item front induction =>
      rw [List.mem_cons, not_or] at clear
      by_cases occurs : pattern <+: text
      · obtain ⟨rest, rfl⟩ := occurs
        rw [replaceAll_pattern nonempty, List.cons_append] at found
        exact absurd (List.cons_prefix_cons.mp found).1.symm clear.1
      · cases text with
        | nil =>
            rw [replaceAll_nil] at found
            exact found
        | cons other rest =>
            rw [replaceAll_cons occurs] at found
            obtain ⟨rfl, later⟩ := List.cons_prefix_cons.mp found
            exact List.cons_prefix_cons.mpr ⟨rfl, induction clear.2 later⟩

end Replacement

end Foundation
