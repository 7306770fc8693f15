import Mathlib

namespace Foundation

/-! The first of the best elements of a list.

One pass over the list keeps the position and the score of the best element so far, and
replaces it only by a better one.  An element without score is no candidate. -/

namespace FirstMaximum

variable {α : Type} (score : α → Option Nat)

def step (best : Option (Nat × Nat)) (entry : α × Nat) : Option (Nat × Nat) :=
  match score entry.1 with
  | none => best
  | some value =>
      if best.all fun known => known.2 < value then some (entry.2, value) else best

def scan (items : List α) : Option (Nat × Nat) :=
  items.zipIdx.foldl (step score) none

/-- The score of the element at a position. -/
def scoreAt (items : List α) (index : Nat) : Option Nat :=
  items[index]?.bind score

/-- No element has a better score, and none before it one as good. -/
structure IsFirstMaximum (items : List α) (index value : Nat) : Prop where
  scored : scoreAt score items index = some value
  maximal : ∀ other rival, scoreAt score items other = some rival → rival ≤ value
  first : ∀ other rival, scoreAt score items other = some rival → other < index → rival < value

variable {score}

theorem scan_append (items : List α) (item : α) :
    scan score (items ++ [item]) = step score (scan score items) (item, items.length) := by
  rw [scan, List.zipIdx_append, List.foldl_append]
  simp [scan]

theorem scoreAt_append (items : List α) (item : α) (index : Nat) :
    scoreAt score (items ++ [item]) index =
      if index = items.length then score item else scoreAt score items index := by
  rw [scoreAt, scoreAt, List.getElem?_append]
  split_ifs with inside last last
  · omega
  · rfl
  · simp [last]
  · rw [List.getElem?_eq_none (by simp; omega), List.getElem?_eq_none (by omega)]

theorem lt_of_scoreAt {items : List α} {index value : Nat}
    (scored : scoreAt score items index = some value) : index < items.length := by
  by_contra outside
  rw [scoreAt, List.getElem?_eq_none (by omega)] at scored
  cases scored

namespace IsFirstMaximum

variable {items : List α} {index value : Nat}

/-- There is one first maximum. -/
theorem unique {other rival : Nat} (maximum : IsFirstMaximum score items index value)
    (another : IsFirstMaximum score items other rival) : index = other ∧ value = rival := by
  have upper := maximum.maximal other rival another.scored
  have lower := another.maximal index value maximum.scored
  obtain rfl : value = rival := by omega
  rcases Nat.lt_trichotomy index other with before | same | after
  · exact absurd (another.first index value maximum.scored before) (Nat.lt_irrefl _)
  · exact ⟨same, rfl⟩
  · exact absurd (maximum.first other value another.scored after) (Nat.lt_irrefl _)

/-- An element that is no better changes nothing. -/
theorem keep (maximum : IsFirstMaximum score items index value) {item : α}
    (noBetter : ∀ rival, score item = some rival → rival ≤ value) :
    IsFirstMaximum score (items ++ [item]) index value := by
  have inside := lt_of_scoreAt maximum.scored
  constructor
  · rw [scoreAt_append, if_neg (by omega)]
    exact maximum.scored
  · intro other rival scored
    rw [scoreAt_append] at scored
    split at scored
    · exact noBetter rival scored
    · exact maximum.maximal other rival scored
  · intro other rival scored before
    rw [scoreAt_append, if_neg (by omega)] at scored
    exact maximum.first other rival scored before

/-- A better element takes over. -/
theorem replace {item : α} (scored : score item = some value)
    (better : ∀ other rival, scoreAt score items other = some rival → rival < value) :
    IsFirstMaximum score (items ++ [item]) items.length value := by
  constructor
  · rw [scoreAt_append, if_pos rfl]
    exact scored
  · intro other rival rivalScored
    rw [scoreAt_append] at rivalScored
    split at rivalScored
    · exact Nat.le_of_eq (Option.some.inj (rivalScored.symm.trans scored))
    · exact Nat.le_of_lt (better other rival rivalScored)
  · intro other rival rivalScored before
    rw [scoreAt_append, if_neg (by omega)] at rivalScored
    exact better other rival rivalScored

end IsFirstMaximum

/-- What the pass finds: nothing where nothing has a score, else the first maximum. -/
def Found (score : α → Option Nat) (items : List α) : Option (Nat × Nat) → Prop
  | none => ∀ item ∈ items, score item = none
  | some (index, value) => IsFirstMaximum score items index value

theorem found_scan (items : List α) : Found score items (scan score items) := by
  induction items using List.reverseRecOn with
  | nil => simp [scan, Found]
  | append_singleton items item ih =>
      rw [scan_append, step]
      cases scored : score item with
      | none =>
          cases best : scan score items with
          | none =>
              rw [best] at ih
              intro other member
              rcases List.mem_append.mp member with member | member
              · exact ih other member
              · obtain rfl := List.mem_singleton.mp member
                exact scored
          | some best' =>
              rw [best] at ih
              exact ih.keep fun rival known => by rw [scored] at known; cases known
      | some value =>
          cases best : scan score items with
          | none =>
              rw [best] at ih
              refine IsFirstMaximum.replace scored ?_
              intro other rival rivalScored
              obtain ⟨item, found, itemScored⟩ := Option.bind_eq_some_iff.mp rivalScored
              rw [ih item (List.mem_of_getElem? found)] at itemScored
              cases itemScored
          | some known =>
              rw [best] at ih
              simp only [Option.all_some, decide_eq_true_iff]
              split
              case isTrue better =>
                  refine IsFirstMaximum.replace scored ?_
                  intro other rival rivalScored
                  exact Nat.lt_of_le_of_lt (ih.maximal other rival rivalScored) better
              case isFalse worse =>
                  refine ih.keep ?_
                  intro rival known
                  obtain rfl := Option.some.inj (known.symm.trans scored)
                  omega

theorem scan_eq_some_iff {items : List α} {index value : Nat} :
    scan score items = some (index, value) ↔ IsFirstMaximum score items index value := by
  have found := @found_scan α score items
  constructor
  · intro same
    rwa [same] at found
  · intro maximum
    cases result : scan score items with
    | none =>
        rw [result] at found
        obtain ⟨item, at', scored⟩ := Option.bind_eq_some_iff.mp maximum.scored
        rw [found item (List.mem_of_getElem? at')] at scored
        cases scored
    | some best =>
        rw [result] at found
        obtain ⟨sameIndex, sameValue⟩ := IsFirstMaximum.unique found maximum
        rw [← sameIndex, ← sameValue]

theorem scan_eq_none_iff {items : List α} :
    scan score items = none ↔ ∀ item ∈ items, score item = none := by
  have found := @found_scan α score items
  constructor
  · intro same
    rwa [same] at found
  · intro none
    cases result : scan score items with
    | none => rfl
    | some best =>
        rw [result] at found
        obtain ⟨item, at', scored⟩ := Option.bind_eq_some_iff.mp found.scored
        rw [none item (List.mem_of_getElem? at')] at scored
        cases scored

/-- An element without score at the end is not seen. -/
theorem scan_append_none {item : α} (none : score item = none) (items : List α) :
    scan score (items ++ [item]) = scan score items := by
  rw [scan_append, step, none]

/-- A score of a part of each element is a score of the parts. -/
theorem scan_map {β : Type} (part : β → α) (items : List β) :
    scan (fun item => score (part item)) items = scan score (items.map part) := by
  rw [scan, scan, List.zipIdx_map, List.foldl_map]
  rfl

end FirstMaximum

end Foundation
