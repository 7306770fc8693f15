import Mathlib

namespace Foundation

/-! The elements of a list up to a test of sameness.

Each element is compared with those that are kept so far.  Without any law of the test no
two kept elements are the same, in the order of the list; where it is an equivalence on
the elements, those are kept that are the same as no element before them. -/

namespace FirstOccurrences

variable {α : Type} (same : α → α → Bool)

/-- Go on with the elements that are kept so far. -/
def keepFrom (kept : List α) : List α → List α
  | [] => kept
  | item :: rest =>
      if kept.any fun other => same other item then keepFrom kept rest
      else keepFrom (kept ++ [item]) rest

def keep (items : List α) : List α :=
  keepFrom same [] items

/-- The elements that are the same as none of those before them. -/
def firstsFrom (before : List α) : List α → List α
  | [] => []
  | item :: rest =>
      if before.any fun other => same other item then firstsFrom (before ++ [item]) rest
      else item :: firstsFrom (before ++ [item]) rest

def firsts (items : List α) : List α :=
  firstsFrom same [] items

attribute [grind =] keepFrom firstsFrom

/-! ## Any test -/

theorem pairwise_keepFrom {kept : List α}
    (distinct : kept.Pairwise fun first second => same first second = false) (items : List α) :
    (keepFrom same kept items).Pairwise fun first second => same first second = false := by
  induction items generalizing kept with
  | nil => exact distinct
  | cons item rest ih =>
      rw [keepFrom]
      split
      case isTrue => exact ih distinct
      case isFalse fresh =>
          apply ih
          rw [List.pairwise_append]
          refine ⟨distinct, List.pairwise_singleton _ _, ?_⟩
          intro other member item' memberItem
          obtain rfl := List.mem_singleton.mp memberItem
          simpa using (List.any_eq_false.mp (Bool.eq_false_iff.mpr fresh)) other member

theorem pairwise_keep (items : List α) :
    (keep same items).Pairwise fun first second => same first second = false :=
  pairwise_keepFrom same List.Pairwise.nil items

theorem prefix_keepFrom (kept items : List α) :
    ∃ added, keepFrom same kept items = kept ++ added ∧ added.Sublist items := by
  induction items generalizing kept with
  | nil => exact ⟨[], (List.append_nil _).symm, List.Sublist.refl _⟩
  | cons item rest ih =>
      rw [keepFrom]
      split
      case isTrue =>
          obtain ⟨added, shape, part⟩ := ih kept
          exact ⟨added, shape, part.cons item⟩
      case isFalse =>
          obtain ⟨added, shape, part⟩ := ih (kept ++ [item])
          exact ⟨item :: added, by rw [shape, List.append_assoc]; rfl, part.cons_cons item⟩

theorem keepFrom_append (kept items later : List α) :
    keepFrom same kept (items ++ later) = keepFrom same (keepFrom same kept items) later := by
  induction items generalizing kept with
  | nil => rfl
  | cons item rest ih =>
      rw [List.cons_append, keepFrom, keepFrom]
      split
      · exact ih kept
      · exact ih (kept ++ [item])

/-- What is kept of the beginning of a list is kept first. -/
theorem keep_prefix (items later : List α) : keep same items <+: keep same (items ++ later) := by
  obtain ⟨added, shape, -⟩ := prefix_keepFrom same (keep same items) later
  refine ⟨added, ?_⟩
  rw [← shape]
  exact (keepFrom_append same [] items later).symm

theorem keep_sublist (items : List α) : (keep same items).Sublist items := by
  obtain ⟨added, shape, part⟩ := prefix_keepFrom same [] items
  rwa [keep, shape, List.nil_append]

/-- An element that is the same as none before it is kept. -/
theorem keepFrom_firstsFrom {kept before : List α} (inside : ∀ item ∈ kept, item ∈ before)
    (items : List α) :
    ∃ added, keepFrom same kept items = kept ++ added ∧
      (firstsFrom same before items).Sublist added := by
  induction items generalizing kept before with
  | nil => exact ⟨[], (List.append_nil _).symm, List.Sublist.refl _⟩
  | cons item rest ih =>
      have insideLater : ∀ other ∈ kept, other ∈ before ++ [item] := fun other member =>
        List.mem_append_left _ (inside other member)
      rw [keepFrom, firstsFrom]
      split
      case isTrue known =>
          obtain ⟨other, member, holds⟩ := List.any_eq_true.mp known
          have earlier : (before.any fun other => same other item) = true :=
            List.any_eq_true.mpr ⟨other, inside other member, holds⟩
          rw [if_pos earlier]
          exact ih insideLater
      case isFalse =>
          have insideKept : ∀ other ∈ kept ++ [item], other ∈ before ++ [item] := by
            intro other member
            rcases List.mem_append.mp member with member | member
            · exact insideLater other member
            · exact List.mem_append_right _ member
          obtain ⟨added, shape, part⟩ := ih insideKept
          refine ⟨item :: added, by rw [shape, List.append_assoc]; rfl, ?_⟩
          split
          · exact part.cons item
          · exact part.cons_cons item

theorem firsts_sublist_keep (items : List α) :
    (firsts same items).Sublist (keep same items) := by
  have none : ∀ item ∈ ([] : List α), item ∈ ([] : List α) := fun _ member => member
  obtain ⟨added, shape, part⟩ := keepFrom_firstsFrom same none items
  rwa [keep, shape, List.nil_append]

theorem mem_of_mem_keep {items : List α} {item : α} (member : item ∈ keep same items) :
    item ∈ items :=
  (keep_sublist same items).subset member

theorem exists_keepFrom {kept items : List α} (reflexive : ∀ item ∈ items, same item item)
    {item : α} (member : item ∈ items) : ∃ other ∈ keepFrom same kept items, same other item := by
  induction items generalizing kept with
  | nil => cases member
  | cons first rest ih =>
      have later : ∀ item ∈ rest, same item item := fun item member =>
        reflexive item (List.mem_cons_of_mem _ member)
      rw [keepFrom]
      rcases List.mem_cons.mp member with rfl | member
      · split
        case isTrue known =>
            obtain ⟨other, otherKept, holds⟩ := List.any_eq_true.mp known
            obtain ⟨added, shape, -⟩ := prefix_keepFrom same kept rest
            exact ⟨other, by rw [shape]; exact List.mem_append_left _ otherKept, holds⟩
        case isFalse =>
            obtain ⟨added, shape, -⟩ := prefix_keepFrom same (kept ++ [item]) rest
            exact ⟨item, by rw [shape]; simp, reflexive item List.mem_cons_self⟩
      · split
        · exact ih later member
        · exact ih later member

/-- Every element is the same as one that is kept. -/
theorem exists_keep {items : List α} (reflexive : ∀ item ∈ items, same item item) {item : α}
    (member : item ∈ items) : ∃ other ∈ keep same items, same other item :=
  exists_keepFrom same reflexive member

/-! ## An equivalence -/

/-- The test is an equivalence on some elements. -/
structure EquivalenceOn (domain : α → Prop) : Prop where
  reflexive : ∀ item, domain item → same item item
  symmetric : ∀ first second, domain first → domain second → same first second →
    same second first
  transitive : ∀ first second third, domain first → domain second → domain third →
    same first second → same second third → same first third

variable {same} {domain : α → Prop} (equivalence : EquivalenceOn same domain)

/-- What is kept stands for all the elements before. -/
def Represents (same : α → α → Bool) (kept before : List α) : Prop :=
  (∀ item ∈ kept, item ∈ before) ∧ ∀ item ∈ before, ∃ other ∈ kept, same other item

include equivalence

theorem any_of_represents {kept before : List α} (represents : Represents same kept before)
    (inside : ∀ item ∈ before, domain item) {item : α} (itemInside : domain item) :
    (kept.any fun other => same other item) = before.any fun other => same other item := by
  rw [Bool.eq_iff_iff, List.any_eq_true, List.any_eq_true]
  constructor
  · rintro ⟨other, member, holds⟩
    exact ⟨other, represents.1 other member, holds⟩
  · rintro ⟨other, member, holds⟩
    obtain ⟨representative, representativeKept, stands⟩ := represents.2 other member
    have known := inside representative (represents.1 representative representativeKept)
    exact ⟨representative, representativeKept,
      equivalence.transitive _ _ _ known (inside other member) itemInside stands holds⟩

/-- Comparing with what is kept is comparing with everything before. -/
theorem keepFrom_eq {kept before items : List α} (represents : Represents same kept before)
    (inside : ∀ item ∈ before ++ items, domain item) :
    keepFrom same kept items = kept ++ firstsFrom same before items := by
  induction items generalizing kept before with
  | nil => exact (List.append_nil _).symm
  | cons item rest ih =>
      have itemInside : domain item := inside item (by simp)
      have insideRest : ∀ other ∈ (before ++ [item]) ++ rest, domain other := by
        simpa [List.append_assoc] using inside
      have beforeInside : ∀ other ∈ before, domain other := fun other member =>
        inside other (List.mem_append_left _ member)
      have tests := any_of_represents equivalence represents beforeInside itemInside
      rw [keepFrom, firstsFrom, tests]
      split
      case isTrue known =>
          apply ih _ insideRest
          refine ⟨fun other member => List.mem_append_left _ (represents.1 other member), ?_⟩
          intro other member
          rcases List.mem_append.mp member with member | member
          · exact represents.2 other member
          · obtain rfl := List.mem_singleton.mp member
            rw [← tests] at known
            exact List.any_eq_true.mp known
      case isFalse fresh =>
          rw [ih _ insideRest, List.append_assoc]
          · rfl
          refine ⟨?_, ?_⟩
          · intro other member
            rcases List.mem_append.mp member with member | member
            · exact List.mem_append_left _ (represents.1 other member)
            · exact List.mem_append_right _ member
          · intro other member
            rcases List.mem_append.mp member with member | member
            · obtain ⟨representative, representativeKept, stands⟩ := represents.2 other member
              exact ⟨representative, List.mem_append_left _ representativeKept, stands⟩
            · obtain rfl := List.mem_singleton.mp member
              exact ⟨other, by simp, equivalence.reflexive other itemInside⟩

theorem keep_eq_firsts {items : List α} (inside : ∀ item ∈ items, domain item) :
    keep same items = firsts same items :=
  keepFrom_eq equivalence ⟨fun _ member => member, by simp⟩ (by simpa using inside)

theorem any_congr {kept others : List α} {item other : α}
    (alike : List.Forall₂ (fun first second => same first second) kept others)
    (keptInside : ∀ item ∈ kept, domain item) (othersInside : ∀ item ∈ others, domain item)
    (itemInside : domain item) (otherInside : domain other) (holds : same item other) :
    (kept.any fun known => same known item) = others.any fun known => same known other := by
  induction alike with
  | nil => rfl
  | @cons first second kept others headAlike _ ih =>
      have firstInside := keptInside first List.mem_cons_self
      have secondInside := othersInside second List.mem_cons_self
      have heads : same first item = same second other := by
        rw [Bool.eq_iff_iff]
        constructor
        · intro known
          have back := equivalence.symmetric _ _ firstInside secondInside headAlike
          exact equivalence.transitive _ _ _ secondInside itemInside otherInside
            (equivalence.transitive _ _ _ secondInside firstInside itemInside back known) holds
        · intro known
          have back := equivalence.symmetric _ _ itemInside otherInside holds
          exact equivalence.transitive _ _ _ firstInside otherInside itemInside
            (equivalence.transitive _ _ _ firstInside secondInside otherInside headAlike known) back
      rw [List.any_cons, List.any_cons, heads,
        ih (fun item member => keptInside item (List.mem_cons_of_mem _ member))
          (fun item member => othersInside item (List.mem_cons_of_mem _ member))]

theorem keepFrom_congr {kept others items replaced : List α}
    (keptAlike : List.Forall₂ (fun first second => same first second) kept others)
    (alike : List.Forall₂ (fun first second => same first second) items replaced)
    (inside : ∀ item ∈ kept ++ items, domain item)
    (replacedInside : ∀ item ∈ others ++ replaced, domain item) :
    List.Forall₂ (fun first second => same first second) (keepFrom same kept items)
      (keepFrom same others replaced) := by
  induction alike generalizing kept others with
  | nil => exact keptAlike
  | @cons item other items replaced holds _ ih =>
      have tests := any_congr equivalence keptAlike
        (fun item member => inside item (List.mem_append_left _ member))
        (fun item member => replacedInside item (List.mem_append_left _ member))
        (inside item (by simp)) (replacedInside other (by simp)) holds
      rw [keepFrom, keepFrom, tests]
      split
      case isTrue =>
          apply ih keptAlike
          · intro item member
            apply inside
            rcases List.mem_append.mp member with member | member <;> simp [member]
          · intro item member
            apply replacedInside
            rcases List.mem_append.mp member with member | member <;> simp [member]
      case isFalse =>
          apply ih (List.rel_append keptAlike (.cons holds .nil))
          · simpa [List.append_assoc] using inside
          · simpa [List.append_assoc] using replacedInside

/-- Lists whose elements are the same one by one keep elements that are the same. -/
theorem keep_congr {items replaced : List α}
    (alike : List.Forall₂ (fun first second => same first second) items replaced)
    (inside : ∀ item ∈ items, domain item) (replacedInside : ∀ item ∈ replaced, domain item) :
    List.Forall₂ (fun first second => same first second) (keep same items) (keep same replaced) :=
  keepFrom_congr equivalence .nil alike (by simpa using inside) (by simpa using replacedInside)

end FirstOccurrences

end Foundation
