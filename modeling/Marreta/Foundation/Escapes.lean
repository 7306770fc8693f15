import Marreta.Foundation.HexText

namespace Foundation

/-! Texts that are decoded: `%` with two hexadecimal digits stands for a byte, and in a form
`+` for a blank.  A text without either stands for itself. -/

namespace Escapes

/-- Two hexadecimal digits follow a percent sign somewhere in the text. -/
def HasEscape (text : List Char) : Prop :=
  ∃ before high low after, text = before ++ '%' :: high :: low :: after ∧
    (HexText.value? high).isSome = true ∧ (HexText.value? low).isSome = true

def blank (char : Char) : Char :=
  if char = '+' then ' ' else char

/-- A text that a form keeps as it is. -/
def Verbatim (text : List Char) : Prop :=
  '+' ∉ text ∧ ¬ HasEscape text

theorem not_hasEscape_of_not_mem {text : List Char} (plain : '%' ∉ text) : ¬ HasEscape text := by
  rintro ⟨before, high, low, after, rfl, -⟩
  exact plain (List.mem_append_right _ List.mem_cons_self)

theorem hasEscape_cons {char : Char} {text : List Char} (escaped : HasEscape text) :
    HasEscape (char :: text) := by
  obtain ⟨before, high, low, after, rfl, digits⟩ := escaped
  exact ⟨char :: before, high, low, after, rfl, digits⟩

theorem blank_of_digit {char : Char} (digit : (HexText.value? char).isSome = true) :
    blank char = char := by
  refine if_neg ?_
  rintro rfl
  exact absurd digit (by decide)

theorem of_blank_digit {char : Char} (digit : (HexText.value? (blank char)).isSome = true) :
    blank char = char := by
  refine if_neg ?_
  rintro rfl
  exact absurd digit (by decide)

theorem of_blank_eq {char other : Char} (same : blank char = other) (visible : other ≠ ' ') :
    char = other := by
  rw [blank] at same
  split at same
  · exact absurd same.symm visible
  · exact same

/-- Blanks make and break no escapes. -/
theorem hasEscape_map_blank {text : List Char} : HasEscape (text.map blank) ↔ HasEscape text := by
  constructor
  · rintro ⟨before, high, low, after, same, digits⟩
    obtain ⟨first, behind, rfl, -, cut⟩ := List.map_eq_append_iff.mp same
    obtain ⟨percent, digitsBehind, rfl, sign, digitsCut⟩ := List.map_eq_cons_iff.mp cut
    obtain ⟨one, digitBehind, rfl, oneSame, digitCut⟩ := List.map_eq_cons_iff.mp digitsCut
    obtain ⟨other, rest, rfl, otherSame, -⟩ := List.map_eq_cons_iff.mp digitCut
    obtain rfl := of_blank_eq sign (by decide)
    rw [← oneSame, ← otherSame] at digits
    rw [of_blank_digit digits.1, of_blank_digit digits.2] at digits
    exact ⟨first, one, other, rest, rfl, digits⟩
  · rintro ⟨before, high, low, after, rfl, digits⟩
    refine ⟨before.map blank, high, low, after.map blank, ?_, digits⟩
    rw [List.map_append, List.map_cons, List.map_cons, List.map_cons, blank_of_digit digits.1,
      blank_of_digit digits.2]
    rfl

theorem map_blank_eq_iff {text : List Char} : text.map blank = text ↔ '+' ∉ text := by
  induction text with
  | nil => simp
  | cons char text ih =>
      rw [List.map_cons, List.cons.injEq, ih, List.mem_cons, not_or]
      refine and_congr_left fun _ => ?_
      rw [blank]
      constructor
      · rintro same rfl
        exact absurd same (by decide)
      · exact fun differs => if_neg (Ne.symm differs)

/-! ## Decoders -/

/-- Every escape makes a text shorter, and only `+` is changed besides. -/
structure DecodesForm (decode : List Char → List Char) : Prop where
  kept : ∀ {text}, ¬ HasEscape text → decode text = text.map blank
  shorter : ∀ {text}, HasEscape text → (decode text).length < text.length

namespace DecodesForm

variable {decode : List Char → List Char}

theorem eq_iff (decodes : DecodesForm decode) {text : List Char} :
    decode text = text ↔ Verbatim text := by
  constructor
  · intro same
    have plain : ¬ HasEscape text := by
      intro escaped
      have shorter := decodes.shorter escaped
      rw [same] at shorter
      exact absurd shorter (Nat.lt_irrefl _)
    rw [decodes.kept plain, map_blank_eq_iff] at same
    exact ⟨same, plain⟩
  · rintro ⟨unsigned, plain⟩
    rw [decodes.kept plain, map_blank_eq_iff.mpr unsigned]

/-- A text that is not verbatim is only the value of a longer one. -/
theorem longer (decodes : DecodesForm decode) {text : List Char}
    (changed : ¬ Verbatim (decode text)) :
    ¬ Verbatim text ∧ (decode text).length < text.length := by
  have escaped : HasEscape text := by
    by_contra plain
    rw [decodes.kept plain] at changed
    refine changed ⟨?_, mt hasEscape_map_blank.mp plain⟩
    intro member
    obtain ⟨char, -, same⟩ := List.mem_map.mp member
    obtain rfl := of_blank_eq same (by decide)
    exact absurd same (by decide)
  exact ⟨fun verbatim => verbatim.2 escaped, decodes.shorter escaped⟩

/-- Texts that are all values of texts among them are verbatim. -/
theorem verbatim_of_covered (decodes : DecodesForm decode) {texts : List (List Char)}
    (covered : ∀ text ∈ texts, text ∈ texts.map decode) : ∀ text ∈ texts, Verbatim text := by
  by_contra changed
  simp only [not_forall] at changed
  obtain ⟨start, among, changed⟩ := changed
  -- a text that is not verbatim leads to ever longer ones
  have grows : ∀ size : Nat, ∃ text ∈ texts, ¬ Verbatim text ∧ size ≤ text.length := by
    intro size
    induction size with
    | zero => exact ⟨start, among, changed, Nat.zero_le _⟩
    | succ size ih =>
        obtain ⟨text, member, other, long⟩ := ih
        obtain ⟨source, inside, rfl⟩ := List.mem_map.mp (covered text member)
        obtain ⟨again, shorter⟩ := decodes.longer other
        exact ⟨source, inside, again, Nat.lt_of_le_of_lt long shorter⟩
  obtain ⟨text, member, -, long⟩ := grows ((texts.map List.length).sum + 1)
  have bounded := List.le_sum_of_mem (List.mem_map_of_mem (f := List.length) member)
  omega

end DecodesForm

/-! ## Escapes of single characters -/

/-- The escapes of characters below 256. -/
def unescape : List Char → List Char
  | '%' :: high :: low :: rest =>
      match HexText.value? high, HexText.value? low with
      | some high, some low => Char.ofNat (16 * high + low) :: unescape rest
      | _, _ => '%' :: unescape (high :: low :: rest)
  | char :: rest => char :: unescape rest
  | [] => []

theorem length_unescape_le (text : List Char) : (unescape text).length ≤ text.length := by
  fun_induction unescape text with
  | case1 high low rest one other found known ih =>
      simp only [List.length_cons]
      omega
  | case2 high low rest missing ih => exact Nat.succ_le_succ ih
  | case3 char rest other ih => exact Nat.succ_le_succ ih
  | case4 => exact Nat.le_refl 0

theorem unescape_of_not_hasEscape {text : List Char} (plain : ¬ HasEscape text) :
    unescape text = text := by
  fun_induction unescape text with
  | case1 high low rest one other found known ih =>
      exact absurd ⟨[], high, low, rest, rfl, Option.isSome_of_mem known,
        Option.isSome_of_mem found⟩ plain
  | case2 high low rest missing ih => rw [ih fun escaped => plain (hasEscape_cons escaped)]
  | case3 char rest other ih => rw [ih fun escaped => plain (hasEscape_cons escaped)]
  | case4 => rfl

theorem length_unescape_lt {text : List Char} (escaped : HasEscape text) :
    (unescape text).length < text.length := by
  fun_induction unescape text with
  | case1 high low rest one other found known ih =>
      have bounded := length_unescape_le rest
      simp only [List.length_cons]
      omega
  | case2 high low rest missing ih =>
      obtain ⟨before, one, other, after, same, first, second⟩ := escaped
      cases before with
      | nil =>
          have digits := (List.cons.inj same).2
          rw [List.cons.injEq, List.cons.injEq] at digits
          rw [← digits.1] at first
          rw [← digits.2.1] at second
          obtain ⟨high, found⟩ := Option.isSome_iff_exists.mp first
          obtain ⟨low, known⟩ := Option.isSome_iff_exists.mp second
          exact absurd known (missing high low found)
      | cons head before =>
          exact Nat.succ_lt_succ (ih ⟨before, one, other, after, (List.cons.inj same).2, first,
            second⟩)
  | case3 char rest other ih =>
      obtain ⟨before, high, low, after, same, digits⟩ := escaped
      cases before with
      | nil =>
          obtain ⟨rfl, rfl⟩ := List.cons.inj same
          exact absurd rfl (other high low after rfl)
      | cons head before =>
          exact Nat.succ_lt_succ (ih ⟨before, high, low, after, (List.cons.inj same).2, digits⟩)
  | case4 =>
      obtain ⟨before, high, low, after, same, -⟩ := escaped
      cases before <;> cases same

theorem decodesForm_unescape : DecodesForm fun text => unescape (text.map blank) where
  kept := by
    intro text plain
    exact unescape_of_not_hasEscape (mt hasEscape_map_blank.mp plain)
  shorter := by
    intro text escaped
    have shorter := length_unescape_lt (hasEscape_map_blank.mpr escaped)
    rwa [List.length_map] at shorter

end Escapes
end Foundation
