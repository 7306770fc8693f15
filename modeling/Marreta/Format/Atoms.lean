import Marreta.Format.Respace

namespace Marreta

open Foundation

/-! What the scanner reads back from a respaced line.

`Scans line atoms` says that a line consists of the given atoms with blanks
between them, each atom standing where nothing after it belongs to it.  The
scanner computes the one list of atoms of a line, and joining that list gives a
line of the same atoms. -/

section Scans

variable (beyondAscii : Char → Bool)

/-- The first character of an operator atom. -/
def StartsOperator (ch : Char) : Prop :=
  isBlank ch = false ∧ ch ≠ '"' ∧ ch ≠ '#' ∧ isWordAtomChar beyondAscii ch = false

/-- The scanner takes the whole atom, and nothing of the text after it. -/
def Atom.ReadsOff : Atom → List Char → Prop
  | .word text, after =>
      text ≠ [] ∧ (∀ ch ∈ text, isWordAtomChar beyondAscii ch = true) ∧
        ∀ ch ∈ after.head?, isWordAtomChar beyondAscii ch = false
  | .str text, after =>
      ∃ body, text = '"' :: body ∧ stringSpan (body ++ after) = (body, after)
  | .comment text, after => text.head? = some '#' ∧ after = []
  | .op text, after =>
      (∃ ch rest, text = ch :: rest ∧ StartsOperator beyondAscii ch) ∧
        operatorLength (text ++ after) = text.length

inductive Scans : List Char → List Atom → Prop
  | nil : Scans [] []
  | blank {ch : Char} {line : List Char} {atoms : List Atom} :
      isBlank ch = true → Scans line atoms → Scans (ch :: line) atoms
  | atom {atom : Atom} {line : List Char} {atoms : List Atom} :
      atom.ReadsOff beyondAscii line → Scans line atoms →
        Scans (atom.textOf ++ line) (atom :: atoms)

end Scans

variable {beyondAscii : Char → Bool}

/-! ## Characters -/

theorem not_isWordAtomChar {ch : Char} (ascii : ch.toNat < 128)
    (plain : ch.isAlphanum = false ∧ ch ≠ '_') :
    isWordAtomChar beyondAscii ch = false := by
  simp [isWordAtomChar, Text.isAlphanumeric, ascii, plain]

theorem isWordAtomChar_spec {ch : Char} (word : isWordAtomChar beyondAscii ch = true) :
    isBlank ch = false ∧ ch ≠ '"' ∧ ch ≠ '#' ∧ ch ≠ '>' ∧ ch ≠ '=' := by
  have differs : ∀ other : Char, other.toNat < 128 →
      other.isAlphanum = false ∧ other ≠ '_' → ch ≠ other := by
    rintro other ascii plain rfl
    rw [not_isWordAtomChar ascii plain] at word
    exact absurd word (by decide)
  refine ⟨?_, differs _ (by decide) (by decide), differs _ (by decide) (by decide),
    differs _ (by decide) (by decide), differs _ (by decide) (by decide)⟩
  simp [isBlank, differs ' ' (by decide) (by decide), differs '\t' (by decide) (by decide)]

/-! ## String literals -/

theorem stringSpan_append (text : List Char) :
    (stringSpan text).1 ++ (stringSpan text).2 = text := by
  fun_induction stringSpan text <;> simp_all

theorem stringSpan_fst_ne_nil {text : List Char} (nonempty : text ≠ []) :
    (stringSpan text).1 ≠ [] := by
  fun_cases stringSpan text <;> simp_all

theorem stringSpan_other {ch : Char} {rest : List Char} (escape : ch ≠ '\\')
    (quote : ch ≠ '"') :
    stringSpan (ch :: rest) = (ch :: (stringSpan rest).1, (stringSpan rest).2) := by
  rw [stringSpan]
  · exact fun same => absurd same escape
  · exact fun _ _ same => absurd same escape
  · exact quote

/-- A span that leaves some text ends in its closing quote, so what it leaves
can be replaced. -/
theorem stringSpan_closed {body after : List Char} (nonempty : after ≠ [])
    (spans : stringSpan (body ++ after) = (body, after)) (other : List Char) :
    stringSpan (body ++ other) = (body, other) := by
  induction body using stringSpan.induct with
  | case1 => exact absurd (congrArg Prod.fst spans) (stringSpan_fst_ne_nil nonempty)
  | case2 =>
      obtain ⟨escaped, rest, rfl⟩ := List.exists_cons_of_ne_nil nonempty
      simp [stringSpan] at spans
  | case3 escaped rest _ _ _ ih =>
      simp only [List.cons_append, stringSpan, Prod.mk.injEq, List.cons.injEq,
        true_and] at spans ⊢
      exact Prod.ext_iff.mp (ih (Prod.ext spans.1 spans.2))
  | case4 rest =>
      simp only [List.cons_append, stringSpan, Prod.mk.injEq, List.cons.injEq,
        true_and] at spans ⊢
      simp [← spans.1]
  | case5 ch rest last inner quote _ _ _ ih =>
      have escape : ch ≠ '\\' := by
        rintro rfl
        cases rest with
        | nil => exact last rfl rfl
        | cons escaped rest => exact inner escaped rest rfl rfl
      rw [List.cons_append, stringSpan_other escape quote] at spans ⊢
      simp only [Prod.mk.injEq, List.cons.injEq, true_and] at spans ⊢
      exact Prod.ext_iff.mp (ih (Prod.ext spans.1 spans.2))

/-! ## Operators -/

/-- The operators of more than one character. -/
def longOperators : List (List Char) :=
  ["*>>", ">>", "->", "=>", "==", "!=", ">=", "<="].map String.toList

theorem operatorLength_cases (text : List Char) :
    operatorLength text = 1 ∨ ∃ operator ∈ longOperators, ∃ rest,
      text = operator ++ rest ∧ operatorLength text = operator.length := by
  unfold operatorLength
  split
  all_goals first
    | exact .inl rfl
    | exact .inr ⟨_ :: _ :: _ :: [], by decide, _, rfl, rfl⟩
    | exact .inr ⟨_ :: _ :: [], by decide, _, rfl, rfl⟩

theorem operatorLength_long {operator : List Char} (long : operator ∈ longOperators)
    (rest : List Char) : operatorLength (operator ++ rest) = operator.length := by
  simp only [longOperators, List.map_cons, List.map_nil, List.mem_cons, List.not_mem_nil,
    or_false] at long
  rcases long with rfl | rfl | rfl | rfl | rfl | rfl | rfl | rfl <;> rfl

/-- The second character of a long operator tells it from a shorter one. -/
theorem second_of_long {operator : List Char} (long : operator ∈ longOperators) :
    ∃ first second rest, operator = first :: second :: rest ∧ (second = '>' ∨ second = '=') ∧
      first ∉ ['.', '?', '(', '['] := by
  simp only [longOperators, List.map_cons, List.map_nil, List.mem_cons, List.not_mem_nil,
    or_false] at long
  rcases long with rfl | rfl | rfl | rfl | rfl | rfl | rfl | rfl <;>
    exact ⟨_, _, _, rfl, by decide, by decide⟩

theorem operatorLength_eq_one {ch : Char} {after : List Char}
    (apart : ∀ next ∈ after.head?, next ≠ '>' ∧ next ≠ '=') :
    operatorLength (ch :: after) = 1 := by
  rcases operatorLength_cases (ch :: after) with one | ⟨operator, long, rest, same, -⟩
  · exact one
  · obtain ⟨first, second, more, rfl, mark, -⟩ := second_of_long long
    obtain ⟨rfl, rfl⟩ := List.cons.inj same
    obtain ⟨notMore, notEqual⟩ := apart second rfl
    exact absurd mark (not_or.mpr ⟨notMore, notEqual⟩)

/-- An operator of more than one character is found whatever follows it. -/
theorem operatorLength_closed {text after : List Char} (long : text.length ≠ 1)
    (spans : operatorLength (text ++ after) = text.length) (other : List Char) :
    operatorLength (text ++ other) = text.length := by
  rcases operatorLength_cases (text ++ after) with one | ⟨operator, member, rest, same, length⟩
  · exact absurd (spans.symm.trans one) long
  · obtain ⟨rfl, -⟩ := List.append_inj same (spans.symm.trans length)
    exact operatorLength_long member other

theorem operatorLength_single {ch : Char} {after : List Char}
    (single : ch = '.' ∨ ch = '?' ∨ ch = '(' ∨ ch = '[') :
    operatorLength (ch :: after) = 1 := by
  rcases operatorLength_cases (ch :: after) with one | ⟨operator, long, rest, same, -⟩
  · exact one
  · obtain ⟨first, second, more, rfl, -, other⟩ := second_of_long long
    obtain ⟨rfl, -⟩ := List.cons.inj same
    exact absurd (by simpa using single) other

theorem operatorLength_pos (text : List Char) : 0 < operatorLength text := by
  rcases operatorLength_cases text with one | ⟨operator, long, rest, -, length⟩
  · rw [one]
    exact Nat.one_pos
  · obtain ⟨first, second, more, rfl, -, -⟩ := second_of_long long
    rw [length]
    exact Nat.succ_pos _

theorem operatorLength_le {text : List Char} (nonempty : text ≠ []) :
    operatorLength text ≤ text.length := by
  rcases operatorLength_cases text with one | ⟨operator, -, rest, rfl, length⟩
  · rw [one]
    exact List.length_pos_iff.mpr nonempty
  · rw [length, List.length_append]
    exact Nat.le_add_right _ _

/-! ## The scanner computes the atoms of a line -/

theorem span_append {p : Char → Bool} {text after : List Char}
    (inside : ∀ ch ∈ text, p ch = true) (outside : ∀ ch ∈ after.head?, p ch = false) :
    (text ++ after).takeWhile p = text ∧ (text ++ after).dropWhile p = after := by
  rw [List.takeWhile_append_of_pos inside, List.dropWhile_append_of_pos inside]
  cases after with
  | nil => simp
  | cons ch after =>
      have stops : p ch = false := outside ch rfl
      simp [stops]

theorem head?_dropWhile {p : Char → Bool} {text : List Char} :
    ∀ ch ∈ (text.dropWhile p).head?, p ch = false := by
  intro ch found
  have stops := List.head?_dropWhile_not p text
  rw [Option.mem_def.mp found] at stops
  exact stops

theorem Scans.cut (atom : Atom) {line after : List Char} {atoms : List Atom}
    (whole : atom.textOf ++ after = line) (reads : atom.ReadsOff beyondAscii after)
    (scans : Scans beyondAscii after atoms) : Scans beyondAscii line (atom :: atoms) := by
  rw [← whole]
  exact .atom reads scans

theorem scans_scanFrom (fuel : Nat) {line : List Char} (fits : line.length ≤ fuel) :
    Scans beyondAscii line (scanFrom beyondAscii fuel line) := by
  induction fuel generalizing line with
  | zero =>
      obtain rfl := List.length_eq_zero_iff.mp (Nat.le_zero.mp fits)
      exact .nil
  | succ fuel ih =>
      cases line with
      | nil => exact .nil
      | cons ch rest =>
          have shorter : ∀ text after : List Char, text ≠ [] → text ++ after = ch :: rest →
              Scans beyondAscii after (scanFrom beyondAscii fuel after) := by
            intro text after nonempty whole
            have sizes := congrArg List.length whole
            have positive := List.length_pos_iff.mpr nonempty
            simp only [List.length_append, List.length_cons] at sizes fits
            exact ih (by omega)
          rw [scanFrom]
          split
          · rename_i blank
            exact .blank blank (shorter [ch] rest (by simp) rfl)
          split
          · rename_i quote
            have whole : ch :: (stringSpan rest).1 ++ (stringSpan rest).2 = ch :: rest := by
              rw [List.cons_append, stringSpan_append]
            refine .cut (.str _) whole ⟨_, by rw [quote], ?_⟩ (shorter _ _ (by simp) whole)
            rw [stringSpan_append]
          split
          · rename_i hash
            exact .cut (.comment _) (List.append_nil _) ⟨by rw [hash]; rfl, rfl⟩ .nil
          split
          · rename_i word
            have whole : (ch :: rest).takeWhile (isWordAtomChar beyondAscii) ++
                (ch :: rest).dropWhile (isWordAtomChar beyondAscii) = ch :: rest :=
              List.takeWhile_append_dropWhile
            have nonempty : (ch :: rest).takeWhile (isWordAtomChar beyondAscii) ≠ [] := by
              simp [word]
            refine .cut (.word _) whole ⟨nonempty, fun letter member => ?_, head?_dropWhile⟩
              (shorter _ _ nonempty whole)
            exact List.mem_takeWhile_imp member
          · rename_i blank quote hash word
            have whole := List.take_append_drop (operatorLength (ch :: rest)) (ch :: rest)
            have bounded := operatorLength_le (List.cons_ne_nil ch rest)
            have starts : (ch :: rest).take (operatorLength (ch :: rest)) =
                ch :: rest.take (operatorLength (ch :: rest) - 1) :=
              List.take_cons (operatorLength_pos (ch :: rest))
            refine .cut (.op _) whole
              ⟨⟨ch, _, starts, by simpa using blank, quote, hash, by simpa using word⟩, ?_⟩
              (shorter _ _ (by rw [starts]; simp) whole)
            rw [whole, List.length_take, Nat.min_eq_left bounded]

namespace Atom

theorem ReadsOff.textOf_ne_nil {atom : Atom} {after : List Char}
    (reads : atom.ReadsOff beyondAscii after) : atom.textOf ≠ [] := by
  cases atom with
  | word text => exact reads.1
  | str text =>
      obtain ⟨body, rfl, -⟩ := reads
      simp [textOf]
  | comment text =>
      intro empty
      have head := reads.1
      simp_all [textOf]
  | op text =>
      obtain ⟨⟨ch, rest, rfl, -⟩, -⟩ := reads
      simp [textOf]

theorem ReadsOff.scanFrom_succ {atom : Atom} {after : List Char}
    (reads : atom.ReadsOff beyondAscii after) (fuel : Nat) :
    scanFrom beyondAscii (fuel + 1) (atom.textOf ++ after) =
      atom :: scanFrom beyondAscii fuel after := by
  cases atom with
  | word text =>
      obtain ⟨nonempty, inside, outside⟩ := reads
      obtain ⟨ch, rest, rfl⟩ := List.exists_cons_of_ne_nil nonempty
      have word := inside ch (by simp)
      obtain ⟨blank, quote, hash, -⟩ := isWordAtomChar_spec word
      obtain ⟨taken, dropped⟩ := span_append inside outside
      rw [List.cons_append] at taken dropped
      simp [textOf, scanFrom, word, blank, quote, hash, taken, dropped]
  | str text =>
      obtain ⟨body, rfl, spans⟩ := reads
      simp [textOf, scanFrom, isBlank, spans]
  | comment text =>
      obtain ⟨head, rfl⟩ := reads
      cases text with
      | nil => simp at head
      | cons ch rest =>
          obtain rfl : ch = '#' := by simpa using head
          cases fuel <;> simp [textOf, scanFrom, isBlank]
  | op text =>
      obtain ⟨⟨ch, rest, rfl, blank, quote, hash, word⟩, length⟩ := reads
      rw [List.cons_append] at length
      simp [textOf, scanFrom, blank, quote, hash, word, length]

end Atom

theorem Scans.scanFrom_eq {line : List Char} {atoms : List Atom}
    (scans : Scans beyondAscii line atoms) (fuel : Nat) (fits : line.length ≤ fuel) :
    scanFrom beyondAscii fuel line = atoms := by
  induction scans generalizing fuel with
  | nil => cases fuel <;> rfl
  | blank blank _ ih =>
      cases fuel with
      | zero => simp at fits
      | succ fuel =>
          rw [scanFrom, if_pos blank]
          exact ih fuel (by simpa using fits)
  | atom reads _ ih =>
      have positive := List.length_pos_iff.mpr reads.textOf_ne_nil
      rw [List.length_append] at fits
      obtain ⟨fuel, rfl⟩ := Nat.exists_eq_add_of_lt (Nat.lt_of_lt_of_le positive (Nat.le_trans (Nat.le_add_right _ _) fits))
      rw [Nat.zero_add, reads.scanFrom_succ, ih fuel (by omega)]

theorem scans_scanAtoms (line : List Char) :
    Scans beyondAscii line (scanAtoms beyondAscii line) :=
  scans_scanFrom _ (Nat.le_refl _)

theorem Scans.scanAtoms_eq {line : List Char} {atoms : List Atom}
    (scans : Scans beyondAscii line atoms) : scanAtoms beyondAscii line = atoms :=
  scans.scanFrom_eq _ (Nat.le_refl _)

theorem Scans.nil_inv {line : List Char} (scans : Scans beyondAscii line []) :
    ∀ ch ∈ line, isBlank ch = true := by
  generalize found : ([] : List Atom) = all at scans
  induction scans with
  | nil => simp
  | blank blank _ ih => simpa [blank] using ih found
  | atom _ _ _ => cases found

theorem Scans.cons_inv {line : List Char} {atom : Atom} {atoms : List Atom}
    (scans : Scans beyondAscii line (atom :: atoms)) :
    ∃ blanks after, line = blanks ++ (atom.textOf ++ after) ∧
      (∀ ch ∈ blanks, isBlank ch = true) ∧
      atom.ReadsOff beyondAscii after ∧ Scans beyondAscii after atoms := by
  generalize found : atom :: atoms = all at scans
  induction scans with
  | nil => cases found
  | @blank ch _ _ blank _ ih =>
      obtain ⟨blanks, after, rfl, all, reads, scans⟩ := ih found
      exact ⟨ch :: blanks, after, rfl, by simpa [blank] using all, reads, scans⟩
  | atom reads scans _ =>
      cases found
      exact ⟨[], _, rfl, by simp, reads, scans⟩

theorem Scans.blanks {blanks line : List Char} {atoms : List Atom}
    (scans : Scans beyondAscii line atoms) (blank : ∀ ch ∈ blanks, isBlank ch = true) :
    Scans beyondAscii (blanks ++ line) atoms := by
  induction blanks with
  | nil => exact scans
  | cons ch blanks ih =>
      exact .blank (blank ch (by simp)) (ih fun ch member => blank ch (by simp [member]))

/-! ## Joining keeps the atoms

Two atoms that the separator leaves tight never run into each other: a word is
only tight against something that is no word, and an operator that could be the
second half of a longer one is spaced, unless the atom before it cannot be the
first half. -/

theorem mem_spacedOperators {text after : List Char}
    (length : operatorLength (text ++ after) = text.length)
    (second : text.head? = some '>' ∨ text.head? = some '=') : text ∈ spacedOperators := by
  unfold operatorLength at length
  match text with
  | [] => simp at second
  | [first] =>
      rcases second with same | same <;>
        obtain rfl := Option.some.inj same <;> decide
  | [first, next] =>
      change _ = 2 at length
      split at length
      all_goals first
        | exact absurd length (by decide)
        | rename_i same
          cases same
          decide
  | first :: next :: third :: rest =>
      split at length
      · rename_i same
        cases same
        simp at second
      all_goals simp at length

theorem separator_word_word (prevPrev : Option Atom) (first second : List Char) :
    separator prevPrev (.word first) (.word second) = true := by
  simp [separator, Atom.isOp, Atom.opStr]

theorem tight_spaced {prevPrev : Option Atom} {prev : Atom} {text : List Char}
    (tight : separator prevPrev prev (.op text) = false) (spaced : text ∈ spacedOperators) :
    prev.isOp "." ∨ prev.isOp "?" ∨ prev.isOp "(" ∨ prev.isOp "[" := by
  have plain : ∀ other ∈ [".", "?", ")", "]", ",", ":", "\x7d", "(", "["],
      (Atom.op text).isOp other = false := by
    intro other member
    simp only [Atom.isOp, Atom.opStr, decide_eq_false_iff_not, Option.some.injEq]
    rintro rfl
    clear tight
    revert other
    decide
  have binary : (Atom.op text).opStr.any (isBinarySpacedOp · (isOperandEnd prev)) = true := by
    simp [Atom.opStr, isBinarySpacedOp, spaced]
  by_contra none
  simp only [not_or, Bool.not_eq_true] at none
  obtain ⟨dot, optional, paren, bracket⟩ := none
  simp [separator, plain, dot, optional, paren, bracket, binary] at tight

namespace Atom

theorem ReadsOff.last {atom : Atom} {after : List Char}
    (reads : atom.ReadsOff beyondAscii after) : atom.ReadsOff beyondAscii [] := by
  cases atom with
  | word text => exact ⟨reads.1, reads.2.1, by simp⟩
  | str text =>
      obtain ⟨body, rfl, spans⟩ := reads
      refine ⟨body, rfl, ?_⟩
      by_cases nonempty : after = []
      · rwa [nonempty] at spans
      · exact stringSpan_closed nonempty spans []
  | comment text => exact ⟨reads.1, rfl⟩
  | op text =>
      obtain ⟨starts, length⟩ := reads
      refine ⟨starts, ?_⟩
      by_cases long : text.length = 1
      · obtain ⟨ch, rfl⟩ := List.length_eq_one_iff.mp long
        exact operatorLength_eq_one (by simp)
      · exact operatorLength_closed long length []

/-- An atom is still read off when the text after it is replaced by one that
starts with a blank. -/
theorem ReadsOff.spaced {atom : Atom} {after : List Char} (nonempty : after ≠ [])
    (reads : atom.ReadsOff beyondAscii after) (other : List Char) :
    atom.ReadsOff beyondAscii (' ' :: other) := by
  cases atom with
  | word text =>
      refine ⟨reads.1, reads.2.1, fun ch head => ?_⟩
      obtain rfl : ch = ' ' := by simpa using head.symm
      exact not_isWordAtomChar (by decide) (by decide)
  | str text =>
      obtain ⟨body, rfl, spans⟩ := reads
      exact ⟨body, rfl, stringSpan_closed nonempty spans _⟩
  | comment text => exact absurd reads.2 nonempty
  | op text =>
      obtain ⟨starts, length⟩ := reads
      refine ⟨starts, ?_⟩
      by_cases long : text.length = 1
      · obtain ⟨ch, rfl⟩ := List.length_eq_one_iff.mp long
        exact operatorLength_eq_one (by simp)
      · exact operatorLength_closed long length _

theorem ReadsOff.tight {prev next : Atom} {after later : List Char} (nonempty : after ≠ [])
    (reads : prev.ReadsOff beyondAscii after) (nextReads : next.ReadsOff beyondAscii later)
    {prevPrev : Option Atom} (tight : gapBefore prevPrev prev next = []) (other : List Char) :
    prev.ReadsOff beyondAscii (next.textOf ++ other) := by
  have close : separator prevPrev prev next = false := by
    cases next <;> simp_all [gapBefore]
  cases prev with
  | word text =>
      refine ⟨reads.1, reads.2.1, fun ch head => ?_⟩
      cases next with
      | word second => simp [separator_word_word] at close
      | str second =>
          obtain ⟨body, rfl, -⟩ := nextReads
          obtain rfl : ch = '"' := by simpa [textOf] using head.symm
          exact not_isWordAtomChar (by decide) (by decide)
      | comment second => simp [gapBefore] at tight
      | op second =>
          obtain ⟨⟨start, rest, rfl, -, -, -, word⟩, -⟩ := nextReads
          obtain rfl : ch = start := by simpa [textOf] using head.symm
          exact word
  | str text =>
      obtain ⟨body, rfl, spans⟩ := reads
      exact ⟨body, rfl, stringSpan_closed nonempty spans _⟩
  | comment text => exact absurd reads.2 nonempty
  | op text =>
      obtain ⟨starts, length⟩ := reads
      refine ⟨starts, ?_⟩
      by_cases long : text.length ≠ 1
      · exact operatorLength_closed long length _
      obtain ⟨first, rfl⟩ := List.length_eq_one_iff.mp (Decidable.not_not.mp long)
      by_cases apart : ∀ ch ∈ (next.textOf ++ other).head?, ch ≠ '>' ∧ ch ≠ '='
      · exact operatorLength_eq_one apart
      have second : next.textOf.head? = some '>' ∨ next.textOf.head? = some '=' := by
        obtain ⟨ch, rest, same⟩ := List.exists_cons_of_ne_nil nextReads.textOf_ne_nil
        simp only [same, List.cons_append, List.head?_cons] at apart ⊢
        simp only [Option.mem_def, Option.some.injEq, forall_eq'] at apart ⊢
        exact Decidable.or_iff_not_not_and_not.mpr apart
      cases next with
      | word word =>
          have letters : ∀ ch ∈ word.head?, isWordAtomChar beyondAscii ch = true :=
            fun ch head => nextReads.2.1 ch (List.mem_of_mem_head? head)
          rcases second with head | head
          all_goals
            have letter := isWordAtomChar_spec (letters _ head)
            simp at letter
      | str literal =>
          obtain ⟨body, rfl, -⟩ := nextReads
          simp [textOf] at second
      | comment comment => simp [gapBefore] at tight
      | op operator =>
          apply operatorLength_single
          simpa [isOp, opStr] using tight_spaced close (mem_spacedOperators nextReads.2 second)

end Atom

theorem eq_space_of_mem_gapBefore {prevPrev : Option Atom} {prev cur : Atom} {ch : Char}
    (member : ch ∈ gapBefore prevPrev prev cur) : ch = ' ' := by
  cases cur <;> simp only [gapBefore] at member
  case comment => simpa using member
  all_goals
    split at member <;> simp_all

theorem readsOff_joinAfter {prev : Atom} {after : List Char} {atoms : List Atom}
    (reads : prev.ReadsOff beyondAscii after) (scans : Scans beyondAscii after atoms)
    (prevPrev : Option Atom) : prev.ReadsOff beyondAscii (joinAfter prevPrev prev atoms) := by
  cases atoms with
  | nil => exact reads.last
  | cons next atoms =>
      have nonempty : after ≠ [] := by
        rintro rfl
        have found := scans.scanAtoms_eq
        simp [scanAtoms, scanFrom] at found
      obtain ⟨-, later, -, -, nextReads, -⟩ := scans.cons_inv
      rw [joinAfter]
      cases gap : gapBefore prevPrev prev next with
      | nil => exact reads.tight nonempty nextReads gap _
      | cons ch gap' =>
          obtain rfl : ch = ' ' := eq_space_of_mem_gapBefore (by rw [gap]; simp)
          exact reads.spaced nonempty _

theorem scans_joinAfter {prev : Atom} {after : List Char} {atoms : List Atom}
    (scans : Scans beyondAscii after atoms) (prevPrev : Option Atom) :
    Scans beyondAscii (joinAfter prevPrev prev atoms) atoms := by
  induction atoms generalizing after prevPrev prev with
  | nil => exact .nil
  | cons next atoms ih =>
      obtain ⟨-, later, -, -, nextReads, later_scans⟩ := scans.cons_inv
      refine Scans.blanks (.atom (readsOff_joinAfter nextReads later_scans _) (ih later_scans _)) ?_
      intro ch member
      rw [eq_space_of_mem_gapBefore member]
      decide

/-- Joining the atoms of a line gives a line of the same atoms. -/
theorem scans_respaceLine (line : List Char) :
    Scans beyondAscii (respaceLine beyondAscii line) (scanAtoms beyondAscii line) := by
  have scans : Scans beyondAscii line (scanAtoms beyondAscii line) := scans_scanAtoms line
  unfold respaceLine
  generalize scanAtoms beyondAscii line = atoms at scans
  cases atoms with
  | nil => exact .nil
  | cons first atoms =>
      obtain ⟨-, after, -, -, reads, rest⟩ := scans.cons_inv
      exact .atom (readsOff_joinAfter reads rest none) (scans_joinAfter rest none)

theorem respaceLine_respaceLine (line : List Char) :
    respaceLine beyondAscii (respaceLine beyondAscii line) = respaceLine beyondAscii line := by
  have same : scanAtoms beyondAscii (respaceLine beyondAscii line) = _ :=
    (scans_respaceLine line).scanAtoms_eq
  rw [respaceLine, same, respaceLine]

/-! ## The ends of a respaced line -/

theorem getLast?_around {text : List Char} (nonempty : text ≠ []) (first last : List Char) :
    (first ++ (text ++ last)).getLast? = last.getLast?.or text.getLast? := by
  obtain ⟨ch, found⟩ := Option.isSome_iff_exists.mp (List.getLast?_isSome.mpr nonempty)
  rw [List.getLast?_append, List.getLast?_append, found]
  cases last.getLast? <;> rfl

theorem Scans.getLast?_joinAfter {line : List Char} {atoms : List Atom}
    (scans : Scans beyondAscii line atoms) (ends : ∀ ch ∈ line.getLast?, isBlank ch = false)
    (prevPrev : Option Atom) (prev : Atom) :
    (joinAfter prevPrev prev atoms).getLast? = line.getLast? := by
  induction atoms generalizing line prevPrev prev with
  | nil =>
      cases found : line.getLast? with
      | none => rfl
      | some ch =>
          have blank := scans.nil_inv ch (List.mem_of_getLast? found)
          rw [ends ch found] at blank
          cases blank
  | cons atom atoms ih =>
      obtain ⟨blanks, after, rfl, -, reads, rest⟩ := scans.cons_inv
      rw [getLast?_around reads.textOf_ne_nil] at ends ⊢
      rw [joinAfter, getLast?_around reads.textOf_ne_nil, ih rest]
      intro ch last
      exact ends ch (by rw [Option.mem_def.mp last]; rfl)

/-- A respaced line that neither starts nor ends in a blank keeps its first and
its last character. -/
theorem respaceLine_ends {line : List Char}
    (starts : ∀ ch ∈ line.head?, isBlank ch = false)
    (ends : ∀ ch ∈ line.getLast?, isBlank ch = false) :
    (respaceLine beyondAscii line).head? = line.head? ∧
      (respaceLine beyondAscii line).getLast? = line.getLast? := by
  have scans : Scans beyondAscii line (scanAtoms beyondAscii line) := scans_scanAtoms line
  unfold respaceLine
  generalize scanAtoms beyondAscii line = atoms at scans
  cases atoms with
  | nil =>
      cases line with
      | nil => exact ⟨rfl, rfl⟩
      | cons ch line => simp [scans.nil_inv ch] at starts
  | cons first atoms =>
      obtain ⟨blanks, after, rfl, blank, reads, rest⟩ := scans.cons_inv
      obtain ⟨ch, text, same⟩ := List.exists_cons_of_ne_nil reads.textOf_ne_nil
      cases blanks with
      | cons ch blanks => simp [blank ch] at starts
      | nil =>
          refine ⟨by simp [joinAtoms, same], ?_⟩
          rw [getLast?_around reads.textOf_ne_nil] at ends ⊢
          rw [joinAtoms, ← List.nil_append (_ ++ _), getLast?_around reads.textOf_ne_nil,
            rest.getLast?_joinAfter]
          intro ch last
          exact ends ch (by rw [Option.mem_def.mp last]; rfl)

theorem Scans.mem_joinAfter {line : List Char} {atoms : List Atom}
    (scans : Scans beyondAscii line atoms) {prevPrev : Option Atom} {prev : Atom} {ch : Char}
    (member : ch ∈ joinAfter prevPrev prev atoms) : ch = ' ' ∨ ch ∈ line := by
  induction atoms generalizing line prevPrev prev with
  | nil => simp [joinAfter] at member
  | cons atom atoms ih =>
      obtain ⟨blanks, after, rfl, -, -, rest⟩ := scans.cons_inv
      rw [joinAfter, List.mem_append, List.mem_append] at member
      rcases member with gap | text | later
      · exact .inl (eq_space_of_mem_gapBefore gap)
      · exact .inr (by simp [text])
      · exact (ih rest later).imp id (by simp +contextual)

theorem mem_respaceLine {line : List Char} {ch : Char}
    (member : ch ∈ respaceLine beyondAscii line) : ch = ' ' ∨ ch ∈ line := by
  have scans : Scans beyondAscii line (scanAtoms beyondAscii line) := scans_scanAtoms line
  unfold respaceLine at member
  generalize scanAtoms beyondAscii line = atoms at scans member
  cases atoms with
  | nil => simp [joinAtoms] at member
  | cons first atoms =>
      obtain ⟨blanks, after, rfl, -, -, rest⟩ := scans.cons_inv
      rw [joinAtoms, List.mem_append] at member
      rcases member with text | later
      · exact .inr (by simp [text])
      · exact (rest.mem_joinAfter later).imp id (by simp +contextual)

end Marreta
