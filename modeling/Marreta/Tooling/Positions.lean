import Mathlib
import Marreta.Syntax.LexerEnds
import Marreta.Tooling.Editor

namespace Marreta.Tooling

open Foundation Foundation.Utf8

/-! Cursors in the editor.

The lexer, the completions and the definitions count the columns of a line in characters.
A hover takes the column as an offset in bytes. -/

/-! ## Identifiers of a line -/

/-- The identifier that ends a text. -/
def identTail (text : List Char) : List Char :=
  (text.reverse.takeWhile isIdent).reverse

def withoutTail (text : List Char) : List Char :=
  (text.reverse.dropWhile isIdent).reverse

theorem withoutTail_append (text : List Char) : withoutTail text ++ identTail text = text := by
  rw [withoutTail, identTail, ← List.reverse_append, List.takeWhile_append_dropWhile,
    List.reverse_reverse]

theorem isIdent_of_mem_identTail {text : List Char} {ch : Char} (inside : ch ∈ identTail text) :
    isIdent ch = true :=
  List.mem_takeWhile_imp (List.mem_reverse.mp inside)

theorem isAscii_of_isIdent {ch : Char} (ident : isIdent ch = true) : isAscii ch = true := by
  apply decide_eq_true
  rw [isIdent, Bool.or_eq_true, Bool.or_eq_true] at ident
  rcases ident with (letter | digit) | low
  · have bounds : ch.val ≤ 122 := by
      rw [Char.isAlpha, Bool.or_eq_true, Char.isUpper, Char.isLower] at letter
      simp only [Bool.and_eq_true, decide_eq_true_eq] at letter
      rcases letter with upper | lower
      · exact UInt32.le_trans upper.2 (by decide)
      · exact lower.2
    exact Nat.lt_of_le_of_lt (UInt32.le_iff_toNat_le.mp bounds) (by decide)
  · rw [Char.isDigit, Bool.and_eq_true, decide_eq_true_eq, decide_eq_true_eq] at digit
    exact Nat.lt_of_le_of_lt (UInt32.le_iff_toNat_le.mp digit.2) (by decide)
  · rw [decide_eq_true_eq] at low
    rw [low]
    decide

/-- The maximal run of identifier characters that contains or touches a cursor, both
counted in characters. -/
structure Touches (text : List Char) (cursor start stop : Nat) : Prop where
  nonempty : start < stop
  inside : stop ≤ text.length
  ident : ∀ place, start ≤ place → place < stop → text[place]?.any isIdent = true
  left : ∀ place, place + 1 = start → text[place]?.any isIdent = false
  right : text[stop]?.any isIdent = false
  cursor : start ≤ cursor ∧ cursor ≤ stop

/-- A split of a line before its identifier and after it. -/
theorem touches_split {front word rest : List Char} {cursor : Nat} (some : word ≠ [])
    (idents : ∀ ch ∈ word, isIdent ch = true)
    (before : ∀ ch ∈ front.getLast?, isIdent ch = false)
    (after : ∀ ch ∈ rest.head?, isIdent ch = false)
    (inside : front.length ≤ cursor ∧ cursor ≤ front.length + word.length) :
    Touches (front ++ word ++ rest) cursor front.length (front.length + word.length) where
  nonempty := Nat.lt_add_of_pos_right (List.length_pos_iff.mpr some)
  inside := by
    rw [List.length_append, List.length_append]
    exact Nat.le_add_right _ _
  ident place from_ upto := by
    have small : place - front.length < word.length := by omega
    rw [List.append_assoc, List.getElem?_append_right from_, List.getElem?_append_left small,
      List.getElem?_eq_getElem small]
    exact idents _ (List.getElem_mem small)
  left place next := by
    have last : front.getLast? = front[place]? := by
      rw [List.getLast?_eq_getElem?]
      congr 1
      omega
    rw [List.append_assoc, List.getElem?_append_left (by omega), ← last]
    cases found : front.getLast? with
    | none => rfl
    | some ch => exact before ch found
  right := by
    rw [List.append_assoc, List.getElem?_append_right (Nat.le_add_right _ _),
      Nat.add_sub_cancel_left, List.getElem?_append_right (Nat.le_refl _), Nat.sub_self]
    cases rest with
    | nil => rfl
    | cons ch rest => exact after ch rfl
  cursor := inside

/-- The identifier around a place of a line. -/
def identAround (before after : List Char) : List Char :=
  identTail before ++ after.takeWhile isIdent

theorem isIdent_of_mem_identAround {before after : List Char} {ch : Char}
    (inside : ch ∈ identAround before after) : isIdent ch = true := by
  rcases List.mem_append.mp inside with inside | inside
  · exact isIdent_of_mem_identTail inside
  · exact List.mem_takeWhile_imp inside

theorem around_append (before after : List Char) :
    withoutTail before ++ identAround before after ++ after.dropWhile isIdent =
      before ++ after := by
  rw [identAround, ← List.append_assoc, withoutTail_append, List.append_assoc,
    List.takeWhile_append_dropWhile]

theorem length_withoutTail (before : List Char) :
    (withoutTail before).length + (identTail before).length = before.length := by
  rw [← List.length_append, withoutTail_append]

theorem touches_around {before after : List Char} (some : identAround before after ≠ []) :
    Touches (before ++ after) before.length (withoutTail before).length
      ((withoutTail before).length + (identAround before after).length) := by
  rw [← around_append before after]
  apply touches_split some fun ch inside => isIdent_of_mem_identAround inside
  · intro ch last
    have stops := List.head?_dropWhile_not isIdent before.reverse
    rw [withoutTail, List.getLast?_reverse] at last
    rw [last] at stops
    simpa using stops
  · intro ch head
    have stops := List.head?_dropWhile_not isIdent after
    rw [head] at stops
    simpa using stops
  · have parts := length_withoutTail before
    rw [identAround, List.length_append]
    omega

theorem not_touches_around {before after : List Char} (none : identAround before after = [])
    (start stop : Nat) : ¬ Touches (before ++ after) before.length start stop := by
  obtain ⟨noTail, noHead⟩ := List.append_eq_nil_iff.mp none
  intro touches
  rcases Nat.lt_or_ge before.length stop with inner | ended
  · have ident := touches.ident before.length touches.cursor.1 inner
    rw [List.getElem?_append_right (Nat.le_refl _), Nat.sub_self] at ident
    cases after with
    | nil => cases ident
    | cons ch rest =>
        rw [List.takeWhile_cons_of_pos (by simpa using ident)] at noHead
        cases noHead
  · have positive : 0 < before.length := Nat.lt_of_lt_of_le
      (Nat.lt_of_le_of_lt (Nat.zero_le _) touches.nonempty) ended
    have same : stop = before.length := Nat.le_antisymm ended touches.cursor.2
    have nonempty := touches.nonempty
    have ident := touches.ident (before.length - 1) (by omega) (by omega)
    rw [List.getElem?_append_left (by omega), ← List.getLast?_eq_getElem?] at ident
    rw [identTail, List.reverse_eq_nil_iff] at noTail
    cases last : before.getLast? with
    | none =>
        rw [last] at ident
        cases ident
    | some ch =>
        rw [last] at ident
        rw [← List.head?_reverse] at last
        obtain ⟨others, reversed⟩ := List.head?_eq_some_iff.mp last
        rw [reversed, List.takeWhile_cons_of_pos (by simpa using ident)] at noTail
        cases noTail

/-! ## Scans -/

theorem utf8Size_of_isIdent {ch : Char} (ident : isIdent ch = true) : ch.utf8Size = 1 := by
  rw [← length_byteChars, byteChars_of_ascii (isAscii_of_isIdent ident)]
  rfl

theorem length_bytes_idents {word : List Char} (idents : ∀ ch ∈ word, isIdent ch = true) :
    (bytes word).length = word.length :=
  length_of_ascii fun ch inside => isAscii_of_isIdent (idents ch inside)

theorem withoutTail_concat (front : List Char) (ch : Char) :
    withoutTail (front ++ [ch]) = if isIdent ch then withoutTail front else front ++ [ch] := by
  rw [withoutTail, List.reverse_append, List.reverse_singleton, List.singleton_append,
    List.dropWhile_cons]
  split
  · rfl
  · rw [List.reverse_cons, List.reverse_reverse]

theorem scanIdentLeftFrom_split (before after : List Char) :
    scanIdentLeftFrom (before ++ after) (bytes before).length =
      some (bytes (withoutTail before)).length := by
  induction before using List.reverseRecOn generalizing after with
  | nil => rfl
  | append_singleton front ch induction =>
      obtain ⟨size, positive⟩ := Nat.exists_eq_add_of_lt (Char.utf8Size_pos ch)
      have total : (bytes (front ++ [ch])).length = (bytes front).length + size + 1 := by
        rw [bytes_append, List.length_append, length_bytes_cons, bytes_nil, List.length_nil]
        omega
      have taken := takeBytes?_bytes (front ++ [ch]) after
      rw [total] at taken ⊢
      rw [scanIdentLeftFrom, taken]
      simp only [List.getLast?_concat]
      rw [withoutTail_concat]
      by_cases ident : isIdent ch = true
      · have single := utf8Size_of_isIdent ident
        have none : size = 0 := by omega
        rw [if_pos ident, if_pos ident, none, Nat.add_zero, List.append_assoc]
        exact induction ([ch] ++ after)
      · rw [if_neg ident, if_neg ident, total]

/-- A scan to the left starts between characters. -/
theorem split_of_scanIdentLeft {line : List Char} {pos start : Nat}
    (scans : scanIdentLeft line pos = some start) :
    ∃ before after, line = before ++ after ∧
      (bytes before).length = min pos (bytes line).length := by
  rw [scanIdentLeft] at scans
  cases place : min pos (bytes line).length with
  | zero => exact ⟨[], line, rfl, rfl⟩
  | succ less =>
      rw [place, scanIdentLeftFrom] at scans
      cases taken : takeBytes? (less + 1) line with
      | none => simp [taken] at scans
      | some before =>
          obtain ⟨after, whole, size⟩ := takeBytes?_eq_some_iff.mp taken
          exact ⟨before, after, whole, size⟩

theorem scanIdentLeft_split (before after : List Char) :
    scanIdentLeft (before ++ after) (bytes before).length =
      some (bytes (withoutTail before)).length := by
  have inside : min (bytes before).length (bytes (before ++ after)).length =
      (bytes before).length := by
    rw [bytes_append, List.length_append]
    omega
  rw [scanIdentLeft, inside, scanIdentLeftFrom_split]

theorem scanIdentRightFrom_split (before after : List Char) :
    scanIdentRightFrom (before ++ after) (bytes after).length (bytes before).length =
      some ((bytes before).length + (after.takeWhile isIdent).length) := by
  induction after generalizing before with
  | nil => rfl
  | cons ch rest induction =>
      obtain ⟨size, own, total⟩ := exists_length_bytes_cons ch rest
      rw [total, scanIdentRightFrom, dropBytes?_bytes]
      by_cases ident : isIdent ch = true
      · have single := utf8Size_of_isIdent ident
        have none : size = 0 := by omega
        have next := induction (before ++ [ch])
        rw [bytes_append, List.length_append, length_bytes_cons, single, bytes_nil,
          List.append_assoc, List.singleton_append, List.length_nil, Nat.add_zero] at next
        simp only [if_pos ident]
        rw [none, Nat.zero_add, next, List.takeWhile_cons_of_pos ident, List.length_cons]
        congr 1
        omega
      · simp only [if_neg ident]
        rw [List.takeWhile_cons_of_neg ident]
        rfl

theorem scanIdentRight_split (before after : List Char) :
    scanIdentRight (before ++ after) (bytes before).length =
      some ((bytes before).length + (after.takeWhile isIdent).length) := by
  have total : (bytes (before ++ after)).length = (bytes before).length + (bytes after).length := by
    rw [bytes_append, List.length_append]
  have inside : min (bytes before).length (bytes (before ++ after)).length =
      (bytes before).length := by
    omega
  have left : (bytes (before ++ after)).length - (bytes before).length = (bytes after).length := by
    omega
  rw [scanIdentRight, inside, left, scanIdentRightFrom_split]

theorem length_bytes_withoutTail (before : List Char) :
    (bytes (withoutTail before)).length + (identTail before).length = (bytes before).length := by
  have whole := congrArg (fun text => (bytes text).length) (withoutTail_append before)
  simp only [bytes_append, List.length_append] at whole
  rw [length_bytes_idents fun ch inside => isIdent_of_mem_identTail inside] at whole
  exact whole

/-- The range at an offset that lies between characters. -/
theorem wordRange_split {before after : List Char} {column : Nat}
    (place : (bytes before).length = min (column - 1) (bytes (before ++ after)).length) :
    wordRange (before ++ after) column =
      some (if identAround before after = [] then none
        else some ((bytes (withoutTail before)).length,
          (bytes (withoutTail before)).length + (identAround before after).length)) := by
  have parts := length_bytes_withoutTail before
  have stop : (bytes before).length + (after.takeWhile isIdent).length =
      (bytes (withoutTail before)).length + (identAround before after).length := by
    rw [identAround, List.length_append]
    omega
  rw [wordRange, ← place, scanIdentLeft_split, scanIdentRight_split, stop]
  have same : (bytes (withoutTail before)).length =
      (bytes (withoutTail before)).length + (identAround before after).length ↔
        identAround before after = [] := by
    rw [← List.length_eq_zero_iff]
    omega
  simp only [Option.bind_eq_bind, Option.bind_some, same]
  rfl

/-! ## The word of a hover -/

/-- The cursor of a column, which is at most the end of the line. -/
def cursorAt (line : List Char) (column : Nat) : Nat :=
  min (column - 1) line.length

/-- A hover finds the identifier at the cursor, if there is one, and reports its span. -/
structure HoverLaw (line : List Char) (column : Nat) : Prop where
  total : wordRange line column ≠ none
  found : ∀ start stop, wordRange line column = some (some (start, stop)) →
    ∃ front word rest, line = front ++ word ++ rest ∧
      (bytes front).length = start ∧ (bytes (front ++ word)).length = stop ∧
      front.length = start ∧ (front ++ word).length = stop ∧
      Touches line (cursorAt line column) start stop
  missing : wordRange line column = some none →
    ∀ start stop, ¬ Touches line (cursorAt line column) start stop

/-- The offset of the column lies between characters.  The characters before it are
ASCII, or else there is no identifier at the offset and none at the cursor. -/
def Aligned (line : List Char) (column : Nat) : Prop :=
  ∃ before after, line = before ++ after ∧
    (bytes before).length = min (column - 1) (bytes line).length ∧
    ((∀ ch ∈ before, isAscii ch = true) ∨
      identAround before after = [] ∧
        identAround (line.take (cursorAt line column)) (line.drop (cursorAt line column)) = [])

/-- A line as it is split by the cursor. -/
theorem take_cursor (line : List Char) (column : Nat) :
    (line.take (cursorAt line column)).length = cursorAt line column := by
  rw [List.length_take, cursorAt]
  omega

theorem cursorAt_of_ascii {before after : List Char} {column : Nat}
    (place : (bytes before).length = min (column - 1) (bytes (before ++ after)).length)
    (ascii : ∀ ch ∈ before, isAscii ch = true) :
    cursorAt (before ++ after) column = before.length := by
  have length := length_of_ascii ascii
  have least : after.length ≤ (bytes after).length := length_le_bytes after
  rw [bytes_append, List.length_append, length] at place
  rw [cursorAt, List.length_append]
  cases after with
  | nil => simpa using place.symm
  | cons ch rest =>
      rw [List.length_cons] at least
      omega

theorem hoverLaw_iff (line : List Char) (column : Nat) :
    HoverLaw line column ↔ Aligned line column := by
  constructor
  · intro law
    obtain ⟨range, computes⟩ := Option.ne_none_iff_exists'.mp law.total
    obtain ⟨start, scans, -⟩ := Option.bind_eq_some_iff.mp computes
    obtain ⟨before, after, rfl, place⟩ := split_of_scanIdentLeft scans
    have place : (bytes before).length = min (column - 1) (bytes (before ++ after)).length := by
      omega
    have range := wordRange_split place
    refine ⟨before, after, rfl, place, ?_⟩
    by_cases none : identAround before after = []
    · rw [if_pos none] at range
      refine .inr ⟨none, ?_⟩
      by_contra some
      have touches := touches_around some
      rw [List.take_append_drop, take_cursor] at touches
      exact law.missing range _ _ touches
    · rw [if_neg none] at range
      obtain ⟨front, word, rest, whole, size, -, length, -⟩ := law.found _ _ range
      have splits : withoutTail before ++
          (identAround before after ++ after.dropWhile isIdent) = front ++ (word ++ rest) := by
        rw [← List.append_assoc, ← List.append_assoc, ← whole, around_append]
      have same : withoutTail before = front := front_unique splits size.symm
      have ascii := ascii_of_length (size.trans length.symm)
      refine .inl fun ch inside => ?_
      rw [← withoutTail_append before, same] at inside
      rcases List.mem_append.mp inside with inside | inside
      · exact ascii ch inside
      · exact isAscii_of_isIdent (isIdent_of_mem_identTail inside)
  · rintro ⟨before, after, rfl, place, cases⟩
    have range := wordRange_split place
    rcases cases with ascii | ⟨none, noneAtCursor⟩
    · have cursor := cursorAt_of_ascii place ascii
      have front : (bytes (withoutTail before)).length = (withoutTail before).length := by
        have parts := length_bytes_withoutTail before
        have lengths := length_withoutTail before
        have length := length_of_ascii ascii
        omega
      constructor
      · rw [range]
        exact Option.some_ne_none _
      · intro start stop found
        rw [range] at found
        by_cases none : identAround before after = []
        · simp [none] at found
        · rw [if_neg none] at found
          obtain ⟨rfl, rfl⟩ := Prod.mk.inj (Option.some.inj (Option.some.inj found))
          have touches := touches_around none
          refine ⟨withoutTail before, identAround before after, after.dropWhile isIdent,
            (around_append before after).symm, rfl, ?_, front.symm, ?_, ?_⟩
          · rw [bytes_append, List.length_append,
              length_bytes_idents fun ch inside => isIdent_of_mem_identAround inside]
          · rw [List.length_append, front]
          · rw [cursor, front]
            exact touches
      · intro missing
        rw [range] at missing
        by_cases none : identAround before after = []
        · rw [cursor]
          exact not_touches_around none
        · simp [none] at missing
    · rw [if_pos none] at range
      constructor
      · rw [range]
        exact Option.some_ne_none _
      · intro start stop found
        rw [range] at found
        cases found
      · intro _ start stop touches
        apply not_touches_around noneAtCursor start stop
        rw [List.take_append_drop, take_cursor]
        exact touches

/-! ## Slices -/

/-- The byte before an offset between characters is a character. -/
theorem getLast?_of_byte {before after : List Char} {ch : Char} (ascii : isAscii ch = true)
    (positive : 0 < (bytes before).length)
    (byte : (bytes (before ++ after))[(bytes before).length - 1]? = some ch) :
    before.getLast? = some ch := by
  rw [bytes_append, List.getElem?_append_left (Nat.sub_lt positive Nat.one_pos),
    ← List.getLast?_eq_getElem?] at byte
  induction before using List.reverseRecOn with
  | nil => cases byte
  | append_singleton front last =>
      rw [bytes_append, bytes_cons, bytes_nil, List.append_nil, List.getLast?_append,
        List.getLast?_eq_some_getLast (byteChars_ne_nil last), Option.some_or] at byte
      have inside : ch ∈ byteChars last := by
        rw [← Option.some.inj byte]
        exact List.getLast_mem _
      cases wide : isAscii last with
      | false =>
          have high := not_ascii_of_mem_byteChars wide inside
          rw [ascii] at high
          cases high
      | true =>
          rw [byteChars_of_ascii wide, List.mem_singleton] at inside
          rw [List.getLast?_concat, inside]

theorem slice?_word (front : List Char) {word : List Char} (rest : List Char)
    (idents : ∀ ch ∈ word, isIdent ch = true) :
    slice? (front ++ word ++ rest) (bytes front).length ((bytes front).length + word.length) =
      some word := by
  have sliced := slice?_between front word rest
  rwa [length_bytes_idents idents] at sliced

theorem dottedNameAt_total (front : List Char) {word : List Char} (rest : List Char)
    (idents : ∀ ch ∈ word, isIdent ch = true) :
    ∃ dotted, dottedNameAt (front ++ word ++ rest) (bytes front).length
      ((bytes front).length + word.length) = some dotted := by
  have sliced := slice?_word front rest idents
  rw [dottedNameAt]
  split
  case isTrue dot =>
      have last : front.getLast? = some '.' := by
        rw [List.append_assoc] at dot
        exact getLast?_of_byte (by decide) (by omega) dot.2
      obtain ⟨names, rfl⟩ := List.getLast?_eq_some_iff.mp last
      have size : (bytes (names ++ ['.'])).length - 1 = (bytes names).length := by
        rw [bytes_append, List.length_append]
        rfl
      have whole : names ++ ['.'] ++ word ++ rest = names ++ ('.' :: (word ++ rest)) := by
        simp
      have own := slice?_word (withoutTail names) ('.' :: (word ++ rest))
        fun ch (inside : ch ∈ identTail names) => isIdent_of_mem_identTail inside
      rw [withoutTail_append, length_bytes_withoutTail] at own
      rw [size, sliced, whole, scanIdentLeft_split, Option.bind_eq_bind, Option.bind_some, own]
      exact ⟨_, rfl⟩
  case isFalse =>
      split
      case isTrue dot =>
          have stop : (bytes front).length + word.length = (bytes (front ++ word)).length := by
            rw [bytes_append, List.length_append, length_bytes_idents idents]
          rw [stop, bytes_append, List.getElem?_append_right (Nat.le_refl _), Nat.sub_self,
            ← List.head?_eq_getElem?, head?_bytes (by decide)] at dot
          obtain ⟨names, rfl⟩ := List.head?_eq_some_iff.mp dot
          have size : (bytes (front ++ word)).length + 1 =
              (bytes (front ++ word ++ ['.'])).length := by
            rw [bytes_append (front ++ word), List.length_append]
            rfl
          have whole : front ++ word ++ '.' :: names = (front ++ word ++ ['.']) ++ names := by
            simp
          have own := slice?_word (front ++ word ++ ['.']) (names.dropWhile isIdent)
            fun ch (inside : ch ∈ names.takeWhile isIdent) => List.mem_takeWhile_imp inside
          rw [List.append_assoc, List.takeWhile_append_dropWhile] at own
          rw [sliced, stop, size, whole, scanIdentRight_split, Option.bind_eq_bind,
            Option.bind_some, Option.bind_eq_bind, Option.bind_some, own]
          split <;> exact ⟨_, rfl⟩
      case isFalse => exact ⟨_, rfl⟩

/-- Once the word is found, the rest of a hover does not panic. -/
theorem hoverAt_total {text : List Char} {column start stop : Nat}
    (found : wordRange text column = some (some (start, stop))) (catalog : Catalog)
    (symbols : List ToolingSymbol) (line : Nat) :
    ∃ shown, hoverAt catalog symbols text line (start, stop) = some shown := by
  obtain ⟨left, scans, -⟩ := Option.bind_eq_some_iff.mp found
  obtain ⟨before, after, rfl, place⟩ := split_of_scanIdentLeft scans
  have place : (bytes before).length = min (column - 1) (bytes (before ++ after)).length := by
    omega
  have range := wordRange_split place
  rw [found] at range
  by_cases none : identAround before after = []
  · simp [none] at range
  · rw [if_neg none] at range
    obtain ⟨rfl, rfl⟩ := Prod.mk.inj (Option.some.inj (Option.some.inj range))
    have idents : ∀ ch ∈ identAround before after, isIdent ch = true :=
      fun ch inside => isIdent_of_mem_identAround inside
    have sliced := slice?_word (withoutTail before) (after.dropWhile isIdent) idents
    obtain ⟨dotted, named⟩ := dottedNameAt_total (withoutTail before) (after.dropWhile isIdent)
      idents
    rw [around_append] at sliced named
    rw [hoverAt, sliced, named, Option.bind_eq_bind, Option.bind_some, Option.bind_eq_bind,
      Option.bind_some]
    split
    · exact ⟨_, rfl⟩
    · split <;> exact ⟨_, rfl⟩

theorem hover_total_iff (catalog : Catalog) (symbols : List ToolingSymbol) (source : List Char)
    (line column : Nat) :
    hover catalog symbols source line column ≠ none ↔
      ∀ text, lineText source line = some text → wordRange text column ≠ none := by
  rw [hover]
  cases lineText source line with
  | none => simp
  | some text =>
      cases found : wordRange text column with
      | none => simp [found]
      | some range =>
          cases range with
          | none => simp [found]
          | some range =>
              obtain ⟨shown, shows⟩ := hoverAt_total found catalog symbols line
              simp [found, shows]

theorem trailingIdentifier_total (input : List Char) :
    ∃ ident, trailingIdentifier input = some ident ∧
      ∀ name ∈ ident, ∃ before, input = before ++ name := by
  have parts : withoutTail input ++ identTail input ++ [] = input := by
    rw [List.append_nil, withoutTail_append]
  have size : (bytes (withoutTail input)).length + (identTail input).length =
      (bytes input).length := length_bytes_withoutTail input
  have sliced := slice?_word (withoutTail input) []
    fun ch (inside : ch ∈ identTail input) => isIdent_of_mem_identTail inside
  rw [parts, size] at sliced
  rw [trailingIdentifier]
  change ∃ ident, (slice? input (bytes (withoutTail input)).length (bytes input).length >>=
    fun ident => _) = some ident ∧ _
  rw [sliced, Option.bind_eq_bind, Option.bind_some]
  refine ⟨_, rfl, fun name own => ?_⟩
  split at own
  · split at own
    · obtain rfl := Option.some.inj own
      exact ⟨withoutTail input, (withoutTail_append input).symm⟩
    · cases own
  · cases own

theorem isDbDocMemberPosition_total (trimmed : List Char) :
    ∃ member, isDbDocMemberPosition trimmed = some member := by
  rw [isDbDocMemberPosition]
  cases stripDot trimmed with
  | none => exact ⟨_, rfl⟩
  | some beforeDot =>
      obtain ⟨ident, reads, own⟩ := trailingIdentifier_total beforeDot
      cases ident with
      | none =>
          simp only [reads]
          exact ⟨_, rfl⟩
      | some table =>
          obtain ⟨before, rfl⟩ := own table rfl
          have sliced := slice?_between [] before table
          have size : (bytes (before ++ table)).length - (bytes table).length =
              0 + (bytes before).length := by
            rw [bytes_append, List.length_append]
            omega
          simp only [reads, Option.bind_eq_bind, Option.bind_some, size]
          rw [List.nil_append] at sliced
          rw [show slice? (before ++ table) 0 (0 + (bytes before).length) = some before from sliced]
          exact ⟨_, rfl⟩

theorem plainCompletions_total (catalog : Catalog) (symbols : List ToolingSymbol)
    (trimmed : List Char) : ∃ items, plainCompletions catalog symbols trimmed = some items := by
  rw [plainCompletions]
  split
  · exact ⟨_, rfl⟩
  · split
    · exact ⟨_, rfl⟩
    · obtain ⟨ident, reads, -⟩ := trailingIdentifier_total trimmed
      rw [reads, Option.bind_eq_bind, Option.bind_some]
      cases ident <;> exact ⟨_, rfl⟩

theorem memberOrPlain_total (catalog : Catalog) (symbols : List ToolingSymbol)
    (trimmed nameSpace : List Char) :
    ∃ items, (match memberCompletions catalog symbols nameSpace with
      | [] => plainCompletions catalog symbols trimmed
      | items => some items) = some items := by
  split
  · exact plainCompletions_total catalog symbols trimmed
  · exact ⟨_, rfl⟩

theorem completions_total (catalog : Catalog) (symbols : List ToolingSymbol)
    (source : List Char) (line column : Nat) :
    ∃ items, completions catalog symbols source line column = some items := by
  rw [completions]
  generalize Text.trimEnd (linePrefix source line column) = trimmed
  obtain ⟨member, position⟩ := isDbDocMemberPosition_total trimmed
  rw [position, Option.bind_eq_bind, Option.bind_some]
  have plain := plainCompletions_total catalog symbols trimmed
  cases member with
  | true => exact ⟨_, rfl⟩
  | false =>
      have named : ∃ nameSpace, dottedNamespace trimmed = some nameSpace := by
        rw [dottedNamespace]
        cases stripDot trimmed with
        | none => exact ⟨_, rfl⟩
        | some beforeDot =>
            obtain ⟨ident, reads, -⟩ := trailingIdentifier_total beforeDot
            exact ⟨ident, reads⟩
      obtain ⟨nameSpace, names⟩ := named
      simp only [names, Bool.false_eq_true, if_false]
      cases nameSpace with
      | none => exact plain
      | some nameSpace => exact memberOrPlain_total catalog symbols trimmed nameSpace

/-! ## Queries of the editor -/

theorem definitionJson_total_iff (source : List Char) (line column : Nat)
    (symbols : List ToolingSymbol) :
    (∃ json, definitionJson source line column symbols = .ok json) ↔ ¬ EndsInSpaces source := by
  obtain ⟨panics, fails⟩ := tokenize_ends source
  rw [← panics]
  have answers (found : Option ToolingSymbol)
      (resolves : resolve source line column symbols = .ok found) :
      ∃ json, definitionJson source line column symbols = .ok json := by
    rw [definitionJson, resolves]
    cases found <;> exact ⟨_, rfl⟩
  cases tokens : tokenize source with
  | ok tokens' =>
      have resolved : ∃ found, resolve source line column symbols = .ok found := by
        rw [resolve, tokens]
        exact ⟨_, rfl⟩
      obtain ⟨found, resolves⟩ := resolved
      exact iff_of_true (answers found resolves) (by simp)
  | error fault =>
      rcases fails fault tokens with ⟨error, rfl⟩ | rfl
      · refine iff_of_true (answers none ?_) (by simp)
        rw [resolve, tokens]
      · refine iff_of_false ?_ (by simp)
        rintro ⟨json, answered⟩
        rw [definitionJson, resolve, tokens] at answered
        cases answered

/-- Every query returns, and a hover finds the word at the cursor and its span. -/
structure EditorLaw (catalog : Catalog) (symbols : List ToolingSymbol) (source : List Char)
    (line column : Nat) : Prop where
  hover : hover catalog symbols source line column ≠ none
  word : ∀ text, lineText source line = some text → HoverLaw text column
  completions : ∃ items, completions catalog symbols source line column = some items
  definition : ∃ json, definitionJson source line column symbols = .ok json

/-- The queries keep their law exactly where the column, as an offset in bytes, is the
cursor's place or has no identifier around it, and the source does not end in a line of
spaces. -/
theorem editorLaw_iff (catalog : Catalog) (symbols : List ToolingSymbol) (source : List Char)
    (line column : Nat) :
    EditorLaw catalog symbols source line column ↔
      (∀ text, lineText source line = some text → Aligned text column) ∧
        ¬ EndsInSpaces source := by
  constructor
  · intro law
    constructor
    · intro text own
      exact (hoverLaw_iff text column).mp (law.word text own)
    · exact (definitionJson_total_iff source line column symbols).mp law.definition
  · rintro ⟨aligned, reads⟩
    have word : ∀ text, lineText source line = some text → HoverLaw text column :=
      fun text own => (hoverLaw_iff text column).mpr (aligned text own)
    exact {
      hover := (hover_total_iff catalog symbols source line column).mpr fun text own =>
        (word text own).total
      word
      completions := completions_total catalog symbols source line column
      definition := (definitionJson_total_iff source line column symbols).mpr reads }

/-- A hover inside of a character, and a definition in a source that ends in a line of
spaces. -/
theorem editor_not_lawful :
    hover [] [] "# é".toList 1 4 = none ∧ ¬ EditorLaw [] [] "# é".toList 1 4 ∧
      definitionJson "x\n  ".toList 1 1 [] = .error (.panic .lexer) ∧
      ¬ EditorLaw [] [] "x\n  ".toList 1 1 := by
  have panics : hover [] [] "# é".toList 1 4 = none := by rfl
  have fails : definitionJson "x\n  ".toList 1 1 [] = .error (.panic .lexer) := by rfl
  refine ⟨panics, fun law => law.hover panics, fails, fun law => ?_⟩
  obtain ⟨json, answered⟩ := law.definition
  rw [fails] at answered
  cases answered

end Marreta.Tooling
