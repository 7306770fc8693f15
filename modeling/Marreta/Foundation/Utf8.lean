import Marreta.Foundation.Text

namespace Foundation

namespace Utf8

/-! Texts as bytes.

A byte is written as the character of its number, so that code that tests bytes for
ASCII characters is the same code on bytes and on characters. -/

/-! ## Encoding -/

def isAscii (ch : Char) : Bool :=
  ch.toNat < 128

/-- The bytes of a character. -/
def byteChars (ch : Char) : List Char :=
  (String.utf8EncodeChar ch).map Char.ofUInt8

/-- The bytes of a text. -/
def bytes (text : List Char) : List Char :=
  text.flatMap byteChars

@[simp] theorem bytes_nil : bytes [] = [] := rfl

theorem bytes_cons (ch : Char) (rest : List Char) :
    bytes (ch :: rest) = byteChars ch ++ bytes rest := rfl

@[simp] theorem bytes_append (before after : List Char) :
    bytes (before ++ after) = bytes before ++ bytes after := by
  rw [bytes, List.flatMap_append]
  rfl

theorem toNat_ofUInt8 (byte : UInt8) : (Char.ofUInt8 byte).toNat = byte.toNat := by
  simp [Char.ofUInt8, Char.toNat]

/-- An ASCII character is its own byte. -/
theorem byteChars_of_ascii {ch : Char} (ascii : isAscii ch = true) : byteChars ch = [ch] := by
  have small : ch.toNat < 128 := of_decide_eq_true ascii
  have single : String.utf8EncodeChar ch = [UInt8.ofNat ch.toNat] := by
    unfold String.utf8EncodeChar
    exact if_pos (Nat.le_of_lt_succ small)
  rw [byteChars, single, List.map_singleton]
  congr 1
  apply Char.ext
  apply UInt32.toNat.inj
  have number := toNat_ofUInt8 (UInt8.ofNat ch.toNat)
  rw [UInt8.toNat_ofNat_of_lt' (Nat.lt_trans small (by decide))] at number
  exact number

/-- The bytes of another character are no ASCII characters. -/
theorem not_ascii_of_mem_byteChars {ch byte : Char} (wide : isAscii ch = false)
    (member : byte ∈ byteChars ch) : isAscii byte = false := by
  have large : ¬ ch.toNat < 128 := of_decide_eq_false wide
  obtain ⟨encoded, inside, rfl⟩ := List.mem_map.mp member
  apply decide_eq_false
  rw [toNat_ofUInt8]
  unfold String.utf8EncodeChar at inside
  change encoded ∈ ite (ch.toNat ≤ 127) _ _ at inside
  rw [if_neg (by omega)] at inside
  have high (number : Nat) (lower : 128 ≤ number) (upper : number < 256) :
      ¬ (UInt8.ofNat number).toNat < 128 := by
    rw [UInt8.toNat_ofNat_of_lt' upper]
    omega
  split at inside
  · simp only [List.mem_cons, List.not_mem_nil, or_false] at inside
    rcases inside with rfl | rfl
    · apply high <;> omega
    · apply high <;> omega
  · split at inside
    · simp only [List.mem_cons, List.not_mem_nil, or_false] at inside
      rcases inside with rfl | rfl | rfl
      · apply high <;> omega
      · apply high <;> omega
      · apply high <;> omega
    · simp only [List.mem_cons, List.not_mem_nil, or_false] at inside
      rcases inside with rfl | rfl | rfl | rfl
      · apply high <;> omega
      · apply high <;> omega
      · apply high <;> omega
      · apply high <;> omega

theorem length_byteChars (ch : Char) : (byteChars ch).length = ch.utf8Size := by
  rw [byteChars, List.length_map, String.length_utf8EncodeChar]

theorem bytes_cons_ascii {ch : Char} (ascii : isAscii ch = true) (rest : List Char) :
    bytes (ch :: rest) = ch :: bytes rest := by
  rw [bytes_cons, byteChars_of_ascii ascii, List.singleton_append]

theorem byteChars_ne_nil (ch : Char) : byteChars ch ≠ [] := by
  apply List.ne_nil_of_length_pos
  rw [length_byteChars]
  exact Char.utf8Size_pos ch

/-- An ASCII byte at the front of a text is a character of the text. -/
theorem bytes_eq_cons {text rest : List Char} {ch : Char} (ascii : isAscii ch = true)
    (front : bytes text = ch :: rest) : ∃ after, text = ch :: after ∧ rest = bytes after := by
  cases text with
  | nil => cases front
  | cons first after =>
      cases wide : isAscii first with
      | true =>
          rw [bytes_cons_ascii wide] at front
          obtain ⟨rfl, rfl⟩ := List.cons.inj front
          exact ⟨after, rfl, rfl⟩
      | false =>
          obtain ⟨byte, others, encoded⟩ := List.exists_cons_of_ne_nil (byteChars_ne_nil first)
          rw [bytes_cons, encoded] at front
          obtain ⟨rfl, -⟩ := List.cons.inj front
          have not_ascii : isAscii byte = false :=
            not_ascii_of_mem_byteChars wide (encoded ▸ List.mem_cons_self)
          rw [ascii] at not_ascii
          cases not_ascii

theorem head?_bytes {ch : Char} (ascii : isAscii ch = true) (text : List Char) :
    (bytes text).head? = some ch ↔ text.head? = some ch := by
  rw [List.head?_eq_some_iff, List.head?_eq_some_iff]
  constructor
  · rintro ⟨rest, front⟩
    obtain ⟨after, same, -⟩ := bytes_eq_cons ascii front
    exact ⟨after, same⟩
  · rintro ⟨rest, rfl⟩
    exact ⟨bytes rest, bytes_cons_ascii ascii rest⟩

/-! ## Slices -/

/-- The text after a number of bytes, when they end with a character. -/
def dropBytes? : Nat → List Char → Option (List Char)
  | 0, text => some text
  | _ + 1, [] => none
  | count + 1, ch :: rest =>
      if ch.utf8Size ≤ count + 1 then dropBytes? (count + 1 - ch.utf8Size) rest else none

/-- The first bytes of a text, when they end with a character. -/
def takeBytes? : Nat → List Char → Option (List Char)
  | 0, _ => some []
  | _ + 1, [] => none
  | count + 1, ch :: rest =>
      if ch.utf8Size ≤ count + 1 then
        (takeBytes? (count + 1 - ch.utf8Size) rest).map (ch :: ·)
      else none

/-- The text between two offsets, that are counted in bytes.  There is none when an offset
is inside of a character or outside of the text. -/
def slice? (text : List Char) (start stop : Nat) : Option (List Char) :=
  if start ≤ stop then (dropBytes? start text).bind (takeBytes? (stop - start)) else none

theorem length_bytes_cons (ch : Char) (rest : List Char) :
    (bytes (ch :: rest)).length = ch.utf8Size + (bytes rest).length := by
  rw [bytes_cons, List.length_append, length_byteChars]

theorem exists_length_bytes_cons (ch : Char) (rest : List Char) :
    ∃ size, ch.utf8Size = size + 1 ∧
      (bytes (ch :: rest)).length = size + (bytes rest).length + 1 := by
  obtain ⟨size, positive⟩ := Nat.exists_eq_add_of_lt (Char.utf8Size_pos ch)
  refine ⟨size, by omega, ?_⟩
  rw [length_bytes_cons]
  omega

theorem dropBytes?_bytes (before after : List Char) :
    dropBytes? (bytes before).length (before ++ after) = some after := by
  induction before with
  | nil => simp [dropBytes?]
  | cons ch rest induction =>
      obtain ⟨size, own, total⟩ := exists_length_bytes_cons ch rest
      rw [total, List.cons_append, dropBytes?, if_pos (by omega), ← induction]
      congr 1
      omega

theorem takeBytes?_bytes (text after : List Char) :
    takeBytes? (bytes text).length (text ++ after) = some text := by
  induction text with
  | nil => simp [takeBytes?]
  | cons ch rest induction =>
      obtain ⟨size, own, total⟩ := exists_length_bytes_cons ch rest
      have remaining : size + (bytes rest).length + 1 - ch.utf8Size = (bytes rest).length := by
        omega
      rw [total, List.cons_append, takeBytes?, if_pos (by omega), remaining, induction]
      rfl

theorem slice?_between (before text after : List Char) :
    slice? (before ++ text ++ after) (bytes before).length
      ((bytes before).length + (bytes text).length) = some text := by
  rw [slice?, if_pos (Nat.le_add_right _ _), List.append_assoc, dropBytes?_bytes,
    Nat.add_sub_cancel_left, Option.bind_some, takeBytes?_bytes]

/-- The first bytes are those of a front of the text. -/
theorem takeBytes?_eq_some_iff {count : Nat} {text before : List Char} :
    takeBytes? count text = some before ↔
      ∃ after, text = before ++ after ∧ (bytes before).length = count := by
  constructor
  · intro taken
    induction text generalizing count before with
    | nil =>
        cases count with
        | zero =>
            obtain rfl := Option.some.inj taken
            exact ⟨[], rfl, rfl⟩
        | succ count => cases taken
    | cons ch rest induction =>
        cases count with
        | zero =>
            obtain rfl := Option.some.inj taken
            exact ⟨ch :: rest, rfl, rfl⟩
        | succ count =>
            rw [takeBytes?] at taken
            split at taken
            case isFalse => cases taken
            case isTrue fits =>
                obtain ⟨front, found, rfl⟩ := Option.map_eq_some_iff.mp taken
                obtain ⟨after, rfl, size⟩ := induction found
                refine ⟨after, rfl, ?_⟩
                rw [length_bytes_cons]
                omega
  · rintro ⟨after, rfl, rfl⟩
    exact takeBytes?_bytes before after

/-- What two fronts of a text have in common is the shorter one. -/
theorem front_unique {before other after rest : List Char}
    (same : before ++ after = other ++ rest)
    (length : (bytes before).length = (bytes other).length) : before = other := by
  have one := takeBytes?_bytes before after
  have two := takeBytes?_bytes other rest
  rw [same, length, two] at one
  exact (Option.some.inj one).symm

theorem length_le_bytes (text : List Char) : text.length ≤ (bytes text).length := by
  induction text with
  | nil => exact Nat.le_refl 0
  | cons ch rest induction =>
      have size := Char.utf8Size_pos ch
      rw [length_bytes_cons, List.length_cons]
      omega

/-- A text is ASCII when it has as many bytes as characters. -/
theorem ascii_of_length {text : List Char} (same : (bytes text).length = text.length) :
    ∀ ch ∈ text, isAscii ch = true := by
  induction text with
  | nil => exact fun ch inside => nomatch inside
  | cons ch rest induction =>
      have size := Char.utf8Size_pos ch
      have restLeast := length_le_bytes rest
      rw [length_bytes_cons, List.length_cons] at same
      rw [List.forall_mem_cons]
      constructor
      · by_contra wide
        have large : ¬ ch.toNat < 128 := fun small => wide (decide_eq_true small)
        have single : ch.utf8Size = 1 := by omega
        have ascii : ch.toNat ≤ 127 := by
          have bound := Char.utf8Size_eq_one_iff.mp single
          exact bound
        omega
      · exact induction (by omega)

theorem length_of_ascii {text : List Char} (ascii : ∀ ch ∈ text, isAscii ch = true) :
    (bytes text).length = text.length := by
  induction text with
  | nil => rfl
  | cons ch rest induction =>
      rw [List.forall_mem_cons] at ascii
      rw [bytes_cons_ascii ascii.1, List.length_cons, List.length_cons, induction ascii.2]

/-! ## Scans -/

/-- A scan that passes over everything but ASCII passes over the bytes of other
characters. -/
theorem passes_byteChars {α : Type} {scan : List Char → α} {ch : Char}
    (passes : ∀ byte rest, isAscii byte = false → scan (byte :: rest) = scan rest)
    (wide : isAscii ch = false) (rest : List Char) : scan (byteChars ch ++ rest) = scan rest := by
  have each : ∀ byte ∈ byteChars ch, isAscii byte = false := fun byte member =>
    not_ascii_of_mem_byteChars wide member
  generalize byteChars ch = encoded at each
  induction encoded with
  | nil => rfl
  | cons byte others induction =>
      rw [List.forall_mem_cons] at each
      rw [List.cons_append, passes byte _ each.1, induction each.2]

theorem dropWhile_bytes {keeps : Char → Bool} (text : List Char)
    (wide : ∀ ch, isAscii ch = false → keeps ch = true) :
    (bytes text).dropWhile keeps = bytes (text.dropWhile keeps) := by
  induction text with
  | nil => rfl
  | cons ch rest induction =>
      cases ascii : isAscii ch with
      | true =>
          rw [bytes_cons_ascii ascii, List.dropWhile_cons, List.dropWhile_cons]
          split
          · exact induction
          · rw [bytes_cons_ascii ascii]
      | false =>
          rw [List.dropWhile_cons, if_pos (wide ch ascii), bytes_cons, ← induction]
          apply passes_byteChars _ ascii
          intro byte others high
          rw [List.dropWhile_cons, if_pos (wide byte high)]

/-- The bytes of a text without its first characters, when these are ASCII. -/
theorem drop_bytes {count : Nat} {text : List Char}
    (ascii : ∀ ch ∈ text.take count, isAscii ch = true) :
    (bytes text).drop count = bytes (text.drop count) := by
  induction text generalizing count with
  | nil => simp
  | cons ch rest induction =>
      cases count with
      | zero => rfl
      | succ count =>
          rw [List.take_succ_cons, List.forall_mem_cons] at ascii
          rw [bytes_cons_ascii ascii.1, List.drop_succ_cons, List.drop_succ_cons,
            induction ascii.2]

section AsciiRuns

variable {keeps : Char → Bool} (only : ∀ ch, keeps ch = true → isAscii ch = true)
include only

/-- A run of ASCII characters ends at the bytes of another character. -/
theorem run_bytes (text : List Char) :
    (bytes text).takeWhile keeps = text.takeWhile keeps ∧
      (bytes text).dropWhile keeps = bytes (text.dropWhile keeps) := by
  induction text with
  | nil => exact ⟨rfl, rfl⟩
  | cons ch rest induction =>
      by_cases kept : keeps ch = true
      · rw [bytes_cons_ascii (only ch kept), List.takeWhile_cons_of_pos kept,
          List.takeWhile_cons_of_pos kept, List.dropWhile_cons_of_pos kept,
          List.dropWhile_cons_of_pos kept, induction.1, induction.2]
        exact ⟨rfl, rfl⟩
      · rw [List.takeWhile_cons_of_neg kept, List.dropWhile_cons_of_neg kept]
        obtain ⟨byte, others, encoded⟩ := List.exists_cons_of_ne_nil (byteChars_ne_nil ch)
        have stops : ¬ keeps byte = true := by
          cases ascii : isAscii ch with
          | true =>
              rw [byteChars_of_ascii ascii] at encoded
              obtain ⟨rfl, -⟩ := List.cons.inj encoded
              exact kept
          | false =>
              intro inside
              have high := not_ascii_of_mem_byteChars ascii (encoded ▸ List.mem_cons_self)
              rw [only byte inside] at high
              cases high
        rw [bytes_cons, encoded, List.cons_append, List.takeWhile_cons_of_neg stops,
          List.dropWhile_cons_of_neg stops]
        exact ⟨rfl, rfl⟩

end AsciiRuns

end Utf8

end Foundation
