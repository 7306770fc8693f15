import Mathlib

namespace Foundation

/-! Bytes written with two hexadecimal digits each.

Digits are written in lower case and read in either case, so a text that is read and
written again comes back in lower case. -/

namespace HexText

/-! ## Digits -/

def digit (value : Nat) : Char :=
  "0123456789abcdef".toList.getD value '?'

/-- The value of a digit of either case. -/
def value? (char : Char) : Option Nat :=
  if char.isDigit then some (char.toNat - '0'.toNat)
  else if 'a' ≤ char ∧ char ≤ 'f' then some (char.toNat - 'a'.toNat + 10)
  else if 'A' ≤ char ∧ char ≤ 'F' then some (char.toNat - 'A'.toNat + 10)
  else none

theorem value?_digit : ∀ value < 16, value? (digit value) = some value := by
  decide

theorem toNat_lt_of_value? {char : Char} (read : (value? char).isSome) :
    char.toNat < 128 := by
  have order (other : Char) : (char ≤ other) = (char.toNat ≤ other.toNat) := by
    rw [Char.le_def, UInt32.le_iff_toNat_le]
    rfl
  by_contra large
  rw [value?, if_neg, if_neg, if_neg] at read
  · simp at read
  · rw [order]
    intro ⟨_, upper⟩
    exact large (Nat.lt_of_le_of_lt upper (by decide))
  · rw [order]
    intro ⟨_, upper⟩
    exact large (Nat.lt_of_le_of_lt upper (by decide))
  · intro decimal
    rw [Char.isDigit, Bool.and_eq_true, decide_eq_true_iff, decide_eq_true_iff] at decimal
    have upper := UInt32.le_iff_toNat_le.mp decimal.2
    exact large (Nat.lt_of_le_of_lt upper (by decide))

/-- What is true of the digits below 128 is true of every digit. -/
theorem forall_value? {property : Char → Nat → Prop}
    (table : ∀ code < 128, ∀ value ∈ value? (Char.ofNat code), property (Char.ofNat code) value)
    {char : Char} {value : Nat} (read : value? char = some value) : property char value := by
  have bounded := toNat_lt_of_value? (by rw [read]; rfl)
  have known := table char.toNat bounded value (by rw [Char.ofNat_toNat]; exact read)
  rwa [Char.ofNat_toNat] at known

theorem value?_lt {char : Char} {value : Nat} (read : value? char = some value) : value < 16 :=
  @forall_value? (fun _ value => value < 16) (by decide) char value read

theorem digit_of_value? {char : Char} {value : Nat} (read : value? char = some value) :
    digit value = char.toLower :=
  @forall_value? (fun char value => digit value = char.toLower) (by decide) char value read

theorem toLower_eq_self_iff {char : Char} {value : Nat} (read : value? char = some value) :
    char.toLower = char ↔ char.isUpper = false :=
  @forall_value? (fun char _ => char.toLower = char ↔ char.isUpper = false) (by decide)
    char value read

/-! ## Bytes -/

def write (bytes : List UInt8) : List Char :=
  bytes.flatMap fun byte => [digit (byte.toNat / 16), digit (byte.toNat % 16)]

def read? : List Char → Option (List UInt8)
  | [] => some []
  | [_] => none
  | high :: low :: rest => do
      let high ← value? high
      let low ← value? low
      let bytes ← read? rest
      return UInt8.ofNat (16 * high + low) :: bytes

theorem read?_eq_some {high low : Char} {rest : List Char} {bytes : List UInt8}
    (read : read? (high :: low :: rest) = some bytes) :
    ∃ upper lower others, value? high = some upper ∧ value? low = some lower ∧
      read? rest = some others ∧ bytes = UInt8.ofNat (16 * upper + lower) :: others := by
  simp only [read?, Option.bind_eq_bind, Option.bind_eq_some_iff] at read
  obtain ⟨upper, upperRead, lower, lowerRead, others, othersRead, same⟩ := read
  exact ⟨upper, lower, others, upperRead, lowerRead, othersRead, by simpa using same.symm⟩

theorem toNat_byte {upper lower : Nat} (high : upper < 16) (low : lower < 16) :
    (UInt8.ofNat (16 * upper + lower)).toNat = 16 * upper + lower :=
  UInt8.toNat_ofNat_of_lt' (by rw [UInt8.size]; omega)

theorem read?_write (bytes : List UInt8) : read? (write bytes) = some bytes := by
  induction bytes with
  | nil => rfl
  | cons byte bytes ih =>
      have bounded := byte.toNat_lt
      have high := value?_digit (byte.toNat / 16) (by omega)
      have low := value?_digit (byte.toNat % 16) (by omega)
      have same : 16 * (byte.toNat / 16) + byte.toNat % 16 = byte.toNat := by omega
      change read? (digit _ :: digit _ :: write bytes) = _
      simp only [read?, high, low, ih, same, UInt8.ofNat_toNat, Option.bind_eq_bind,
        Option.bind_some]
      rfl

theorem length_of_read? {text : List Char} {bytes : List UInt8} (read : read? text = some bytes) :
    text.length = 2 * bytes.length := by
  induction text using read?.induct generalizing bytes with
  | case1 =>
      obtain rfl : [] = bytes := by simpa [read?] using read
      rfl
  | case2 => simp [read?] at read
  | case3 high low rest ih =>
      obtain ⟨upper, lower, others, -, -, othersRead, rfl⟩ := read?_eq_some read
      have rest := ih othersRead
      simp only [List.length_cons]
      omega

/-- Texts of an even number of digits denote bytes. -/
theorem exists_read? {text : List Char} (even : text.length % 2 = 0)
    (digits : ∀ char ∈ text, (value? char).isSome) : ∃ bytes, read? text = some bytes := by
  induction text using read?.induct with
  | case1 => exact ⟨[], rfl⟩
  | case2 => simp at even
  | case3 high low rest ih =>
      obtain ⟨others, othersRead⟩ := ih (by simp only [List.length_cons] at even; omega)
        (fun char member => digits char (by simp [member]))
      obtain ⟨upper, upperRead⟩ := Option.isSome_iff_exists.mp (digits high (by simp))
      obtain ⟨lower, lowerRead⟩ := Option.isSome_iff_exists.mp (digits low (by simp))
      exact ⟨_, by simp only [read?, upperRead, lowerRead, othersRead]; rfl⟩

theorem write_of_read? {text : List Char} {bytes : List UInt8} (read : read? text = some bytes) :
    write bytes = text.map Char.toLower := by
  induction text using read?.induct generalizing bytes with
  | case1 =>
      obtain rfl : [] = bytes := by simpa [read?] using read
      rfl
  | case2 => simp [read?] at read
  | case3 high low rest ih =>
      obtain ⟨upper, lower, others, upperRead, lowerRead, othersRead, rfl⟩ := read?_eq_some read
      have upperBound := value?_lt upperRead
      have lowerBound := value?_lt lowerRead
      have byte := toNat_byte upperBound lowerBound
      have first : (16 * upper + lower) / 16 = upper := by omega
      have second : (16 * upper + lower) % 16 = lower := by omega
      change digit _ :: digit _ :: write others = _
      rw [byte, first, second, digit_of_value? upperRead, digit_of_value? lowerRead,
        ih othersRead, List.map_cons, List.map_cons]

theorem digits_of_read? {text : List Char} {bytes : List UInt8} (read : read? text = some bytes) :
    ∀ char ∈ text, ∃ value, value? char = some value := by
  induction text using read?.induct generalizing bytes with
  | case1 => simp
  | case2 => simp [read?] at read
  | case3 high low rest ih =>
      obtain ⟨upper, lower, others, upperRead, lowerRead, othersRead, -⟩ := read?_eq_some read
      intro char member
      rcases List.mem_cons.mp member with rfl | member
      · exact ⟨upper, upperRead⟩
      rcases List.mem_cons.mp member with rfl | member
      · exact ⟨lower, lowerRead⟩
      exact ih othersRead char member

/-- Reading and writing leaves exactly the texts without upper case letters as they are. -/
theorem write_eq_self_iff {text : List Char} {bytes : List UInt8}
    (read : read? text = some bytes) :
    write bytes = text ↔ ∀ char ∈ text, char.isUpper = false := by
  have pointwise := @List.map_inj_left _ _ text Char.toLower id
  rw [List.map_id] at pointwise
  rw [write_of_read? read, pointwise]
  apply forall₂_congr
  intro char member
  obtain ⟨value, valueRead⟩ := digits_of_read? read char member
  exact toLower_eq_self_iff valueRead

theorem write_injective {first second : List UInt8} (same : write first = write second) :
    first = second := by
  have read := read?_write first
  rw [same, read?_write] at read
  exact (Option.some.inj read).symm

/-- A text that denotes bytes is the written form of the bytes it denotes, if of any. -/
theorem write_eq_iff {text : List Char} {bytes other : List UInt8}
    (read : read? text = some bytes) :
    write other = text ↔ other = bytes ∧ ∀ char ∈ text, char.isUpper = false := by
  constructor
  · intro written
    obtain rfl : other = bytes := by
      rw [← written, read?_write] at read
      exact Option.some.inj read
    exact ⟨rfl, (write_eq_self_iff read).mp written⟩
  · rintro ⟨rfl, lower⟩
    exact (write_eq_self_iff read).mpr lower

end HexText

end Foundation
