import Marreta.Foundation.Scanning
import Marreta.Runtime.Value
import Mathlib

namespace Marreta

open Foundation

/-! Masks of `time.format`.

A mask is compiled by one replacement after the other into a format of the calendar library,
in which `%` begins a specification.  The library is a parameter; its laws say what it prints
for the six fields. -/

namespace TimeNamespace

inductive Field where
  | year | month | day | hour | minute | second
deriving DecidableEq

namespace Field

/-- In the order of their replacement. -/
def all : List Field :=
  [.year, .month, .day, .hour, .minute, .second]

def letters : Field → List Char
  | .year => ['y', 'y', 'y', 'y']
  | .month => ['M', 'M']
  | .day => ['d', 'd']
  | .hour => ['H', 'H']
  | .minute => ['m', 'm']
  | .second => ['s', 's']

def specifier : Field → Char
  | .year => 'Y'
  | .month => 'm'
  | .day => 'd'
  | .hour => 'H'
  | .minute => 'M'
  | .second => 'S'

end Field

/-- Replace the letters of some fields. -/
def compileFields (fields : List Field) (mask : List Char) : List Char :=
  fields.foldl (fun text field => replaceAll field.letters ['%', field.specifier] text) mask

def chronoMask (mask : List Char) : List Char :=
  compileFields Field.all mask

/-! ## Fields of values -/

structure CivilDate where
  year : Int
  month : Nat
  day : Nat
deriving DecidableEq

/-- The Gregorian date of a day counted from the epoch. -/
def civilDate (days : Int) : CivilDate :=
  -- Years begin in March, so that the day a leap year adds is the last one.
  let shifted := days + 719468
  let era := shifted / 146097
  let day := (shifted % 146097).toNat
  let yearOfEra := (day - day / 1460 + day / 36524 - day / 146096) / 365
  let dayOfYear := day - (365 * yearOfEra + yearOfEra / 4 - yearOfEra / 100)
  let march := (5 * dayOfYear + 2) / 153
  let month := if march < 10 then march + 3 else march - 9
  { year := yearOfEra + era * 400 + if month ≤ 2 then 1 else 0
    month := month
    day := dayOfYear - (153 * march + 2) / 5 + 1 }

example : civilDate 20570 = ⟨2026, 4, 27⟩ := by decide
example : civilDate (-1) = ⟨1969, 12, 31⟩ := by decide

def twoDigits (number : Nat) : List Char :=
  [Nat.digitChar (number / 10 % 10), Nat.digitChar (number % 10)]

/-- Four digits, or more behind a sign. -/
def yearText (year : Int) : List Char :=
  let digits := Nat.toDigits 10 year.natAbs
  let padded := List.replicate (4 - digits.length) '0' ++ digits
  if year < 0 then '-' :: padded else if 9999 < year then '+' :: padded else padded

def dateField? (days : Int) : Field → Option (List Char)
  | .year => some (yearText (civilDate days).year)
  | .month => some (twoDigits (civilDate days).month)
  | .day => some (twoDigits (civilDate days).day)
  | .hour | .minute | .second => none

def timeField? (nanoseconds : Nat) : Field → Option (List Char)
  | .year | .month | .day => none
  | .hour => some (twoDigits (nanoseconds / 3600000000000))
  | .minute => some (twoDigits (nanoseconds / 60000000000 % 60))
  | .second => some (twoDigits (nanoseconds / 1000000000 % 60))

/-- The text of a field that a value has. -/
def field? : TemporalValue → Field → Option (List Char)
  | .instant nanoseconds, field =>
      (dateField? (nanoseconds / 86400000000000) field).or
        (timeField? (nanoseconds % 86400000000000).toNat field)
  | .date days, field => dateField? days field
  | .time nanoseconds, field => timeField? nanoseconds field

/-! ## Formats -/

/-- The calendar library.  `format(..).to_string()` panics where there is no text: what is
invalid, or asks for a part that the value lacks. -/
structure Chrono where
  format : TemporalValue → List Char → Option (List Char)

/-- What the library documents: `%%` and the six fields, all other characters as they are.  A
specification holds no `%` behind the one it begins with, and but for `%%` prints none. -/
structure Chrono.Lawful (chrono : Chrono) : Prop where
  nil : ∀ value, chrono.format value [] = some []
  char : ∀ value rest {ch : Char}, ch ≠ '%' →
    chrono.format value (ch :: rest) = (chrono.format value rest).map (ch :: ·)
  percent : ∀ value rest,
    chrono.format value ('%' :: '%' :: rest) = (chrono.format value rest).map ('%' :: ·)
  field : ∀ value rest (field : Field), chrono.format value ('%' :: field.specifier :: rest) =
    (field? value field).bind fun text => (chrono.format value rest).map (text ++ ·)
  other : ∀ value rest text, rest.head? ≠ some '%' → chrono.format value ('%' :: rest) = some text →
    ∃ printed covered later, '%' ∉ printed ∧ '%' ∉ rest.take covered ∧
      chrono.format value (rest.drop covered) = some later ∧ printed ++ later = text

/-! ## What a mask stands for -/

inductive Piece where
  | field (field : Field)
  | char (ch : Char)
deriving DecidableEq

def pieceAt (text : List Char) : Piece × Nat :=
  match Field.all.find? (·.letters.isPrefixOf text) with
  | some field => (.field field, field.letters.length - 1)
  | none => (.char (text.headD ' '), 0)

/-- The fields of a mask and the characters between them, from left to right. -/
def pieces (mask : List Char) : List Piece :=
  scan pieceAt 0 mask

def Piece.text (value : TemporalValue) : Piece → Option (List Char)
  | .field name => field? value name
  | .char ch => some [ch]

/-- The mask with its fields replaced by those of the value, if it has them. -/
def expected (value : TemporalValue) (mask : List Char) : Option (List Char) :=
  concat? ((pieces mask).map (Piece.text value))

example : (expected (.date 20570) "dd/MM/yyyy, 100%".toList).map String.ofList =
    some "27/04/2026, 100%" := by
  decide +kernel

/-! ## Steps of the compilation -/

theorem letters_ne_nil (field : Field) : field.letters ≠ [] := by
  cases field <;> exact List.cons_ne_nil _ _

theorem percent_not_mem_letters (field : Field) : '%' ∉ field.letters := by
  cases field <;> decide

theorem compileFields_cons {fields : List Field} {ch : Char} {rest : List Char}
    (plain : ∀ field ∈ fields, ¬ field.letters <+: ch :: rest) :
    compileFields fields (ch :: rest) = ch :: compileFields fields rest := by
  induction fields generalizing rest with
  | nil => rfl
  | cons first fields induction =>
      rw [List.forall_mem_cons] at plain
      rw [compileFields, List.foldl_cons, replaceAll_cons plain.1]
      apply induction
      intro field member found
      apply plain.2 field member
      -- The letters behind the first one were there before the replacement.
      cases known : field.letters with
      | nil => exact List.nil_prefix
      | cons letter letters =>
          rw [known] at found
          obtain ⟨rfl, behind⟩ := List.cons_prefix_cons.mp found
          have clear := percent_not_mem_letters field
          rw [known, List.mem_cons, not_or] at clear
          exact List.cons_prefix_cons.mpr
            ⟨rfl, prefix_of_prefix_replaceAll (letters_ne_nil first) clear.2 behind⟩

theorem chronoMask_cons {ch : Char} {rest : List Char}
    (plain : ∀ field : Field, ¬ field.letters <+: ch :: rest) :
    chronoMask (ch :: rest) = ch :: chronoMask rest :=
  compileFields_cons fun field _ => plain field

section Stages

variable {replacement rest : List Char}

theorem replaceAll_pair (letter : Char) :
    replaceAll [letter, letter] replacement (letter :: letter :: rest) =
      replacement ++ replaceAll [letter, letter] replacement rest :=
  replaceAll_pattern (List.cons_ne_nil _ _) rest

theorem replaceAll_year :
    replaceAll ['y', 'y', 'y', 'y'] replacement ('y' :: 'y' :: 'y' :: 'y' :: rest) =
      replacement ++ replaceAll ['y', 'y', 'y', 'y'] replacement rest :=
  replaceAll_pattern (List.cons_ne_nil _ _) rest

/-- A letter that stands alone. -/
theorem replaceAll_single {letter : Char} (alone : rest.head? ≠ some letter) :
    replaceAll [letter, letter] replacement (letter :: rest) =
      letter :: replaceAll [letter, letter] replacement rest := by
  apply replaceAll_cons
  rintro ⟨behind, same⟩
  rw [List.cons_append, List.cons_append, List.cons.injEq] at same
  rw [← same.2] at alone
  exact alone rfl

/-- No replacement puts a letter where none was. -/
theorem head?_replaceAll {field : Field} {letter : Char} (other : letter ≠ '%')
    (alone : rest.head? ≠ some letter) :
    (replaceAll field.letters ['%', field.specifier] rest).head? ≠ some letter := by
  intro found
  have front : [letter] <+: replaceAll field.letters ['%', field.specifier] rest := by
    obtain ⟨behind, same⟩ := List.head?_eq_some_iff.mp found
    rw [same]
    exact ⟨behind, rfl⟩
  have before := prefix_of_prefix_replaceAll (letters_ne_nil field)
    (by simpa using other.symm) front
  obtain ⟨behind, rfl⟩ := before
  exact alone rfl

end Stages

/-- The letters of a field, unless an `m` behind a month joins its specification. -/
theorem chronoMask_field {field : Field} {rest : List Char}
    (apart : field = .month → rest.head? ≠ some 'm') :
    chronoMask (field.letters ++ rest) = '%' :: field.specifier :: chronoMask rest := by
  cases field with
  | month =>
      have alone := apart rfl
      have behind : (replaceAll ['H', 'H'] ['%', 'H'] (replaceAll ['d', 'd'] ['%', 'd']
          (replaceAll ['M', 'M'] ['%', 'm'] (replaceAll ['y', 'y', 'y', 'y'] ['%', 'Y']
            rest)))).head? ≠ some 'm' :=
        @head?_replaceAll _ .hour _ (by decide) (@head?_replaceAll _ .day _ (by decide)
          (@head?_replaceAll _ .month _ (by decide)
            (@head?_replaceAll _ .year _ (by decide) alone)))
      simp (disch := decide) only [chronoMask, compileFields, Field.all, List.foldl_cons,
        List.foldl_nil, Field.letters, Field.specifier, List.cons_append, List.nil_append,
        replaceAll_cons_of_ne, replaceAll_pair, replaceAll_single behind]
  | _ =>
      simp (disch := decide) only [chronoMask, compileFields, Field.all, List.foldl_cons,
        List.foldl_nil, Field.letters, Field.specifier, List.cons_append, List.nil_append,
        replaceAll_cons_of_ne, replaceAll_pair, replaceAll_year]

/-- The specification of the month gives its `m` to the minute behind it. -/
theorem chronoMask_crowded (rest : List Char) :
    chronoMask ('M' :: 'M' :: 'm' :: rest) = '%' :: '%' :: 'M' :: chronoMask rest := by
  simp (disch := decide) only [chronoMask, compileFields, Field.all, List.foldl_cons,
    List.foldl_nil, Field.letters, Field.specifier, List.cons_append, List.nil_append,
    replaceAll_cons_of_ne, replaceAll_pair]

/-! ## Steps of the pieces -/

theorem pieces_field (field : Field) (rest : List Char) :
    pieces (field.letters ++ rest) = .field field :: pieces rest := by
  have found : Field.all.find? (·.letters.isPrefixOf (field.letters ++ rest)) = some field := by
    cases field <;> simp [Field.all, Field.letters, List.isPrefixOf]
  apply scan_append (letters_ne_nil field)
  rw [pieceAt, found]

theorem pieces_char {ch : Char} {rest : List Char}
    (plain : ∀ field : Field, ¬ field.letters <+: ch :: rest) :
    pieces (ch :: rest) = .char ch :: pieces rest := by
  have missing : Field.all.find? (·.letters.isPrefixOf (ch :: rest)) = none := by
    apply List.find?_eq_none.mpr
    intro field member found
    exact plain field (List.isPrefixOf_iff_prefix.mp found)
  have token : pieceAt (ch :: rest) = (.char ch, 0) := by
    rw [pieceAt, missing]
    rfl
  exact scan_cons token

/-- What a mask begins with. -/
inductive Begins : List Char → Prop
  | nil : Begins []
  | field (field : Field) (rest : List Char) : Begins (field.letters ++ rest)
  | char (ch : Char) (rest : List Char)
      (plain : ∀ field : Field, ¬ field.letters <+: ch :: rest) : Begins (ch :: rest)

theorem begins (mask : List Char) : Begins mask := by
  by_cases named : ∃ field : Field, field.letters <+: mask
  · obtain ⟨field, rest, rfl⟩ := named
    exact .field field rest
  · cases mask with
    | nil => exact .nil
    | cons ch rest => exact .char ch rest (not_exists.mp named)

section Expected

variable {value : TemporalValue} {rest text : List Char}

theorem expected_field {field : Field} :
    expected value (field.letters ++ rest) = some text ↔
      ∃ first later, field? value field = some first ∧ expected value rest = some later ∧
        first ++ later = text := by
  rw [expected, pieces_field, List.map_cons, concat?_cons_eq_some]
  rfl

theorem expected_char {ch : Char} (plain : ∀ field : Field, ¬ field.letters <+: ch :: rest) :
    expected value (ch :: rest) = some text ↔
      ∃ later, expected value rest = some later ∧ ch :: later = text := by
  rw [expected, pieces_char plain, List.map_cons, concat?_cons_eq_some]
  constructor
  · rintro ⟨first, later, known, others, same⟩
    obtain rfl := Option.some.inj known
    exact ⟨later, others, same⟩
  · rintro ⟨later, others, same⟩
    exact ⟨[ch], later, rfl, others, same⟩

end Expected

/-! ## Steps of a format -/

section Format

variable {chrono : Chrono} {value : TemporalValue} {rest text : List Char}

theorem format_char (lawful : chrono.Lawful) {ch : Char} (plain : ch ≠ '%') :
    chrono.format value (ch :: rest) = some text ↔
      ∃ later, chrono.format value rest = some later ∧ ch :: later = text := by
  rw [lawful.char value rest plain, Option.map_eq_some_iff]

theorem format_percent (lawful : chrono.Lawful) :
    chrono.format value ('%' :: '%' :: rest) = some text ↔
      ∃ later, chrono.format value rest = some later ∧ '%' :: later = text := by
  rw [lawful.percent, Option.map_eq_some_iff]

theorem format_field (lawful : chrono.Lawful) {field : Field} :
    chrono.format value ('%' :: field.specifier :: rest) = some text ↔
      ∃ first later, field? value field = some first ∧
        chrono.format value rest = some later ∧ first ++ later = text := by
  rw [lawful.field, Option.bind_eq_some_iff]
  simp only [Option.map_eq_some_iff, exists_and_left]

end Format

/-! ## Texts of fields -/

theorem percent_ne_digitChar (number : Nat) : '%' ≠ Nat.digitChar (number % 10) := by
  have digits : ∀ digit < 10, '%' ≠ Nat.digitChar digit := by decide
  exact digits _ (Nat.mod_lt _ (by omega))

theorem percent_not_mem_toDigits (number : Nat) : '%' ∉ Nat.toDigits 10 number :=
  fun member => absurd (Nat.isDigit_of_mem_toDigits (by decide) (by decide) member) (by decide)

/-- The texts of fields have no `%`, and two characters apart from the year. -/
structure FieldText (field : Field) (text : List Char) : Prop where
  plain : '%' ∉ text
  long : 2 ≤ text.length
  short : field ≠ .year → text.length = 2

theorem fieldText_twoDigits (field : Field) (number : Nat) :
    FieldText field (twoDigits number) where
  plain := by
    simp [twoDigits, percent_ne_digitChar]
  long := Nat.le_refl 2
  short _ := rfl

theorem fieldText_yearText (year : Int) : FieldText .year (yearText year) := by
  have padded : '%' ∉ List.replicate (4 - (Nat.toDigits 10 year.natAbs).length) '0' ++
      Nat.toDigits 10 year.natAbs := by
    rw [List.mem_append, not_or]
    exact ⟨fun member => absurd (List.eq_of_mem_replicate member) (by decide),
      percent_not_mem_toDigits _⟩
  refine ⟨?_, ?_, fun other => absurd rfl other⟩
  · unfold yearText
    dsimp only
    split_ifs
    · exact List.not_mem_cons_of_ne_of_not_mem (by decide) padded
    · exact List.not_mem_cons_of_ne_of_not_mem (by decide) padded
    · exact padded
  · unfold yearText
    dsimp only
    split_ifs <;> simp only [List.length_cons, List.length_append, List.length_replicate] <;> omega

theorem fieldText_date {days : Int} {field : Field} {text : List Char}
    (found : dateField? days field = some text) : FieldText field text := by
  cases field with
  | year =>
      obtain rfl := Option.some.inj found
      exact fieldText_yearText _
  | month | day =>
      obtain rfl := Option.some.inj found
      exact fieldText_twoDigits _ _
  | hour | minute | second => cases found

theorem fieldText_time {nanoseconds : Nat} {field : Field} {text : List Char}
    (found : timeField? nanoseconds field = some text) : FieldText field text := by
  cases field with
  | year | month | day => cases found
  | hour | minute | second =>
      obtain rfl := Option.some.inj found
      exact fieldText_twoDigits _ _

theorem fieldText {value : TemporalValue} {field : Field} {text : List Char}
    (found : field? value field = some text) : FieldText field text := by
  cases value with
  | instant nanoseconds =>
      rcases Option.or_eq_some_iff.mp found with date | ⟨-, time⟩
      · exact fieldText_date date
      · exact fieldText_time time
  | date days => exact fieldText_date found
  | time nanoseconds => exact fieldText_time found

/-! ## Runs of minutes -/

section Minutes

/-- A reading that takes minutes two letters at a time. -/
structure TakesMinutes (value : TemporalValue) (reads : List Char → Option (List Char)) :
    Prop where
  pair {rest text : List Char} (known : reads ('m' :: 'm' :: rest) = some text) :
    ∃ first later, field? value .minute = some first ∧ reads rest = some later ∧
      first ++ later = text
  single {rest text : List Char} (alone : rest.head? ≠ some 'm')
    (known : reads ('m' :: rest) = some text) :
    ∃ later, reads rest = some later ∧ 'm' :: later = text

/-- What is read of a run of letters is as long as the run. -/
theorem TakesMinutes.run {value : TemporalValue} {reads : List Char → Option (List Char)}
    (takes : TakesMinutes value reads) (count : Nat) {rest text : List Char}
    (ends : rest.head? ≠ some 'm') (known : reads (List.replicate count 'm' ++ rest) = some text) :
    ∃ front later, front.length = count ∧ reads rest = some later ∧ front ++ later = text := by
  induction count using Nat.twoStepInduction generalizing text with
  | zero => exact ⟨[], text, rfl, known, rfl⟩
  | one =>
      obtain ⟨later, behind, same⟩ := takes.single ends known
      exact ⟨['m'], later, rfl, behind, same⟩
  | more count induction _ =>
      obtain ⟨first, later, minute, behind, rfl⟩ := takes.pair known
      obtain ⟨front, last, long, found, rfl⟩ := induction behind
      refine ⟨first ++ front, last, ?_, found, List.append_assoc _ _ _⟩
      rw [List.length_append, (fieldText minute).short nofun, long, Nat.add_comm]

theorem exists_run (mask : List Char) :
    ∃ count rest, mask = List.replicate count 'm' ++ rest ∧ rest.head? ≠ some 'm' := by
  induction mask with
  | nil => exact ⟨0, [], rfl, nofun⟩
  | cons ch mask induction =>
      by_cases minute : ch = 'm'
      · obtain ⟨count, rest, rfl, ends⟩ := induction
        exact ⟨count + 1, rest, by rw [minute]; rfl, ends⟩
      · exact ⟨0, ch :: mask, rfl, fun same => minute (Option.some.inj same)⟩

theorem exists_crowded {mask : List Char} (minute : mask.head? = some 'm') :
    ∃ count rest, mask = 'm' :: (List.replicate count 'm' ++ rest) ∧ rest.head? ≠ some 'm' ∧
      rest.length < mask.length := by
  obtain ⟨tail, rfl⟩ := List.head?_eq_some_iff.mp minute
  obtain ⟨count, rest, rfl, ends⟩ := exists_run tail
  exact ⟨count, rest, rfl, ends, by simp⟩

/-- No field begins with a letter that stands alone. -/
theorem plain_of_single {rest : List Char} (alone : rest.head? ≠ some 'm') (field : Field) :
    ¬ field.letters <+: 'm' :: rest := by
  rintro ⟨behind, same⟩
  cases field with
  | minute =>
      rw [← (List.cons.inj same).2] at alone
      exact alone rfl
  | _ => exact absurd (List.cons.inj same).1 (by decide)

theorem takesMinutes_expected (value : TemporalValue) : TakesMinutes value (expected value) where
  pair known := (@expected_field value _ _ .minute).mp known
  single alone known := (expected_char (plain_of_single alone)).mp known

theorem takesMinutes_format {chrono : Chrono} (lawful : chrono.Lawful) (value : TemporalValue) :
    TakesMinutes value fun mask => chrono.format value (chronoMask mask) where
  pair {rest text} known := by
    have compiled := @chronoMask_field .minute rest nofun
    rw [Field.letters, List.cons_append, List.cons_append, List.nil_append] at compiled
    rw [compiled] at known
    exact (format_field lawful).mp known
  single {rest text} alone known := by
    rw [chronoMask_cons (plain_of_single alone)] at known
    exact (format_char lawful (by decide)).mp known

end Minutes

/-! ## Masks that are compiled faithfully -/

def Piece.beginsMinute (piece : Piece) : Prop :=
  piece = .char 'm' ∨ piece = .field .minute

/-- No `%`, and no `m` right behind a month. -/
structure PlainMask (mask : List Char) : Prop where
  percent : .char '%' ∉ pieces mask
  apart : (pieces mask).IsChain fun first second =>
    first = .field .month → ¬ second.beginsMinute

theorem head?_of_beginsMinute {mask : List Char} {piece : Piece}
    (first : (pieces mask).head? = some piece) (minute : piece.beginsMinute) :
    mask.head? = some 'm' := by
  cases begins mask with
  | nil => cases first
  | field field rest =>
      rw [pieces_field] at first
      obtain rfl := Option.some.inj first
      rcases minute with same | same
      · cases same
      · cases same
        rfl
  | char ch rest plain =>
      rw [pieces_char plain] at first
      obtain rfl := Option.some.inj first
      rcases minute with same | same
      · cases same
        rfl
      · cases same

theorem beginsMinute_of_head? {mask : List Char} (minute : mask.head? = some 'm') :
    ∃ piece, (pieces mask).head? = some piece ∧ piece.beginsMinute := by
  cases begins mask with
  | nil => cases minute
  | field field rest =>
      rw [pieces_field]
      refine ⟨_, rfl, .inr ?_⟩
      cases field with
      | minute => rfl
      | _ => exact absurd (Option.some.inj minute) (by decide)
  | char ch rest plain =>
      rw [pieces_char plain]
      exact ⟨_, rfl, .inl (congrArg Piece.char (Option.some.inj minute))⟩

theorem plainMask_nil : PlainMask [] :=
  ⟨List.not_mem_nil, .nil⟩

theorem plainMask_char {ch : Char} {rest : List Char}
    (plain : ∀ field : Field, ¬ field.letters <+: ch :: rest) :
    PlainMask (ch :: rest) ↔ ch ≠ '%' ∧ PlainMask rest := by
  constructor
  · rintro ⟨percent, apart⟩
    rw [pieces_char plain] at percent apart
    rw [List.mem_cons, not_or] at percent
    refine ⟨fun same => percent.1 (congrArg Piece.char same.symm), percent.2, ?_⟩
    exact (List.isChain_cons.mp apart).2
  · rintro ⟨other, percent, apart⟩
    refine ⟨?_, ?_⟩
    · rw [pieces_char plain, List.mem_cons, not_or]
      exact ⟨fun same => other (Piece.char.inj same).symm, percent⟩
    · rw [pieces_char plain]
      exact List.isChain_cons.mpr ⟨fun _ _ month => (nomatch month), apart⟩

theorem plainMask_field {field : Field} {rest : List Char} :
    PlainMask (field.letters ++ rest) ↔
      (field = .month → rest.head? ≠ some 'm') ∧ PlainMask rest := by
  constructor
  · rintro ⟨percent, apart⟩
    rw [pieces_field] at percent apart
    rw [List.mem_cons, not_or] at percent
    obtain ⟨first, later⟩ := List.isChain_cons.mp apart
    refine ⟨fun month minute => ?_, percent.2, later⟩
    obtain ⟨piece, found, takes⟩ := beginsMinute_of_head? minute
    exact first piece found (congrArg Piece.field month) takes
  · rintro ⟨other, percent, apart⟩
    refine ⟨?_, ?_⟩
    · rw [pieces_field, List.mem_cons, not_or]
      exact ⟨fun same => (nomatch same), percent⟩
    · rw [pieces_field]
      refine List.isChain_cons.mpr ⟨fun piece found month takes => ?_, apart⟩
      exact other (Piece.field.inj month) (head?_of_beginsMinute found takes)

/-! ## Nothing is made up for -/

section Owed

variable {α : Type}

/-- What is still owed when something shorter has been printed. -/
theorem drop_owed {printed later owed wanted : List α} (same : printed ++ later = owed ++ wanted)
    (longer : printed.length ≤ owed.length) :
    later = owed.drop printed.length ++ wanted := by
  have dropped := congrArg (List.drop printed.length) same
  rwa [List.drop_left, List.drop_append_of_le_length longer] at dropped

theorem drop_ne_nil {printed owed : List α} (longer : printed.length < owed.length) :
    owed.drop printed.length ≠ [] := by
  intro empty
  have length := congrArg List.length empty
  rw [List.length_drop, List.length_nil] at length
  omega

/-- A text without a mark does not reach beyond it. -/
theorem length_le_of_mark {mark : α} {printed later owed wanted : List α} (clear : mark ∉ printed)
    (same : printed ++ later = owed ++ mark :: wanted) : printed.length ≤ owed.length := by
  by_contra longer
  apply clear
  have place : (printed ++ later)[owed.length]? = some mark := by
    rw [same, List.getElem?_append_right (Nat.le_refl _), Nat.sub_self]
    rfl
  rw [List.getElem?_append_left (by omega)] at place
  exact List.mem_of_getElem? place

end Owed

theorem chronoMask_field_begins (field : Field) (rest : List Char) :
    ∃ tail, chronoMask (field.letters ++ rest) = '%' :: tail := by
  by_cases crowded : field = .month ∧ rest.head? = some 'm'
  · obtain ⟨rfl, minute⟩ := crowded
    obtain ⟨tail, rfl⟩ := List.head?_eq_some_iff.mp minute
    exact ⟨_, chronoMask_crowded tail⟩
  · exact ⟨_, chronoMask_field fun month minute => crowded ⟨month, minute⟩⟩

/-- What a compiled mask holds in front of its first `%` stands in the mask, and is
expected. -/
theorem chronoMask_front {value : TemporalValue} {front behind mask : List Char}
    (clear : '%' ∉ front) (compiled : chronoMask mask = front ++ behind) :
    ∃ rest, mask = front ++ rest ∧ chronoMask rest = behind ∧
      ∀ text, expected value mask = some text →
        ∃ later, expected value rest = some later ∧ front ++ later = text := by
  induction front generalizing mask with
  | nil => exact ⟨mask, rfl, compiled, fun text known => ⟨text, known, rfl⟩⟩
  | cons ch front induction =>
      rw [List.mem_cons, not_or] at clear
      cases begins mask with
      | nil => cases compiled
      | field field rest =>
          obtain ⟨tail, marked⟩ := chronoMask_field_begins field rest
          rw [marked, List.cons_append] at compiled
          exact absurd (List.cons.inj compiled).1 clear.1
      | char other rest plain =>
          rw [chronoMask_cons plain, List.cons_append] at compiled
          obtain ⟨rfl, later⟩ := List.cons.inj compiled
          obtain ⟨last, rfl, ends, known⟩ := induction clear.2 later
          refine ⟨last, rfl, ends, fun text found => ?_⟩
          obtain ⟨middle, behind, rfl⟩ := (expected_char plain).mp found
          obtain ⟨tail, reached, rfl⟩ := known middle behind
          exact ⟨tail, reached, rfl⟩

section Faithful

variable {chrono : Chrono} {value : TemporalValue}

/-- What is printed for a mask is what is expected behind something owed only if nothing is
owed. -/
def SettlesMask (chrono : Chrono) (value : TemporalValue) (mask : List Char) : Prop :=
  ∀ owed wanted, expected value mask = some wanted →
    chrono.format value (chronoMask mask) = some (owed ++ wanted) → owed = [] ∧ PlainMask mask

/-- A `%` in front of a mask is never printed as itself. -/
def LosesPercent (chrono : Chrono) (value : TemporalValue) (mask : List Char) : Prop :=
  ∀ owed wanted, expected value mask = some wanted →
    chrono.format value ('%' :: chronoMask mask) ≠ some (owed ++ '%' :: wanted)

/-- Both texts of a month with minutes behind it. -/
theorem crowded_cases (lawful : chrono.Lawful) {count : Nat} {rest printed wanted : List Char}
    (ends : rest.head? ≠ some 'm')
    (known : expected value ('M' :: 'M' :: 'm' :: (List.replicate count 'm' ++ rest)) =
      some wanted)
    (prints : chrono.format value (chronoMask (List.replicate count 'm' ++ rest)) =
      some printed) :
    ∃ front later back last, front.length = count ∧ back.length = count + 3 ∧
      chrono.format value (chronoMask rest) = some later ∧ expected value rest = some last ∧
      front ++ later = printed ∧ back ++ last = wanted := by
  obtain ⟨front, later, length, found, same⟩ :=
    (takesMinutes_format lawful value).run count ends prints
  obtain ⟨month, behind, named, minutes, whole⟩ :=
    (@expected_field value _ _ .month).mp known
  obtain ⟨back, last, long, reached, rfl⟩ :=
    (takesMinutes_expected value).run (count + 1) ends minutes
  refine ⟨front, later, month ++ back, last, length, ?_, found, reached, same, ?_⟩
  · rw [List.length_append, (fieldText named).short nofun, long]
    omega
  · rw [List.append_assoc]
    exact whole

theorem settlesMask_of_shorter (lawful : chrono.Lawful) {mask : List Char}
    (shorter : ∀ rest : List Char, rest.length < mask.length →
      SettlesMask chrono value rest ∧ LosesPercent chrono value rest) :
    SettlesMask chrono value mask := by
  intro owed wanted known prints
  cases begins mask with
  | nil =>
      obtain rfl := Option.some.inj known
      have empty := Option.some.inj ((lawful.nil value).symm.trans prints)
      rw [List.append_nil] at empty
      exact ⟨empty.symm, plainMask_nil⟩
  | char ch rest plain =>
      have settled := shorter rest (Nat.lt_succ_self _)
      obtain ⟨later, behind, rfl⟩ := (expected_char plain).mp known
      rw [chronoMask_cons plain] at prints
      by_cases percent : ch = '%'
      · subst percent
        exact absurd prints (settled.2 owed later behind)
      · obtain ⟨last, found, same⟩ := (format_char lawful percent).mp prints
        have debt := @drop_owed _ [ch] last (owed ++ [ch]) later (by simpa using same) (by simp)
        obtain ⟨empty, rests⟩ := settled.1 _ later behind (found.trans (congrArg some debt))
        cases owed with
        | nil => exact ⟨rfl, (plainMask_char plain).mpr ⟨percent, rests⟩⟩
        | cons first owed => exact absurd empty (by simp)
  | field field rest =>
      have size := List.length_pos_iff.mpr (letters_ne_nil field)
      have total : (field.letters ++ rest).length = field.letters.length + rest.length :=
        List.length_append
      by_cases crowded : field = .month ∧ rest.head? = some 'm'
      · obtain ⟨rfl, minute⟩ := crowded
        obtain ⟨count, rest, rfl, ends, short⟩ := exists_crowded minute
        change chrono.format value (chronoMask ('M' :: 'M' :: 'm' :: _)) = _ at prints
        rw [chronoMask_crowded] at prints
        obtain ⟨after, first, same⟩ := (format_percent lawful).mp prints
        obtain ⟨printed, second, rfl⟩ := (format_char lawful (by decide)).mp first
        obtain ⟨front, later, back, last, long, longer, found, reached, rfl, rfl⟩ :=
          crowded_cases lawful ends known second
        have debt := @drop_owed _ ('%' :: 'M' :: front) later (owed ++ back) last
          (by simpa using same) (by simp; omega)
        obtain ⟨empty, -⟩ := (shorter rest (by omega)).1 _ last reached
          (found.trans (congrArg some debt))
        exact absurd empty (drop_ne_nil (by simp; omega))
      · have apart : field = .month → rest.head? ≠ some 'm' :=
          fun month minute => crowded ⟨month, minute⟩
        rw [chronoMask_field apart] at prints
        obtain ⟨text, later, named, behind, rfl⟩ := (expected_field).mp known
        obtain ⟨other, last, same, found, whole⟩ := (format_field lawful).mp prints
        rw [named] at same
        obtain rfl := Option.some.inj same
        have debt := @drop_owed _ text last (owed ++ text) later (by simpa using whole) (by simp)
        obtain ⟨empty, rests⟩ := (shorter rest (by omega)).1 _ later behind
          (found.trans (congrArg some debt))
        have none : owed = [] := by
          have length := congrArg List.length empty
          simp at length
          exact length
        exact ⟨none, (plainMask_field).mpr ⟨apart, rests⟩⟩

theorem losesPercent_of_shorter (lawful : chrono.Lawful) {mask : List Char}
    (settles : SettlesMask chrono value mask)
    (shorter : ∀ rest : List Char, rest.length < mask.length →
      SettlesMask chrono value rest) : LosesPercent chrono value mask := by
  intro owed wanted known prints
  cases begins mask with
  | nil =>
      obtain ⟨printed, covered, later, clear, -, found, same⟩ :=
        lawful.other value [] _ nofun prints
      rw [List.drop_nil, lawful.nil, Option.some.injEq] at found
      rw [← found, List.append_nil] at same
      exact clear (by simp [same])
  | char ch rest plain =>
      by_cases percent : ch = '%'
      · subst percent
        rw [chronoMask_cons plain] at prints
        obtain ⟨later, behind, rfl⟩ := (expected_char plain).mp known
        obtain ⟨last, found, same⟩ := (format_percent lawful).mp prints
        have debt := @drop_owed _ ['%'] last (owed ++ ['%', '%']) later (by simpa using same)
          (by simp)
        obtain ⟨empty, -⟩ := shorter rest (Nat.lt_succ_self _) _ later behind
          (found.trans (congrArg some debt))
        exact drop_ne_nil (by simp) empty
      · have compiled := chronoMask_cons plain
        rw [compiled] at prints
        obtain ⟨printed, covered, last, clear, before, found, same⟩ :=
          lawful.other value _ _ (by simpa using percent) prints
        rw [← compiled] at before found
        obtain ⟨tail, whole, compiledTail, expects⟩ := @chronoMask_front value _ _ (ch :: rest)
          before (List.take_append_drop covered _).symm
        obtain ⟨later, reached, rfl⟩ := expects wanted known
        generalize (chronoMask (ch :: rest)).take covered = front at before whole same
        rw [← compiledTail] at found
        have less := length_le_of_mark clear same
        have debt := @drop_owed _ printed last (owed ++ '%' :: front) later
          (by simpa using same) (by simp; omega)
        have settled : SettlesMask chrono value tail := by
          rcases Nat.lt_or_ge tail.length (ch :: rest).length with short | long
          · exact shorter tail short
          · have none : front = [] := by
              have lengths := congrArg List.length whole
              rw [List.length_append] at lengths
              exact List.length_eq_zero_iff.mp (by omega)
            rw [none, List.nil_append] at whole
            rwa [← whole]
        obtain ⟨empty, -⟩ := settled _ later reached (found.trans (congrArg some debt))
        exact drop_ne_nil (by simp; omega) empty
  | field field rest =>
      have size := List.length_pos_iff.mpr (letters_ne_nil field)
      have total : (field.letters ++ rest).length = field.letters.length + rest.length :=
        List.length_append
      by_cases crowded : field = .month ∧ rest.head? = some 'm'
      · obtain ⟨rfl, minute⟩ := crowded
        obtain ⟨count, rest, rfl, ends, short⟩ := exists_crowded minute
        change chrono.format value ('%' :: chronoMask ('M' :: 'M' :: 'm' :: _)) = _ at prints
        rw [chronoMask_crowded] at prints
        obtain ⟨after, first, same⟩ := (format_percent lawful).mp prints
        obtain ⟨minutes, printed, named, second, rfl⟩ := (@format_field _ _ _ _ lawful .minute).mp first
        obtain ⟨front, later, back, last, long, longer, found, reached, rfl, rfl⟩ :=
          crowded_cases lawful ends known second
        have two := (fieldText named).short nofun
        have debt := @drop_owed _ ('%' :: minutes ++ front) later (owed ++ '%' :: back) last
          (by simpa using same) (by simp; omega)
        obtain ⟨empty, -⟩ := shorter rest (by omega) _ last reached (found.trans (congrArg some debt))
        exact drop_ne_nil (by simp; omega) empty
      · have apart : field = .month → rest.head? ≠ some 'm' :=
          fun month minute => crowded ⟨month, minute⟩
        rw [chronoMask_field apart] at prints
        obtain ⟨text, later, named, behind, rfl⟩ := (expected_field).mp known
        obtain ⟨after, first, same⟩ := (format_percent lawful).mp prints
        have plain : field.specifier ≠ '%' := by cases field <;> decide
        obtain ⟨last, found, rfl⟩ := (format_char lawful plain).mp first
        have long := (fieldText named).long
        have debt := @drop_owed _ ['%', field.specifier] last (owed ++ '%' :: text) later
          (by simpa using same) (by simp; omega)
        obtain ⟨empty, -⟩ := shorter rest (by omega) _ later behind
          (found.trans (congrArg some debt))
        exact drop_ne_nil (by simp; omega) empty

theorem settlesMask (lawful : chrono.Lawful) (mask : List Char) :
    SettlesMask chrono value mask ∧ LosesPercent chrono value mask := by
  induction size : mask.length using Nat.strong_induction_on generalizing mask with
  | _ size induction =>
      subst size
      have shorter (rest : List Char) (less : rest.length < mask.length) :=
        induction rest.length less rest rfl
      have settles := settlesMask_of_shorter lawful shorter
      exact ⟨settles, losesPercent_of_shorter lawful settles fun rest less => (shorter rest less).1⟩

/-- A plain mask prints what it stands for. -/
theorem format_of_plainMask (lawful : chrono.Lawful) {mask wanted : List Char} (plain : PlainMask mask)
    (known : expected value mask = some wanted) :
    chrono.format value (chronoMask mask) = some wanted := by
  induction size : mask.length using Nat.strong_induction_on generalizing mask wanted with
  | _ size induction =>
      subst size
      cases begins mask with
      | nil => exact (lawful.nil value).trans known
      | char ch rest alone =>
          obtain ⟨percent, rests⟩ := (plainMask_char alone).mp plain
          obtain ⟨later, behind, rfl⟩ := (expected_char alone).mp known
          rw [chronoMask_cons alone]
          have prints := induction rest.length (Nat.lt_succ_self _) rests behind rfl
          exact (format_char lawful percent).mpr ⟨later, prints, rfl⟩
      | field field rest =>
          obtain ⟨apart, rests⟩ := (plainMask_field).mp plain
          obtain ⟨text, later, named, behind, rfl⟩ := (expected_field).mp known
          rw [chronoMask_field apart]
          have size := List.length_pos_iff.mpr (letters_ne_nil field)
          have shorter : rest.length < (field.letters ++ rest).length := by
            rw [List.length_append]
            omega
          have prints := induction rest.length shorter rests behind rfl
          exact (format_field lawful).mpr ⟨text, later, named, prints, rfl⟩

/-- The value has the fields that the mask asks for. -/
def HasFields (value : TemporalValue) (mask : List Char) : Prop :=
  ∀ field : Field, .field field ∈ pieces mask → (field? value field).isSome

theorem hasFields_iff (value : TemporalValue) (mask : List Char) :
    HasFields value mask ↔ ∃ wanted, expected value mask = some wanted := by
  rw [HasFields, expected]
  induction pieces mask with
  | nil => exact iff_of_true nofun ⟨[], rfl⟩
  | cons piece behind induction =>
      simp only [List.map_cons, concat?_cons_eq_some]
      constructor
      · intro has
        obtain ⟨later, found⟩ := induction.mp fun field member =>
          has field (List.mem_cons_of_mem _ member)
        cases piece with
        | char ch => exact ⟨_, [ch], later, rfl, found, rfl⟩
        | field field =>
            obtain ⟨text, named⟩ := Option.isSome_iff_exists.mp (has field List.mem_cons_self)
            exact ⟨_, text, later, named, found, rfl⟩
      · rintro ⟨wanted, first, later, named, found, -⟩ field member
        rcases List.mem_cons.mp member with rfl | inside
        · exact Option.isSome_iff_exists.mpr ⟨first, named⟩
        · exact induction.mpr ⟨later, found⟩ field inside

/-- A mask is replaced faithfully exactly when it is plain and asks for no field that the value
lacks. -/
theorem format_faithful_iff (lawful : chrono.Lawful) (mask : List Char) :
    (∃ text, chrono.format value (chronoMask mask) = some text ∧
      expected value mask = some text) ↔ PlainMask mask ∧ HasFields value mask := by
  constructor
  · rintro ⟨text, prints, known⟩
    exact ⟨((settlesMask lawful mask).1 [] text known prints).2,
      (hasFields_iff value mask).mpr ⟨text, known⟩⟩
  · rintro ⟨plain, has⟩
    obtain ⟨wanted, known⟩ := (hasFields_iff value mask).mp has
    exact ⟨wanted, format_of_plainMask lawful plain known, known⟩

end Faithful

end TimeNamespace

end Marreta
