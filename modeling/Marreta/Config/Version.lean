import Marreta.Foundation.Binary64
import Marreta.Foundation.Text

namespace Marreta

open Foundation Text

/-! Versions of the runtime, and the least version that a project asks for.

A number of a version is read by the integer parser of the standard library, which takes a plus
sign. -/

namespace Versions

abbrev Version := UInt64 × UInt64 × UInt64

/-- `str::parse` for numbers of 64 bits. -/
def parseU64 (text : List Char) : Option UInt64 :=
  let digits := if text.head? = some '+' then text.tail else text
  if digits ≠ [] ∧ digits.all Char.isDigit ∧ Binary64.digitsValue digits < 2 ^ 64 then
    some (UInt64.ofNat (Binary64.digitsValue digits))
  else none

def parseVersion (value : List Char) : Option Version :=
  match value.splitOn '.' with
  | [major, minor, patch] => do
      let major ← parseU64 major
      let minor ← parseU64 minor
      let patch ← parseU64 patch
      return (major, minor, patch)
  | _ => none

def stripSpace (text : List Char) : List Char :=
  if text.head? = some ' ' then text.tail else text

/-- `>=` and a version, with at most one space between them. -/
def parseRequiresMarreta (value : List Char) : Option Version :=
  match trim value with
  | '>' :: '=' :: afterOp =>
      let version := stripSpace afterOp
      if version.any isWhitespace then none else parseVersion version
  | _ => none

/-! ## The grammar -/

/-- Digits, and the number they stand for. -/
structure PlainNumber (text : List Char) (value : UInt64) : Prop where
  nonempty : text ≠ []
  digits : ∀ ch ∈ text, ch.isDigit = true
  value_eq : Binary64.digitsValue text = value.toNat

/-- Digits, with a plus sign before them or not. -/
def SignedNumber (text : List Char) (value : UInt64) : Prop :=
  PlainNumber text value ∨ ∃ digits, text = '+' :: digits ∧ PlainNumber digits value

/-- Three numbers with dots between them. -/
def Dotted (number : List Char → UInt64 → Prop) (text : List Char) (version : Version) : Prop :=
  ∃ major minor patch, text = major ++ '.' :: (minor ++ '.' :: patch) ∧
    number major version.1 ∧ number minor version.2.1 ∧ number patch version.2.2

/-- The text of a version. -/
abbrev PlainVersion := Dotted PlainNumber

/-- The text of a version, in which numbers may have a sign. -/
abbrev SignedVersion := Dotted SignedNumber

/-- The functions accept what the grammar says. -/
structure FollowsGrammar (text : List Char) : Prop where
  version : ∀ version, parseVersion text = some version ↔ PlainVersion text version
  requirement : ∀ version, parseRequiresMarreta text = some version ↔
    ∃ space rest, trim text = ">=".toList ++ (space ++ rest) ∧ (space = [] ∨ space = [' ']) ∧
      parseVersion rest = some version

/-! ## Numbers -/

theorem isDigit_ne {ch other : Char} (digit : ch.isDigit = true)
    (notDigit : other.isDigit = false) : ch ≠ other := by
  rintro rfl
  rw [digit] at notDigit
  cases notDigit

theorem PlainNumber.not_mem {text : List Char} {value : UInt64} (plain : PlainNumber text value)
    {other : Char} (notDigit : other.isDigit = false) : other ∉ text :=
  fun member => isDigit_ne (plain.digits other member) notDigit rfl

theorem parseU64_iff {text : List Char} {value : UInt64} :
    parseU64 text = some value ↔ SignedNumber text value := by
  have plain_iff (digits : List Char) :
      (if digits ≠ [] ∧ digits.all Char.isDigit ∧ Binary64.digitsValue digits < 2 ^ 64 then
        some (UInt64.ofNat (Binary64.digitsValue digits)) else none) = some value ↔
      PlainNumber digits value := by
    rw [Option.ite_none_right_eq_some]
    constructor
    · intro ⟨⟨nonempty, digits, small⟩, same⟩
      refine ⟨nonempty, List.all_eq_true.mp digits, ?_⟩
      rw [← Option.some.inj same, UInt64.toNat_ofNat_of_lt' small]
    · intro plain
      refine ⟨⟨plain.nonempty, List.all_eq_true.mpr plain.digits, ?_⟩, ?_⟩
      · rw [plain.value_eq]
        exact value.toNat_lt
      · rw [plain.value_eq, UInt64.ofNat_toNat]
  rw [parseU64]
  by_cases sign : text.head? = some '+'
  · obtain ⟨digits, rfl⟩ := List.head?_eq_some_iff.mp sign
    rw [if_pos sign]
    refine (plain_iff digits).trans ⟨fun plain => .inr ⟨digits, rfl, plain⟩, ?_⟩
    rintro (plain | ⟨others, same, plain⟩)
    · exact absurd List.mem_cons_self (plain.not_mem (by decide : '+'.isDigit = false))
    · cases same
      exact plain
  · rw [if_neg sign]
    refine (plain_iff text).trans ⟨.inl, ?_⟩
    rintro (plain | ⟨others, rfl, plain⟩)
    · exact plain
    · exact absurd rfl sign

theorem SignedNumber.not_mem {text : List Char} {value : UInt64} (signed : SignedNumber text value)
    {other : Char} (notDigit : other.isDigit = false) (notSign : other ≠ '+') : other ∉ text := by
  rcases signed with plain | ⟨digits, rfl, plain⟩
  · exact plain.not_mem notDigit
  · rintro (_ | ⟨_, member⟩)
    · exact notSign rfl
    · exact plain.not_mem notDigit member

theorem SignedNumber.plain {text : List Char} {value : UInt64} (signed : SignedNumber text value)
    (unsigned : '+' ∉ text) : PlainNumber text value := by
  rcases signed with plain | ⟨digits, rfl, plain⟩
  · exact plain
  · exact absurd List.mem_cons_self unsigned

/-! ## Versions -/

theorem dotted_splitOn {major minor patch : List Char} (first : '.' ∉ major) (second : '.' ∉ minor)
    (third : '.' ∉ patch) :
    (major ++ '.' :: (minor ++ '.' :: patch)).splitOn '.' = [major, minor, patch] := by
  rw [List.splitOn_append_cons_self_of_not_mem first, List.splitOn_append_cons_self_of_not_mem second,
    List.splitOn_eq_singleton third]

theorem parseVersion_iff {text : List Char} {version : Version} :
    parseVersion text = some version ↔ SignedVersion text version := by
  constructor
  · intro parses
    unfold parseVersion at parses
    split at parses
    · rename_i major minor patch split
      simp only [Option.bind_eq_bind, Option.bind_eq_some_iff, parseU64_iff] at parses
      obtain ⟨first, major, second, minor, third, patch, same⟩ := parses
      cases same
      refine ⟨_, _, _, ?_, major, minor, patch⟩
      rw [← @List.intercalate_splitOn _ text _ _ '.', split]
      simp [List.intercalate, List.intersperse]
    · cases parses
  · rintro ⟨major, minor, patch, rfl, first, second, third⟩
    have dot : '.'.isDigit = false := by decide
    have sign : '.' ≠ '+' := by decide
    rw [parseVersion, dotted_splitOn (first.not_mem dot sign) (second.not_mem dot sign)
      (third.not_mem dot sign)]
    dsimp only
    rw [(parseU64_iff).mpr first, (parseU64_iff).mpr second, (parseU64_iff).mpr third]
    rfl

theorem not_isWhitespace {ch : Char} (known : ch.isDigit = true ∨ ch = '+' ∨ ch = '.') :
    isWhitespace ch = false := by
  rcases known with digit | rfl | rfl
  · rw [Char.isDigit, Bool.and_eq_true, decide_eq_true_iff, decide_eq_true_iff] at digit
    have low : 48 ≤ ch.toNat := UInt32.le_iff_toNat_le.mp digit.1
    have high : ch.toNat ≤ 57 := UInt32.le_iff_toNat_le.mp digit.2
    simp only [isWhitespace, decide_eq_false_iff_not]
    omega
  · decide
  · decide

theorem SignedNumber.each {text : List Char} {value : UInt64} (signed : SignedNumber text value) :
    ∀ ch ∈ text, ch.isDigit = true ∨ ch = '+' := by
  intro ch member
  rcases signed with plain | ⟨digits, rfl, plain⟩
  · exact .inl (plain.digits ch member)
  · rcases List.mem_cons.mp member with rfl | member
    · exact .inr rfl
    · exact .inl (plain.digits ch member)

/-- No version has whitespace in it. -/
theorem not_isWhitespace_of_signed {text : List Char} {version : Version}
    (signed : SignedVersion text version) : ∀ ch ∈ text, isWhitespace ch = false := by
  obtain ⟨major, minor, patch, rfl, first, second, third⟩ := signed
  intro ch member
  apply not_isWhitespace
  rw [← or_assoc]
  simp only [List.mem_append, List.mem_cons] at member
  rcases member with inside | rfl | inside | rfl | inside
  · exact .inl (first.each ch inside)
  · exact .inr rfl
  · exact .inl (second.each ch inside)
  · exact .inr rfl
  · exact .inl (third.each ch inside)

/-- A requirement is a version behind `>=`. -/
theorem parseRequiresMarreta_iff {text : List Char} {version : Version} :
    parseRequiresMarreta text = some version ↔
      ∃ space rest, trim text = ">=".toList ++ (space ++ rest) ∧
        (space = [] ∨ space = [' ']) ∧ parseVersion rest = some version := by
  constructor
  · intro parses
    unfold parseRequiresMarreta at parses
    split at parses
    · rename_i afterOp stripped
      obtain ⟨-, parses⟩ := Option.ite_none_left_eq_some.mp parses
      by_cases spaced : afterOp.head? = some ' '
      · obtain ⟨rest, rfl⟩ := List.head?_eq_some_iff.mp spaced
        exact ⟨[' '], rest, stripped, .inr rfl, parses⟩
      · rw [stripSpace, if_neg spaced] at parses
        exact ⟨[], afterOp, stripped, .inl rfl, parses⟩
    · cases parses
  · intro ⟨space, rest, stripped, oneSpace, parses⟩
    have free := not_isWhitespace_of_signed ((parseVersion_iff).mp parses)
    have accepted : ¬ rest.any isWhitespace = true := by
      rw [Bool.not_eq_true, List.any_eq_false]
      intro ch member
      simp [free ch member]
    have same : stripSpace (space ++ rest) = rest := by
      rcases oneSpace with rfl | rfl
      · apply if_neg
        intro spaced
        obtain ⟨others, rfl⟩ := List.head?_eq_some_iff.mp spaced
        exact absurd (free ' ' List.mem_cons_self) (by decide)
      · rfl
    have shape : trim text = '>' :: '=' :: (space ++ rest) := stripped
    unfold parseRequiresMarreta
    simp only [shape, same, if_neg accepted]
    exact parses

/-! ## Signs -/

theorem PlainVersion.signed {text : List Char} {version : Version}
    (plain : PlainVersion text version) : SignedVersion text version := by
  obtain ⟨major, minor, patch, same, first, second, third⟩ := plain
  exact ⟨major, minor, patch, same, .inl first, .inl second, .inl third⟩

theorem PlainVersion.unsigned {text : List Char} {version : Version}
    (plain : PlainVersion text version) : '+' ∉ text := by
  obtain ⟨major, minor, patch, rfl, first, second, third⟩ := plain
  have sign : '+'.isDigit = false := by decide
  simp only [List.mem_append, List.mem_cons]
  rintro (inside | dot | inside | dot | inside)
  · exact first.not_mem sign inside
  · exact absurd dot (by decide)
  · exact second.not_mem sign inside
  · exact absurd dot (by decide)
  · exact third.not_mem sign inside

theorem SignedVersion.plain {text : List Char} {version : Version}
    (signed : SignedVersion text version) (unsigned : '+' ∉ text) : PlainVersion text version := by
  obtain ⟨major, minor, patch, rfl, first, second, third⟩ := signed
  simp only [List.mem_append, List.mem_cons, not_or] at unsigned
  obtain ⟨inMajor, -, inMinor, -, inPatch⟩ := unsigned
  exact ⟨major, minor, patch, rfl, first.plain inMajor, second.plain inMinor, third.plain inPatch⟩

/-- The functions follow the grammar on every text but the versions with a sign. -/
theorem followsGrammar_iff (text : List Char) :
    FollowsGrammar text ↔ ∀ version, SignedVersion text version → '+' ∉ text := by
  constructor
  · intro follows version signed
    exact ((follows.version version).mp (parseVersion_iff.mpr signed)).unsigned
  · intro unsigned
    refine ⟨fun version => ?_, fun version => parseRequiresMarreta_iff⟩
    rw [parseVersion_iff]
    exact ⟨fun signed => signed.plain (unsigned version signed), PlainVersion.signed⟩

/-- A plus sign is accepted. -/
theorem not_followsGrammar_sign : ¬ FollowsGrammar "+1.2.3".toList := by
  intro follows
  have parses : parseVersion "+1.2.3".toList = some (1, 2, 3) := by decide
  exact absurd ((follows.version _).mp parses).unsigned (by decide)

end Versions
end Marreta
