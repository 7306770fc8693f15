import Marreta.Runtime.Host

namespace Marreta

open Foundation
open Foundation.Text

/-! The trace context of a request.

A context comes from the headers of a request or from nothing, and every outbound call gets a
child of it.  The headers of the child have to name the same trace for the service that
receives them. -/

/-! ## Headers -/

def maxTracestateEntries : Nat := 32

def maxTracestateLen : Nat := 512

structure ParsedTraceparent where
  traceId : List Char
  traceFlags : List Char
deriving DecidableEq

/-- The length of a text in bytes. -/
def byteLength (text : List Char) : Nat :=
  (text.map Char.utf8Size).sum

-- The source tests bytes.  A character beyond ASCII has only bytes that no test here accepts,
-- so it fails like they do.
def isLowerHexDigit (ch : Char) : Bool :=
  ch.isDigit || ('a' ≤ ch && ch ≤ 'f')

def isLowerHex (value : List Char) (expectedLen : Nat) : Bool :=
  byteLength value = expectedLen && value.all isLowerHexDigit

def isAllZero (value : List Char) : Bool :=
  value.all (· = '0')

def parseTraceparent (value : List Char) : Option ParsedTraceparent :=
  match value.splitOn '-' with
  | [version, traceId, parentId, traceFlags] =>
      if version ≠ "00".toList then none
      else if !isLowerHex traceId 32 || isAllZero traceId then none
      else if !isLowerHex parentId 16 || isAllZero parentId then none
      else if !isLowerHex traceFlags 2 then none
      else some { traceId, traceFlags }
  | _ => none

/-! ## Tracestate -/

def isValidTracestateKeyTailByte (ch : Char) : Bool :=
  ch.isLower || ch.isDigit || ch = '_' || ch = '-' || ch = '*' || ch = '/'

def isValidTracestateKeyPart (part : List Char) (maxLen : Nat) (allowDigitFirst : Bool) : Bool :=
  match part with
  | [] => false
  | first :: rest =>
      byteLength part ≤ maxLen && (first.isLower || (allowDigitFirst && first.isDigit)) &&
        rest.all isValidTracestateKeyTailByte

def isValidTracestateKey (key : List Char) : Bool :=
  if key.isEmpty then false
  else
    match splitOnceAt '@' key with
    | some (tenantId, systemId) =>
        !systemId.contains '@' && isValidTracestateKeyPart tenantId 241 true &&
          isValidTracestateKeyPart systemId 14 false
    | none => isValidTracestateKeyPart key 256 true

/-- The printable characters without the comma and the equals sign. -/
def isValidTracestateValueByte (ch : Char) : Bool :=
  0x20 ≤ ch.toNat && ch.toNat ≤ 0x7e && ch ≠ ',' && ch ≠ '='

def isValidTracestateValue (value : List Char) : Bool :=
  !value.isEmpty && byteLength value ≤ 256 && value.all isValidTracestateValueByte &&
    value.getLast?.any fun ch => isValidTracestateValueByte ch && ch ≠ ' '

def isValidTracestateEntry (entry : List Char) : Bool :=
  match splitOnceAt '=' entry with
  | some (key, value) => isValidTracestateKey key && isValidTracestateValue value
  | none => false

def isAsciiControl (ch : Char) : Bool :=
  ch.toNat < 0x20 || ch.toNat = 0x7f

/-- The members of a header that are valid once they are trimmed. -/
def validMembers (value : List Char) : List (List Char) :=
  ((value.splitOn ',').map trim).filter fun entry => !entry.isEmpty && isValidTracestateEntry entry

def joinMembers (entries : List (List Char)) : List Char :=
  [','].intercalate entries

def exceedsLimits (entries : List (List Char)) : Bool :=
  maxTracestateEntries < entries.length || maxTracestateLen < byteLength (joinMembers entries)

/-- The loop that drops the last member while the limits are exceeded.  It has at most as many
turns as there are members. -/
def popMembers : Nat → List (List Char) → List (List Char)
  | 0, entries => entries
  | turns + 1, entries =>
      if exceedsLimits entries then popMembers turns entries.dropLast else entries

def sanitizedText (value : List Char) : Option (List Char) :=
  if value.isEmpty || value.any isAsciiControl then none
  else
    let entries := popMembers (validMembers value).length (validMembers value)
    if entries.isEmpty then none else some (joinMembers entries)

def sanitizeTracestate (value : Option String) : Option String := do
  let value ← value
  (sanitizedText value.toList).map String.ofList

/-! ## Contexts -/

def hexLower (bytes : List UInt8) : List Char :=
  bytes.flatMap fun byte => [Nat.digitChar (byte.toNat / 16), Nat.digitChar (byte.toNat % 16)]

/-- What `random_hex_nonzero` draws: some bytes, not all of them zero. -/
structure NonzeroBytes (count : Nat) where
  bytes : List UInt8
  length : bytes.length = count
  nonzero : ∃ byte ∈ bytes, byte ≠ 0

namespace TraceContext

def root (trace : NonzeroBytes 16) (span : NonzeroBytes 8) : TraceContext where
  traceId := String.ofList (hexLower trace.bytes)
  spanId := String.ofList (hexLower span.bytes)
  traceFlags := "00"
  tracestate := none

def fromHeaders (trace : NonzeroBytes 16) (span : NonzeroBytes 8)
    (traceparent tracestate : Option String) : TraceContext :=
  match traceparent.bind fun value => parseTraceparent value.toList with
  | none => root trace span
  | some parsed => {
      traceId := String.ofList parsed.traceId
      spanId := String.ofList (hexLower span.bytes)
      traceFlags := String.ofList parsed.traceFlags
      tracestate := sanitizeTracestate tracestate }

/-- The child that `outbound_child` makes with the bytes it draws. -/
def child (context : TraceContext) (span : NonzeroBytes 8) : TraceContext :=
  { context with spanId := String.ofList (hexLower span.bytes) }

/-- The contexts that a service can have. -/
inductive Reachable : TraceContext → Prop where
  | root (trace : NonzeroBytes 16) (span : NonzeroBytes 8) : Reachable (.root trace span)
  | fromHeaders (trace : NonzeroBytes 16) (span : NonzeroBytes 8)
      (traceparent tracestate : Option String) :
      Reachable (.fromHeaders trace span traceparent tracestate)
  | child {context : TraceContext} (span : NonzeroBytes 8) (parent : Reachable context) :
      Reachable (context.child span)

end TraceContext

/-! ## Members -/

theorem byteLength_ascii {text : List Char} (ascii : ∀ ch ∈ text, ch.toNat < 128) :
    byteLength text = text.length := by
  induction text with
  | nil => rfl
  | cons ch text ih =>
      have single : ch.utf8Size = 1 := by
        have small := ascii ch List.mem_cons_self
        rw [Char.utf8Size, if_pos]
        exact UInt32.le_iff_toNat_le.mpr (Nat.le_of_lt_succ small)
      rw [byteLength, List.map_cons, List.sum_cons, single, List.length_cons, Nat.add_comm]
      exact congrArg (· + 1) (ih fun other member => ascii other (List.mem_cons_of_mem _ member))

/-- A valid member survives the split, the trim and the control characters. -/
structure PlainMember (entry : List Char) : Prop where
  some : entry ≠ []
  printable : ∀ ch ∈ entry, 0x20 ≤ ch.toNat ∧ ch.toNat ≤ 0x7e ∧ ch ≠ ','
  starts : ∀ ch ∈ entry.head?, isWhitespace ch = false
  ends : ∀ ch ∈ entry.getLast?, isWhitespace ch = false

theorem not_isWhitespace_of_visible {ch : Char} (above : 0x20 < ch.toNat)
    (below : ch.toNat ≤ 0x7e) : isWhitespace ch = false := by
  simp only [isWhitespace, decide_eq_false_iff_not]
  omega

/-- The characters of keys. -/
structure KeyChar (ch : Char) : Prop where
  above : 0x20 < ch.toNat
  below : ch.toNat ≤ 0x7e
  comma : ch ≠ ','

theorem keyChar_of_lower {ch : Char} (lower : ch.isLower = true) : KeyChar ch := by
  simp only [Char.isLower, Bool.and_eq_true, decide_eq_true_eq] at lower
  have above : 97 ≤ ch.toNat := UInt32.le_iff_toNat_le.mp lower.1
  have below : ch.toNat ≤ 122 := UInt32.le_iff_toNat_le.mp lower.2
  refine ⟨by omega, by omega, ?_⟩
  rintro rfl
  exact absurd above (by decide)

theorem keyChar_of_digit {ch : Char} (digit : ch.isDigit = true) : KeyChar ch := by
  simp only [Char.isDigit, Bool.and_eq_true, decide_eq_true_eq] at digit
  have above : 48 ≤ ch.toNat := UInt32.le_iff_toNat_le.mp digit.1
  have below : ch.toNat ≤ 57 := UInt32.le_iff_toNat_le.mp digit.2
  refine ⟨by omega, by omega, ?_⟩
  rintro rfl
  exact absurd above (by decide)

theorem keyChar_of_tail {ch : Char} (tail : isValidTracestateKeyTailByte ch = true) :
    KeyChar ch := by
  simp only [isValidTracestateKeyTailByte, Bool.or_eq_true, decide_eq_true_eq] at tail
  rcases tail with ((((lower | digit) | rfl) | rfl) | rfl) | rfl
  · exact keyChar_of_lower lower
  · exact keyChar_of_digit digit
  all_goals exact ⟨by decide, by decide, by decide⟩

theorem keyChar_of_part {part : List Char} {maxLen : Nat} {allowDigitFirst : Bool}
    (valid : isValidTracestateKeyPart part maxLen allowDigitFirst = true) :
    part ≠ [] ∧ ∀ ch ∈ part, KeyChar ch := by
  cases part with
  | nil => cases valid
  | cons first rest =>
      simp only [isValidTracestateKeyPart, Bool.and_eq_true, Bool.or_eq_true,
        List.all_eq_true] at valid
      obtain ⟨⟨-, start⟩, tail⟩ := valid
      refine ⟨List.cons_ne_nil _ _, fun ch member => ?_⟩
      rcases List.mem_cons.mp member with rfl | member
      · rcases start with lower | digit
        · exact keyChar_of_lower lower
        · exact keyChar_of_digit digit.2
      · exact keyChar_of_tail (tail ch member)

theorem keyChar_of_key {key : List Char} (valid : isValidTracestateKey key = true) :
    key ≠ [] ∧ ∀ ch ∈ key, KeyChar ch := by
  unfold isValidTracestateKey at valid
  split at valid
  · cases valid
  split at valid
  · rename_i tenantId systemId split
    simp only [Bool.and_eq_true] at valid
    obtain ⟨⟨-, tenant⟩, system⟩ := valid
    rw [eq_of_splitOnceAt split]
    refine ⟨by simp, fun ch member => ?_⟩
    rcases List.mem_append.mp member with member | member
    · exact (keyChar_of_part tenant).2 ch member
    rcases List.mem_cons.mp member with rfl | member
    · exact ⟨by decide, by decide, by decide⟩
    · exact (keyChar_of_part system).2 ch member
  · exact keyChar_of_part valid

theorem plainMember_of_valid {entry : List Char} (valid : isValidTracestateEntry entry = true) :
    PlainMember entry := by
  unfold isValidTracestateEntry at valid
  split at valid
  case h_2 => cases valid
  rename_i key value split
  simp only [Bool.and_eq_true] at valid
  obtain ⟨validKey, validValue⟩ := valid
  obtain ⟨someKey, keyChars⟩ := keyChar_of_key validKey
  simp only [isValidTracestateValue, Bool.and_eq_true, List.all_eq_true] at validValue
  obtain ⟨⟨-, valueChars⟩, last⟩ := validValue
  have printable : ∀ ch ∈ value, 0x20 ≤ ch.toNat ∧ ch.toNat ≤ 0x7e ∧ ch ≠ ',' := by
    intro ch member
    have inside := valueChars ch member
    simp only [isValidTracestateValueByte, Bool.and_eq_true, decide_eq_true_eq] at inside
    exact ⟨inside.1.1.1, inside.1.1.2, inside.1.2⟩
  rw [eq_of_splitOnceAt split]
  refine ⟨by simp, fun ch member => ?_, fun ch found => ?_, fun ch found => ?_⟩
  · rcases List.mem_append.mp member with member | member
    · have inside := keyChars ch member
      exact ⟨Nat.le_of_lt inside.above, inside.below, inside.comma⟩
    rcases List.mem_cons.mp member with rfl | member
    · exact ⟨by decide, by decide, by decide⟩
    · exact printable ch member
  · obtain ⟨first, rest, rfl⟩ := List.exists_cons_of_ne_nil someKey
    obtain rfl := Option.some.inj found
    have inside := keyChars first List.mem_cons_self
    exact not_isWhitespace_of_visible inside.above inside.below
  · cases value with
    | nil => cases last
    | cons first rest =>
        rw [List.getLast?_append, List.getLast?_cons_cons] at found
        cases final : (first :: rest).getLast? with
        | none => simp at final
        | some other =>
            rw [final] at found last
            obtain rfl := Option.some.inj found
            simp only [Option.any_some, Bool.and_eq_true, decide_eq_true_eq,
              isValidTracestateValueByte] at last
            obtain ⟨⟨⟨⟨above, below⟩, -⟩, -⟩, notSpace⟩ := last
            have other : other.toNat ≠ 0x20 := fun same => notSpace (Char.toNat_inj.mp same)
            exact not_isWhitespace_of_visible (by omega) below

theorem PlainMember.trim_eq {entry : List Char} (plain : PlainMember entry) :
    trim entry = entry := by
  have nothing : ∀ ch ∈ ([] : List Char), isWhitespace ch = true := by simp
  have trimmed := trim_around nothing nothing plain.starts plain.ends plain.some
  rwa [List.nil_append, List.append_nil] at trimmed

/-! ## Limits -/

theorem popMembers_prefix (turns : Nat) (entries : List (List Char)) :
    popMembers turns entries <+: entries := by
  induction turns generalizing entries with
  | zero => exact List.prefix_refl entries
  | succ turns ih =>
      rw [popMembers]
      split
      · exact (ih entries.dropLast).trans <| List.dropLast_prefix entries
      · exact List.prefix_refl entries

/-- The loop ends inside the limits. -/
theorem popMembers_within {turns : Nat} {entries : List (List Char)}
    (enough : entries.length ≤ turns) : exceedsLimits (popMembers turns entries) = false := by
  induction turns generalizing entries with
  | zero =>
      obtain rfl := List.length_eq_zero_iff.mp (Nat.le_zero.mp enough)
      decide
  | succ turns ih =>
      rw [popMembers]
      split
      · apply ih
        rw [List.length_dropLast]
        omega
      · rename_i within
        exact Bool.eq_false_iff.mpr within

theorem popMembers_eq_self {entries : List (List Char)} (within : exceedsLimits entries = false)
    (turns : Nat) : popMembers turns entries = entries := by
  cases turns with
  | zero => rfl
  | succ turns => rw [popMembers, if_neg (Bool.eq_false_iff.mp within)]

theorem valid_of_mem_validMembers {value entry : List Char} (member : entry ∈ validMembers value) :
    isValidTracestateEntry entry = true := by
  have kept := (List.mem_filter.mp member).2
  rw [Bool.and_eq_true] at kept
  exact kept.2

/-- A list of valid members is read back from its text. -/
theorem validMembers_joinMembers {entries : List (List Char)} (some : entries ≠ [])
    (valid : ∀ entry ∈ entries, isValidTracestateEntry entry = true) :
    validMembers (joinMembers entries) = entries := by
  have plain : ∀ entry ∈ entries, PlainMember entry :=
    fun entry member => plainMember_of_valid (valid entry member)
  have parts : (joinMembers entries).splitOn ',' = entries := by
    apply List.splitOn_intercalate ',' _ some
    intro entry member inside
    exact ((plain entry member).printable ',' inside).2.2 rfl
  have trimmed : entries.map trim = entries := by
    conv_rhs => rw [← List.map_id entries]
    exact List.map_congr_left fun entry member => (plain entry member).trim_eq
  rw [validMembers, parts, trimmed, List.filter_eq_self]
  intro entry member
  rw [Bool.and_eq_true]
  refine ⟨?_, valid entry member⟩
  simpa using (plain entry member).some

theorem mem_joinMembers {entries : List (List Char)} {ch : Char}
    (member : ch ∈ joinMembers entries) : ch = ',' ∨ ∃ entry ∈ entries, ch ∈ entry := by
  induction entries with
  | nil => cases member
  | cons entry entries ih =>
      cases entries with
      | nil =>
          rw [joinMembers, List.intercalate_singleton] at member
          exact .inr ⟨entry, List.mem_cons_self, member⟩
      | cons next entries =>
          rw [joinMembers, List.intercalate_cons_cons, List.append_assoc] at member
          rcases List.mem_append.mp member with member | member
          · exact .inr ⟨entry, List.mem_cons_self, member⟩
          rcases List.mem_append.mp member with member | member
          · exact .inl (List.mem_singleton.mp member)
          rcases ih member with comma | ⟨other, inside, member⟩
          · exact .inl comma
          · exact .inr ⟨other, List.mem_cons_of_mem _ inside, member⟩

theorem joinMembers_ne_nil {entries : List (List Char)} (some : entries ≠ [])
    (nonempty : ∀ entry ∈ entries, entry ≠ []) : joinMembers entries ≠ [] := by
  obtain ⟨entry, entries, rfl⟩ := List.exists_cons_of_ne_nil some
  have first := nonempty entry List.mem_cons_self
  cases entries with
  | nil =>
      rw [joinMembers, List.intercalate_singleton]
      exact first
  | cons next entries =>
      rw [joinMembers, List.intercalate_cons_cons, List.append_assoc]
      exact List.append_ne_nil_of_left_ne_nil first _

/-- A list of valid members within the limits, as a header. -/
theorem sanitizedText_joinMembers {entries : List (List Char)} (some : entries ≠ [])
    (valid : ∀ entry ∈ entries, isValidTracestateEntry entry = true)
    (within : exceedsLimits entries = false) :
    sanitizedText (joinMembers entries) = .some (joinMembers entries) := by
  have plain : ∀ entry ∈ entries, PlainMember entry :=
    fun entry member => plainMember_of_valid (valid entry member)
  have text : joinMembers entries ≠ [] :=
    joinMembers_ne_nil some fun entry member => (plain entry member).some
  have printable : ∀ ch ∈ joinMembers entries, isAsciiControl ch = false := by
    intro ch member
    rcases mem_joinMembers member with rfl | ⟨entry, inside, member⟩
    · decide
    · obtain ⟨above, below, -⟩ := (plain entry inside).printable ch member
      simp only [isAsciiControl, Bool.or_eq_false_iff, decide_eq_false_iff_not]
      omega
  have passes : ((joinMembers entries).isEmpty || (joinMembers entries).any isAsciiControl) =
      false := by
    rw [Bool.or_eq_false_iff, List.any_eq_false]
    refine ⟨by simpa using text, fun ch member => ?_⟩
    rw [printable ch member]
    exact Bool.false_ne_true
  rw [sanitizedText, passes, if_neg Bool.false_ne_true, validMembers_joinMembers some valid,
    popMembers_eq_self within, if_neg]
  simpa using some

/-- What a sanitized header is like. -/
structure Sanitized (header state : List Char) : Prop where
  short : byteLength state ≤ maxTracestateLen
  few : (state.splitOn ',').length ≤ maxTracestateEntries
  valid : ∀ entry ∈ state.splitOn ',', isValidTracestateEntry entry = true
  first : state.splitOn ',' <+: validMembers header
  stable : sanitizedText state = some state

theorem sanitized_of_some {header state : List Char}
    (sanitizes : sanitizedText header = some state) : Sanitized header state := by
  unfold sanitizedText at sanitizes
  split at sanitizes
  · cases sanitizes
  dsimp only at sanitizes
  split at sanitizes
  · cases sanitizes
  rename_i nonempty
  have prefixes := popMembers_prefix (validMembers header).length (validMembers header)
  have within := @popMembers_within (validMembers header).length (validMembers header) le_rfl
  generalize popMembers (validMembers header).length (validMembers header) = entries
    at sanitizes nonempty prefixes within
  obtain rfl := Option.some.inj sanitizes
  have some : entries ≠ [] := by simpa using nonempty
  have valid : ∀ entry ∈ entries, isValidTracestateEntry entry = true :=
    fun entry member => valid_of_mem_validMembers (prefixes.subset member)
  have parts : (joinMembers entries).splitOn ',' = entries := by
    apply List.splitOn_intercalate ',' _ some
    intro entry member inside
    exact ((plainMember_of_valid (valid entry member)).printable ',' inside).2.2 rfl
  have limits := within
  simp only [exceedsLimits, Bool.or_eq_false_iff, decide_eq_false_iff_not, Nat.not_lt] at limits
  refine ⟨limits.2, ?_, ?_, ?_, sanitizedText_joinMembers some valid within⟩
  · rw [parts]
    exact limits.1
  · rw [parts]
    exact valid
  · rw [parts]
    exact prefixes

theorem sanitizeTracestate_eq_some {header state : String} :
    sanitizeTracestate (some header) = some state ↔
      sanitizedText header.toList = some state.toList := by
  simp only [sanitizeTracestate, Option.bind_eq_bind, Option.bind_some, Option.map_eq_some_iff]
  constructor
  · rintro ⟨text, sanitizes, rfl⟩
    rw [sanitizes, String.toList_ofList]
  · intro sanitizes
    exact ⟨state.toList, sanitizes, String.ofList_toList⟩

theorem sanitizeTracestate_idempotent (header : Option String) :
    sanitizeTracestate (sanitizeTracestate header) = sanitizeTracestate header := by
  cases header with
  | none => rfl
  | some header =>
      cases sanitizes : sanitizeTracestate (some header) with
      | none => rfl
      | some state =>
          have text := (sanitizeTracestate_eq_some).mp sanitizes
          exact (sanitizeTracestate_eq_some).mpr (sanitized_of_some text).stable

/-! ## Identifiers -/

theorem isLowerHexDigit_digitChar {digit : Nat} (small : digit < 16) :
    isLowerHexDigit (Nat.digitChar digit) = true ∧
      (Nat.digitChar digit = '0' → digit = 0) := by
  have all : ∀ digit < 16, isLowerHexDigit (Nat.digitChar digit) = true ∧
      (Nat.digitChar digit = '0' → digit = 0) := by decide
  exact all digit small

theorem ascii_of_isLowerHexDigit {ch : Char} (hex : isLowerHexDigit ch = true) :
    ch.toNat < 128 ∧ ch ≠ '-' := by
  simp only [isLowerHexDigit, Bool.or_eq_true, Bool.and_eq_true, decide_eq_true_eq] at hex
  rcases hex with digit | letter
  · have inside := keyChar_of_digit digit
    refine ⟨Nat.lt_of_le_of_lt inside.below (by decide), ?_⟩
    rintro rfl
    exact absurd digit (by decide)
  · have below : ch.toNat ≤ 102 := UInt32.le_iff_toNat_le.mp letter.2
    refine ⟨by omega, ?_⟩
    rintro rfl
    exact absurd letter.1 (by decide)

theorem mem_hexLower {bytes : List UInt8} {ch : Char} (member : ch ∈ hexLower bytes) :
    isLowerHexDigit ch = true := by
  obtain ⟨byte, -, member⟩ := List.mem_flatMap.mp member
  have small := byte.toNat_lt
  rcases List.mem_cons.mp member with rfl | member
  · exact (isLowerHexDigit_digitChar (by omega)).1
  · obtain rfl := List.mem_singleton.mp member
    exact (isLowerHexDigit_digitChar (by omega)).1

theorem length_hexLower (bytes : List UInt8) : (hexLower bytes).length = 2 * bytes.length := by
  induction bytes with
  | nil => rfl
  | cons byte bytes ih =>
      rw [hexLower, List.flatMap_cons, List.length_append, List.length_cons] at *
      rw [ih]
      simp only [List.length_cons, List.length_nil]
      omega

/-- Random bytes are written as an identifier that is accepted. -/
theorem NonzeroBytes.isLowerHex {count : Nat} (random : NonzeroBytes count) :
    Marreta.isLowerHex (hexLower random.bytes) (2 * count) = true ∧
      isAllZero (hexLower random.bytes) = false := by
  have hex : ∀ ch ∈ hexLower random.bytes, isLowerHexDigit ch = true :=
    fun ch member => mem_hexLower member
  constructor
  · rw [Marreta.isLowerHex, byteLength_ascii fun ch member =>
      (ascii_of_isLowerHexDigit (hex ch member)).1, length_hexLower, random.length]
    rw [Bool.and_eq_true, decide_eq_true_eq, List.all_eq_true]
    exact ⟨rfl, hex⟩
  · obtain ⟨byte, member, nonzero⟩ := random.nonzero
    rw [Bool.eq_false_iff]
    intro zero
    rw [isAllZero, List.all_eq_true] at zero
    have small := byte.toNat_lt
    have upper := zero (Nat.digitChar (byte.toNat / 16))
      (List.mem_flatMap.mpr ⟨byte, member, List.mem_cons_self⟩)
    have lower := zero (Nat.digitChar (byte.toNat % 16))
      (List.mem_flatMap.mpr ⟨byte, member, List.mem_cons_of_mem _ List.mem_cons_self⟩)
    have high := (isLowerHexDigit_digitChar (by omega)).2 (of_decide_eq_true upper)
    have low := (isLowerHexDigit_digitChar (by omega)).2 (of_decide_eq_true lower)
    apply nonzero
    apply UInt8.toNat_inj.mp
    change byte.toNat = 0
    omega

theorem dash_not_mem {text : List Char} {length : Nat} (hex : isLowerHex text length = true) :
    '-' ∉ text := by
  intro member
  rw [isLowerHex, Bool.and_eq_true, List.all_eq_true] at hex
  exact (ascii_of_isLowerHexDigit (hex.2 '-' member)).2 rfl

namespace TraceContext

/-- The headers of a context are well formed. -/
structure WellFormed (context : TraceContext) : Prop where
  traceId : isLowerHex context.traceId.toList 32 = true ∧ isAllZero context.traceId.toList = false
  spanId : isLowerHex context.spanId.toList 16 = true ∧ isAllZero context.spanId.toList = false
  traceFlags : isLowerHex context.traceFlags.toList 2 = true
  tracestate : sanitizeTracestate context.tracestate = context.tracestate

theorem wellFormed_root (trace : NonzeroBytes 16) (span : NonzeroBytes 8) :
    WellFormed (root trace span) := by
  refine ⟨?_, ?_, (by decide : isLowerHex "00".toList 2 = true), rfl⟩
  · rw [root, String.toList_ofList]
    exact trace.isLowerHex
  · rw [root, String.toList_ofList]
    exact span.isLowerHex

theorem parsed_wellFormed {value : List Char} {parsed : ParsedTraceparent}
    (parses : parseTraceparent value = some parsed) :
    (isLowerHex parsed.traceId 32 = true ∧ isAllZero parsed.traceId = false) ∧
      isLowerHex parsed.traceFlags 2 = true := by
  unfold parseTraceparent at parses
  split at parses
  case h_2 => cases parses
  split at parses
  · cases parses
  split at parses
  · cases parses
  rename_i traceId
  split at parses
  · cases parses
  split at parses
  · cases parses
  rename_i traceFlags
  obtain rfl := Option.some.inj parses
  simp only [Bool.or_eq_true, Bool.not_eq_true', not_or, Bool.not_eq_false,
    Bool.not_eq_true] at traceId traceFlags
  exact ⟨traceId, traceFlags⟩

theorem Reachable.wellFormed {context : TraceContext} (reachable : Reachable context) :
    WellFormed context := by
  induction reachable with
  | root trace span => exact wellFormed_root trace span
  | fromHeaders trace span traceparent tracestate =>
      unfold TraceContext.fromHeaders
      cases parses : traceparent.bind fun value => parseTraceparent value.toList with
      | none => exact wellFormed_root trace span
      | some parsed =>
          obtain ⟨value, -, parses⟩ := Option.bind_eq_some_iff.mp parses
          obtain ⟨traceId, traceFlags⟩ := parsed_wellFormed parses
          refine ⟨?_, ?_, ?_, sanitizeTracestate_idempotent tracestate⟩
          · rw [String.toList_ofList]
            exact traceId
          · rw [String.toList_ofList]
            exact span.isLowerHex
          · rw [String.toList_ofList]
            exact traceFlags
  | child span _ parent =>
      refine ⟨parent.traceId, ?_, parent.traceFlags, parent.tracestate⟩
      rw [TraceContext.child, String.toList_ofList]
      exact span.isLowerHex

theorem WellFormed.parses {context : TraceContext} (wellFormed : WellFormed context) :
    parseTraceparent context.traceparent.toList =
      some { traceId := context.traceId.toList, traceFlags := context.traceFlags.toList } := by
  obtain ⟨⟨trace, traceNonzero⟩, ⟨span, spanNonzero⟩, flags, -⟩ := wellFormed
  have text : context.traceparent.toList = "00".toList ++ '-' :: (context.traceId.toList ++
      '-' :: (context.spanId.toList ++ '-' :: context.traceFlags.toList)) := by
    simp [traceparent]
  have parts : context.traceparent.toList.splitOn '-' = ["00".toList, context.traceId.toList,
      context.spanId.toList, context.traceFlags.toList] := by
    rw [text, List.splitOn_append_cons_self, List.splitOn_append_cons_self,
      List.splitOn_append_cons_self, List.splitOn_eq_singleton (by decide),
      List.splitOn_eq_singleton (dash_not_mem trace), List.splitOn_eq_singleton (dash_not_mem span),
      List.splitOn_eq_singleton (dash_not_mem flags)]
    rfl
  rw [parseTraceparent, parts]
  simp [trace, traceNonzero, span, spanNonzero, flags]

/-- The context that a service makes of the headers of another one names the same trace, and a
sanitized header is within its limits and stays as it is. -/
theorem survives_propagation :
    (∀ context, Reachable context → parseTraceparent context.traceparent.toList ≠ none ∧
      ∀ trace span, ∀ again, again = fromHeaders trace span (some context.traceparent)
          context.tracestate →
        again.traceId = context.traceId ∧ again.traceFlags = context.traceFlags ∧
          again.tracestate = context.tracestate) ∧
    ∀ header state, sanitizeTracestate (some header) = some state →
      Sanitized header.toList state.toList ∧ sanitizeTracestate (some state) = some state := by
  constructor
  · intro context reachable
    have wellFormed := reachable.wellFormed
    refine ⟨?_, ?_⟩
    · rw [wellFormed.parses]
      exact Option.some_ne_none _
    · rintro trace span _ rfl
      rw [fromHeaders, Option.bind_some, wellFormed.parses]
      exact ⟨String.ofList_toList, String.ofList_toList, wellFormed.tracestate⟩
  · intro header state sanitizes
    have sanitized := sanitized_of_some (sanitizeTracestate_eq_some.mp sanitizes)
    exact ⟨sanitized, sanitizeTracestate_eq_some.mpr sanitized.stable⟩

end TraceContext
end Marreta
