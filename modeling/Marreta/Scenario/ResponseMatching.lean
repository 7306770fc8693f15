import Marreta.Foundation.Binary64Values
import Marreta.Runtime.Calls
import Marreta.Runtime.JsonText
import Marreta.Syntax.Pratt

namespace Marreta

open Foundation

/-! What a scenario says about a response.

The expected response is matched as it is written: its expression is not evaluated.  A
literal is read by the parser as its own form of expression, except that a sign in front
of a number is an operator, which no form of the matcher accepts. -/

/-! ## Equal documents -/

namespace Binary64

theorem isFinite_of_exponentBits {value : Binary64} (special : value.exponentBits = 2047) :
    value.isFinite = false := by
  have exponent : value.bits.toNat >>> 52 % 2 ^ 11 = 2 ^ 11 - 1 := by
    rw [Nat.shiftRight_eq_div_pow]
    exact special
  have kept : value.bits &&& 0x7FF0000000000000 = 0x7FF0000000000000 := by
    rw [← UInt64.toNat_inj, UInt64.toNat_and]
    change value.bits.toNat &&& (2 ^ 11 - 1) <<< 52 = (2 ^ 11 - 1) <<< 52
    apply Nat.eq_of_testBit_eq
    intro position
    have same := congrArg (Nat.testBit · (position - 52)) exponent
    simp only [Nat.testBit_mod_two_pow, Nat.testBit_shiftRight, Nat.testBit_two_pow_sub_one] at same
    simp only [Nat.testBit_and, Nat.testBit_shiftLeft, Nat.testBit_two_pow_sub_one]
    by_cases inside : 52 ≤ position
    · rw [Nat.add_sub_of_le inside] at same
      by_cases low : position - 52 < 11 <;> simp_all
    · simp [inside]
  simp [isFinite, kept]

theorem hasMagnitude_of_isFinite {value : Binary64} (finite : value.isFinite) :
    value.hasMagnitude := by
  rw [hasMagnitude, decide_eq_true_iff]
  intro special
  rw [isFinite_of_exponentBits special] at finite
  cases finite

theorem equals_self {value : Binary64} (finite : value.isFinite) : value.equals value := by
  simp [equals, isNan_of_finite (hasMagnitude_of_isFinite finite)]

end Binary64

def JsonNumber.equals : JsonNumber → JsonNumber → Bool
  | .posInt left, .posInt right => left = right
  | .negInt left, .negInt right => left = right
  | .float left, .float right => left.equals right
  | _, _ => false

namespace Json

mutual
/-- Numbers are equal within one representation, and objects whatever their order. -/
def equals : Json → Json → Bool
  | .null, .null => true
  | .bool left, .bool right => left = right
  | .number left, .number right => left.equals right
  | .string left, .string right => left = right
  | .array left, .array right => left.length = right.length && itemsEqual left right
  | .object left, .object right => left.length = right.length && entriesEqual left right
  | _, _ => false

def itemsEqual : List Json → List Json → Bool
  | item :: items, other :: others => equals item other && itemsEqual items others
  | _, _ => true

def entriesEqual : List (String × Json) → List (String × Json) → Bool
  | [], _ => true
  | (name, json) :: entries, others =>
      (match others.lookup name with
        | some other => equals json other
        | none => false) && entriesEqual entries others
end

attribute [grind =] equals itemsEqual entriesEqual

theorem equals_null_iff (json : Json) : equals .null json = true ↔ json = .null := by
  cases json <;> simp [equals]

theorem equals_bool_iff (value : Bool) (json : Json) :
    equals (.bool value) json = true ↔ json = .bool value := by
  cases json <;> simp [equals, eq_comm]

theorem equals_string_iff (text : String) (json : Json) :
    equals (.string text) json = true ↔ json = .string text := by
  cases json <;> simp [equals, eq_comm]

theorem equals_ofInt64_iff (value : Int64) (json : Json) :
    equals (.ofInt64 value) json = true ↔ json = .ofInt64 value := by
  rw [ofInt64, JsonNumber.ofInt64]
  split <;>
    · cases json with
      | number number => cases number <;> simp [equals, JsonNumber.equals, eq_comm]
      | _ => simp [equals]

theorem equals_ofFloat_self (value : Binary64) : equals (.ofFloat value) (.ofFloat value) := by
  rw [ofFloat]
  split
  case isTrue finite => exact Binary64.equals_self finite
  case isFalse => rfl

end Json

namespace Scenario

/-! ## The matcher -/

section Matcher

variable (texts : ScalarTexts) (debug : Expression → String)

def assertJsonEq (path : String) (expected actual : Json) : Except String Unit :=
  if expected.equals actual then .ok ()
  else .error ("expected " ++ path ++ " to be " ++ expected.toText texts ++ ", got " ++
    actual.toText texts)

mutual
def assertExprMatches (path : String) : Expression → Json → Except String Unit
  | .integer value, actual => assertJsonEq texts path (.ofInt64 value) actual
  | .float value, actual => assertJsonEq texts path (.ofFloat value) actual
  | .stringLiteral value, actual => assertJsonEq texts path (.string value) actual
  | .boolean value, actual => assertJsonEq texts path (.bool value) actual
  | .null, actual => assertJsonEq texts path .null actual
  | .mapLiteral pairs, actual =>
      match actual with
      | .object entries => assertPairsMatch path pairs entries
      | actual =>
          .error ("expected " ++ path ++ " to be object, got " ++ actual.toText texts)
  | .list items, actual =>
      match actual with
      | .array actualItems =>
          if items.length = actualItems.length then
            assertItemsMatch path 0 items actualItems
          else
            .error ("expected " ++ path ++ " to have " ++ toString items.length ++
              " items, got " ++ toString actualItems.length)
      | actual => .error ("expected " ++ path ++ " to be list, got " ++ actual.toText texts)
  | other, _ =>
      match other with
      | .identifier "anything" => .ok ()
      | other =>
          .error ("unsupported response matcher at " ++ path ++ ": " ++ debug other)

/-- Members that are not expected are left alone. -/
def assertPairsMatch (path : String) :
    List (String × Expression) → List (String × Json) → Except String Unit
  | [], _ => .ok ()
  | (key, expected) :: pairs, entries =>
      match entries.lookup key with
      | none => .error ("missing field " ++ path ++ "." ++ key)
      | some actual => do
          assertExprMatches (path ++ "." ++ key) expected actual
          assertPairsMatch path pairs entries

def assertItemsMatch (path : String) (index : Nat) :
    List Expression → List Json → Except String Unit
  | expected :: items, actual :: actuals => do
      assertExprMatches (path ++ "[" ++ toString index ++ "]") expected actual
      assertItemsMatch path (index + 1) items actuals
  | _, _ => .ok ()
end

def assertResponseMatches (expected : Expression) (actual : Json) : Except String Unit :=
  assertExprMatches texts debug "response" expected actual

end Matcher

/-! ## Literals -/

/-- A text without an expression in it. -/
structure PlainText where
  text : String
  plain : hasTemplate text.toList = false

/-- What is written as the expected value, with the signs of its numbers. -/
inductive Literal where
  | anything
  | null
  | boolean (value : Bool)
  | text (value : PlainText)
  | integer (negative : Bool) (magnitude : Int64)
  | float (negative : Bool) (magnitude : Binary64)
  | list (items : List Literal)
  | map (entries : List (String × Literal))

def signed (negative : Bool) (value : Int64) : Int64 :=
  if negative then -value else value

namespace Literal

mutual
/-- The document equals the literal wherever the literal says something. -/
def Equals : Literal → Json → Prop
  | .anything, _ => True
  | .null, actual => actual = .null
  | .boolean value, actual => actual = .bool value
  | .text value, actual => actual = .string value.text
  | .integer negative magnitude, actual => actual = .ofInt64 (signed negative magnitude)
  | .float negative magnitude, actual =>
      (Json.ofFloat (magnitude.withSign negative)).equals actual = true
  | .list items, actual =>
      match actual with
      | .array actuals => ItemsEqual items actuals
      | _ => False
  | .map entries, actual =>
      match actual with
      | .object members => EntriesEqual entries members
      | _ => False

def ItemsEqual : List Literal → List Json → Prop
  | [], [] => True
  | item :: items, actual :: actuals => Equals item actual ∧ ItemsEqual items actuals
  | _, _ => False

def EntriesEqual : List (String × Literal) → List (String × Json) → Prop
  | [], _ => True
  | (key, literal) :: entries, members =>
      (∃ actual, members.lookup key = some actual ∧ Equals literal actual) ∧
        EntriesEqual entries members
end

mutual
/-- The literal writes the whole document down. -/
def Denotes : Literal → Json → Prop
  | .anything, _ => False
  | .null, actual => actual = .null
  | .boolean value, actual => actual = .bool value
  | .text value, actual => actual = .string value.text
  | .integer negative magnitude, actual => actual = .ofInt64 (signed negative magnitude)
  | .float negative magnitude, actual => actual = .ofFloat (magnitude.withSign negative)
  | .list items, actual =>
      match actual with
      | .array actuals => ItemsDenote items actuals
      | _ => False
  | .map entries, actual =>
      match actual with
      | .object members => (Table.keys members).Nodup ∧ EntriesDenote entries members
      | _ => False

def ItemsDenote : List Literal → List Json → Prop
  | [], [] => True
  | item :: items, actual :: actuals => Denotes item actual ∧ ItemsDenote items actuals
  | _, _ => False

def EntriesDenote : List (String × Literal) → Table String Json → Prop
  | [], [] => True
  | (key, literal) :: entries, (name, actual) :: members =>
      (key = name ∧ Denotes literal actual) ∧ EntriesDenote entries members
  | _, _ => False
end

mutual
/-- A number with a sign is written somewhere. -/
def HasMinus : Literal → Prop
  | .integer negative _ => negative = true
  | .float negative _ => negative = true
  | .list items => ItemsHaveMinus items
  | .map entries => EntriesHaveMinus entries
  | _ => False

def ItemsHaveMinus : List Literal → Prop
  | [] => False
  | item :: items => HasMinus item ∨ ItemsHaveMinus items

def EntriesHaveMinus : List (String × Literal) → Prop
  | [] => False
  | (_, literal) :: entries => HasMinus literal ∨ EntriesHaveMinus entries
end

/-! ## A literal as an expression -/

def withMinus (negative : Bool) (value : Expression) : Expression :=
  if negative then .unaryOp .negate value else value

mutual
def toExpression : Literal → Expression
  | .anything => .identifier "anything"
  | .null => .null
  | .boolean value => .boolean value
  | .text value => .stringLiteral value.text
  | .integer negative magnitude => withMinus negative (.integer magnitude)
  | .float negative magnitude => withMinus negative (.float magnitude)
  | .list items => .list (itemExpressions items)
  | .map entries => .mapLiteral (entryExpressions entries)

def itemExpressions : List Literal → List Expression
  | [] => []
  | item :: items => toExpression item :: itemExpressions items

def entryExpressions : List (String × Literal) → List (String × Expression)
  | [] => []
  | (key, literal) :: entries => (key, toExpression literal) :: entryExpressions entries
end

/-- The tokens of a number, which has a minus before it or none. -/
def WritesNumber (negative : Bool) (kind : TokenKind) (tokens : List Token) : Prop :=
  ∃ number : Token, number.kind = kind ∧
    if negative then ∃ minus : Token, minus.kind = .minus ∧ tokens = [minus, number]
    else tokens = [number]

mutual
/-- The tokens that a literal is written with. -/
def Writes : Literal → List Token → Prop
  | .anything, tokens => ∃ word : Token, word.kind = .identifier "anything" ∧ tokens = [word]
  | .null, tokens => ∃ word : Token, word.kind = .null ∧ tokens = [word]
  | .boolean value, tokens =>
      ∃ word : Token, word.kind = (if value then .trueKeyword else .falseKeyword) ∧
        tokens = [word]
  | .text value, tokens =>
      ∃ token : Token, token.kind = .stringLiteral value.text ∧ tokens = [token]
  | .integer negative magnitude, tokens => WritesNumber negative (.integer magnitude) tokens
  | .float negative magnitude, tokens => WritesNumber negative (.float magnitude) tokens
  | .list items, tokens =>
      ∃ (opening closing : Token) (inner : List Token), opening.kind = .leftBracket ∧
        closing.kind = .rightBracket ∧ ItemsWritten items inner ∧
        tokens = opening :: (inner ++ [closing])
  | .map entries, tokens =>
      ∃ (opening closing : Token) (inner : List Token), opening.kind = .leftBrace ∧
        closing.kind = .rightBrace ∧ EntriesWritten entries inner ∧
        tokens = opening :: (inner ++ [closing])

def ItemsWritten : List Literal → List Token → Prop
  | [], tokens => tokens = []
  | item :: items, tokens =>
      items = [] ∧ Writes item tokens ∨
        ∃ (own rest : List Token) (comma : Token), tokens = own ++ comma :: rest ∧
          comma.kind = .comma ∧ Writes item own ∧ ItemsWritten items rest

def EntriesWritten : List (String × Literal) → List Token → Prop
  | [], tokens => tokens = []
  | (key, literal) :: entries, tokens =>
      ∃ (name colon : Token) (own : List Token), nameOf name = some key ∧
        colon.kind = .colon ∧ Writes literal own ∧
        (entries = [] ∧ tokens = name :: colon :: own ∨
          ∃ (rest : List Token) (comma : Token), tokens = name :: colon :: own ++ comma :: rest ∧
            comma.kind = .comma ∧ EntriesWritten entries rest)
end

/-! ## What is accepted -/

section Accepted

variable (texts : ScalarTexts) (debug : Expression → String)

theorem assertJsonEq_iff (path : String) (expected actual : Json) :
    assertJsonEq texts path expected actual = .ok () ↔ expected.equals actual = true := by
  rw [assertJsonEq]
  split
  case isTrue same => simp [same]
  case isFalse differs => simp [differs]

theorem bind_ok_iff {first second : Except String Unit} :
    (first >>= fun _ => second) = .ok () ↔ first = .ok () ∧ second = .ok () := by
  cases first with
  | error message => exact ⟨nofun, fun both => nomatch both.1⟩
  | ok value => exact ⟨fun holds => ⟨rfl, holds⟩, fun both => both.2⟩

/-- A sign makes the number an operation, which nothing matches. -/
theorem assertExprMatches_withMinus (path : String) (negative : Bool) {value : Expression}
    {actual : Json} {document : Json}
    (matched : assertExprMatches texts debug path value actual =
      assertJsonEq texts path document actual) {holds : Prop}
    (means : negative = false → (document.equals actual = true ↔ holds)) :
    assertExprMatches texts debug path (withMinus negative value) actual = .ok () ↔
      holds ∧ ¬ negative = true := by
  cases negative with
  | true => simp [withMinus, assertExprMatches]
  | false =>
      change assertExprMatches texts debug path value actual = .ok () ↔ _
      rw [matched, assertJsonEq_iff, means rfl]
      simp

theorem length_itemExpressions (items : List Literal) :
    (itemExpressions items).length = items.length := by
  induction items with
  | nil => rfl
  | cons item items induction => simp [itemExpressions, induction]

theorem length_of_itemsEqual {items : List Literal} {actuals : List Json}
    (equal : ItemsEqual items actuals) : items.length = actuals.length := by
  induction items generalizing actuals with
  | nil =>
      cases actuals with
      | nil => rfl
      | cons => exact equal.elim
  | cons item items induction =>
      cases actuals with
      | nil => exact equal.elim
      | cons actual actuals => simp [induction equal.2]

mutual
/-- A literal is accepted exactly for the documents it equals, if it has no sign. -/
theorem assertExprMatches_iff (literal : Literal) (path : String) (actual : Json) :
    assertExprMatches texts debug path literal.toExpression actual = .ok () ↔
      literal.Equals actual ∧ ¬ literal.HasMinus := by
  cases literal with
  | anything => simp [toExpression, assertExprMatches, Equals, HasMinus]
  | null => simp [toExpression, assertExprMatches, assertJsonEq_iff, Json.equals_null_iff, Equals,
      HasMinus]
  | boolean value => simp [toExpression, assertExprMatches, assertJsonEq_iff,
      Json.equals_bool_iff, Equals, HasMinus]
  | text value => simp [toExpression, assertExprMatches, assertJsonEq_iff,
      Json.equals_string_iff, Equals, HasMinus]
  | integer negative magnitude =>
      rw [toExpression, Equals, HasMinus]
      apply @assertExprMatches_withMinus texts debug path negative _ _ (.ofInt64 magnitude)
      · rw [assertExprMatches]
      · intro plain
        rw [Json.equals_ofInt64_iff, signed, plain]
        simp
  | float negative magnitude =>
      rw [toExpression, Equals, HasMinus]
      apply @assertExprMatches_withMinus texts debug path negative _ _ (.ofFloat magnitude)
      · rw [assertExprMatches]
      · intro plain
        rw [plain]
        exact Iff.rfl
  | list items =>
      rw [toExpression, HasMinus]
      cases actual with
      | array actuals =>
          rw [Equals, assertExprMatches, length_itemExpressions]
          by_cases same : items.length = actuals.length
          · simp only [same, if_true]
            exact assertItemsMatch_iff items path 0 actuals same
          · simp only [same, if_false]
            exact ⟨nofun, fun both => (same (length_of_itemsEqual both.1)).elim⟩
      | _ => simp [assertExprMatches, Equals]
  | map entries =>
      rw [toExpression, HasMinus]
      cases actual with
      | object members =>
          rw [Equals, assertExprMatches]
          exact assertPairsMatch_iff entries path members
      | _ => simp [assertExprMatches, Equals]

theorem assertItemsMatch_iff (items : List Literal) (path : String) (index : Nat)
    (actuals : List Json) (same : items.length = actuals.length) :
    assertItemsMatch texts debug path index (itemExpressions items) actuals = .ok () ↔
      ItemsEqual items actuals ∧ ¬ ItemsHaveMinus items := by
  cases items with
  | nil =>
      cases actuals with
      | nil => simp [itemExpressions, assertItemsMatch, ItemsEqual, ItemsHaveMinus]
      | cons => cases same
  | cons item items =>
      cases actuals with
      | nil => cases same
      | cons actual actuals =>
          rw [itemExpressions, assertItemsMatch, bind_ok_iff,
            assertExprMatches_iff item, assertItemsMatch_iff items path (index + 1) actuals
              (Nat.succ.inj same), ItemsEqual, ItemsHaveMinus, not_or]
          exact and_and_and_comm

theorem assertPairsMatch_iff (entries : List (String × Literal)) (path : String)
    (members : List (String × Json)) :
    assertPairsMatch texts debug path (entryExpressions entries) members = .ok () ↔
      EntriesEqual entries members ∧ ¬ EntriesHaveMinus entries := by
  match entries with
  | [] => simp [entryExpressions, assertPairsMatch, EntriesEqual, EntriesHaveMinus]
  | (key, literal) :: entries =>
      rw [entryExpressions, assertPairsMatch, EntriesEqual, EntriesHaveMinus, not_or]
      cases found : List.lookup key members with
      | none => simp
      | some actual =>
          simp only [bind_ok_iff]
          rw [assertExprMatches_iff literal, assertPairsMatch_iff entries path members]
          simp only [Option.some.injEq, exists_eq_left']
          exact and_and_and_comm
end

end Accepted

/-! ## Literals of whole documents -/

mutual
theorem Denotes.equals (literal : Literal) (actual : Json) (denotes : literal.Denotes actual) :
    literal.Equals actual := by
  cases literal with
  | anything => exact denotes.elim
  | null | boolean | text | integer => exact denotes
  | float negative magnitude =>
      rw [Denotes] at denotes
      rw [Equals, denotes]
      exact Json.equals_ofFloat_self _
  | list items =>
      cases actual with
      | array actuals => exact ItemsDenote.equal items actuals denotes
      | _ => exact denotes.elim
  | map entries =>
      cases actual with
      | object members =>
          exact EntriesDenote.equal entries members members denotes.2
            fun name member inside => Table.lookup_of_mem denotes.1 inside
      | _ => exact denotes.elim

theorem ItemsDenote.equal (items : List Literal) (actuals : List Json)
    (denote : ItemsDenote items actuals) : ItemsEqual items actuals := by
  cases items with
  | nil =>
      cases actuals with
      | nil => trivial
      | cons => exact denote.elim
  | cons item items =>
      cases actuals with
      | nil => exact denote.elim
      | cons actual actuals =>
          exact ⟨Denotes.equals item actual denote.1, ItemsDenote.equal items actuals denote.2⟩

theorem EntriesDenote.equal (entries : List (String × Literal)) (members all : Table String Json)
    (denote : EntriesDenote entries members)
    (found : ∀ name member, (name, member) ∈ members → List.lookup name all = some member) :
    EntriesEqual entries all := by
  match entries, members with
  | [], _ => trivial
  | _ :: _, [] => exact denote.elim
  | (key, literal) :: entries, (name, actual) :: members =>
      obtain ⟨⟨same, own⟩, rest⟩ := denote
      constructor
      · exact ⟨actual, same ▸ found name actual List.mem_cons_self,
          Denotes.equals literal actual own⟩
      · exact EntriesDenote.equal entries members all rest
          fun name member inside => found name member (List.mem_cons_of_mem _ inside)
end

/-! ## Reading literals -/

open Marreta.Parser

theorem WritesNumber.operand {negative : Bool} {kind : TokenKind} {tokens : List Token}
    {value : Expression} (writes : WritesNumber negative kind tokens)
    (leaf : leafOf kind = some value) : Operand tokens (withMinus negative value) := by
  obtain ⟨number, rfl, tokens'⟩ := writes
  cases negative with
  | true =>
      obtain ⟨minus, isMinus, rfl⟩ := tokens'
      exact .prefixed (by rw [isMinus]; rfl) (.primary (.leaf leaf))
  | false =>
      obtain rfl : tokens = [number] := tokens'
      exact .primary (.leaf leaf)

mutual
theorem Writes.operand (literal : Literal) {tokens : List Token} (writes : literal.Writes tokens) :
    Operand tokens literal.toExpression := by
  have leaf {token : Token} {value : Expression} (reads : leafOf token.kind = some value) :
      Operand [token] value :=
    .primary (.leaf reads)
  cases literal with
  | anything | null | text =>
      obtain ⟨word, kind, rfl⟩ := writes
      apply leaf
      rw [kind]
      rfl
  | boolean value =>
      obtain ⟨word, kind, rfl⟩ := writes
      apply leaf
      rw [kind]
      cases value <;> rfl
  | integer negative magnitude => exact WritesNumber.operand writes rfl
  | float negative magnitude => exact WritesNumber.operand writes rfl
  | list items =>
      obtain ⟨opening, closing, inner, opens, closes, written, rfl⟩ := writes
      exact .primary (.list opens (ItemsWritten.listed items written) closes)
  | map entries =>
      obtain ⟨opening, closing, inner, opens, closes, written, rfl⟩ := writes
      exact .primary (.mapLiteral opens (EntriesWritten.listed entries written) closes)

theorem ItemsWritten.listed (items : List Literal) {tokens : List Token}
    (written : ItemsWritten items tokens) :
    Listed Whole .rightBracket tokens (itemExpressions items) := by
  cases items with
  | nil =>
      subst written
      exact .nil
  | cons item items =>
      rcases written with ⟨rfl, writes⟩ | ⟨own, rest, comma, rfl, isComma, writes, written⟩
      · exact .last ((Writes.operand item writes).whole (.inr rfl))
      · exact .more ((Writes.operand item writes).whole (.inl rfl)) isComma
          (ItemsWritten.listed items written)

theorem EntriesWritten.listed (entries : List (String × Literal)) {tokens : List Token}
    (written : EntriesWritten entries tokens) :
    Listed PairPhrase .rightBrace tokens (entryExpressions entries) := by
  match entries with
  | [] =>
      obtain rfl : tokens = [] := written
      exact .nil
  | (key, literal) :: entries =>
      obtain ⟨name, colon, own, named, isColon, writes, ends⟩ := written
      have operand := Writes.operand literal writes
      rcases ends with ⟨rfl, rfl⟩ | ⟨rest, comma, rfl, isComma, written⟩
      · exact .last (.mk named isColon (operand.whole (.inr rfl)))
      · exact .more (.mk named isColon (operand.whole (.inl rfl))) isComma
          (EntriesWritten.listed entries written)
end

/-- The parser reads the tokens of a literal, and no token more, as its expression. -/
theorem parseExpression_literal {literal : Literal} {tokens : List Token}
    (writes : literal.Writes tokens) {after : List Token} (ends : Ends after) {depth : Nat}
    (enough : tokens.length < depth) (inside : Bool) :
    (productions depth).expression precNone ⟨tokens ++ after, inside⟩ =
      .ok (literal.toExpression, ⟨after, inside⟩) := by
  have phrases : PhraseTree.OfOperands (.leaf ⟨tokens, literal.toExpression⟩) :=
    Writes.operand literal writes
  exact parseExpression_tree phrases trivial enough ends inside

end Literal

/-! ## The law -/

section Law

variable (texts : ScalarTexts) (debug : Expression → String)

/-- The expected expression says of a document what the literal says. -/
structure Exact (literal : Literal) (expected : Expression) (actual : Json) : Prop where
  denoted : literal.Denotes actual →
    assertResponseMatches texts debug expected actual = .ok ()
  equal : assertResponseMatches texts debug expected actual = .ok () ↔ literal.Equals actual

/-- A literal is matched as it is meant, unless it has a number with a sign and the document
equals it. -/
theorem exact_toExpression_iff (literal : Literal) (actual : Json) :
    Exact texts debug literal literal.toExpression actual ↔
      ¬ (literal.HasMinus ∧ literal.Equals actual) := by
  have accepted := literal.assertExprMatches_iff texts debug "response" actual
  constructor
  · intro exact both
    have matched := exact.equal.mpr both.2
    rw [assertResponseMatches, accepted] at matched
    exact matched.2 both.1
  · intro unsigned
    have equal : assertResponseMatches texts debug literal.toExpression actual = .ok () ↔
        literal.Equals actual := by
      rw [assertResponseMatches, accepted, and_iff_left_iff_imp]
      exact fun equal minus => unsigned ⟨minus, equal⟩
    exact ⟨fun denotes => equal.mpr (Literal.Denotes.equals literal actual denotes), equal⟩

end Law

end Scenario
end Marreta
