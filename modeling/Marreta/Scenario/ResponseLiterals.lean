import Marreta.Scenario.ResponseMatching
import Marreta.Syntax.Spellings

namespace Marreta

open Foundation

/-! Which documents an assertion can write down.

A literal stands in a source after `then response is`, so its names are words and its numbers
fit their tokens.  A document has a literal unless one of its names is no word, or it holds the
least integer, and it has one that is accepted unless a number has a sign. -/

namespace Json

mutual
/-- The document, and every document in it, is as `holds` says. -/
def Everywhere (holds : Json → Prop) : Json → Prop
  | .array items => holds (.array items) ∧ EverywhereItems holds items
  | .object entries => holds (.object entries) ∧ EverywhereEntries holds entries
  | json => holds json

def EverywhereItems (holds : Json → Prop) : List Json → Prop
  | [] => True
  | item :: items => Everywhere holds item ∧ EverywhereItems holds items

def EverywhereEntries (holds : Json → Prop) : List (String × Json) → Prop
  | [] => True
  | (_, json) :: entries => Everywhere holds json ∧ EverywhereEntries holds entries
end

/-- Whole numbers are of 64 bits, floats are finite, texts have no expression in them and the
names of an object are distinct. -/
def Scoped : Json → Prop
  | .number (.posInt value) => value.toNat < 2 ^ 63
  | .number (.negInt value) => value < 0
  | .number (.float value) => value.isFinite
  | .string text => hasTemplate text.toList = false
  | .object entries => (Table.keys entries).Nodup
  | _ => True

/-- The names of an object are words. -/
def Named : Json → Prop
  | .object entries => ∀ name ∈ Table.keys entries, isName name
  | _ => True

/-- No number has a sign. -/
def Unsigned : Json → Prop
  | .number (.negInt _) => False
  | .number (.float value) => value.isNegative = false
  | _ => True

/-- The magnitude of a number fits its token. -/
def Fits : Json → Prop
  | .number (.negInt value) => value ≠ Int64.minValue
  | _ => True

theorem Unsigned.fits {json : Json} (plain : json.Unsigned) : json.Fits := by
  cases json with
  | number number =>
      cases number with
      | negInt => exact plain.elim
      | _ => trivial
  | _ => trivial

mutual
theorem Everywhere.imp {holds implied : Json → Prop} (implies : ∀ json, holds json → implied json)
    (json : Json) (everywhere : Everywhere holds json) : Everywhere implied json := by
  cases json with
  | array items =>
      exact ⟨implies _ everywhere.1, EverywhereItems.imp implies items everywhere.2⟩
  | object entries =>
      exact ⟨implies _ everywhere.1, EverywhereEntries.imp implies entries everywhere.2⟩
  | _ => exact implies _ everywhere

theorem EverywhereItems.imp {holds implied : Json → Prop}
    (implies : ∀ json, holds json → implied json) (items : List Json)
    (everywhere : EverywhereItems holds items) : EverywhereItems implied items := by
  cases items with
  | nil => trivial
  | cons item items =>
      exact ⟨Everywhere.imp implies item everywhere.1,
        EverywhereItems.imp implies items everywhere.2⟩

theorem EverywhereEntries.imp {holds implied : Json → Prop}
    (implies : ∀ json, holds json → implied json) (entries : List (String × Json))
    (everywhere : EverywhereEntries holds entries) : EverywhereEntries implied entries := by
  match entries with
  | [] => trivial
  | (_, json) :: entries =>
      exact ⟨Everywhere.imp implies json everywhere.1,
        EverywhereEntries.imp implies entries everywhere.2⟩
end

end Json

namespace Scenario

open Json

namespace Literal

/-! ## Literals that a source holds -/

theorem spellable_of_writesNumber {negative : Bool} {kind : TokenKind} {tokens : List Token}
    (writes : WritesNumber negative kind tokens)
    (spellable : ∀ token ∈ tokens, token.kind.Spellable) : kind.Spellable := by
  obtain ⟨number, rfl, own⟩ := writes
  cases negative with
  | true =>
      obtain ⟨minus, -, rfl⟩ := own
      exact spellable number (by simp)
  | false =>
      obtain rfl : tokens = [number] := own
      exact spellable number List.mem_cons_self

theorem isName_of_nameOf {token : Token} {name : String} (spellable : token.kind.Spellable)
    (named : nameOf token = some name) : isName name := by
  rcases nameOf_cases named with same | ⟨-, keyword, rfl⟩
  · rwa [same] at spellable
  · exact isName_of_keywordLookup keyword

theorem toInt_signed {negative : Bool} {magnitude : Int64} (positive : 0 ≤ magnitude.toInt) :
    (signed negative magnitude).toInt = if negative then -magnitude.toInt else magnitude.toInt := by
  cases negative with
  | false => rfl
  | true =>
      have bounded := magnitude.toInt_lt
      rw [signed, if_pos rfl, Int64.toInt_neg, Int.bmod_eq_of_le (by omega) (by omega)]
      rfl

mutual
/-- What a literal of a source denotes has names that are words, and signs only where the
literal has them. -/
theorem Denotes.everywhere (literal : Literal) {document : Json} {tokens : List Token}
    (writes : literal.Writes tokens) (spellable : ∀ token ∈ tokens, token.kind.Spellable)
    (denotes : literal.Denotes document) :
    Everywhere Named document ∧ Everywhere Json.Fits document ∧
      (¬ literal.HasMinus → Everywhere Unsigned document) := by
  cases literal with
  | anything => exact denotes.elim
  | null | boolean | text =>
      rw [Denotes] at denotes
      rw [denotes]
      exact ⟨trivial, trivial, fun _ => trivial⟩
  | integer negative magnitude =>
      rw [Denotes] at denotes
      have positive : 0 ≤ magnitude.toInt := spellable_of_writesNumber writes spellable
      have number := @toInt_signed negative magnitude positive
      rw [denotes, ofInt64, JsonNumber.ofInt64]
      split
      case isTrue minus =>
          refine ⟨trivial, ?_, ?_⟩
          · intro least
            rw [least] at number
            have bounded := magnitude.toInt_lt
            change (-2 ^ 63 : Int) = _ at number
            split at number <;> omega
          · intro plain
            rw [HasMinus] at plain
            rw [Int64.lt_iff_toInt_lt, number, if_neg plain] at minus
            change magnitude.toInt < 0 at minus
            omega
      case isFalse => exact ⟨trivial, trivial, fun _ => trivial⟩
  | float negative magnitude =>
      rw [Denotes] at denotes
      have positive : magnitude.isNegative = false := spellable_of_writesNumber writes spellable
      rw [denotes, ofFloat]
      split
      case isTrue =>
          refine ⟨trivial, trivial, ?_⟩
          intro plain
          rw [HasMinus, Bool.not_eq_true] at plain
          rwa [plain]
      case isFalse => exact ⟨trivial, trivial, fun _ => trivial⟩
  | list items =>
      cases document with
      | array actuals =>
          obtain ⟨opening, closing, inner, -, -, written, rfl⟩ := writes
          have each := ItemsDenote.everywhere items written
            (fun token member => spellable token (by simp [member])) denotes
          exact ⟨⟨trivial, each.1⟩, ⟨trivial, each.2.1⟩, fun plain => ⟨trivial, each.2.2 plain⟩⟩
      | _ => exact denotes.elim
  | map entries =>
      cases document with
      | object members =>
          obtain ⟨opening, closing, inner, -, -, written, rfl⟩ := writes
          have each := EntriesDenote.everywhere entries written
            (fun token member => spellable token (by simp [member])) denotes.2
          exact ⟨⟨each.1, each.2.1⟩, ⟨trivial, each.2.2.1⟩,
            fun plain => ⟨trivial, each.2.2.2 plain⟩⟩
      | _ => exact denotes.elim

theorem ItemsDenote.everywhere (items : List Literal) {actuals : List Json} {tokens : List Token}
    (written : ItemsWritten items tokens) (spellable : ∀ token ∈ tokens, token.kind.Spellable)
    (denote : ItemsDenote items actuals) :
    EverywhereItems Named actuals ∧ EverywhereItems Json.Fits actuals ∧
      (¬ ItemsHaveMinus items → EverywhereItems Unsigned actuals) := by
  cases items with
  | nil =>
      cases actuals with
      | nil => exact ⟨trivial, trivial, fun _ => trivial⟩
      | cons => exact denote.elim
  | cons item items =>
      cases actuals with
      | nil => exact denote.elim
      | cons actual actuals =>
          obtain ⟨own, rest, writes, after, inside⟩ : ∃ own rest, item.Writes own ∧
              ItemsWritten items rest ∧ ∀ token ∈ own ++ rest, token ∈ tokens := by
            rcases written with ⟨rfl, writes⟩ | ⟨own, rest, comma, rfl, -, writes, after⟩
            · exact ⟨tokens, [], writes, rfl, by simp⟩
            · refine ⟨own, rest, writes, after, ?_⟩
              intro token member
              simp only [List.mem_append, List.mem_cons] at member ⊢
              exact member.imp_right .inr
          have first := Denotes.everywhere item writes
            (fun token member => spellable token (inside token (by simp [member]))) denote.1
          have later := ItemsDenote.everywhere items after
            (fun token member => spellable token (inside token (by simp [member]))) denote.2
          refine ⟨⟨first.1, later.1⟩, ⟨first.2.1, later.2.1⟩, ?_⟩
          intro plain
          rw [ItemsHaveMinus, not_or] at plain
          exact ⟨first.2.2 plain.1, later.2.2 plain.2⟩

theorem EntriesDenote.everywhere (entries : List (String × Literal)) {members : Table String Json}
    {tokens : List Token} (written : EntriesWritten entries tokens)
    (spellable : ∀ token ∈ tokens, token.kind.Spellable) (denote : EntriesDenote entries members) :
    (∀ name ∈ Table.keys members, isName name) ∧ EverywhereEntries Named members ∧
      EverywhereEntries Json.Fits members ∧
      (¬ EntriesHaveMinus entries → EverywhereEntries Unsigned members) := by
  match entries, members with
  | [], [] => exact ⟨by simp [Table.keys], trivial, trivial, fun _ => trivial⟩
  | [], _ :: _ => exact denote.elim
  | _ :: _, [] => exact denote.elim
  | (key, literal) :: entries, (name, actual) :: members =>
      obtain ⟨word, colon, own, named, -, writes, ends⟩ := written
      obtain ⟨rest, after, inside⟩ : ∃ rest, EntriesWritten entries rest ∧
          ∀ token ∈ word :: own ++ rest, token ∈ tokens := by
        rcases ends with ⟨rfl, rfl⟩ | ⟨rest, comma, rfl, -, after⟩
        · exact ⟨[], rfl, by simp; tauto⟩
        · refine ⟨rest, after, ?_⟩
          intro token member
          simp only [List.cons_append, List.mem_cons, List.mem_append] at member ⊢
          tauto
      have first := Denotes.everywhere literal writes
        (fun token member => spellable token (inside token (by simp [member]))) denote.1.2
      have later := EntriesDenote.everywhere entries after
        (fun token member => spellable token (inside token (by simp [member]))) denote.2
      obtain ⟨rfl, -⟩ := denote.1
      refine ⟨?_, ⟨first.1, later.2.1⟩, ⟨first.2.1, later.2.2.1⟩, ?_⟩
      · intro other member
        rcases List.mem_cons.mp member with rfl | member
        · exact isName_of_nameOf (spellable word (inside word (by simp))) named
        · exact later.1 other member
      · intro plain
        rw [EntriesHaveMinus, not_or] at plain
        exact ⟨first.2.2 plain.1, later.2.2.2 plain.2⟩
end

/-! ## Literals of documents -/

/-- Words that are the tokens of the literal. -/
structure Spells (words : List (TokenKind × String)) (literal : Literal) : Prop where
  spelled : Spelled words
  writes : ∀ tokens : List Token, tokens.map Token.word = words → literal.Writes tokens

/-- Words that spell a literal of the document, which has no sign of its own. -/
def SpellsDocument (words : List (TokenKind × String)) (literal : Literal)
    (document : Json) : Prop :=
  Spells words literal ∧ literal.Denotes document ∧
    (Everywhere Unsigned document → ¬ literal.HasMinus)

theorem exists_of_word {tokens : List Token} {kind : TokenKind} {lexeme : String}
    (same : tokens.map Token.word = [(kind, lexeme)]) :
    ∃ token : Token, token.kind = kind ∧ tokens = [token] := by
  obtain ⟨token, rest, rfl, own, none⟩ := List.map_eq_cons_iff.mp same
  obtain rfl := List.map_eq_nil_iff.mp none
  exact ⟨token, (Prod.mk.inj own).1, rfl⟩

theorem writesNumber_of_words {negative : Bool} {kind : TokenKind} {lexeme : String}
    {tokens : List Token}
    (same : tokens.map Token.word =
      (if negative then [(.minus, "-")] else []) ++ [(kind, lexeme)]) :
    WritesNumber negative kind tokens := by
  cases negative with
  | false =>
      obtain ⟨number, kind, rfl⟩ := exists_of_word same
      exact ⟨number, kind, rfl⟩
  | true =>
      obtain ⟨minus, rest, rfl, own, same⟩ := List.map_eq_cons_iff.mp same
      obtain ⟨number, kind, rfl⟩ := exists_of_word same
      exact ⟨number, kind, minus, (Prod.mk.inj own).1, rfl⟩

theorem spelled_minus : Spelled [(.minus, "-")] :=
  .one ['-'] rfl (by decide) rfl (by decide)

theorem spelled_number (negative : Bool) {kind : TokenKind} {lexeme : String}
    (spelled : Spelled [(kind, lexeme)]) :
    Spelled ((if negative then [(.minus, "-")] else []) ++ [(kind, lexeme)]) := by
  cases negative with
  | false => exact spelled
  | true => exact spelled_minus.append spelled

theorem exists_integer (number : JsonNumber) (negative : Bool) {magnitude : Int64}
    (positive : 0 ≤ magnitude.toInt) (same : .ofInt64 (signed negative magnitude) = number)
    (plain : Unsigned (.number number) → negative = false) :
    ∃ words literal, SpellsDocument words literal (.number number) := by
  obtain ⟨lexeme, spelled⟩ := Spelled.integer positive
  refine ⟨_, .integer negative magnitude, ⟨spelled_number negative spelled, ?_⟩, ?_, ?_⟩
  · exact fun tokens same => writesNumber_of_words same
  · rw [Denotes, ofInt64, same]
  · intro unsigned minus
    rw [HasMinus, plain unsigned] at minus
    cases minus

theorem exists_float {value : Binary64} (finite : value.isFinite) :
    ∃ words literal, SpellsDocument words literal (.number (.float value)) := by
  obtain ⟨magnitude, size, positive, same⟩ :=
    Binary64.exists_withSign (Binary64.hasMagnitude_of_isFinite finite)
  obtain ⟨lexeme, spelled⟩ := Spelled.float size positive
  refine ⟨_, .float value.isNegative magnitude, ⟨spelled_number value.isNegative spelled, ?_⟩,
    ?_, ?_⟩
  · exact fun tokens same => writesNumber_of_words same
  · rw [Denotes, same, ofFloat, if_pos finite]
  · intro unsigned minus
    rw [HasMinus, show value.isNegative = false from unsigned] at minus
    cases minus

theorem exists_one {kind : TokenKind} {lexeme : String} {literal : Literal} {document : Json}
    (spelled : Spelled [(kind, lexeme)]) (denotes : literal.Denotes document)
    (writes : ∀ token : Token, token.kind = kind → literal.Writes [token])
    (plain : ¬ literal.HasMinus) : ∃ words literal, SpellsDocument words literal document := by
  refine ⟨_, literal, ⟨spelled, ?_⟩, denotes, fun _ => plain⟩
  intro tokens same
  obtain ⟨token, own, rfl⟩ := exists_of_word same
  exact writes token own

theorem nameOf_wordKind {token : Token} {name : String}
    (same : token.word = (Lexer.wordKind name, name)) : nameOf token = some name := by
  obtain ⟨kind, line, column, lexeme⟩ := token
  obtain ⟨rfl, rfl⟩ : kind = Lexer.wordKind name ∧ lexeme = name := Prod.mk.inj same
  rw [nameOf, Lexer.wordKind]
  cases found : keywordLookup lexeme with
  | none => rfl
  | some kind =>
      unfold keywordLookup at found
      split at found
      all_goals cases found
      all_goals rfl

theorem spelled_leftBracket : Spelled [(.leftBracket, "[")] :=
  .one ['['] rfl (by decide) rfl (by decide)

theorem spelled_rightBracket : Spelled [(.rightBracket, "]")] :=
  .one [']'] rfl (by decide) rfl (by decide)

theorem spelled_leftBrace : Spelled [(.leftBrace, "\x7b")] :=
  .one ['{'] rfl (by decide) rfl (by decide)

theorem spelled_rightBrace : Spelled [(.rightBrace, "\x7d")] :=
  .one ['}'] rfl (by decide) rfl (by decide)

theorem spelled_colon : Spelled [(.colon, ":")] :=
  .one [':'] rfl (by decide) rfl (by decide)

theorem spelled_comma : Spelled [(.comma, ",")] :=
  .one [','] rfl (by decide) rfl (by decide)

theorem spelled_nil : Spelled [] :=
  ⟨⟨[], by simp, by simp, .nil⟩, by simp⟩

/-- Words between two delimiters. -/
theorem enclosed_of_words {first last : TokenKind × String} {inner : List (TokenKind × String)}
    {tokens : List Token} (same : tokens.map Token.word = first :: (inner ++ [last])) :
    ∃ (opening closing : Token) (between : List Token), opening.kind = first.1 ∧
      closing.kind = last.1 ∧ between.map Token.word = inner ∧
        tokens = opening :: (between ++ [closing]) := by
  obtain ⟨opening, rest, rfl, opens, same⟩ := List.map_eq_cons_iff.mp same
  obtain ⟨between, ends, rfl, own, same⟩ := List.map_eq_append_iff.mp same
  obtain ⟨closing, kind, rfl⟩ := exists_of_word same
  exact ⟨opening, closing, between, congrArg Prod.fst opens, kind, own, rfl⟩

mutual
/-- A document whose names are words and whose numbers fit has a literal. -/
theorem exists_literal (document : Json) (within : Everywhere Json.Scoped document)
    (named : Everywhere Named document) (fits : Everywhere Json.Fits document) :
    ∃ words literal, SpellsDocument words literal document := by
  cases document with
  | null =>
      exact @exists_one _ _ .null _ (@Spelled.name "null" (by decide)) rfl
        (fun token own => ⟨token, own, rfl⟩) id
  | bool value =>
      cases value with
      | true =>
          exact @exists_one _ _ (.boolean true) _ (@Spelled.name "true" (by decide)) rfl
            (fun token own => ⟨token, own, rfl⟩) id
      | false =>
          exact @exists_one _ _ (.boolean false) _ (@Spelled.name "false" (by decide)) rfl
            (fun token own => ⟨token, own, rfl⟩) id
  | string text =>
      exact @exists_one _ _ (.text ⟨text, within⟩) _ (Spelled.text text) rfl
        (fun token own => ⟨token, own, rfl⟩) id
  | number number =>
      cases number with
      | posInt value =>
          have small : value.toNat < 2 ^ 63 := within
          have number : value.toInt64.toInt = value.toNat := by
            have bits : 2 * value.toBitVec.toNat < 2 ^ 64 := by
              change 2 * value.toNat < _
              omega
            exact BitVec.toInt_eq_toNat_of_lt bits
          refine @exists_integer _ false value.toInt64 (by omega) ?_ fun _ => rfl
          have positive : ¬ value.toInt64 < 0 := by
            rw [Int64.lt_iff_toInt_lt]
            change ¬ _ < (0 : Int)
            omega
          rw [signed, if_neg (by decide), JsonNumber.ofInt64, if_neg positive,
            UInt64.toUInt64_toInt64]
      | negInt value =>
          have minus : value < 0 := within
          have negative : value.toInt < 0 := Int64.lt_iff_toInt_lt.mp minus
          have bounded := value.le_toInt
          have least : value.toInt ≠ -2 ^ 63 := fun same => fits (Int64.toInt_inj.mp same)
          have number : (-value).toInt = -value.toInt := by
            rw [Int64.toInt_neg, Int.bmod_eq_of_le (by omega) (by omega)]
          refine @exists_integer _ true (-value) (by omega) ?_ fun unsigned => unsigned.elim
          rw [signed, if_pos rfl, Int64.neg_neg, JsonNumber.ofInt64, if_pos minus]
      | float value => exact exists_float within
  | array items =>
      obtain ⟨words, literals, spelled, writes, denote, plain⟩ :=
        exists_items items within.2 named.2 fits.2
      refine ⟨_, .list literals, ⟨spelled_leftBracket.cons (spelled.append spelled_rightBracket),
        ?_⟩, denote, fun unsigned => plain unsigned.2⟩
      intro tokens same
      obtain ⟨opening, closing, between, opens, closes, own, rfl⟩ := enclosed_of_words same
      exact ⟨opening, closing, between, opens, closes, writes between own, rfl⟩
  | object entries =>
      obtain ⟨words, literals, spelled, writes, denote, plain⟩ :=
        exists_entries entries named.1 within.2 named.2 fits.2
      refine ⟨_, .map literals, ⟨spelled_leftBrace.cons (spelled.append spelled_rightBrace),
        ?_⟩, ⟨within.1, denote⟩, fun unsigned => plain unsigned.2⟩
      intro tokens same
      obtain ⟨opening, closing, between, opens, closes, own, rfl⟩ := enclosed_of_words same
      exact ⟨opening, closing, between, opens, closes, writes between own, rfl⟩

theorem exists_items (items : List Json) (within : EverywhereItems Json.Scoped items)
    (named : EverywhereItems Named items) (fits : EverywhereItems Json.Fits items) :
    ∃ words literals, Spelled words ∧
      (∀ tokens : List Token, tokens.map Token.word = words → ItemsWritten literals tokens) ∧
      ItemsDenote literals items ∧
      (EverywhereItems Unsigned items → ¬ ItemsHaveMinus literals) := by
  cases items with
  | nil =>
      exact ⟨[], [], spelled_nil, fun tokens same => List.map_eq_nil_iff.mp same, trivial,
        fun _ => id⟩
  | cons item items =>
      obtain ⟨own, literal, ⟨spelled, writes⟩, denotes, plain⟩ :=
        exists_literal item within.1 named.1 fits.1
      obtain ⟨words, literals, others, after, denote, plains⟩ :=
        exists_items items within.2 named.2 fits.2
      refine ⟨own ++ (.comma, ",") :: words, literal :: literals,
        spelled.append (spelled_comma.cons others), ?_, ⟨denotes, denote⟩, ?_⟩
      · intro tokens same
        obtain ⟨first, later, rfl, firstSame, same⟩ := List.map_eq_append_iff.mp same
        obtain ⟨comma, rest, rfl, isComma, same⟩ := List.map_eq_cons_iff.mp same
        exact .inr ⟨first, rest, comma, rfl, congrArg Prod.fst isComma, writes first firstSame,
          after rest same⟩
      · intro unsigned minus
        rcases minus with minus | minus
        · exact plain unsigned.1 minus
        · exact plains unsigned.2 minus

theorem exists_entries (entries : List (String × Json))
    (names : ∀ name ∈ Table.keys entries, isName name)
    (within : EverywhereEntries Json.Scoped entries)
    (named : EverywhereEntries Named entries) (fits : EverywhereEntries Json.Fits entries) :
    ∃ words literals, Spelled words ∧
      (∀ tokens : List Token, tokens.map Token.word = words → EntriesWritten literals tokens) ∧
      EntriesDenote literals entries ∧
      (EverywhereEntries Unsigned entries → ¬ EntriesHaveMinus literals) := by
  match entries with
  | [] =>
      exact ⟨[], [], spelled_nil, fun tokens same => List.map_eq_nil_iff.mp same, trivial,
        fun _ => id⟩
  | (name, json) :: entries =>
      obtain ⟨own, literal, ⟨spelled, writes⟩, denotes, plain⟩ :=
        exists_literal json within.1 named.1 fits.1
      obtain ⟨words, literals, others, after, denote, plains⟩ :=
        exists_entries entries (fun other member => names other (List.mem_cons_of_mem _ member))
          within.2 named.2 fits.2
      refine ⟨(Lexer.wordKind name, name) :: (.colon, ":") :: (own ++ (.comma, ",") :: words),
        (name, literal) :: literals,
        (Spelled.name (names name List.mem_cons_self)).cons
          (spelled_colon.cons (spelled.append (spelled_comma.cons others))), ?_,
        ⟨⟨rfl, denotes⟩, denote⟩, ?_⟩
      · intro tokens same
        obtain ⟨word, tokens, rfl, isWord, same⟩ := List.map_eq_cons_iff.mp same
        obtain ⟨colon, tokens, rfl, isColon, same⟩ := List.map_eq_cons_iff.mp same
        obtain ⟨first, later, rfl, firstSame, same⟩ := List.map_eq_append_iff.mp same
        obtain ⟨comma, rest, rfl, isComma, same⟩ := List.map_eq_cons_iff.mp same
        exact ⟨word, colon, first, nameOf_wordKind isWord, congrArg Prod.fst isColon,
          writes first firstSame, .inr ⟨rest, comma, rfl, congrArg Prod.fst isComma,
            after rest same⟩⟩
      · intro unsigned minus
        rcases minus with minus | minus
        · exact plain unsigned.1 minus
        · exact plains unsigned.2 minus
end

end Literal

/-! ## The law -/

open Marreta.Parser

/-- The words before the expected value of an assertion. -/
def thenResponseIs : List (TokenKind × String) :=
  [(.identifier "then", "then"), (.identifier "response", "response"), (.identifier "is", "is")]

theorem spelled_thenResponseIs : Spelled thenResponseIs :=
  (@Spelled.name "then" (by decide)).cons
    ((@Spelled.name "response" (by decide)).cons (@Spelled.name "is" (by decide)))

/-- Some source holds the literal as the expected value of an assertion. -/
def Literal.InSource (literal : Literal) : Prop :=
  ∃ source start assertion tokens after,
    tokenize source = .ok (start ++ (assertion ++ (tokens ++ after))) ∧
      assertion.map Token.word = thenResponseIs ∧ literal.Writes tokens ∧ Ends after

theorem ends_of_closes {token : Token} {after : List Token}
    (closes : token.kind.isLayout = true ∨ token.kind = .eof) : Ends (token :: after) := by
  refine ⟨token, after, rfl, ?_⟩
  rcases closes with layout | eof
  · cases kind : token.kind with
    | newline | indent | dedent => exact ⟨rfl, by decide, by decide, by decide, by decide⟩
    | _ => simp [kind, TokenKind.isLayout] at layout
  · rw [eof]
    exact ⟨rfl, by decide, by decide, by decide, by decide⟩

theorem Literal.Spells.inSource {words : List (TokenKind × String)} {literal : Literal}
    (spells : literal.Spells words) : literal.InSource := by
  obtain ⟨source, start, tokens, token, after, reads, same, closes⟩ :=
    (spelled_thenResponseIs.append spells.spelled).exists_source
  obtain ⟨assertion, own, rfl, lead, written⟩ := List.map_eq_append_iff.mp same
  refine ⟨source, start, assertion, own, token :: after, ?_, lead, spells.writes own written,
    ends_of_closes closes⟩
  rw [reads, List.append_assoc]

theorem Literal.InSource.everywhere {literal : Literal} {document : Json}
    (inSource : literal.InSource) (denotes : literal.Denotes document) :
    Everywhere Named document ∧ Everywhere Json.Fits document ∧
      (¬ literal.HasMinus → Everywhere Unsigned document) := by
  obtain ⟨source, start, assertion, tokens, after, reads, -, writes, -⟩ := inSource
  have spellable := spellable_of_tokenize reads
  exact Literal.Denotes.everywhere literal writes
    (fun token member => spellable token (by simp [member])) denotes

/-- The parser reads an assertion as its literal. -/
theorem parseScenarioThen_literal {literal : Literal} {assertion tokens after : List Token}
    (words : assertion.map Token.word = thenResponseIs) (writes : literal.Writes tokens)
    (ends : Ends after) {depth : Nat} (enough : tokens.length < depth) (inside : Bool) :
    ∃ line column, parseScenarioThen (productions depth) ⟨assertion ++ (tokens ++ after), inside⟩ =
      .ok (.thenResponse literal.toExpression line column, ⟨after, inside⟩) := by
  obtain ⟨first, rest, rfl, -, words⟩ := List.map_eq_cons_iff.mp words
  obtain ⟨response, rest, rfl, isResponse, words⟩ := List.map_eq_cons_iff.mp words
  obtain ⟨word, isWord, rfl⟩ := Literal.exists_of_word words
  have nonempty : tokens ++ after ≠ [] := by
    obtain ⟨token, rest, rfl, -⟩ := ends
    simp
  have reads := literal.parseExpression_literal writes ends enough inside
  have kind : response.kind = .identifier "response" := congrArg Prod.fst isResponse
  refine ⟨first.line, first.column, ?_⟩
  simp [parseScenarioThen, checkIdentifierLexeme, expectIdentifierLexeme,
    ParserState.advance_cons, nonempty, kind, isWord, reads]

section Law

variable (texts : ScalarTexts) (debug : Expression → String)

/-- A document has a literal exactly if its names are words and its numbers fit, and one that
is accepted exactly if no number has a sign.  Every literal is read, and then matched as it is
meant, unless it has a number with a sign and the document equals it. -/
theorem responseAssertions_exact_iff :
    (∀ document, Everywhere Json.Scoped document →
      ((∃ literal : Literal, literal.InSource ∧ literal.Denotes document) ↔
        Everywhere Named document ∧ Everywhere Json.Fits document) ∧
      ((∃ literal : Literal, literal.InSource ∧ literal.Denotes document ∧
          assertResponseMatches texts debug literal.toExpression document = .ok ()) ↔
        Everywhere Named document ∧ Everywhere Unsigned document)) ∧
    ∀ (literal : Literal) (assertion tokens after : List Token),
      assertion.map Token.word = thenResponseIs → literal.Writes tokens → Ends after →
        ∀ depth, tokens.length < depth → ∀ inside,
          (∃ line column,
            parseScenarioThen (productions depth) ⟨assertion ++ (tokens ++ after), inside⟩ =
              .ok (.thenResponse literal.toExpression line column, ⟨after, inside⟩)) ∧
          ∀ actual, Exact texts debug literal literal.toExpression actual ↔
            ¬ (literal.HasMinus ∧ literal.Equals actual) := by
  constructor
  · intro document within
    constructor
    · constructor
      · rintro ⟨literal, inSource, denotes⟩
        have each := inSource.everywhere denotes
        exact ⟨each.1, each.2.1⟩
      · rintro ⟨named, fits⟩
        obtain ⟨words, literal, spells, denotes, -⟩ :=
          Literal.exists_literal document within named fits
        exact ⟨literal, spells.inSource, denotes⟩
    · constructor
      · rintro ⟨literal, inSource, denotes, matched⟩
        have each := inSource.everywhere denotes
        rw [assertResponseMatches, Literal.assertExprMatches_iff] at matched
        exact ⟨each.1, each.2.2 matched.2⟩
      · rintro ⟨named, unsigned⟩
        have fits := Everywhere.imp (fun _ plain => Unsigned.fits plain) document unsigned
        obtain ⟨words, literal, spells, denotes, plain⟩ :=
          Literal.exists_literal document within named fits
        refine ⟨literal, spells.inSource, denotes, ?_⟩
        rw [assertResponseMatches, Literal.assertExprMatches_iff]
        exact ⟨Literal.Denotes.equals literal document denotes, plain unsigned⟩
  · intro literal assertion tokens after words writes ends depth enough inside
    exact ⟨parseScenarioThen_literal words writes ends enough inside,
      exact_toExpression_iff texts debug literal⟩

end Law

/-- `then response is`, before its value. -/
def assertion : List Token :=
  [⟨.identifier "then", 1, 1, "then"⟩, ⟨.identifier "response", 1, 6, "response"⟩,
    ⟨.identifier "is", 1, 15, "is"⟩]

/-- `-5`, before the end of its line. -/
def minusFive : List Token :=
  [⟨.minus, 1, 18, "-"⟩, ⟨.integer 5, 1, 19, "5"⟩]

def lineEnd : List Token :=
  [⟨.newline, 1, 20, ""⟩]

theorem writes_minusFive : (Literal.integer true 5).Writes minusFive :=
  ⟨⟨.integer 5, 1, 19, "5"⟩, rfl, ⟨.minus, 1, 18, "-"⟩, rfl, rfl⟩

theorem ends_lineEnd : Ends lineEnd :=
  ⟨_, _, rfl, rfl, by decide, by decide, by decide, by decide⟩

theorem responseAssertions_exact_iff_minusFive :
    (∃ literal : Literal, literal.InSource ∧ literal.Denotes (.ofInt64 (-5))) ∧
      (∃ line column,
        parseScenarioThen (productions 3) ⟨assertion ++ (minusFive ++ lineEnd), false⟩ =
          .ok (.thenResponse (Literal.integer true 5).toExpression line column,
            ⟨lineEnd, false⟩)) ∧
      ¬ Exact noTexts (fun _ => "") (.integer true 5) (Literal.integer true 5).toExpression
        (.ofInt64 (-5)) := by
  obtain ⟨documents, literals⟩ := responseAssertions_exact_iff noTexts (fun _ => "")
  obtain ⟨reads, exact⟩ := literals (.integer true 5) assertion minusFive lineEnd rfl
    writes_minusFive ends_lineEnd 3 (by decide) false
  refine ⟨(documents (.ofInt64 (-5)) ?_).1.mpr ⟨trivial, ?_⟩, reads, ?_⟩
  · exact (by decide : (-5 : Int64) < 0)
  · exact (by decide : (-5 : Int64) ≠ Int64.minValue)
  · rw [exact, not_not]
    exact ⟨rfl, rfl⟩

/-- The literal of -5 is no matcher of -5, and a header's name has no literal. -/
theorem responseAssertion_not_exact :
    (∃ line column,
        parseScenarioThen (productions 3) ⟨assertion ++ (minusFive ++ lineEnd), false⟩ =
          .ok (.thenResponse (Literal.integer true 5).toExpression line column,
            ⟨lineEnd, false⟩)) ∧
      (Literal.integer true 5).Denotes (.ofInt64 (-5)) ∧
      assertResponseMatches noTexts (fun _ => "") (Literal.integer true 5).toExpression
          (.ofInt64 (-5)) = .error "unsupported response matcher at response: " ∧
      ¬ ∃ literal : Literal, literal.InSource ∧
        literal.Denotes (.object [("content-type", .string "application/json")]) := by
  refine ⟨parseScenarioThen_literal rfl writes_minusFive ends_lineEnd (by decide) false, rfl, rfl,
    ?_⟩
  rintro ⟨literal, inSource, denotes⟩
  have named := (inSource.everywhere denotes).1.1
  exact absurd (named "content-type" List.mem_cons_self) (by decide)

end Scenario

end Marreta
