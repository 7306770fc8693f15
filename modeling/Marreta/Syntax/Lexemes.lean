import Marreta.Foundation.Text
import Marreta.Syntax.Lexer

namespace Marreta

open Foundation

/-! The lexemes of a line.

What the lexer reads inside a line does not depend on where the line stands: a
line is a sequence of lexemes, items without a position.  A lexeme is decided by
its own characters and by at most two of the characters that follow it. -/

/-- What is read at one place of a line. -/
inductive Lexeme where
  | token (kind : TokenKind) (lexeme : String)
  | comment (text : List Char)
deriving DecidableEq

/-- The lexeme at the head of a text that starts with neither a blank nor a line
break, and the text after it. -/
def lexemeAt (text : List Char) : Option (Lexeme × List Char) :=
  match text with
  | [] => none
  | ch :: rest =>
      if ch = '#' then
        some (.comment (text.takeWhile (· ≠ '\n')), text.dropWhile (· ≠ '\n'))
      else if ch = '"' then
        (Lexer.stringBody rest).map fun (value, rest) =>
          (.token (.stringLiteral (String.ofList value)) ("\"" ++ String.ofList value ++ "\""),
            rest)
      else if ch.isDigit then
        match Lexer.numberSpan text false with
        | .error _ => none
        | .ok (span, hasDot) =>
            (Lexer.numberKind span hasDot).map fun kind =>
              (.token kind (String.ofList span), text.drop span.length)
      else if Lexer.isWordStart ch then
        let word := String.ofList (text.takeWhile Lexer.isWordChar)
        some (.token (Lexer.wordKind word) word, text.dropWhile Lexer.isWordChar)
      else
        (Lexer.operatorAt text).map fun (kind, lexeme) =>
          (.token kind lexeme, text.drop lexeme.length)

/-- The characters that the lexer skips inside a line. -/
def isSkipped (ch : Char) : Bool :=
  ch = ' ' || ch = '\t' || ch = '\r'

/-- A line that reads as the given lexemes. -/
inductive Lexes : List Char → List Lexeme → Prop
  | nil : Lexes [] []
  | skip {ch : Char} {text : List Char} {lexemes : List Lexeme} :
      isSkipped ch = true → Lexes text lexemes → Lexes (ch :: text) lexemes
  | lexeme {text rest : List Char} {lexeme : Lexeme} {lexemes : List Lexeme} :
      text.head?.any (fun ch => !isSkipped ch && ch ≠ '\n') = true →
      lexemeAt text = some (lexeme, rest) → Lexes rest lexemes →
        Lexes text (lexeme :: lexemes)

/-! ## Strings, numbers and operators -/

theorem stringBody_plain {ch : Char} (quote : ch ≠ '"') (feed : ch ≠ '\n') (escape : ch ≠ '\\')
    (text : List Char) :
    Lexer.stringBody (ch :: text) =
      (Lexer.stringBody text).map fun (value, rest) => (ch :: value, rest) := by
  rw [Lexer.stringBody]
  · exact quote
  · exact feed
  · exact fun same => absurd same escape
  · exact fun _ _ same => absurd same escape

/-- The ways in which the body of a string literal goes on. -/
@[elab_as_elim]
theorem stringBody_induction {motive : List Char → Prop} (nil : motive [])
    (quote : ∀ rest, motive ('"' :: rest)) (feed : ∀ rest, motive ('\n' :: rest))
    (cut : motive ['\\'])
    (escape : ∀ escaped rest, motive rest → motive ('\\' :: escaped :: rest))
    (plain : ∀ ch rest, ch ≠ '"' → ch ≠ '\n' → ch ≠ '\\' → motive rest → motive (ch :: rest))
    (text : List Char) : motive text := by
  induction text using Lexer.stringBody.induct with
  | case1 => exact nil
  | case2 rest => exact quote rest
  | case3 rest => exact feed rest
  | case4 => exact cut
  | case5 escaped rest ih => exact escape escaped rest ih
  | case6 ch rest isQuote isFeed last inner ih =>
      refine plain ch rest isQuote isFeed ?_ ih
      rintro rfl
      cases rest with
      | nil => exact last rfl rfl
      | cons escaped rest => exact inner escaped rest rfl rfl

theorem getLast?_stringBody {text value : List Char}
    (reads : Lexer.stringBody text = some (value, [])) : text.getLast? = some '"' := by
  induction text using stringBody_induction generalizing value with
  | nil => cases reads
  | quote rest =>
      obtain ⟨-, rfl⟩ := Prod.mk.inj (Option.some.inj reads)
      rfl
  | feed rest => simp [Lexer.stringBody] at reads
  | cut => simp [Lexer.stringBody] at reads
  | escape escaped rest ih =>
      rw [Lexer.stringBody, Option.map_eq_some_iff] at reads
      obtain ⟨⟨inner, after⟩, found, same⟩ := reads
      obtain ⟨-, rfl⟩ := Prod.mk.inj same
      rw [List.getLast?_cons, List.getLast?_cons, ih found]
      rfl
  | plain ch rest quote feed escape ih =>
      rw [stringBody_plain quote feed escape, Option.map_eq_some_iff] at reads
      obtain ⟨⟨inner, after⟩, found, same⟩ := reads
      obtain ⟨-, rfl⟩ := Prod.mk.inj same
      rw [List.getLast?_cons, ih found]
      rfl

theorem stringBody_cuts {text value rest : List Char}
    (reads : Lexer.stringBody text = some (value, rest)) :
    ∃ used, text = used ++ rest ∧
      ∀ other, Lexer.stringBody (used ++ other) = some (value, other) := by
  induction text using stringBody_induction generalizing value with
  | nil => simp [Lexer.stringBody] at reads
  | quote text =>
      simp only [Lexer.stringBody, Option.some.injEq, Prod.mk.injEq] at reads
      obtain ⟨rfl, rfl⟩ := reads
      exact ⟨['"'], rfl, fun other => by simp [Lexer.stringBody]⟩
  | feed text => simp [Lexer.stringBody] at reads
  | cut => simp [Lexer.stringBody] at reads
  | escape escaped text ih =>
      rw [Lexer.stringBody, Option.map_eq_some_iff] at reads
      obtain ⟨⟨inner, after⟩, found, same⟩ := reads
      obtain ⟨rfl, rfl⟩ := Prod.mk.inj same
      obtain ⟨used, rfl, closed⟩ := ih found
      refine ⟨'\\' :: escaped :: used, rfl, fun other => ?_⟩
      rw [List.cons_append, List.cons_append, Lexer.stringBody, closed]
      rfl
  | plain ch text quote feed escape ih =>
      rw [stringBody_plain quote feed escape, Option.map_eq_some_iff] at reads
      obtain ⟨⟨inner, after⟩, found, same⟩ := reads
      obtain ⟨rfl, rfl⟩ := Prod.mk.inj same
      obtain ⟨used, rfl, closed⟩ := ih found
      refine ⟨ch :: used, rfl, fun other => ?_⟩
      rw [List.cons_append, stringBody_plain quote feed escape, closed]
      rfl

/-- No digit follows, and no dot with a digit after it. -/
def EndsNumber (rest : List Char) : Prop :=
  rest.head?.any Char.isDigit = false ∧
    (rest.head? = some '.' → (rest.drop 1).head?.any Char.isDigit = false)

theorem numberSpan_stops {rest : List Char} (ends : EndsNumber rest) (hasDot : Bool) :
    Lexer.numberSpan rest hasDot = .ok ([], hasDot) := by
  cases rest with
  | nil => rfl
  | cons next rest =>
      obtain ⟨digit, dot⟩ := ends
      have point : ¬ (next = '.' ∧ rest.head?.any Char.isDigit = true) := by
        rintro ⟨rfl, found⟩
        exact absurd found (by simp [show rest.head?.any Char.isDigit = false from dot rfl])
      rw [Lexer.numberSpan, if_neg (by simpa using digit), if_neg point]

theorem head?_numberSpan {text span : List Char} {hasDot dotted : Bool}
    (digit : text.head?.any Char.isDigit = true)
    (reads : Lexer.numberSpan text hasDot = .ok (span, dotted)) : span.head? = text.head? := by
  cases text with
  | nil => simp at digit
  | cons ch text =>
      rw [Lexer.numberSpan, if_pos (by simpa using digit)] at reads
      generalize Lexer.numberSpan text hasDot = inner at reads
      rcases inner with _ | ⟨rest, flag⟩
      · cases reads
      · obtain ⟨rfl, -⟩ := Prod.mk.inj (Except.ok.inj reads)
        rfl

theorem numberSpan_cuts {text span : List Char} {hasDot dotted : Bool}
    (reads : Lexer.numberSpan text hasDot = .ok (span, dotted)) :
    ∃ rest, text = span ++ rest ∧ EndsNumber rest ∧
      ∀ other, EndsNumber other →
        Lexer.numberSpan (span ++ other) hasDot = .ok (span, dotted) := by
  induction text generalizing hasDot span with
  | nil =>
      obtain ⟨rfl, rfl⟩ := Prod.mk.inj (Except.ok.inj reads)
      exact ⟨[], rfl, by simp [EndsNumber], fun other ends => numberSpan_stops ends hasDot⟩
  | cons ch text ih =>
      -- The character is taken, and the rest of the span is that of the text after it.
      have step : ∀ flag, Lexer.numberSpan.more ch (Lexer.numberSpan text flag) =
            .ok (span, dotted) →
          (∀ other inner, Lexer.numberSpan text flag = .ok (inner, dotted) →
            Lexer.numberSpan (ch :: (inner ++ other)) hasDot =
              Lexer.numberSpan.more ch (Lexer.numberSpan (inner ++ other) flag)) →
          ∃ rest, ch :: text = span ++ rest ∧ EndsNumber rest ∧
            ∀ other, EndsNumber other →
              Lexer.numberSpan (span ++ other) hasDot = .ok (span, dotted) := by
        intro flag taken again
        cases found : Lexer.numberSpan text flag with
        | error _ => simp [found, Lexer.numberSpan.more] at taken
        | ok result =>
            obtain ⟨inner, inDot⟩ := result
            rw [found] at taken
            obtain ⟨rfl, rfl⟩ := Prod.mk.inj (Except.ok.inj taken)
            obtain ⟨rest, rfl, ends, closed⟩ := ih found
            refine ⟨rest, rfl, ends, fun other otherEnds => ?_⟩
            rw [List.cons_append, again other inner found, closed other otherEnds]
            rfl
      rw [Lexer.numberSpan] at reads
      split at reads
      · rename_i digit
        refine step hasDot reads fun other inner _ => ?_
        rw [Lexer.numberSpan, if_pos digit]
      rename_i digit
      split at reads
      · rename_i point
        split at reads
        · cases reads
        rename_i undotted
        refine step true reads fun other inner found => ?_
        have next : (inner ++ other).head?.any Char.isDigit = true := by
          have head := head?_numberSpan point.2 found
          obtain ⟨digit, text, rfl⟩ : ∃ digit rest, text = digit :: rest := by
            cases text with
            | nil => simp at point
            | cons digit rest => exact ⟨digit, rest, rfl⟩
          obtain ⟨rest, rfl⟩ := List.head?_eq_some_iff.mp head
          exact point.2
        rw [Lexer.numberSpan, if_neg digit, if_pos ⟨point.1, next⟩, if_neg undotted]
      · rename_i point
        obtain ⟨rfl, rfl⟩ := Prod.mk.inj (Except.ok.inj reads)
        refine ⟨ch :: text, rfl, ⟨by simpa using digit, fun dot => ?_⟩,
          fun other ends => numberSpan_stops ends hasDot⟩
        simpa [Option.some.inj dot] using point

theorem numberSpan_digits {text span : List Char} {hasDot dotted : Bool}
    (reads : Lexer.numberSpan text hasDot = .ok (span, dotted)) :
    (∀ ch ∈ span, ch.isDigit = true ∨ ch = '.') ∧ ∀ ch ∈ span.getLast?, ch.isDigit = true := by
  induction text generalizing hasDot span with
  | nil =>
      obtain ⟨rfl, rfl⟩ := Prod.mk.inj (Except.ok.inj reads)
      simp
  | cons ch text ih =>
      have step : ∀ flag, Lexer.numberSpan.more ch (Lexer.numberSpan text flag) =
            .ok (span, dotted) →
          (ch.isDigit = true ∨ ch = '.' ∧ text.head?.any Char.isDigit = true) →
          (∀ ch ∈ span, ch.isDigit = true ∨ ch = '.') ∧
            ∀ ch ∈ span.getLast?, ch.isDigit = true := by
        intro flag taken kind
        cases found : Lexer.numberSpan text flag with
        | error _ => simp [found, Lexer.numberSpan.more] at taken
        | ok result =>
            obtain ⟨inner, inDot⟩ := result
            rw [found] at taken
            obtain ⟨rfl, rfl⟩ := Prod.mk.inj (Except.ok.inj taken)
            obtain ⟨inside, ends⟩ := ih found
            refine ⟨fun other member => ?_, fun other last => ?_⟩
            · rcases List.mem_cons.mp member with rfl | member
              · exact kind.imp_right And.left
              · exact inside other member
            · cases inner with
              | cons next inner => exact ends other (by simpa using last)
              | nil =>
                  obtain rfl : ch = other := by simpa using last
                  refine kind.resolve_right fun point => ?_
                  have head := head?_numberSpan point.2 found
                  rw [← head] at point
                  simp at point
      rw [Lexer.numberSpan] at reads
      split at reads
      · rename_i digit
        exact step hasDot reads (.inl digit)
      split at reads
      · rename_i point
        split at reads
        · cases reads
        · exact step true reads (.inr point)
      · obtain ⟨rfl, rfl⟩ := Prod.mk.inj (Except.ok.inj reads)
        simp

/-- An operator only looks for `>` and `=` after its first character. -/
theorem operatorAt_congr {ch : Char} {rest other : List Char}
    (second : ∀ mark, mark = '>' ∨ mark = '=' → (rest.head? = some mark ↔ other.head? = some mark))
    (third : rest.head? = some '>' →
      ((rest.drop 1).head? = some '>' ↔ (other.drop 1).head? = some '>')) :
    Lexer.operatorAt (ch :: rest) = Lexer.operatorAt (ch :: other) := by
  have angle := second '>' (.inl rfl)
  have equals := second '=' (.inr rfl)
  have broadcast : rest.head? = some '>' ∧ (rest.drop 1).head? = some '>' ↔
      other.head? = some '>' ∧ (other.drop 1).head? = some '>' := by
    rw [← angle]
    exact and_congr_right third
  simp only [Lexer.operatorAt, broadcast]
  simp only [angle, equals]

theorem operatorAt_append_drop {text : List Char} {kind : TokenKind} {lexeme : String}
    (reads : Lexer.operatorAt text = some (kind, lexeme)) :
    lexeme.toList ++ text.drop lexeme.length = text ∧ lexeme.toList ≠ [] := by
  cases text with
  | nil => cases reads
  | cons ch rest =>
      simp only [Lexer.operatorAt] at reads
      split at reads
      all_goals repeat' split at reads
      all_goals try cases reads
      all_goals try exact ⟨rfl, by decide⟩
      -- What is left are the operators of two or three characters.
      all_goals
        rename_i found
        try obtain ⟨head, next⟩ := found
        obtain ⟨rest, rfl⟩ := List.head?_eq_some_iff.mp ‹rest.head? = _›
        first
          | exact ⟨rfl, by decide⟩
          | obtain ⟨rest, rfl⟩ := List.head?_eq_some_iff.mp next
            exact ⟨rfl, by decide⟩

theorem operatorAt_self {text : List Char} {kind : TokenKind} {lexeme : String}
    (reads : Lexer.operatorAt text = some (kind, lexeme)) :
    Lexer.operatorAt lexeme.toList = some (kind, lexeme) := by
  cases text with
  | nil => cases reads
  | cons ch rest =>
      simp only [Lexer.operatorAt] at reads
      split at reads
      all_goals repeat' split at reads
      all_goals cases reads
      all_goals decide

/-! ## Where a lexeme ends -/

/-- A lexeme spelled `used` ends before `rest`. -/
def Cuts (used rest : List Char) : Prop :=
  match used with
  | [] => False
  | ch :: _ =>
      if ch = '#' then ∀ next ∈ rest.head?, next = '\n'
      else if ch = '"' then True
      else if ch.isDigit then EndsNumber rest
      else if Lexer.isWordStart ch then ∀ next ∈ rest.head?, Lexer.isWordChar next = false
      else Lexer.operatorAt (used ++ rest) = Lexer.operatorAt used

theorem isWordChar_of_isWordStart {ch : Char} (start : Lexer.isWordStart ch = true) :
    Lexer.isWordChar ch = true := by
  have letter : ch.isAlpha = true ∨ ch = '_' := by simpa [Lexer.isWordStart] using start
  rcases letter with letter | rfl
  · simp [Lexer.isWordChar, Char.isAlphanum, letter]
  · rfl

theorem span_of_dropWhile_eq_nil {p : Char → Bool} {text : List Char}
    (inside : text.dropWhile p = []) {rest : List Char} (stops : ∀ ch ∈ rest.head?, p ch = false) :
    (text ++ rest).takeWhile p = text ∧ (text ++ rest).dropWhile p = rest ∧
      text.takeWhile p = text := by
  have all := List.dropWhile_eq_nil_iff.mp inside
  rw [List.takeWhile_append_of_pos all, List.dropWhile_append_of_pos all]
  have none : rest.takeWhile p = [] ∧ rest.dropWhile p = rest := by
    cases rest with
    | nil => exact ⟨rfl, rfl⟩
    | cons ch rest => simp [stops ch rfl]
  exact ⟨by rw [none.1, List.append_nil], none.2, List.takeWhile_eq_self_iff.mpr all⟩

/-- The characters of a lexeme read as that lexeme wherever they are cut. -/
theorem lexemeAt_append_of_cuts {used rest : List Char} {lexeme : Lexeme}
    (alone : lexemeAt used = some (lexeme, [])) (cuts : Cuts used rest) :
    lexemeAt (used ++ rest) = some (lexeme, rest) := by
  cases used with
  | nil => cases alone
  | cons ch text =>
      rw [List.cons_append]
      unfold lexemeAt at alone ⊢
      simp only [Cuts] at alone cuts ⊢
      rw [← List.cons_append]
      split at alone
      · rename_i hash
        rw [if_pos hash] at cuts ⊢
        obtain ⟨rfl, nothing⟩ := Prod.mk.inj (Option.some.inj alone)
        have stops : ∀ next ∈ rest.head?, decide (next ≠ '\n') = false := by
          intro next head
          simp [cuts next head]
        obtain ⟨taken, dropped, own⟩ := span_of_dropWhile_eq_nil nothing stops
        rw [taken, dropped, own]
      rename_i hash
      rw [if_neg hash] at cuts ⊢
      split at alone
      · rename_i quote
        rw [if_pos quote]
        rw [Option.map_eq_some_iff] at alone
        obtain ⟨⟨value, after⟩, reads, same⟩ := alone
        obtain ⟨rfl, rfl⟩ := Prod.mk.inj same
        obtain ⟨used, rfl, closed⟩ := stringBody_cuts reads
        rw [List.append_nil, closed]
        rfl
      rename_i quote
      rw [if_neg quote] at cuts ⊢
      split at alone
      · rename_i digit
        rw [if_pos digit] at cuts ⊢
        split at alone
        · cases alone
        rename_i span dotted reads
        rw [Option.map_eq_some_iff] at alone
        obtain ⟨kind, known, same⟩ := alone
        obtain ⟨rfl, nothing⟩ := Prod.mk.inj same
        obtain ⟨after, whole, -, closed⟩ := numberSpan_cuts reads
        obtain rfl : after = [] := by rwa [whole, List.drop_left] at nothing
        rw [whole, List.append_nil, closed rest cuts]
        simp only [known, Option.map_some, List.drop_left]
      rename_i digit
      rw [if_neg digit] at cuts ⊢
      split at alone
      · rename_i word
        rw [if_pos word] at cuts ⊢
        obtain ⟨rfl, nothing⟩ := Prod.mk.inj (Option.some.inj alone)
        obtain ⟨taken, dropped, own⟩ := span_of_dropWhile_eq_nil nothing cuts
        rw [taken, dropped, own]
      · rename_i word
        rw [if_neg word] at cuts ⊢
        rw [Option.map_eq_some_iff] at alone
        obtain ⟨⟨kind, spelling⟩, reads, same⟩ := alone
        obtain ⟨rfl, nothing⟩ := Prod.mk.inj same
        obtain ⟨whole, -⟩ := operatorAt_append_drop reads
        rw [cuts, reads, Option.map_some]
        rw [nothing, List.append_nil, ← String.length_toList] at *
        simp [← whole]

theorem takeWhile_dropWhile_cuts {p : Char → Bool} (text : List Char) :
    (text.takeWhile p).takeWhile p = text.takeWhile p ∧ (text.takeWhile p).dropWhile p = [] ∧
      ∀ ch ∈ (text.dropWhile p).head?, p ch = false := by
  have inside : ∀ ch ∈ text.takeWhile p, p ch = true := fun ch => List.mem_takeWhile_imp
  refine ⟨List.takeWhile_eq_self_iff.mpr inside, List.dropWhile_eq_nil_iff.mpr inside, ?_⟩
  intro ch found
  have stops := List.head?_dropWhile_not p text
  rw [Option.mem_def.mp found] at stops
  exact stops

theorem lexemeAt_cuts {text rest : List Char} {lexeme : Lexeme}
    (found : lexemeAt text = some (lexeme, rest)) :
    ∃ used, text = used ++ rest ∧ lexemeAt used = some (lexeme, []) ∧ Cuts used rest := by
  cases text with
  | nil => cases found
  | cons ch text =>
      unfold lexemeAt at found
      simp only at found
      split at found
      · rename_i hash
        obtain ⟨rfl, rfl⟩ := Prod.mk.inj (Option.some.inj found)
        subst hash
        obtain ⟨again, nothing, stops⟩ :=
          takeWhile_dropWhile_cuts (p := (· ≠ '\n')) ('#' :: text)
        have starts : ('#' :: text).takeWhile (· ≠ '\n') = '#' :: text.takeWhile (· ≠ '\n') := rfl
        refine ⟨_, List.takeWhile_append_dropWhile.symm, ?_, ?_⟩
        · rw [starts] at again nothing ⊢
          rw [lexemeAt, if_pos rfl, again, nothing]
        · rw [starts, Cuts, if_pos rfl]
          exact fun next head => by simpa using stops next head
      rename_i hash
      split at found
      · rename_i quote
        rw [Option.map_eq_some_iff] at found
        obtain ⟨⟨value, after⟩, reads, same⟩ := found
        obtain ⟨rfl, rfl⟩ := Prod.mk.inj same
        obtain ⟨used, rfl, closed⟩ := stringBody_cuts reads
        refine ⟨ch :: used, rfl, ?_, by simp [Cuts, quote]⟩
        have alone := closed []
        rw [List.append_nil] at alone
        rw [lexemeAt, if_neg hash, if_pos quote, alone]
        rfl
      rename_i quote
      split at found
      · rename_i digit
        split at found
        · cases found
        rename_i span dotted reads
        rw [Option.map_eq_some_iff] at found
        obtain ⟨kind, known, same⟩ := found
        obtain ⟨rfl, rfl⟩ := Prod.mk.inj same
        have head := head?_numberSpan (by simpa using digit) reads
        obtain ⟨after, whole, ends, closed⟩ := numberSpan_cuts reads
        obtain ⟨more, rfl⟩ := List.head?_eq_some_iff.mp head
        refine ⟨_, by rw [whole, List.drop_left], ?_, ?_⟩
        · have alone := closed [] (by simp [EndsNumber])
          rw [List.append_nil] at alone
          simp [lexemeAt, hash, quote, digit, alone, known]
        · rw [whole, List.drop_left]
          simpa [Cuts, hash, quote, digit] using ends
      rename_i digit
      split at found
      · rename_i word
        obtain ⟨rfl, rfl⟩ := Prod.mk.inj (Option.some.inj found)
        obtain ⟨again, nothing, stops⟩ := takeWhile_dropWhile_cuts (p := Lexer.isWordChar) (ch :: text)
        have starts : (ch :: text).takeWhile Lexer.isWordChar =
            ch :: text.takeWhile Lexer.isWordChar :=
          List.takeWhile_cons_of_pos (isWordChar_of_isWordStart word)
        refine ⟨_, List.takeWhile_append_dropWhile.symm, ?_, ?_⟩
        · rw [starts] at again nothing ⊢
          rw [lexemeAt, if_neg hash, if_neg quote, if_neg digit, if_pos word, again, nothing]
        · rw [starts, Cuts, if_neg hash, if_neg quote, if_neg digit, if_pos word]
          exact stops
      · rename_i word
        rw [Option.map_eq_some_iff] at found
        obtain ⟨⟨kind, spelling⟩, reads, same⟩ := found
        obtain ⟨rfl, rfl⟩ := Prod.mk.inj same
        obtain ⟨whole, nonempty⟩ := operatorAt_append_drop reads
        have alone := operatorAt_self reads
        obtain ⟨start, more, spelled⟩ := List.exists_cons_of_ne_nil nonempty
        obtain rfl : start = ch := by
          rw [spelled] at whole
          exact (List.cons.inj whole).1
        refine ⟨spelling.toList, whole.symm, ?_, ?_⟩
        · rw [spelled] at alone ⊢
          simp only [lexemeAt, if_neg hash, if_neg quote, if_neg digit, if_neg word, alone,
            Option.map_some]
          rw [← String.length_toList, spelled, List.drop_length]
        · rw [spelled, Cuts, if_neg hash, if_neg quote, if_neg digit, if_neg word, ← spelled, whole,
            reads, alone]

theorem lexemeAt_ne_nil {text rest : List Char} {lexeme : Lexeme}
    (found : lexemeAt text = some (lexeme, rest)) : text ≠ [] := by
  rintro rfl
  cases found

theorem lexemeAt_length {text rest : List Char} {lexeme : Lexeme}
    (found : lexemeAt text = some (lexeme, rest)) : rest.length < text.length := by
  obtain ⟨used, rfl, alone, -⟩ := lexemeAt_cuts found
  have positive := List.length_pos_iff.mpr (lexemeAt_ne_nil alone)
  rw [List.length_append]
  omega

/-- Numbers and identifiers are spelled as they are written. -/
theorem lexemeAt_word {ch : Char} {text : List Char} {lexeme : Lexeme}
    (alone : lexemeAt (ch :: text) = some (lexeme, []))
    (letter : ch.isDigit = true ∨ Lexer.isWordStart ch = true) :
    (∃ kind, lexeme = .token kind (String.ofList (ch :: text))) ∧
      (ch.isDigit = true → (∀ other ∈ ch :: text, other.isDigit = true ∨ other = '.') ∧
        ((ch :: text).getLast (by simp)).isDigit = true) ∧
      (ch.isDigit = false → ∀ other ∈ ch :: text, Lexer.isWordChar other = true) := by
  have plain : ch ≠ '#' ∧ ch ≠ '"' := by
    constructor <;> rintro rfl <;> exact absurd letter (by decide)
  rw [lexemeAt, if_neg plain.1, if_neg plain.2] at alone
  by_cases digit : ch.isDigit = true
  · rw [if_pos digit] at alone
    cases reads : Lexer.numberSpan (ch :: text) false with
    | error _ => simp [reads] at alone
    | ok result =>
        obtain ⟨span, dotted⟩ := result
        rw [reads] at alone
        obtain ⟨kind, -, same⟩ := Option.map_eq_some_iff.mp alone
        obtain ⟨rfl, nothing⟩ := Prod.mk.inj same
        obtain ⟨rest, whole, -⟩ := numberSpan_cuts reads
        obtain rfl : rest = [] := by rwa [whole, List.drop_left] at nothing
        rw [List.append_nil] at whole
        obtain ⟨inside, ends⟩ := numberSpan_digits reads
        rw [← whole] at inside ends
        refine ⟨⟨kind, by rw [whole]⟩, fun _ => ⟨inside, ends _ ?_⟩, by simp [digit]⟩
        exact List.getLast?_eq_some_getLast (by simp)
  · rw [if_neg digit, if_pos (letter.resolve_left digit)] at alone
    obtain ⟨rfl, nothing⟩ := Prod.mk.inj (Option.some.inj alone)
    have inside := List.dropWhile_eq_nil_iff.mp nothing
    rw [List.takeWhile_eq_self_iff.mpr inside]
    exact ⟨⟨_, rfl⟩, fun same => absurd same digit, fun _ => inside⟩

/-! ## What follows a line does not matter

A text that ends, or goes on with a line break, cuts every lexeme. -/

def Breaks (tail : List Char) : Prop :=
  ∀ ch ∈ tail.head?, ch = '\n'

/-- A text that ends, or goes on with whitespace, cuts every token. -/
def Loose (tail : List Char) : Prop :=
  ∀ ch ∈ tail.head?, Text.isWhitespace ch = true

theorem Breaks.loose {tail : List Char} (breaks : Breaks tail) : Loose tail := by
  intro ch head
  rw [breaks ch head]
  decide

theorem operatorAt_append {tail : List Char} (loose : Loose tail) {text : List Char}
    (nonempty : text ≠ []) : Lexer.operatorAt (text ++ tail) = Lexer.operatorAt text := by
  obtain ⟨ch, rest, rfl⟩ := List.exists_cons_of_ne_nil nonempty
  have heads : ∀ (text : List Char) (mark : Char), mark = '>' ∨ mark = '=' →
      ((text ++ tail).head? = some mark ↔ text.head? = some mark) := by
    intro text mark marks
    cases text with
    | nil =>
        have apart : tail.head? ≠ some mark := by
          intro head
          have white := loose mark head
          rcases marks with rfl | rfl <;> exact absurd white (by decide)
        simpa using apart
    | cons next text => simp
  refine operatorAt_congr (heads rest) fun first => ?_
  cases rest with
  | nil => exact absurd ((heads [] '>' (.inl rfl)).mp first) (by simp)
  | cons next rest => exact heads rest '>' (.inl rfl)

theorem not_isDigit_of_isWhitespace {ch : Char} (white : Text.isWhitespace ch = true) :
    ch.isDigit = false ∧ Lexer.isWordChar ch = false ∧ ch ≠ '.' := by
  have differs : ∀ other : Char, Text.isWhitespace other = false → ch ≠ other := by
    rintro other plain rfl
    rw [white] at plain
    cases plain
  have code : (0x9 ≤ ch.toNat ∧ ch.toNat ≤ 0xD) ∨ ch.toNat = 0x20 ∨ 0x85 ≤ ch.toNat := by
    simp only [Text.isWhitespace, decide_eq_true_eq] at white
    omega
  have letter : ch.isAlphanum = false := by
    by_contra known
    simp [Char.isAlphanum, Char.isAlpha, Char.isUpper, Char.isLower, Char.isDigit,
      UInt32.le_iff_toNat_le] at known
    omega
  have digit : ch.isDigit = false := by
    simp only [Char.isAlphanum, Bool.or_eq_false_iff] at letter
    exact letter.2
  have word : Lexer.isWordChar ch = false := by
    simp [Lexer.isWordChar, letter, differs '_' (by decide), differs '?' (by decide)]
  exact ⟨digit, word, differs '.' (by decide)⟩

theorem any_isDigit_append {tail : List Char} (loose : Loose tail) (text : List Char) :
    (text ++ tail).head?.any Char.isDigit = text.head?.any Char.isDigit := by
  cases text with
  | cons ch text => rfl
  | nil =>
      cases tail with
      | nil => rfl
      | cons ch tail => exact (not_isDigit_of_isWhitespace (loose ch rfl)).1

theorem endsNumber_append {tail : List Char} (loose : Loose tail) (rest : List Char) :
    EndsNumber (rest ++ tail) ↔ EndsNumber rest := by
  cases rest with
  | nil =>
      refine ⟨fun _ => by simp [EndsNumber], fun _ => ⟨?_, fun dot => ?_⟩⟩
      · rw [any_isDigit_append loose]
        rfl
      · exact absurd rfl (not_isDigit_of_isWhitespace (loose '.' dot)).2.2
  | cons ch rest =>
      have next := any_isDigit_append loose rest
      simp only [EndsNumber, List.cons_append, List.head?_cons, List.drop_one, List.tail_cons, next]

/-- Whitespace ends every lexeme but a comment. -/
theorem Cuts.append_loose {used rest tail : List Char} (cuts : Cuts used rest)
    (token : used.head? ≠ some '#') (loose : Loose tail) : Cuts used (rest ++ tail) := by
  have words : (∀ ch ∈ rest.head?, Lexer.isWordChar ch = false) →
      ∀ ch ∈ (rest ++ tail).head?, Lexer.isWordChar ch = false := by
    intro all ch head
    cases rest with
    | nil => exact (not_isDigit_of_isWhitespace (loose ch head)).2.1
    | cons first rest => exact all ch head
  unfold Cuts at cuts ⊢
  split at cuts
  · exact cuts
  rename_i ch more
  have hash : ch ≠ '#' := by
    rintro rfl
    exact token rfl
  rw [if_neg hash] at cuts ⊢
  repeat' split at cuts
  · simp_all
  · simp only [*, if_true, if_false]
    exact (endsNumber_append loose rest).mpr cuts
  · simp only [*, if_true, if_false]
    exact words cuts
  · rename_i quote digit word
    rw [if_neg quote, if_neg digit, if_neg word, ← List.append_assoc,
      operatorAt_append loose (by simp), cuts]

theorem Cuts.append {used rest tail : List Char} (cuts : Cuts used rest) (breaks : Breaks tail) :
    Cuts used (rest ++ tail) := by
  by_cases hash : used.head? = some '#'
  · obtain ⟨more, rfl⟩ := List.head?_eq_some_iff.mp hash
    intro ch head
    cases rest with
    | nil => exact breaks ch head
    | cons first rest => exact cuts ch head
  · exact cuts.append_loose hash breaks.loose

theorem Cuts.of_append {used rest tail : List Char} (cuts : Cuts used (rest ++ tail))
    (loose : Loose tail) : Cuts used rest := by
  have heads : ∀ p : Char → Prop, (∀ ch ∈ (rest ++ tail).head?, p ch) →
      ∀ ch ∈ rest.head?, p ch := by
    intro p all ch head
    cases rest with
    | nil => simp at head
    | cons first rest => exact all ch head
  unfold Cuts at cuts ⊢
  split at cuts
  · exact cuts
  rename_i ch more
  repeat' split at cuts
  · rename_i hash
    rw [if_pos hash]
    exact heads _ cuts
  · simp_all
  · simp only [*, if_true, if_false]
    exact (endsNumber_append loose rest).mp cuts
  · simp only [*, if_true, if_false]
    exact heads (Lexer.isWordChar · = false) cuts
  · rename_i hash quote digit word
    rw [← List.append_assoc, operatorAt_append loose (by simp)] at cuts
    rw [if_neg hash, if_neg quote, if_neg digit, if_neg word, cuts]

theorem lexemeAt_append {text rest : List Char} {lexeme : Lexeme}
    (found : lexemeAt text = some (lexeme, rest)) {tail : List Char} (breaks : Breaks tail) :
    lexemeAt (text ++ tail) = some (lexeme, rest ++ tail) := by
  obtain ⟨used, rfl, alone, cuts⟩ := lexemeAt_cuts found
  rw [List.append_assoc]
  exact lexemeAt_append_of_cuts alone (cuts.append breaks)

theorem lexemeAt_append_loose {text rest : List Char} {kind : TokenKind} {lexeme : String}
    (found : lexemeAt text = some (.token kind lexeme, rest)) {tail : List Char}
    (loose : Loose tail) : lexemeAt (text ++ tail) = some (.token kind lexeme, rest ++ tail) := by
  obtain ⟨used, rfl, alone, cuts⟩ := lexemeAt_cuts found
  have token : used.head? ≠ some '#' := by
    intro hash
    obtain ⟨more, rfl⟩ := List.head?_eq_some_iff.mp hash
    cases (Prod.mk.inj (Option.some.inj alone)).1
  rw [List.append_assoc]
  exact lexemeAt_append_of_cuts alone (cuts.append_loose token loose)

end Marreta
