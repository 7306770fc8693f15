import Marreta.Foundation.Binary64Products
import Marreta.Syntax.BlankLines

namespace Marreta

open Foundation

/-! Tokens and how they are spelled.

Every token of a source is as its kind says: identifiers are words and numbers have no sign.
In turn, words, texts and numbers have a spelling, and a line of spelled tokens reads as them. -/

/-- A letter or `_`, and word characters after it. -/
def isName (word : String) : Bool :=
  word.toList.head?.any Lexer.isWordStart && word.toList.all Lexer.isWordChar

def TokenKind.Spellable : TokenKind → Prop
  | .identifier word => isName word
  | .integer value => 0 ≤ value.toInt
  | .float value => value.isNegative = false
  | _ => True

/-! ## Kinds that are read -/

theorem isName_of_keywordLookup {word : String} {kind : TokenKind}
    (found : keywordLookup word = some kind) : isName word := by
  unfold keywordLookup at found
  split at found
  all_goals cases found
  all_goals decide

theorem spellable_operatorAt {text : List Char} {kind : TokenKind} {lexeme : String}
    (reads : Lexer.operatorAt text = some (kind, lexeme)) : kind.Spellable := by
  cases text with
  | nil => cases reads
  | cons ch rest =>
      simp only [Lexer.operatorAt] at reads
      split at reads
      all_goals repeat' split at reads
      all_goals cases reads
      all_goals trivial

theorem spellable_numberKind {text : List Char} {hasDot : Bool} {kind : TokenKind}
    (reads : Lexer.numberKind text hasDot = some kind) : kind.Spellable := by
  rw [Lexer.numberKind] at reads
  split at reads
  · obtain rfl := Option.some.inj reads
    exact Binary64.isNegative_ofRatio _ (Nat.pow_pos (by omega))
  · rw [Option.ite_none_right_eq_some, Option.some.injEq] at reads
    obtain ⟨small, rfl⟩ := reads
    rw [TokenKind.Spellable, Int64.toInt_ofNat_of_lt small]
    omega

theorem spellable_wordKind {word : String} (name : isName word) :
    (Lexer.wordKind word).Spellable := by
  rw [Lexer.wordKind]
  cases found : keywordLookup word with
  | none => exact name
  | some kind =>
      unfold keywordLookup at found
      split at found
      all_goals cases found
      all_goals trivial

theorem spellable_lexemeAt {text rest : List Char} {kind : TokenKind} {lexeme : String}
    (found : lexemeAt text = some (.token kind lexeme, rest)) : kind.Spellable := by
  cases text with
  | nil => cases found
  | cons ch text =>
      simp only [lexemeAt] at found
      split at found
      · cases found
      split at found
      · obtain ⟨read, -, same⟩ := Option.map_eq_some_iff.mp found
        obtain ⟨rfl, -⟩ := Lexeme.token.inj (Prod.mk.inj same).1
        trivial
      split at found
      · split at found
        · cases found
        · obtain ⟨read, reads, same⟩ := Option.map_eq_some_iff.mp found
          obtain ⟨rfl, -⟩ := Lexeme.token.inj (Prod.mk.inj same).1
          exact spellable_numberKind reads
      split at found
      · rename_i start
        obtain ⟨rfl, -⟩ := Lexeme.token.inj (Prod.mk.inj (Option.some.inj found)).1
        apply spellable_wordKind
        simp [isName, isWordChar_of_isWordStart start, start]
      · obtain ⟨read, reads, same⟩ := Option.map_eq_some_iff.mp found
        obtain ⟨rfl, -⟩ := Lexeme.token.inj (Prod.mk.inj same).1
        exact spellable_operatorAt reads

namespace Scan

theorem spellable_popIndents {spaces : Nat} {stack : List Nat} {items : List Item}
    (each : ∀ kind ∈ items.filterMap Item.kind?, kind.Spellable) :
    ∀ kind ∈ (popIndents spaces stack items).2.filterMap Item.kind?, kind.Spellable := by
  induction stack generalizing items with
  | nil => exact each
  | cons top stack ih =>
      cases stack with
      | nil => exact each
      | cons below stack =>
          rw [popIndents]
          split
          · apply ih
            intro kind member
            rcases List.mem_cons.mp member with rfl | older
            · trivial
            · exact each kind older
          · exact each

theorem spellable_indentAt {scan next : Scan} {text : List Char}
    (indents : scan.indentAt text = some next) (each : ∀ kind ∈ scan.kinds, kind.Spellable) :
    ∀ kind ∈ next.kinds, kind.Spellable := by
  rw [indentAt] at indents
  split at indents
  · obtain rfl := Option.some.inj indents
    exact each
  rw [indentTo] at indents
  split at indents
  · obtain rfl := Option.some.inj indents
    intro kind member
    rcases List.mem_cons.mp member with rfl | older
    · trivial
    · exact each kind older
  split at indents
  · simp only at indents
    split at indents
    · obtain rfl := Option.some.inj indents
      exact spellable_popIndents each
    · cases indents
  · obtain rfl := Option.some.inj indents
    exact each

theorem spellable_breakLine {scan : Scan} (each : ∀ kind ∈ scan.kinds, kind.Spellable) :
    ∀ kind ∈ scan.breakLine.kinds, kind.Spellable := by
  rw [breakLine]
  split
  · exact each
  split
  · exact each
  · intro kind member
    rcases List.mem_cons.mp member with rfl | older
    · trivial
    · exact each kind older

theorem sublist_withoutNewline (kinds : List TokenKind) :
    (withoutNewline kinds).Sublist kinds := by
  induction kinds with
  | nil => exact .slnil
  | cons kind kinds ih =>
      rw [withoutNewline.eq_def]
      simp only
      split
      · exact ih.cons_cons _
      · exact ih.cons_cons _
      · exact List.sublist_cons_self _ _
      · exact .refl _

theorem spellable_read {scan : Scan} {text rest : List Char} {lexeme : Lexeme}
    (found : lexemeAt text = some (lexeme, rest)) (each : ∀ kind ∈ scan.kinds, kind.Spellable) :
    ∀ kind ∈ (scan.read lexeme).kinds, kind.Spellable := by
  cases lexeme with
  | comment => exact each
  | token kind spelling =>
      rw [kinds_read_token]
      intro other member
      rcases List.mem_cons.mp member with rfl | older
      · exact spellable_lexemeAt found
      · split at older
        · exact each other ((sublist_withoutNewline _).subset older)
        · exact each other older

end Scan

theorem Runs.spellable {text : List Char} {start : Bool} {scan final : Scan}
    (runs : Runs text start scan final) (each : ∀ kind ∈ scan.kinds, kind.Spellable) :
    ∀ kind ∈ final.kinds, kind.Spellable := by
  induction runs with
  | ends => exact each
  | skip _ _ ih => exact ih each
  | newline _ ih => exact ih (Scan.spellable_breakLine each)
  | lexeme _ found _ ih => exact ih (Scan.spellable_read found each)
  | indent _ indents _ ih => exact ih (Scan.spellable_indentAt indents each)

/-- Every token of a source is as its kind says. -/
theorem spellable_of_tokenize {source : List Char} {tokens : List Token}
    (reads : tokenize source = .ok tokens) : ∀ token ∈ tokens, token.kind.Spellable := by
  have kinds : tokenKinds? source = some (tokens.map (·.kind)) := by
    rw [tokenKinds?, reads]
    rfl
  obtain ⟨final, runs, finished⟩ := tokenKinds?_eq_some_iff.mp kinds
  intro token member
  have read : token.kind ∈ final.finishedKinds := by
    rw [finished]
    exact List.mem_map_of_mem member
  have each : ∀ kind ∈ final.kinds, kind.Spellable := by
    apply runs.spellable
    intro kind none
    cases none
  simp only [Scan.finishedKinds, LaidOut.finished, List.mem_append, List.mem_reverse,
    List.mem_replicate, List.mem_singleton] at read
  rcases read with (known | ⟨-, same⟩) | same
  · exact each _ known
  · rw [same]
    trivial
  · rw [same]
    trivial

/-! ## Lines of spelled tokens -/

/-- A token without its position. -/
def Token.word (token : Token) : TokenKind × String :=
  (token.kind, token.lexeme)

def wordLexeme (word : TokenKind × String) : Lexeme :=
  .token word.1 word.2

/-- The words that a line reads as, none of which takes a line break away. -/
structure Spelled (words : List (TokenKind × String)) : Prop where
  line : ∃ text : List Char, '\n' ∉ text ∧ '\r' ∉ text ∧ Lexes text (words.map wordLexeme)
  plain : ∀ word ∈ words, word.1 ≠ .pipeline

theorem Lexes.append {line other : List Char} {words : List (TokenKind × String)}
    {lexemes : List Lexeme} (lexes : Lexes line (words.map wordLexeme))
    (after : Lexes other lexemes) :
    Lexes (line ++ ' ' :: other) (words.map wordLexeme ++ lexemes) := by
  generalize same : words.map wordLexeme = read at lexes
  induction lexes generalizing words with
  | nil => exact .skip rfl after
  | skip skipped _ ih => exact .skip skipped (ih same)
  | @lexeme text rest lexeme read visible found _ ih =>
      obtain ⟨word, words, rfl, rfl, inner⟩ := List.map_eq_cons_iff.mp same
      have loose : Loose (' ' :: other) := by
        intro ch head
        rw [← Option.some.inj head]
        decide
      refine .lexeme ?_ (lexemeAt_append_loose found loose) (ih inner)
      obtain ⟨ch, more, rfl⟩ := List.exists_cons_of_ne_nil (lexemeAt_ne_nil found)
      exact visible

namespace Spelled

variable {words others : List (TokenKind × String)}

theorem append (spelled : Spelled words) (after : Spelled others) : Spelled (words ++ others) := by
  obtain ⟨⟨line, feed, carriage, lexes⟩, plain⟩ := spelled
  obtain ⟨⟨other, otherFeed, otherCarriage, otherLexes⟩, otherPlain⟩ := after
  refine ⟨⟨line ++ ' ' :: other, by simp_all, by simp_all, ?_⟩, ?_⟩
  · rw [List.map_append]
    exact lexes.append otherLexes
  · intro word member
    rcases List.mem_append.mp member with member | member
    · exact plain word member
    · exact otherPlain word member

theorem cons {word : TokenKind × String} (spelled : Spelled [word]) (after : Spelled words) :
    Spelled (word :: words) :=
  spelled.append after

/-- One word, which is spelled as the text. -/
theorem one (text : List Char) {kind : TokenKind} {lexeme : String}
    (found : lexemeAt text = some (.token kind lexeme, []))
    (inside : ∀ ch ∈ text, ch ≠ '\n' ∧ ch ≠ '\r')
    (visible : text.head?.any (!isSkipped ·) = true) (plain : kind ≠ .pipeline) :
    Spelled [(kind, lexeme)] := by
  refine ⟨⟨text, ?_, ?_, .lexeme ?_ found .nil⟩, ?_⟩
  · exact fun feed => (inside _ feed).1 rfl
  · exact fun carriage => (inside _ carriage).2 rfl
  · obtain ⟨ch, more, rfl⟩ := List.exists_cons_of_ne_nil (lexemeAt_ne_nil found)
    simpa [(inside ch List.mem_cons_self).1] using visible
  · intro word member
    obtain rfl := List.mem_singleton.mp member
    exact plain

theorem name {word : String} (isName : isName word) : Spelled [(Lexer.wordKind word, word)] := by
  rw [Marreta.isName, Bool.and_eq_true] at isName
  obtain ⟨start, each⟩ := isName
  obtain ⟨ch, rest, same⟩ : ∃ ch rest, word.toList = ch :: rest := by
    cases same : word.toList with
    | nil => simp [same] at start
    | cons ch rest => exact ⟨ch, rest, rfl⟩
  have letter : Lexer.isWordStart ch = true := by simpa [same] using start
  have chars : ∀ other ∈ word.toList, Lexer.isWordChar other = true := List.all_eq_true.mp each
  have differs : ∀ other, Lexer.isWordChar other = false → ∀ own ∈ word.toList, own ≠ other := by
    rintro other apart own member rfl
    rw [chars own member] at apart
    cases apart
  have first : ch ∈ word.toList := same ▸ List.mem_cons_self
  apply one word.toList
  · have digit : ch.isDigit = false := by
      by_contra digit
      simp [Lexer.isWordStart, Char.isAlpha, Char.isUpper, Char.isLower, Char.isDigit,
        UInt32.le_iff_toNat_le] at letter digit
      rcases letter with letter | rfl
      · omega
      · simp at digit
    have whole : word.toList.takeWhile Lexer.isWordChar = word.toList :=
      List.takeWhile_eq_self_iff.mpr chars
    have nothing : word.toList.dropWhile Lexer.isWordChar = [] :=
      List.dropWhile_eq_nil_iff.mpr chars
    rw [lexemeAt.eq_def]
    simp only [same] at whole nothing ⊢
    rw [if_neg (differs '#' (by decide) ch first), if_neg (differs '"' (by decide) ch first),
      if_neg (by simp [digit]), if_pos letter, whole, nothing, ← same, String.ofList_toList]
  · exact fun own member => ⟨differs _ (by decide) own member, differs _ (by decide) own member⟩
  · simp [same, isSkipped, differs ' ' (by decide) ch first, differs '\t' (by decide) ch first,
      differs '\r' (by decide) ch first]
  · exact (Lexer.wordKind_plain word 0).1

end Spelled

/-! ## Texts and numbers -/

/-- What stands for a character between quotes. -/
def escaped (ch : Char) : List Char :=
  if ch = '"' then ['\\', '"']
  else if ch = '\\' then ['\\', '\\']
  else if ch = '\n' then ['\\', 'n']
  else if ch = '\r' then ['\\', 'r']
  else [ch]

theorem stringBody_escaped (text : List Char) :
    Lexer.stringBody (text.flatMap escaped ++ ['"']) = some (text, []) := by
  induction text with
  | nil => rfl
  | cons ch text ih =>
      rw [List.flatMap_cons, List.append_assoc, escaped]
      split_ifs with quote escape feed carriage
      · simp [Lexer.stringBody, ih, Lexer.unescape, quote]
      · simp [Lexer.stringBody, ih, Lexer.unescape, escape]
      · simp [Lexer.stringBody, ih, Lexer.unescape, feed]
      · simp [Lexer.stringBody, ih, Lexer.unescape, carriage]
      · rw [List.singleton_append, stringBody_plain quote feed escape, ih]
        rfl

theorem mem_escaped {ch other : Char} (member : other ∈ escaped ch) :
    other ≠ '\n' ∧ other ≠ '\r' := by
  rw [escaped] at member
  split_ifs at member with quote escape feed carriage
  all_goals simp only [List.mem_cons, List.not_mem_nil, or_false] at member
  · rcases member with rfl | rfl <;> decide
  · rcases member with rfl | rfl <;> decide
  · rcases member with rfl | rfl <;> decide
  · rcases member with rfl | rfl <;> decide
  · rw [member]
    exact ⟨feed, carriage⟩

theorem Spelled.text (text : String) :
    Spelled [(.stringLiteral text, "\"" ++ text ++ "\"")] := by
  apply Spelled.one ('"' :: (text.toList.flatMap escaped ++ ['"']))
  · simp [lexemeAt, stringBody_escaped]
  · intro ch member
    simp only [List.mem_cons, List.mem_append, List.mem_flatMap, List.not_mem_nil, or_false]
      at member
    rcases member with rfl | ⟨own, -, inside⟩ | rfl
    · decide
    · exact mem_escaped inside
    · decide
  · rfl
  · intro same
    cases same

theorem digitsValue_eq (digits : List Char) :
    Lexer.digitsValue digits = Nat.ofDigitChars 10 digits 0 := by
  rw [Lexer.digitsValue, Nat.ofDigitChars_eq_foldl]
  congr
  funext value digit
  rw [Nat.mul_comm]

theorem numberSpan_append {digits rest span : List Char} {hasDot dotted : Bool}
    (each : ∀ ch ∈ digits, ch.isDigit = true)
    (reads : Lexer.numberSpan rest hasDot = .ok (span, dotted)) :
    Lexer.numberSpan (digits ++ rest) hasDot = .ok (digits ++ span, dotted) := by
  induction digits with
  | nil => exact reads
  | cons ch digits ih =>
      rw [List.cons_append, Lexer.numberSpan, if_pos (each ch List.mem_cons_self),
        ih fun other member => each other (List.mem_cons_of_mem _ member)]
      rfl

theorem Spelled.number (text : List Char) {kind : TokenKind} {hasDot : Bool}
    (first : text.head?.any Char.isDigit = true)
    (each : ∀ ch ∈ text, ch.isDigit = true ∨ ch = '.')
    (reads : Lexer.numberSpan text false = .ok (text, hasDot))
    (known : Lexer.numberKind text hasDot = some kind) :
    Spelled [(kind, String.ofList text)] := by
  obtain ⟨ch, rest, rfl⟩ : ∃ ch rest, text = ch :: rest := by
    cases text with
    | nil => simp at first
    | cons ch rest => exact ⟨ch, rest, rfl⟩
  have digit : ch.isDigit = true := by simpa using first
  have differs : ∀ other, other.isDigit = false → ch ≠ other := by
    rintro other apart rfl
    rw [digit] at apart
    cases apart
  apply Spelled.one (ch :: rest)
  · rw [lexemeAt, if_neg (differs '#' (by decide)), if_neg (differs '"' (by decide)),
      if_pos digit, reads]
    simp [known]
  · intro other member
    rcases each other member with digit | rfl
    · constructor
      · rintro rfl
        exact absurd digit (by decide)
      · rintro rfl
        exact absurd digit (by decide)
    · decide
  · simp [isSkipped, differs ' ' (by decide), differs '\t' (by decide),
      differs '\r' (by decide)]
  · exact (Lexer.numberKind_plain known 0).1

theorem digits_toDigits (number : Nat) : ∀ ch ∈ Nat.toDigits 10 number, ch.isDigit = true :=
  fun _ member => Nat.isDigit_of_mem_toDigits (by decide) (by decide) member

/-- Integers without a sign are spelled with their digits. -/
theorem Spelled.integer {value : Int64} (positive : 0 ≤ value.toInt) :
    ∃ lexeme, Spelled [(.integer value, lexeme)] := by
  have digits := digits_toDigits value.toInt.toNat
  have small : value.toInt.toNat < 2 ^ 63 := by
    have upper := value.toInt_lt
    omega
  refine ⟨_, @Spelled.number (Nat.toDigits 10 value.toInt.toNat) _ false ?_
    (fun ch member => .inl (digits ch member)) ?_ ?_⟩
  · obtain ⟨ch, rest, same⟩ :=
      List.exists_cons_of_ne_nil (@Nat.toDigits_ne_nil value.toInt.toNat 10)
    rw [same] at digits ⊢
    exact digits ch List.mem_cons_self
  · have whole := @numberSpan_append _ [] [] false false digits rfl
    rwa [List.append_nil] at whole
  · have number : Int64.ofNat value.toInt.toNat = value := by
      rw [← Int64.toInt_inj, Int64.toInt_ofNat_of_lt small, Int.toNat_of_nonneg positive]
    rw [Lexer.numberKind, if_neg (by decide), digitsValue_eq, Nat.ofDigitChars_ten_toDigits,
      if_pos small, number]

/-- Digits before a dot and after it. -/
theorem Spelled.decimal {whole fraction : List Char} (left : ∀ ch ∈ whole, ch.isDigit = true)
    (right : ∀ ch ∈ fraction, ch.isDigit = true) (before : whole ≠ []) (after : fraction ≠ []) :
    ∃ lexeme, Spelled [(.float (.ofDecimal (Nat.ofDigitChars 10 (whole ++ fraction) 0)
      fraction.length), lexeme)] := by
  have plain {digits : List Char} (each : ∀ ch ∈ digits, ch.isDigit = true) :
      ∀ ch ∈ digits, decide (ch ≠ '.') = true := by
    intro ch member
    have differs : ch ≠ '.' := by
      rintro rfl
      exact absurd (each _ member) (by decide)
    exact decide_eq_true differs
  obtain ⟨first, more, rfl⟩ := List.exists_cons_of_ne_nil before
  obtain ⟨next, rest, rfl⟩ := List.exists_cons_of_ne_nil after
  refine ⟨_, @Spelled.number (first :: more ++ '.' :: next :: rest) _ true
    (left first List.mem_cons_self) ?_ ?_ ?_⟩
  · intro ch member
    rcases List.mem_append.mp member with member | member
    · exact .inl (left ch member)
    · rcases List.mem_cons.mp member with rfl | member
      · exact .inr rfl
      · exact .inl (right ch member)
  · apply numberSpan_append left
    have span := @numberSpan_append _ [] [] true true right rfl
    rw [List.append_nil] at span
    have digit : next.isDigit = true := right next List.mem_cons_self
    rw [Lexer.numberSpan, if_neg (by decide), if_pos ⟨rfl, by simpa using digit⟩,
      if_neg (by decide), span]
    rfl
  · have stop : ('.' :: next :: rest).dropWhile (fun ch => decide (ch ≠ '.')) =
        '.' :: next :: rest := rfl
    rw [Lexer.numberKind, if_pos rfl, digitsValue_eq, List.dropWhile_append_of_pos (plain left),
      stop, List.filter_append, List.filter_eq_self.mpr (plain left),
      List.filter_cons_of_neg (by decide), List.filter_eq_self.mpr (plain right)]
    rfl

/-- Finite numbers without a sign are spelled with as many digits as they need. -/
theorem Spelled.float {value : Binary64} (finite : value.hasMagnitude)
    (positive : value.isNegative = false) : ∃ lexeme, Spelled [(.float value, lexeme)] := by
  obtain ⟨number, places, some, rfl⟩ := Binary64.exists_decimal finite positive
  let digits := List.replicate (places + 1) '0' ++ Nat.toDigits 10 number
  have each : ∀ ch ∈ digits, ch.isDigit = true := by
    intro ch member
    rcases List.mem_append.mp member with zero | own
    · rw [(List.mem_replicate.mp zero).2]
      decide
    · exact digits_toDigits number ch own
  have value : Nat.ofDigitChars 10 digits 0 = number := by
    rw [Nat.ofDigitChars_append, Nat.ofDigitChars_replicate_zero, Nat.mul_zero,
      Nat.ofDigitChars_ten_toDigits]
  have long : places + 1 ≤ digits.length := by
    rw [List.length_append, List.length_replicate]
    exact Nat.le_add_right _ _
  have spelled := @Spelled.decimal (digits.take (digits.length - places))
    (digits.drop (digits.length - places)) (fun ch member => each ch (List.mem_of_mem_take member))
    (fun ch member => each ch (List.mem_of_mem_drop member))
    (List.ne_nil_of_length_pos (by rw [List.length_take]; omega))
    (List.ne_nil_of_length_pos (by rw [List.length_drop]; omega))
  rwa [List.take_append_drop, value, List.length_drop, Nat.sub_sub_self (by omega)] at spelled

/-! ## Sources of lines -/

theorem Scan.exists_indent (text : List Char) : ∃ next, Scan.start.indent text = some next := by
  rw [Scan.indent]
  split
  · exact ⟨_, rfl⟩
  · rename_i spaces _
    rw [Scan.indentTo]
    by_cases deeper : 0 < spaces
    · exact ⟨_, if_pos deeper⟩
    · exact ⟨Scan.start, by simp [Scan.start, deeper]⟩

theorem Scan.items_foldl_read {words : List (TokenKind × String)}
    (plain : ∀ word ∈ words, word.1 ≠ .pipeline) (scan : Scan) :
    ((words.map wordLexeme).foldl Scan.read scan).items =
      (words.map fun word => .token word.1 word.2).reverse ++ scan.items := by
  induction words generalizing scan with
  | nil => rfl
  | cons word words ih =>
      rw [List.map_cons, List.foldl_cons, ih fun other member =>
        plain other (List.mem_cons_of_mem _ member)]
      simp [Scan.read, wordLexeme, plain word List.mem_cons_self]

theorem Scan.items_breakLine (scan : Scan) :
    scan.breakLine.items = scan.items ∨ scan.breakLine.items = .newline :: scan.items := by
  rw [Scan.breakLine]
  split
  · exact .inl rfl
  split
  · exact .inl rfl
  · exact .inr rfl

/-- A token that ends a line or a source. -/
def Item.Closes (item : Item) : Prop :=
  ∃ kind lexeme, item = .token kind lexeme ∧ (kind.isLayout = true ∨ kind = .eof)

theorem Scan.exists_finish_breakLine (scan : Scan) :
    ∃ item items, scan.breakLine.finish = scan.items.reverse ++ item :: items ∧ item.Closes := by
  have close : ∀ count, ∃ item items, List.replicate count Item.dedent ++ [.token .eof ""] =
      item :: items ∧ item.Closes := by
    intro count
    cases count with
    | zero => exact ⟨_, _, rfl, _, _, rfl, .inr rfl⟩
    | succ count => exact ⟨_, _, rfl, _, _, rfl, .inl rfl⟩
  rcases scan.items_breakLine with same | broken
  · obtain ⟨item, items, rest, closes⟩ := close (scan.breakLine.indentStack.length - 1)
    exact ⟨item, items, by rw [Scan.finish, same, List.append_assoc, rest], closes⟩
  · refine ⟨.newline, List.replicate (scan.breakLine.indentStack.length - 1) .dedent ++
      [.token .eof ""], ?_, _, _, rfl, .inl rfl⟩
    rw [Scan.finish, broken]
    simp

theorem words_of_items {items : List LexItem} {words : List (TokenKind × String)}
    (same : items.map LexItem.item = words.map fun word => .token word.1 word.2) :
    (items.filterMap LexItem.token?).map Token.word = words := by
  induction items generalizing words with
  | nil => exact (List.map_eq_nil_iff.mp same.symm).symm
  | cons item items ih =>
      obtain ⟨word, others, rfl, own, rest⟩ := List.map_eq_cons_iff.mp same.symm
      cases item with
      | comment => cases own
      | token token =>
          obtain ⟨kind, lexeme⟩ := word
          obtain ⟨rfl, rfl⟩ := Item.token.inj own
          change token.word :: (items.filterMap LexItem.token?).map Token.word = _
          rw [ih rest.symm]
          rfl

/-- Spelled words are the tokens of some line, with nothing but layout after them. -/
theorem Spelled.exists_source {words : List (TokenKind × String)} (spelled : Spelled words) :
    ∃ source before tokens token after,
      tokenize source = .ok (before ++ (tokens ++ token :: after)) ∧
        tokens.map Token.word = words ∧ (token.kind.isLayout = true ∨ token.kind = .eof) := by
  obtain ⟨⟨text, feed, carriage, lexes⟩, plain⟩ := spelled
  let line : LexedLine := ⟨text, _, feed, lexes⟩
  obtain ⟨inner, indents⟩ := Scan.exists_indent text
  let read := (words.map wordLexeme).foldl Scan.read inner
  have scanned : Scan.start.run [line] = some read.breakLine := by
    have whole : Scan.start.line text (words.map wordLexeme) = some read := by
      rw [Scan.line, if_pos (show Scan.start.nestingDepth = 0 from rfl), indents]
      rfl
    simp [Scan.run, line, whole]
  have closed : normalizeLineEndings (text ++ ['\n']) = Text.unlines ([line].map (·.text)) := by
    rw [normalizeLineEndings_self (by simp [carriage])]
    simp [Text.unlines, line]
  obtain ⟨items, lexed, same⟩ := lexItems_of_source closed scanned
  obtain ⟨item, closing, finished, kind, lexeme, rfl, ends⟩ := read.exists_finish_breakLine
  rw [finished, Scan.items_foldl_read plain, List.reverse_append, List.reverse_reverse,
    List.append_assoc] at same
  obtain ⟨before, own, rfl, -, same⟩ := List.map_eq_append_iff.mp same
  obtain ⟨written, after, rfl, writes, same⟩ := List.map_eq_append_iff.mp same
  obtain ⟨last, rest, rfl, closes, -⟩ := List.map_eq_cons_iff.mp same
  cases last with
  | comment => cases closes
  | token token =>
      obtain ⟨rfl, rfl⟩ := Item.token.inj closes
      refine ⟨text ++ ['\n'], before.filterMap LexItem.token?, written.filterMap LexItem.token?,
        token, rest.filterMap LexItem.token?, ?_, words_of_items writes, ends⟩
      rw [tokenize, lexed]
      simp [Functor.map, Except.map, LexItem.token?]

end Marreta
