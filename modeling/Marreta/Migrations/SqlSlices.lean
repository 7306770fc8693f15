import Marreta.Foundation.Utf8
import Marreta.Migrations.Sql

namespace Marreta.Migrations

open Foundation.Utf8

/-! Scanning SQL text byte by byte.

The source scans the bytes of a text and slices the text where the scan has stopped.  A
slice that does not end with a character is a panic. -/

/-! ## What is skipped -/

theorem skipSingleQuoted_suffix (text : List Char) : skipSingleQuoted text <:+ text := by
  fun_induction skipSingleQuoted text with
  | case1 rest induction =>
      exact induction.trans ((List.suffix_cons _ _).trans (List.suffix_cons _ _))
  | case2 rest single => exact List.suffix_cons _ _
  | case3 ch rest double quote induction => exact induction.trans (List.suffix_cons _ _)
  | case4 => exact List.suffix_rfl

theorem skipLineComment_suffix (text : List Char) : skipLineComment text <:+ text :=
  List.dropWhile_suffix _

theorem skipBlockComment_suffix (text : List Char) : skipBlockComment text <:+ text := by
  fun_induction skipBlockComment text with
  | case1 rest => exact (List.suffix_cons _ _).trans (List.suffix_cons _ _)
  | case2 ch rest closes induction => exact induction.trans (List.suffix_cons _ _)
  | case3 => exact List.suffix_rfl

theorem splitOnce_suffix {pattern text before after : List Char}
    (split : splitOnce pattern text = some (before, after)) : after <:+ text := by
  induction text generalizing before with
  | nil =>
      rw [splitOnce] at split
      split at split
      · cases split
        exact List.suffix_rfl
      · cases split
  | cons ch rest induction =>
      rw [splitOnce] at split
      split at split
      · cases split
        exact List.drop_suffix _ _
      · obtain ⟨⟨first, last⟩, found, same⟩ := Option.map_eq_some_iff.mp split
        cases same
        exact (induction found).trans (List.suffix_cons _ _)

theorem skipDollarQuoted_suffix (tag text : List Char) : skipDollarQuoted tag text <:+ text := by
  unfold skipDollarQuoted
  split
  · rename_i split
    exact splitOnce_suffix split
  · exact List.nil_suffix

theorem skipLiteral?_suffix {ch : Char} {rest after : List Char}
    (skips : skipLiteral? (ch :: rest) = some after) : after <:+ rest := by
  unfold skipLiteral? at skips
  split at skips
  · rename_i same
    cases same
    cases skips
    exact skipSingleQuoted_suffix rest
  · rename_i same
    cases same
    obtain ⟨name, tag, same⟩ := Option.map_eq_some_iff.mp skips
    subst same
    exact (skipDollarQuoted_suffix _ _).trans (List.drop_suffix _ _)
  · cases skips

theorem skipComment?_suffix {ch : Char} {rest after : List Char}
    (skips : skipComment? (ch :: rest) = some after) : after <:+ rest := by
  unfold skipComment? at skips
  split at skips
  · rename_i same
    cases same
    cases skips
    exact (skipLineComment_suffix _).trans (List.suffix_cons _ _)
  · rename_i same
    cases same
    cases skips
    exact (skipBlockComment_suffix _).trans (List.suffix_cons _ _)
  · cases skips

theorem skipped_append {text after : List Char} (suffix : after <:+ text) :
    skipped text after ++ after = text := by
  obtain ⟨before, rfl⟩ := suffix
  rw [skipped, List.length_append, Nat.add_sub_cancel, List.take_left']
  rfl

theorem skipped_of_append {before after : List Char} :
    skipped (before ++ after) after = before := by
  rw [skipped, List.length_append, Nat.add_sub_cancel, List.take_left']
  rfl

/-! ## Skipping bytes -/

theorem ne_of_not_ascii {ch byte : Char} (ascii : isAscii ch = true)
    (high : isAscii byte = false) : byte ≠ ch := by
  rintro rfl
  rw [ascii] at high
  cases high

theorem skipSingleQuoted_other {ch : Char} (other : ch ≠ '\'') (rest : List Char) :
    skipSingleQuoted (ch :: rest) = skipSingleQuoted rest := by
  rw [skipSingleQuoted]
  · rintro after rfl
    exact absurd rfl other
  · exact other

theorem skipSingleQuoted_bytes (text : List Char) :
    skipSingleQuoted (bytes text) = bytes (skipSingleQuoted text) := by
  fun_induction skipSingleQuoted text with
  | case1 rest induction =>
      rw [bytes_cons_ascii rfl, bytes_cons_ascii rfl, skipSingleQuoted, induction]
  | case2 rest single =>
      rw [bytes_cons_ascii rfl, skipSingleQuoted]
      intro others doubled
      obtain ⟨after, same, -⟩ := bytes_eq_cons rfl doubled
      exact single after same
  | case3 ch rest double quote induction =>
      rw [← induction]
      cases ascii : isAscii ch with
      | true => rw [bytes_cons_ascii ascii, skipSingleQuoted_other quote]
      | false =>
          rw [bytes_cons]
          apply passes_byteChars _ ascii
          intro byte others high
          exact skipSingleQuoted_other (ne_of_not_ascii rfl high) others
  | case4 => rfl

theorem skipLineComment_bytes (text : List Char) :
    skipLineComment (bytes text) = bytes (skipLineComment text) := by
  apply dropWhile_bytes
  intro ch high
  exact decide_eq_true (ne_of_not_ascii rfl high)

theorem skipBlockComment_other {ch : Char} {rest : List Char}
    (other : ch = '*' → rest.head? ≠ some '/') :
    skipBlockComment (ch :: rest) = skipBlockComment rest := by
  rw [skipBlockComment]
  rintro after rfl rfl
  exact other rfl rfl

theorem skipBlockComment_bytes (text : List Char) :
    skipBlockComment (bytes text) = bytes (skipBlockComment text) := by
  fun_induction skipBlockComment text with
  | case1 rest => rw [bytes_cons_ascii rfl, bytes_cons_ascii rfl, skipBlockComment]
  | case2 ch rest closes induction =>
      rw [← induction]
      cases ascii : isAscii ch with
      | true =>
          rw [bytes_cons_ascii ascii, skipBlockComment_other]
          rintro rfl front
          obtain ⟨others, same⟩ := List.head?_eq_some_iff.mp front
          obtain ⟨after, same, -⟩ := bytes_eq_cons rfl same
          exact closes after rfl same
      | false =>
          rw [bytes_cons]
          apply passes_byteChars _ ascii
          intro byte others high
          exact skipBlockComment_other fun same => absurd same (ne_of_not_ascii rfl high)
  | case3 => rfl

theorem isAscii_of_isTagChar {ch : Char} (inTag : isTagChar ch = true) : isAscii ch = true := by
  rw [isTagChar, Bool.or_eq_true, decide_eq_true_eq] at inTag
  rcases inTag with letter | rfl
  · simp only [Char.isAlphanum, Char.isAlpha, Char.isUpper, Char.isLower, Char.isDigit,
      Bool.or_eq_true, Bool.and_eq_true, decide_eq_true_eq, UInt32.le_iff_toNat_le,
      ge_iff_le] at letter
    apply decide_eq_true
    change ch.val.toNat < 128
    have bounds : 'Z'.val.toNat = 90 ∧ 'z'.val.toNat = 122 ∧ '9'.val.toNat = 57 := by decide
    omega
  · rfl

theorem isAscii_of_isTagStart {ch : Char} (starts : isTagStart ch = true) :
    isAscii ch = true := by
  apply isAscii_of_isTagChar
  rw [isTagStart, Bool.or_eq_true] at starts
  rw [isTagChar, Char.isAlphanum, Bool.or_eq_true, Bool.or_eq_true]
  exact starts.imp_left .inl

theorem dollarTag?_eq (text : List Char) :
    dollarTag? text =
      if text.head? = some '$' then some []
      else
        match text with
        | [] => none
        | ch :: rest =>
            if isTagStart ch = true ∧ (rest.dropWhile isTagChar).head? = some '$' then
              some (ch :: rest.takeWhile isTagChar)
            else none := by
  unfold dollarTag?
  split
  · rfl
  · rename_i ch rest other
    have front : (ch :: rest).head? ≠ some '$' := by
      intro same
      exact other (Option.some.inj same)
    rw [if_neg front]
    dsimp only
    split
    · rename_i starts
      split
      · rename_i others ends
        rw [if_pos ⟨starts, by rw [ends, List.head?_cons]⟩]
      · rename_i ends
        rw [if_neg]
        rintro ⟨-, closes⟩
        obtain ⟨others, same⟩ := List.head?_eq_some_iff.mp closes
        exact ends others same
    · rename_i starts
      rw [if_neg fun both => starts both.1]
  · rfl

/-- A name between dollars is ASCII, so that it is the same in bytes. -/
theorem dollarTag?_bytes (text : List Char) : dollarTag? (bytes text) = dollarTag? text := by
  have run := run_bytes fun ch => @isAscii_of_isTagChar ch
  rw [dollarTag?_eq, dollarTag?_eq]
  simp only [@head?_bytes '$' rfl]
  congr 1
  cases text with
  | nil => rfl
  | cons ch rest =>
      cases ascii : isAscii ch with
      | true =>
          rw [bytes_cons_ascii ascii]
          simp only [(run rest).1, (run rest).2, @head?_bytes '$' rfl]
      | false =>
          have outside (byte : Char) (high : isAscii byte = false) : ¬ isTagStart byte = true :=
            fun starts => by
              rw [isAscii_of_isTagStart starts] at high
              cases high
          obtain ⟨byte, others, encoded⟩ := List.exists_cons_of_ne_nil (byteChars_ne_nil ch)
          have high := not_ascii_of_mem_byteChars ascii (encoded ▸ List.mem_cons_self)
          rw [bytes_cons, encoded, List.cons_append]
          dsimp only
          rw [if_neg fun both => outside byte high both.1, if_neg fun both => outside ch ascii both.1]

/-! ## Searching bytes -/

theorem isPrefixOf_bytes {pattern : List Char} (ascii : ∀ ch ∈ pattern, isAscii ch = true)
    (text : List Char) : pattern.isPrefixOf (bytes text) = pattern.isPrefixOf text := by
  induction pattern generalizing text with
  | nil => rfl
  | cons first others induction =>
      rw [List.forall_mem_cons] at ascii
      by_cases front : text.head? = some first
      · obtain ⟨rest, rfl⟩ := List.head?_eq_some_iff.mp front
        rw [bytes_cons_ascii ascii.1, List.isPrefixOf_cons_cons_self, List.isPrefixOf_cons_cons_self,
          induction ascii.2]
      · have other (source : List Char) (differs : source.head? ≠ some first) :
            (first :: others).isPrefixOf source = false := by
          cases source with
          | nil => rfl
          | cons ch rest =>
              rw [List.isPrefixOf_cons_cons, beq_eq_false_iff_ne.mpr, Bool.false_and]
              rintro rfl
              exact differs rfl
        rw [other _ front, other _ fun same => front ((head?_bytes ascii.1 _).mp same)]

theorem skipDollarQuoted_cons (tag : List Char) (ch : Char) (rest : List Char) :
    skipDollarQuoted tag (ch :: rest) =
      if tag.isPrefixOf (ch :: rest) then (ch :: rest).drop tag.length
      else skipDollarQuoted tag rest := by
  rw [skipDollarQuoted, skipDollarQuoted, splitOnce]
  split
  · rename_i before after split
    split at split
    · rename_i found
      cases split
      rw [if_pos found]
    · rename_i differs
      rw [if_neg differs]
      obtain ⟨⟨first, last⟩, found, same⟩ := Option.map_eq_some_iff.mp split
      cases same
      rw [found]
  · rename_i split
    split at split
    · cases split
    · rename_i differs
      rw [if_neg differs, Option.map_eq_none_iff.mp split]

theorem skipDollarQuoted_bytes {tag : List Char} (some_char : tag ≠ [])
    (ascii : ∀ ch ∈ tag, isAscii ch = true) (text : List Char) :
    skipDollarQuoted tag (bytes text) = bytes (skipDollarQuoted tag text) := by
  induction text with
  | nil =>
      rw [bytes_nil, skipDollarQuoted, splitOnce, if_neg some_char]
      rfl
  | cons ch rest induction =>
      have same := isPrefixOf_bytes ascii (ch :: rest)
      rw [skipDollarQuoted_cons tag ch rest]
      split
      · rename_i found
        obtain ⟨after, whole⟩ := List.isPrefixOf_iff_prefix.mp found
        have front := ascii ch (by
          obtain ⟨first, others, rfl⟩ := List.exists_cons_of_ne_nil some_char
          obtain ⟨rfl, -⟩ := List.cons.inj whole
          exact List.mem_cons_self)
        rw [← drop_bytes, bytes_cons_ascii front, skipDollarQuoted_cons, if_pos]
        · rw [← bytes_cons_ascii front, same, found]
        · rw [← whole, List.take_left']
          · exact ascii
          · rfl
      · rename_i differs
        rw [← induction]
        cases wide : isAscii ch with
        | true =>
            rw [bytes_cons_ascii wide] at same ⊢
            rw [skipDollarQuoted_cons, same, if_neg differs]
        | false =>
            rw [bytes_cons]
            apply passes_byteChars _ wide
            intro byte others high
            rw [skipDollarQuoted_cons, if_neg]
            intro found
            obtain ⟨after, whole⟩ := List.isPrefixOf_iff_prefix.mp found
            obtain ⟨first, tail, rfl⟩ := List.exists_cons_of_ne_nil some_char
            obtain ⟨rfl, -⟩ := List.cons.inj whole
            rw [ascii first List.mem_cons_self] at high
            cases high

/-- What a tag is, and that a dollar follows it. -/
theorem dollarTag?_cases {text name : List Char} (tag : dollarTag? text = some name) :
    (∃ rest, text = name ++ '$' :: rest) ∧ ∀ ch ∈ name, isTagChar ch = true := by
  rw [dollarTag?_eq] at tag
  split at tag
  · rename_i front
    cases tag
    obtain ⟨rest, rfl⟩ := List.head?_eq_some_iff.mp front
    exact ⟨⟨rest, rfl⟩, by simp⟩
  · split at tag
    · cases tag
    · rename_i ch rest notDollar
      split at tag
      · rename_i both
        cases tag
        obtain ⟨after, ends⟩ := List.head?_eq_some_iff.mp both.2
        constructor
        · refine ⟨after, ?_⟩
          rw [List.cons_append, ← ends, List.takeWhile_append_dropWhile]
        · rw [List.forall_mem_cons]
          constructor
          · have starts := both.1
            rw [isTagStart, Bool.or_eq_true] at starts
            rw [isTagChar, Char.isAlphanum, Bool.or_eq_true, Bool.or_eq_true]
            exact starts.imp_left .inl
          · exact fun ch member => List.mem_takeWhile_imp member
      · cases tag

theorem skipLiteral?_eq (text : List Char) :
    skipLiteral? text =
      if text.head? = some '\'' then some (skipSingleQuoted text.tail)
      else if text.head? = some '$' then
        (dollarTag? text.tail).map fun name =>
          skipDollarQuoted ('$' :: name ++ ['$']) (text.tail.drop (name.length + 1))
      else none := by
  unfold skipLiteral?
  split
  · rfl
  · rfl
  · rename_i notQuote notDollar
    rw [if_neg, if_neg]
    · intro front
      obtain ⟨rest, same⟩ := List.head?_eq_some_iff.mp front
      exact notDollar rest same
    · intro front
      obtain ⟨rest, same⟩ := List.head?_eq_some_iff.mp front
      exact notQuote rest same

theorem skipComment?_eq (text : List Char) :
    skipComment? text =
      if ['-', '-'].isPrefixOf text then some (skipLineComment (text.drop 2))
      else if ['/', '*'].isPrefixOf text then some (skipBlockComment (text.drop 2))
      else none := by
  unfold skipComment?
  split
  · rfl
  · rfl
  · rename_i notLine notBlock
    rw [if_neg, if_neg]
    · intro front
      obtain ⟨rest, same⟩ := List.isPrefixOf_iff_prefix.mp front
      exact notBlock rest same.symm
    · intro front
      obtain ⟨rest, same⟩ := List.isPrefixOf_iff_prefix.mp front
      exact notLine rest same.symm

theorem tail_bytes {ch : Char} (ascii : isAscii ch = true) {text : List Char}
    (front : text.head? = some ch) : (bytes text).tail = bytes text.tail := by
  obtain ⟨rest, rfl⟩ := List.head?_eq_some_iff.mp front
  rw [bytes_cons_ascii ascii, List.tail_cons, List.tail_cons]

theorem skipLiteral?_bytes (text : List Char) :
    skipLiteral? (bytes text) = (skipLiteral? text).map bytes := by
  rw [skipLiteral?_eq, skipLiteral?_eq]
  simp only [@head?_bytes '\'' rfl, @head?_bytes '$' rfl]
  split
  · rename_i front
    rw [tail_bytes rfl front, skipSingleQuoted_bytes]
    rfl
  · split
    · rename_i front
      rw [tail_bytes rfl front, dollarTag?_bytes]
      cases tag : dollarTag? text.tail with
      | none => rfl
      | some name =>
          obtain ⟨⟨rest, whole⟩, inTag⟩ := dollarTag?_cases tag
          have ascii : ∀ ch ∈ name ++ ['$'], isAscii ch = true := by
            rw [List.forall_mem_append]
            exact ⟨fun ch member => isAscii_of_isTagChar (inTag ch member), by simp; rfl⟩
          simp only [Option.map_some]
          rw [drop_bytes, skipDollarQuoted_bytes]
          · simp
          · rw [List.cons_append, List.forall_mem_cons]
            exact ⟨rfl, ascii⟩
          · rw [whole, List.append_cons, List.take_left']
            · exact ascii
            · simp
    · rfl

theorem skipComment?_bytes (text : List Char) :
    skipComment? (bytes text) = (skipComment? text).map bytes := by
  have opener (second : Char) (first : Char) (ascii : ∀ ch ∈ [first, second], isAscii ch = true)
      (front : [first, second].isPrefixOf text = true) :
      (bytes text).drop 2 = bytes (text.drop 2) := by
    apply drop_bytes
    obtain ⟨rest, rfl⟩ := List.isPrefixOf_iff_prefix.mp front
    exact ascii
  have line : ∀ ch ∈ ['-', '-'], isAscii ch = true := by decide
  have block : ∀ ch ∈ ['/', '*'], isAscii ch = true := by decide
  rw [skipComment?_eq, skipComment?_eq, isPrefixOf_bytes line, isPrefixOf_bytes block]
  split
  · rename_i front
    rw [opener _ _ line front, skipLineComment_bytes]
    rfl
  · split
    · rename_i front
      rw [opener _ _ block front, skipBlockComment_bytes]
      rfl
    · rfl

/-- Nothing is skipped at a byte of a character outside ASCII. -/
theorem skips_none_of_not_ascii {byte : Char} (high : isAscii byte = false) (rest : List Char) :
    skipLiteral? (byte :: rest) = none ∧ skipComment? (byte :: rest) = none := by
  have differs (ch : Char) (ascii : isAscii ch = true) : (byte :: rest).head? ≠ some ch := by
    intro same
    exact ne_of_not_ascii ascii high (Option.some.inj same)
  have notPrefix (first second : Char) (ascii : isAscii first = true) :
      ¬ [first, second].isPrefixOf (byte :: rest) = true := by
    intro front
    obtain ⟨after, same⟩ := List.isPrefixOf_iff_prefix.mp front
    exact ne_of_not_ascii ascii high (List.cons.inj same).1.symm
  constructor
  · rw [skipLiteral?_eq, if_neg (differs _ rfl), if_neg (differs _ rfl)]
  · rw [skipComment?_eq, if_neg (notPrefix _ _ rfl), if_neg (notPrefix _ _ rfl)]

/-! ## The loops -/

/-- The loop of `split_sql_statements`, from an offset in bytes where the current statement
starts and an offset where the scan is. -/
def splitSlicesFrom (sql : List Char) : Nat → Nat → Nat → List Char →
    Option (List (List Char))
  | 0, _, _, _ => some []
  | _ + 1, start, i, [] =>
      if start < i then (slice? sql start i).map ([·]) else some []
  | fuel + 1, start, i, byte :: rest =>
      match skipLiteral? (byte :: rest) <|> skipComment? (byte :: rest) with
      | some after =>
          splitSlicesFrom sql fuel start (i + ((byte :: rest).length - after.length)) after
      | none =>
          if byte = ';' then do
            let statement ← slice? sql start i
            let statements ← splitSlicesFrom sql fuel (i + 1) (i + 1) rest
            return statement :: statements
          else splitSlicesFrom sql fuel start (i + 1) rest

/-- `split_sql_statements` over bytes.  There is no result when a slice panics. -/
def splitSlices (sql : List Char) : Option (List (List Char)) :=
  splitSlicesFrom sql ((bytes sql).length + 1) 0 0 (bytes sql)

/-- The loop of `strip_sql_comments`, with the offset from which text is kept. -/
def stripSlicesFrom (sql : List Char) : Nat → Nat → Nat → List Char → Option (List Char)
  | 0, _, _, _ => some []
  | _ + 1, keepStart, i, [] => slice? sql keepStart i
  | fuel + 1, keepStart, i, byte :: rest =>
      match skipLiteral? (byte :: rest) with
      | some after =>
          stripSlicesFrom sql fuel keepStart (i + ((byte :: rest).length - after.length)) after
      | none =>
          match skipComment? (byte :: rest) with
          | some after => do
              let kept ← slice? sql keepStart i
              let next := i + ((byte :: rest).length - after.length)
              let out ← stripSlicesFrom sql fuel next next after
              return kept ++ out
          | none => stripSlicesFrom sql fuel keepStart (i + 1) rest

def stripSlices (sql : List Char) : Option (List Char) :=
  stripSlicesFrom sql ((bytes sql).length + 1) 0 0 (bytes sql)

theorem splitSlicesFrom_pass {sql highs rest : List Char} {fuel start i : Nat}
    (high : ∀ byte ∈ highs, isAscii byte = false) :
    splitSlicesFrom sql (fuel + highs.length) start i (highs ++ rest) =
      splitSlicesFrom sql fuel start (i + highs.length) rest := by
  induction highs generalizing i with
  | nil => rfl
  | cons byte others induction =>
      rw [List.forall_mem_cons] at high
      obtain ⟨literal, comment⟩ := skips_none_of_not_ascii high.1 (others ++ rest)
      have neither : (skipLiteral? (byte :: (others ++ rest)) <|>
          skipComment? (byte :: (others ++ rest))) = none := by
        rw [literal, comment]
        rfl
      have notEnd : byte ≠ ';' := ne_of_not_ascii rfl high.1
      rw [List.cons_append, List.length_cons, ← Nat.add_assoc, splitSlicesFrom, neither]
      dsimp only
      rw [if_neg notEnd, induction high.2]
      congr 1
      omega

theorem stripSlicesFrom_pass {sql highs rest : List Char} {fuel keepStart i : Nat}
    (high : ∀ byte ∈ highs, isAscii byte = false) :
    stripSlicesFrom sql (fuel + highs.length) keepStart i (highs ++ rest) =
      stripSlicesFrom sql fuel keepStart (i + highs.length) rest := by
  induction highs generalizing i with
  | nil => rfl
  | cons byte others induction =>
      rw [List.forall_mem_cons] at high
      obtain ⟨literal, comment⟩ := skips_none_of_not_ascii high.1 (others ++ rest)
      rw [List.cons_append, List.length_cons, ← Nat.add_assoc, stripSlicesFrom, literal, comment]
      dsimp only
      rw [induction high.2]
      congr 1
      omega

theorem slice?_of_append {sql before text after : List Char}
    (whole : before ++ text ++ after = sql) :
    slice? sql (bytes before).length ((bytes before).length + (bytes text).length) =
      some text := by
  rw [← whole, slice?_between]

theorem length_bytes_skipped {text after : List Char} (suffix : after <:+ text) :
    (bytes text).length - (bytes after).length = (bytes (skipped text after)).length := by
  have whole := congrArg (fun joined => (bytes joined).length) (skipped_append suffix)
  simp only [bytes_append, List.length_append] at whole
  omega

theorem skips_bytes (text : List Char) :
    (skipLiteral? (bytes text) <|> skipComment? (bytes text)) =
      (skipLiteral? text <|> skipComment? text).map bytes := by
  rw [skipLiteral?_bytes, skipComment?_bytes]
  cases skipLiteral? text <;> rfl

theorem skips_suffix {ch : Char} {rest after : List Char}
    (skips : (skipLiteral? (ch :: rest) <|> skipComment? (ch :: rest)) = some after) :
    after <:+ rest := by
  cases literal : skipLiteral? (ch :: rest) with
  | some found =>
      rw [literal] at skips
      cases skips
      exact skipLiteral?_suffix literal
  | none =>
      rw [literal] at skips
      exact skipComment?_suffix skips

theorem length_bytes_le {text after : List Char} (suffix : after <:+ text) :
    (bytes after).length ≤ (bytes text).length := by
  obtain ⟨before, rfl⟩ := suffix
  rw [bytes_append, List.length_append]
  exact Nat.le_add_left _ _

/-- The scan of the bytes finds the statements that the scan of the characters finds, and
slices at characters only. -/
theorem splitSlicesFrom_eq {sql : List Char} {textFuel fuel : Nat}
    {before current text : List Char} (whole : before ++ current ++ text = sql)
    (enough : (bytes text).length < fuel) (textEnough : text.length < textFuel) :
    splitSlicesFrom sql fuel (bytes before).length
        ((bytes before).length + (bytes current).length) (bytes text) =
      some (splitFrom textFuel current text) := by
  induction textFuel generalizing fuel before current text with
  | zero => omega
  | succ textFuel induction =>
      cases text with
      | nil =>
          cases fuel with
          | zero => omega
          | succ fuel =>
              rw [bytes_nil, splitSlicesFrom, splitFrom]
              by_cases empty : current = []
              · subst empty
                simp
              · have positive : 0 < (bytes current).length := by
                  obtain ⟨ch, rest, rfl⟩ := List.exists_cons_of_ne_nil empty
                  rw [bytes_cons, List.length_append, length_byteChars]
                  exact Nat.add_pos_left (Char.utf8Size_pos ch) _
                rw [if_pos (by omega), if_neg empty, slice?_of_append whole]
                rfl
      | cons ch rest =>
          have bytesSkip := skips_bytes (ch :: rest)
          rw [splitFrom]
          cases skips : (skipLiteral? (ch :: rest) <|> skipComment? (ch :: rest)) with
          | some after =>
              have suffix := skips_suffix skips
              have length := suffix.length_le
              have shorter := length_bytes_le suffix
              have moved := length_bytes_skipped (suffix.trans (List.suffix_cons ch rest))
              obtain ⟨byte, others, encoded⟩ := List.exists_cons_of_ne_nil (byteChars_ne_nil ch)
              have front : bytes (ch :: rest) = byte :: (others ++ bytes rest) := by
                rw [bytes_cons, encoded, List.cons_append]
              cases fuel with
              | zero => omega
              | succ fuel =>
                  rw [skips, front, Option.map_some] at bytesSkip
                  rw [front] at moved enough ⊢
                  rw [splitSlicesFrom, bytesSkip]
                  dsimp only
                  rw [moved, Nat.add_assoc, ← List.length_append, ← bytes_append]
                  simp only [List.length_cons, List.length_append] at enough textEnough
                  apply induction
                  · rw [List.append_assoc, List.append_assoc,
                      skipped_append (suffix.trans (List.suffix_cons ch rest)),
                      ← List.append_assoc, whole]
                  · omega
                  · omega
          | none =>
              dsimp only
              rw [skips, Option.map_none] at bytesSkip
              simp only [List.length_cons] at textEnough
              cases ascii : isAscii ch with
              | false =>
                  have notEnd : ch ≠ ';' := ne_of_not_ascii rfl ascii
                  rw [if_neg notEnd]
                  rw [bytes_cons, List.length_append] at enough
                  obtain ⟨remaining, rfl⟩ := Nat.exists_eq_add_of_le' (show
                    (byteChars ch).length ≤ fuel by omega)
                  rw [bytes_cons, splitSlicesFrom_pass fun byte member =>
                    not_ascii_of_mem_byteChars ascii member]
                  have moved : (bytes before).length + (bytes current).length +
                      (byteChars ch).length =
                        (bytes before).length + (bytes (current ++ [ch])).length := by
                    rw [bytes_append, bytes_cons, bytes_nil, List.append_nil, List.length_append,
                      Nat.add_assoc]
                  rw [moved]
                  apply induction
                  · simpa using whole
                  · omega
                  · omega
              | true =>
                  rw [bytes_cons_ascii ascii] at bytesSkip enough ⊢
                  rw [List.length_cons] at enough
                  cases fuel with
                  | zero => omega
                  | succ fuel =>
                      rw [splitSlicesFrom, bytesSkip]
                      dsimp only
                      split
                      · have sliced : before ++ current ++ ch :: rest = sql := whole
                        rw [slice?_of_append sliced]
                        have next := @induction fuel (before ++ current ++ [ch]) [] rest
                          (by simpa using whole) (by omega) (by omega)
                        simp only [bytes_append, bytes_cons_ascii ascii, bytes_nil,
                          List.length_append, List.length_cons, List.length_nil,
                          Nat.add_zero, Nat.zero_add] at next
                        rw [next]
                        rfl
                      · have next := @induction fuel before (current ++ [ch]) rest
                          (by simpa using whole) (by omega) (by omega)
                        simp only [bytes_append, bytes_cons_ascii ascii, bytes_nil,
                          List.length_append, List.length_cons, List.length_nil,
                          Nat.zero_add] at next
                        rw [Nat.add_assoc, next]

theorem splitSlices_eq (sql : List Char) : splitSlices sql = some (splitSqlStatements sql) := by
  have loop := @splitSlicesFrom_eq sql (sql.length + 1) ((bytes sql).length + 1) [] [] sql rfl
    (Nat.lt_succ_self _) (Nat.lt_succ_self _)
  exact loop

/-- What the scan of the bytes keeps is what the scan of the characters keeps. -/
theorem stripSlicesFrom_eq {sql : List Char} {textFuel fuel : Nat}
    {before current text : List Char} (whole : before ++ current ++ text = sql)
    (enough : (bytes text).length < fuel) (textEnough : text.length < textFuel) :
    stripSlicesFrom sql fuel (bytes before).length
        ((bytes before).length + (bytes current).length) (bytes text) =
      some (current ++ stripFrom textFuel text) := by
  induction textFuel generalizing fuel before current text with
  | zero => omega
  | succ textFuel induction =>
      cases text with
      | nil =>
          cases fuel with
          | zero => omega
          | succ fuel =>
              rw [bytes_nil, stripSlicesFrom, stripFrom, slice?_of_append whole, List.append_nil]
      | cons ch rest =>
          have literalBytes := skipLiteral?_bytes (ch :: rest)
          have commentBytes := skipComment?_bytes (ch :: rest)
          obtain ⟨byte, others, encoded⟩ := List.exists_cons_of_ne_nil (byteChars_ne_nil ch)
          have front : bytes (ch :: rest) = byte :: (others ++ bytes rest) := by
            rw [bytes_cons, encoded, List.cons_append]
          simp only [List.length_cons] at textEnough
          rw [stripFrom]
          cases literal : skipLiteral? (ch :: rest) with
          | some after =>
              have suffix := skipLiteral?_suffix literal
              have length := suffix.length_le
              have shorter := length_bytes_le suffix
              have moved := length_bytes_skipped (suffix.trans (List.suffix_cons ch rest))
              cases fuel with
              | zero => omega
              | succ fuel =>
                  rw [literal, front, Option.map_some] at literalBytes
                  rw [front] at moved enough ⊢
                  rw [stripSlicesFrom, literalBytes]
                  dsimp only
                  rw [moved, Nat.add_assoc, ← List.length_append, ← bytes_append,
                    ← List.append_assoc]
                  simp only [List.length_cons, List.length_append] at enough
                  apply induction
                  · rw [List.append_assoc, List.append_assoc,
                      skipped_append (suffix.trans (List.suffix_cons ch rest)),
                      ← List.append_assoc, whole]
                  · omega
                  · omega
          | none =>
              rw [literal, Option.map_none] at literalBytes
              dsimp only
              cases comment : skipComment? (ch :: rest) with
              | some after =>
                  have suffix := skipComment?_suffix comment
                  have length := suffix.length_le
                  have shorter := length_bytes_le suffix
                  have moved := length_bytes_skipped (suffix.trans (List.suffix_cons ch rest))
                  have joined := skipped_append (suffix.trans (List.suffix_cons ch rest))
                  cases fuel with
                  | zero => omega
                  | succ fuel =>
                      rw [comment, front, Option.map_some] at commentBytes
                      rw [front] at literalBytes moved enough ⊢
                      rw [stripSlicesFrom, literalBytes, commentBytes]
                      dsimp only
                      rw [slice?_of_append whole, moved]
                      simp only [List.length_cons, List.length_append] at enough
                      have next := @induction fuel
                        (before ++ current ++ skipped (ch :: rest) after) [] after
                        (by rw [List.append_nil, List.append_assoc, joined, whole]) (by omega)
                        (by omega)
                      simp only [bytes_append, bytes_nil, List.length_append, List.length_nil,
                        Nat.add_zero, List.nil_append] at next
                      rw [next]
                      rfl
              | none =>
                  rw [comment, Option.map_none] at commentBytes
                  dsimp only
                  have kept : current ++ ch :: stripFrom textFuel rest =
                      current ++ [ch] ++ stripFrom textFuel rest := by
                    rw [List.append_assoc, List.singleton_append]
                  rw [kept]
                  have moved : (bytes before).length + (bytes current).length +
                      (byteChars ch).length =
                        (bytes before).length + (bytes (current ++ [ch])).length := by
                    rw [bytes_append, bytes_cons, bytes_nil, List.append_nil, List.length_append,
                      Nat.add_assoc]
                  cases ascii : isAscii ch with
                  | false =>
                      rw [bytes_cons, List.length_append] at enough
                      obtain ⟨remaining, rfl⟩ := Nat.exists_eq_add_of_le' (show
                        (byteChars ch).length ≤ fuel by omega)
                      rw [bytes_cons, stripSlicesFrom_pass fun byte member =>
                        not_ascii_of_mem_byteChars ascii member, moved]
                      apply induction
                      · simpa using whole
                      · omega
                      · omega
                  | true =>
                      rw [byteChars_of_ascii ascii, List.length_singleton] at moved
                      rw [bytes_cons_ascii ascii] at literalBytes commentBytes enough ⊢
                      rw [List.length_cons] at enough
                      cases fuel with
                      | zero => omega
                      | succ fuel =>
                          rw [stripSlicesFrom, literalBytes, commentBytes]
                          dsimp only
                          rw [moved]
                          apply induction
                          · simpa using whole
                          · omega
                          · omega

theorem stripSlices_eq (sql : List Char) : stripSlices sql = some (stripSqlComments sql) := by
  have loop := @stripSlicesFrom_eq sql (sql.length + 1) ((bytes sql).length + 1) [] [] sql rfl
    (Nat.lt_succ_self _) (Nat.lt_succ_self _)
  exact loop

end Marreta.Migrations
