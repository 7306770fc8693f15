import Marreta.Migrations.SqlTokens

namespace Marreta.Migrations

open Foundation.Utf8 (isAscii)

/-! Reading SQL tokens one by one.

A token is read the same way before every text that it stops at. -/

namespace SqlToken

/-! ## Endings -/

theorem quotedEnd_append (text : List Char) : (quotedEnd text).1 ++ (quotedEnd text).2 = text := by
  fun_induction quotedEnd text with
  | case1 rest induction => rw [List.cons_append, List.cons_append, induction]
  | case2 rest single => rfl
  | case3 ch rest double quote induction => rw [List.cons_append, induction]
  | case4 => rfl

theorem lineEnd_append (text : List Char) : (lineEnd text).1 ++ (lineEnd text).2 = text := by
  fun_induction lineEnd text with
  | case1 => rfl
  | case2 ch rest ends => rfl
  | case3 ch rest inside induction => rw [List.cons_append, induction]

theorem blockEnd_append (depth : Nat) (text : List Char) :
    (blockEnd depth text).1 ++ (blockEnd depth text).2 = text := by
  fun_induction blockEnd depth text with
  | case1 rest => rfl
  | case2 rest depth induction => rw [List.cons_append, List.cons_append, induction]
  | case3 depth rest induction => rw [List.cons_append, List.cons_append, induction]
  | case4 depth ch rest _ _ _ induction => rw [List.cons_append, induction]
  | case5 => rfl

theorem splitOnce_append {pattern text before after : List Char}
    (split : splitOnce pattern text = some (before, after)) :
    before ++ pattern ++ after = text := by
  induction text generalizing before with
  | nil =>
      rw [splitOnce] at split
      split at split
      · rename_i empty
        cases split
        rw [empty]
        rfl
      · cases split
  | cons ch rest induction =>
      rw [splitOnce] at split
      split at split
      · rename_i found
        cases split
        obtain ⟨others, whole⟩ := List.isPrefixOf_iff_prefix.mp found
        rw [← whole, List.drop_left, List.nil_append]
      · obtain ⟨⟨first, last⟩, found, same⟩ := Option.map_eq_some_iff.mp split
        cases same
        rw [List.cons_append, List.cons_append, induction found]

theorem dollarEnd_append (tag text : List Char) :
    (dollarEnd tag text).1 ++ (dollarEnd tag text).2 = text := by
  unfold dollarEnd
  split
  · rename_i split
    exact splitOnce_append split
  · exact List.append_nil _

theorem tag?_append {text tag : List Char} (reads : tag? text = some tag) :
    ∃ rest, text = tag ++ '$' :: rest := by
  unfold tag? at reads
  dsimp only at reads
  split at reads
  · rename_i both
    obtain ⟨rest, ends⟩ := List.head?_eq_some_iff.mp both.1
    refine ⟨rest, ?_⟩
    rw [← Option.some.inj reads, ← ends, List.takeWhile_append_dropWhile]
  · cases reads

/-! ## One token -/

theorem head_eq_cons {ch : Char} {text : List Char} (front : text.head? = some ch) :
    text = ch :: text.tail := by
  obtain ⟨rest, rfl⟩ := List.head?_eq_some_iff.mp front
  rfl

/-- A token and what follows it are the text. -/
theorem read_append (ch : Char) (rest : List Char) :
    (read ch rest).1.text ++ (read ch rest).2 = ch :: rest := by
  unfold read
  split
  · exact congrArg (ch :: ·) (quotedEnd_append rest)
  · split
    · rename_i line
      rw [line.1, head_eq_cons line.2]
      exact congrArg ('-' :: '-' :: ·) (lineEnd_append rest.tail)
    · split
      · rename_i block
        rw [block.1, head_eq_cons block.2]
        exact congrArg ('/' :: '*' :: ·) (blockEnd_append 0 rest.tail)
      · split
        · rename_i dollar
          split
          · rename_i tag reads
            obtain ⟨after, rfl⟩ := tag?_append reads
            have dropped : (tag ++ '$' :: after).drop (tag.length + 1) = after := by
              rw [List.append_cons, List.drop_left']
              simp
            rw [dropped, dollar]
            have ends := dollarEnd_append tag after
            simp only [text, delimiter, List.cons_append, List.append_assoc, List.nil_append,
              ends]
          · rfl
        · split
          · exact congrArg (ch :: ·) List.takeWhile_append_dropWhile
          · split
            · exact congrArg (ch :: ·) List.takeWhile_append_dropWhile
            · rfl

theorem read_text_ne_nil (ch : Char) (rest : List Char) : (read ch rest).1.text ≠ [] := by
  unfold read
  split
  · exact List.cons_ne_nil _ _
  · split
    · exact List.cons_ne_nil _ _
    · split
      · exact List.cons_ne_nil _ _
      · split
        · split
          · exact List.cons_ne_nil _ _
          · exact List.cons_ne_nil _ _
        · split
          · exact List.cons_ne_nil _ _
          · split
            · exact List.cons_ne_nil _ _
            · exact List.cons_ne_nil _ _

/-- The token is read where the text follows it, by the rule of its kind. -/
inductive Begins : SqlToken → List Char → Prop
  | quoted {body after : List Char} (ends : quotedEnd (body ++ after) = (body, after)) :
      Begins (.quoted ('\'' :: body)) after
  | lineComment {body after : List Char} (ends : lineEnd (body ++ after) = (body, after)) :
      Begins (.lineComment ('-' :: '-' :: body)) after
  | blockComment {body after : List Char} (ends : blockEnd 0 (body ++ after) = (body, after)) :
      Begins (.blockComment ('/' :: '*' :: body)) after
  | dollarQuoted {tag body after : List Char}
      (reads : tag? (tag ++ '$' :: (body ++ after)) = some tag)
      (ends : dollarEnd tag (body ++ after) = (body, after)) :
      Begins (.dollarQuoted tag (delimiter tag ++ body)) after
  | name {ch : Char} {body after : List Char} (starts : isNameStart ch = true)
      (parts : ∀ part ∈ body, isNamePart part = true)
      (stops : ∀ next, after.head? = some next → isNamePart next = false) :
      Begins (.name (ch :: body)) after
  | number {ch : Char} {body after : List Char} (starts : ch.isDigit = true)
      (parts : ∀ part ∈ body, isTagPart part = true)
      (stops : ∀ next, after.head? = some next → isTagPart next = false) :
      Begins (.number (ch :: body)) after
  | symbol {ch : Char} {after : List Char} (quote : ch ≠ '\'')
      (line : ¬ (ch = '-' ∧ after.head? = some '-'))
      (block : ¬ (ch = '/' ∧ after.head? = some '*')) (dollar : ch = '$' → tag? after = none)
      (notName : isNameStart ch = false) (notDigit : ch.isDigit = false) :
      Begins (.symbol ch) after

theorem stops_of_dropWhile {keeps : Char → Bool} {text : List Char} {next : Char}
    (front : (text.dropWhile keeps).head? = some next) : keeps next = false := by
  have stops := List.head?_dropWhile_not keeps text
  rw [front] at stops
  exact stops

/-- A run of characters ends where a character is not kept. -/
theorem run_append {keeps : Char → Bool} {run after : List Char}
    (each : ∀ part ∈ run, keeps part = true)
    (stops : ∀ next, after.head? = some next → keeps next = false) :
    (run ++ after).takeWhile keeps = run ∧ (run ++ after).dropWhile keeps = after := by
  rw [List.takeWhile_append_of_pos each, List.dropWhile_append_of_pos each]
  cases after with
  | nil => simp
  | cons next rest =>
      have ends : ¬ keeps next = true := by
        rw [stops next rfl]
        exact Bool.false_ne_true
      rw [List.takeWhile_cons_of_neg ends, List.dropWhile_cons_of_neg ends, List.append_nil]
      exact ⟨rfl, rfl⟩

/-- What is read begins its text. -/
theorem begins_of_read (ch : Char) (rest : List Char) :
    (read ch rest).1.Begins (read ch rest).2 := by
  unfold read
  split
  · rename_i quote
    subst quote
    apply Begins.quoted
    rw [quotedEnd_append]
  · rename_i notQuote
    split
    · apply Begins.lineComment
      rw [lineEnd_append]
    · rename_i notLine
      split
      · apply Begins.blockComment
        rw [blockEnd_append]
      · rename_i notBlock
        split
        · rename_i dollar
          split
          · rename_i tag reads
            obtain ⟨after, rfl⟩ := tag?_append reads
            have dropped : (tag ++ '$' :: after).drop (tag.length + 1) = after := by
              rw [List.append_cons, List.drop_left']
              simp
            rw [dropped]
            apply Begins.dollarQuoted
            · rw [dollarEnd_append, reads]
            · rw [dollarEnd_append]
          · rename_i reads
            subst dollar
            exact .symbol notQuote notLine notBlock (fun _ => reads) rfl rfl
        · rename_i notDollar
          split
          · rename_i starts
            exact .name starts (fun part member => List.mem_takeWhile_imp member)
              (fun next front => stops_of_dropWhile front)
          · rename_i notName
            split
            · rename_i digit
              exact .number digit (fun part member => List.mem_takeWhile_imp member)
                (fun next front => stops_of_dropWhile front)
            · rename_i notDigit
              exact .symbol notQuote notLine notBlock (fun same => absurd same notDollar)
                (eq_false_of_ne_true notName) (eq_false_of_ne_true notDigit)

theorem isNameStart_of_isDigit {ch : Char} (digit : ch.isDigit = true) :
    isNameStart ch = false := by
  rw [Char.isDigit, Bool.and_eq_true, decide_eq_true_eq, decide_eq_true_eq, ge_iff_le,
    UInt32.le_iff_toNat_le, UInt32.le_iff_toNat_le] at digit
  have bounds : '0'.val.toNat = 48 ∧ '9'.val.toNat = 57 ∧ 'A'.val.toNat = 65 ∧
      'a'.val.toNat = 97 := by decide
  have notUpper : ¬ (65 : UInt32) ≤ ch.val := by
    change ¬ 'A'.val.toNat ≤ ch.val.toNat
    omega
  have notLower : ¬ (97 : UInt32) ≤ ch.val := by
    change ¬ 'a'.val.toNat ≤ ch.val.toNat
    omega
  have notLine : ch ≠ '_' := by
    rintro rfl
    exact absurd digit (by decide)
  have ascii : isAscii ch = true := by
    apply decide_eq_true
    change ch.val.toNat < 128
    omega
  simp [isNameStart, Char.isAlpha, Char.isUpper, Char.isLower, notUpper, notLower, notLine, ascii]

/-- A token that begins its text is what is read there. -/
theorem read_of_begins {token : SqlToken} {after : List Char} (begins : token.Begins after) :
    ∃ ch body, token.text = ch :: body ∧ read ch (body ++ after) = (token, after) := by
  cases begins with
  | @quoted body after ends =>
      refine ⟨'\'', body, rfl, ?_⟩
      rw [read, if_pos rfl, ends]
  | @lineComment body after ends =>
      refine ⟨'-', '-' :: body, rfl, ?_⟩
      rw [read, if_neg (by decide), if_pos ⟨rfl, rfl⟩, List.cons_append, List.tail_cons, ends]
  | @blockComment body after ends =>
      refine ⟨'/', '*' :: body, rfl, ?_⟩
      rw [read, if_neg (by decide), if_neg fun both => absurd both.1 (by decide),
        if_pos ⟨rfl, rfl⟩, List.cons_append, List.tail_cons, ends]
  | @dollarQuoted tag body after reads ends =>
      refine ⟨'$', tag ++ '$' :: body, ?_, ?_⟩
      · simp [text, delimiter]
      · have dropped : (tag ++ '$' :: (body ++ after)).drop (tag.length + 1) = body ++ after := by
          rw [List.append_cons, List.drop_left']
          simp
        rw [List.append_assoc, List.cons_append, read, if_neg (by decide),
          if_neg fun both => absurd both.1 (by decide),
          if_neg fun both => absurd both.1 (by decide), if_pos rfl, reads]
        dsimp only
        rw [dropped, ends]
  | @name ch body after starts parts stops =>
      have differs (other : Char) (outside : isNameStart other = false) : ch ≠ other := by
        rintro rfl
        rw [starts] at outside
        cases outside
      obtain ⟨taken, dropped⟩ := run_append parts stops
      refine ⟨ch, body, rfl, ?_⟩
      rw [read, if_neg (differs _ rfl), if_neg fun both => differs _ rfl both.1,
        if_neg fun both => differs _ rfl both.1, if_neg (differs _ rfl), if_pos starts, taken,
        dropped]
  | @number ch body after starts parts stops =>
      have differs (other : Char) (outside : other.isDigit = false) : ch ≠ other := by
        rintro rfl
        rw [starts] at outside
        cases outside
      have notName := ne_true_of_eq_false (isNameStart_of_isDigit starts)
      obtain ⟨taken, dropped⟩ := run_append parts stops
      refine ⟨ch, body, rfl, ?_⟩
      rw [read, if_neg (differs _ rfl), if_neg fun both => differs _ rfl both.1,
        if_neg fun both => differs _ rfl both.1, if_neg (differs _ rfl), if_neg notName,
        if_pos starts, taken, dropped]
  | @symbol ch after quote line block dollar notName notDigit =>
      refine ⟨ch, [], rfl, ?_⟩
      rw [List.nil_append, read, if_neg quote, if_neg line, if_neg block,
        if_neg (ne_true_of_eq_false notName), if_neg (ne_true_of_eq_false notDigit)]
      split
      · rename_i same
        rw [dollar same]
      · rfl

/-! ## Token lists -/

/-- Each token is read where it stands. -/
def Readable : List SqlToken → Prop
  | [] => True
  | token :: others => token.Begins (textOf others) ∧ Readable others

@[simp] theorem textOf_nil : textOf [] = [] := rfl

@[simp] theorem textOf_cons (token : SqlToken) (others : List SqlToken) :
    textOf (token :: others) = token.text ++ textOf others := rfl

@[simp] theorem textOf_append (before after : List SqlToken) :
    textOf (before ++ after) = textOf before ++ textOf after :=
  List.flatMap_append

theorem length_read_lt (ch : Char) (rest : List Char) :
    (read ch rest).2.length < rest.length + 1 := by
  have whole := congrArg List.length (read_append ch rest)
  have positive := List.length_pos_iff.mpr (read_text_ne_nil ch rest)
  rw [List.length_append, List.length_cons] at whole
  omega

theorem textOf_readAll {fuel : Nat} {sql : List Char} (enough : sql.length < fuel) :
    textOf (readAll fuel sql) = sql := by
  induction fuel generalizing sql with
  | zero => omega
  | succ fuel induction =>
      cases sql with
      | nil => rfl
      | cons ch rest =>
          have shorter := length_read_lt ch rest
          rw [List.length_cons] at enough
          rw [readAll, textOf_cons, induction (by omega), read_append]

@[simp] theorem textOf_tokens (sql : List Char) : textOf (tokens sql) = sql :=
  textOf_readAll (Nat.lt_succ_self _)

theorem readable_readAll {fuel : Nat} {sql : List Char} (enough : sql.length < fuel) :
    Readable (readAll fuel sql) := by
  induction fuel generalizing sql with
  | zero => omega
  | succ fuel induction =>
      cases sql with
      | nil => trivial
      | cons ch rest =>
          have shorter := length_read_lt ch rest
          rw [List.length_cons] at enough
          rw [readAll, Readable, textOf_readAll (by omega)]
          exact ⟨begins_of_read ch rest, induction (by omega)⟩

theorem readable_tokens (sql : List Char) : Readable (tokens sql) :=
  readable_readAll (Nat.lt_succ_self _)

theorem readAll_textOf {fuel : Nat} {list : List SqlToken} (readable : Readable list)
    (enough : (textOf list).length < fuel) : readAll fuel (textOf list) = list := by
  induction list generalizing fuel with
  | nil =>
      cases fuel with
      | zero => omega
      | succ fuel => rfl
  | cons token others induction =>
      obtain ⟨begins, rest⟩ := readable
      obtain ⟨ch, body, same, reads⟩ := read_of_begins begins
      cases fuel with
      | zero => omega
      | succ fuel =>
          rw [textOf_cons, same, List.cons_append] at enough ⊢
          rw [readAll, reads, induction rest]
          simp only [List.length_cons, List.length_append] at enough
          omega

/-- Tokens that are read where they stand are the tokens of their text. -/
theorem tokens_textOf {list : List SqlToken} (readable : Readable list) :
    tokens (textOf list) = list :=
  readAll_textOf readable (Nat.lt_succ_self _)

/-! ## What may follow a token -/

/-- The rest of a string that is closed. -/
inductive QuotedBody : List Char → Prop
  | close : QuotedBody ['\'']
  | pair {body : List Char} (rest : QuotedBody body) : QuotedBody ('\'' :: '\'' :: body)
  | char {ch : Char} {body : List Char} (other : ch ≠ '\'') (rest : QuotedBody body) :
      QuotedBody (ch :: body)

/-- The rest of a block comment that is closed, with the number of comments around it. -/
inductive BlockBody : Nat → List Char → Prop
  | close : BlockBody 0 ['*', '/']
  | inner {depth : Nat} {body : List Char} (rest : BlockBody depth body) :
      BlockBody (depth + 1) ('*' :: '/' :: body)
  | nested {depth : Nat} {body : List Char} (rest : BlockBody (depth + 1) body) :
      BlockBody depth ('/' :: '*' :: body)
  | char {depth : Nat} {ch : Char} {body : List Char}
      (notClose : ch = '*' → body.head? ≠ some '/') (notOpen : ch = '/' → body.head? ≠ some '*')
      (rest : BlockBody depth body) : BlockBody depth (ch :: body)

theorem quotedEnd_closed (text : List Char) (more : (quotedEnd text).2 ≠ []) :
    QuotedBody (quotedEnd text).1 ∧ (quotedEnd text).2.head? ≠ some '\'' := by
  fun_induction quotedEnd text with
  | case1 rest induction => exact ⟨.pair (induction more).1, (induction more).2⟩
  | case2 rest single =>
      refine ⟨.close, ?_⟩
      intro front
      obtain ⟨others, same⟩ := List.head?_eq_some_iff.mp front
      exact single others same
  | case3 ch rest double quote induction =>
      exact ⟨.char quote (induction more).1, (induction more).2⟩
  | case4 => exact absurd rfl more

theorem quotedEnd_body {body after : List Char} (closed : QuotedBody body)
    (stops : after.head? ≠ some '\'') : quotedEnd (body ++ after) = (body, after) := by
  induction closed with
  | close =>
      rw [List.singleton_append, quotedEnd]
      rintro rest rfl
      exact stops rfl
  | pair rest induction => rw [List.cons_append, List.cons_append, quotedEnd, induction]
  | char other rest induction =>
      rw [List.cons_append, quotedEnd, induction]
      · rintro others rfl
        exact absurd rfl other
      · exact other

theorem head?_append_of_some {body after : List Char} {ch : Char} (nonempty : body ≠ []) :
    (body ++ after).head? = some ch ↔ body.head? = some ch := by
  obtain ⟨first, rest, rfl⟩ := List.exists_cons_of_ne_nil nonempty
  rfl

theorem BlockBody.ne_nil {depth : Nat} {body : List Char} (closed : BlockBody depth body) :
    body ≠ [] := by
  cases closed <;> exact List.cons_ne_nil _ _

theorem blockEnd_closed (depth : Nat) (text : List Char) (more : (blockEnd depth text).2 ≠ []) :
    BlockBody depth (blockEnd depth text).1 := by
  fun_induction blockEnd depth text with
  | case1 rest => exact .close
  | case2 rest depth induction => exact .inner (induction more)
  | case3 depth rest induction => exact .nested (induction more)
  | case4 depth ch rest notClose notInner notOpen induction =>
      have whole := blockEnd_append depth rest
      have body := induction more
      have front (next : Char) (first : (blockEnd depth rest).1.head? = some next) :
          rest = next :: rest.tail := by
        rw [← head?_append_of_some body.ne_nil, whole] at first
        exact head_eq_cons first
      refine .char ?_ ?_ body
      · intro star first
        cases depth with
        | zero => exact notClose _ rfl star (front _ first)
        | succ depth => exact notInner _ _ rfl star (front _ first)
      · intro slash first
        exact notOpen _ slash (front _ first)
  | case5 => exact absurd rfl more

theorem blockEnd_body {depth : Nat} {body after : List Char} (closed : BlockBody depth body) :
    blockEnd depth (body ++ after) = (body, after) := by
  induction closed with
  | close => rfl
  | inner rest induction => rw [List.cons_append, List.cons_append, blockEnd, induction]
  | nested rest induction => rw [List.cons_append, List.cons_append, blockEnd, induction]
  | char notClose notOpen rest induction =>
      have front {next : Char} {others : List Char} (same : _ ++ after = next :: others) :=
        (head?_append_of_some rest.ne_nil).mp (congrArg List.head? same)
      rw [List.cons_append, blockEnd, induction]
      · exact fun others slash same => notOpen slash (front same)
      · exact fun others _ star same => notClose star (front same)
      · exact fun depth others _ star same => notClose star (front same)

theorem splitOnce_prefix (pattern other : List Char) :
    splitOnce pattern (pattern ++ other) = some ([], other) := by
  cases pattern with
  | nil => cases other <;> rfl
  | cons first rest =>
      have found : (first :: rest).isPrefixOf (first :: (rest ++ other)) = true :=
        List.isPrefixOf_iff_prefix.mpr ⟨other, rfl⟩
      rw [List.cons_append, splitOnce, if_pos found, ← List.cons_append, List.drop_left]

/-- The first place of a pattern does not depend on what follows it. -/
theorem splitOnce_swap {pattern body after : List Char} (other : List Char)
    (split : splitOnce pattern (body ++ pattern ++ after) = some (body, after)) :
    splitOnce pattern (body ++ pattern ++ other) = some (body, other) := by
  induction body with
  | nil => exact splitOnce_prefix pattern other
  | cons ch rest induction =>
      simp only [List.cons_append] at split ⊢
      rw [splitOnce] at split ⊢
      split at split
      · cases split
      · rename_i differs
        obtain ⟨⟨first, last⟩, found, same⟩ := Option.map_eq_some_iff.mp split
        cases same
        rw [induction found, if_neg]
        · rfl
        · intro front
          apply differs
          have inside : pattern <+: ch :: (rest ++ pattern) := by
            apply List.prefix_of_prefix_length_le (List.isPrefixOf_iff_prefix.mp front)
            · exact ⟨other, rfl⟩
            · rw [List.length_cons, List.length_append]
              omega
          exact List.isPrefixOf_iff_prefix.mpr (inside.trans ⟨after, rfl⟩)

theorem tag?_eq_some {text tag : List Char} :
    tag? text = some tag ↔
      text.takeWhile isTagPart = tag ∧ (text.dropWhile isTagPart).head? = some '$' ∧
        tag.head?.all isNameStart = true := by
  unfold tag?
  dsimp only
  constructor
  · intro reads
    split at reads
    · rename_i both
      cases reads
      exact ⟨rfl, both⟩
    · cases reads
  · rintro ⟨rfl, both⟩
    rw [if_pos both]

theorem tag?_swap {tag after : List Char} (other : List Char)
    (reads : tag? (tag ++ '$' :: after) = some tag) : tag? (tag ++ '$' :: other) = some tag := by
  obtain ⟨taken, -, starts⟩ := (tag?_eq_some).mp reads
  have parts : ∀ part ∈ tag, isTagPart part = true := by
    rw [← taken]
    exact fun part member => List.mem_takeWhile_imp member
  have stops : ∀ next, ('$' :: other).head? = some next → isTagPart next = false := by
    rintro next same
    rw [← Option.some.inj same]
    rfl
  obtain ⟨run, rest⟩ := run_append parts stops
  exact (tag?_eq_some).mpr ⟨run, by rw [rest]; rfl, starts⟩

theorem dollarEnd_swap {tag body after : List Char} (other : List Char)
    (ends : dollarEnd tag (body ++ after) = (body, after)) (more : after ≠ []) :
    dollarEnd tag (body ++ other) = (body, other) := by
  unfold dollarEnd at ends
  split at ends
  · rename_i inner rest split
    obtain ⟨same, rfl⟩ := Prod.mk.inj ends
    rw [← same] at split ⊢
    rw [dollarEnd, splitOnce_swap other split]
  · exact absurd (Prod.mk.inj ends).2.symm more

theorem lineEnd_head {text : List Char} {ch : Char} (front : (lineEnd text).2.head? = some ch) :
    ch = '\n' ∨ ch = '\r' := by
  fun_induction lineEnd text with
  | case1 => cases front
  | case2 first rest ends =>
      rw [← Option.some.inj front]
      exact ends.imp_right And.left
  | case3 first rest inside induction => exact induction front

theorem lineEnd_swap {body after other : List Char} (ends : lineEnd (body ++ after) = (body, after))
    (feed : after.head? = some '\n') (otherFeed : other.head? = some '\n') :
    lineEnd (body ++ other) = (body, other) := by
  induction body with
  | nil =>
      rw [List.nil_append, head_eq_cons otherFeed, lineEnd, if_pos (.inl rfl)]
  | cons ch rest induction =>
      have heads : (rest ++ after).head? = (rest ++ other).head? := by
        cases rest with
        | nil => exact feed.trans otherFeed.symm
        | cons first others => rfl
      have nonempty : rest ++ after ≠ [] ∧ rest ++ other ≠ [] := by
        constructor
        · rintro empty
          rw [(List.append_eq_nil_iff.mp empty).2] at feed
          cases feed
        · rintro empty
          rw [(List.append_eq_nil_iff.mp empty).2] at otherFeed
          cases otherFeed
      rw [List.cons_append, lineEnd] at ends ⊢
      split at ends
      · cases (Prod.mk.inj ends).1
      · rename_i inside
        rw [if_neg]
        · obtain ⟨same, rest_eq⟩ := Prod.mk.inj ends
          rw [induction (Prod.ext (List.cons.inj same).2 rest_eq)]
        · rw [← heads]
          rintro (feed | ⟨carriage, -, notFeed⟩)
          · exact inside (.inl feed)
          · exact inside (.inr ⟨carriage, nonempty.1, notFeed⟩)

end SqlToken

end Marreta.Migrations
