import Marreta.Migrations.SqlPlain
import Marreta.Migrations.SqlSlices

namespace Marreta.Migrations

open Foundation.Utf8

/-! Statements and comments in plain SQL texts. -/

namespace SqlToken

/-! ## What the scanners skip -/

theorem skipSingleQuoted_eq (text : List Char) : skipSingleQuoted text = (quotedEnd text).2 := by
  fun_induction quotedEnd text with
  | case1 rest induction => rw [skipSingleQuoted, induction]
  | case2 rest single => rw [skipSingleQuoted]; exact single
  | case3 ch rest double quote induction => rw [skipSingleQuoted_other quote, induction]
  | case4 => rfl

theorem skipLineComment_eq {text : List Char} (feeds : (lineEnd text).2.head? ≠ some '\r') :
    skipLineComment text = (lineEnd text).2 := by
  fun_induction lineEnd text with
  | case1 => rfl
  | case2 ch rest ends =>
      rcases ends with rfl | both
      · rfl
      · rw [both.1] at feeds
        exact absurd rfl feeds
  | case3 ch rest inside induction =>
      have notFeed : ch ≠ '\n' := fun same => inside (.inl same)
      rw [skipLineComment, List.dropWhile_cons_of_pos (by simpa using notFeed)]
      exact induction feeds

theorem hasInfix_cons {pattern rest : List Char} {ch : Char}
    (absent : hasInfix pattern (ch :: rest) = false) :
    pattern.isPrefixOf (ch :: rest) = false ∧ hasInfix pattern rest = false := by
  rw [hasInfix, splitOnce] at absent
  split at absent
  · cases absent
  · rename_i differs
    rw [Option.isSome_map] at absent
    exact ⟨eq_false_of_ne_true differs, absent⟩

theorem skipBlockComment_eq {text : List Char}
    (flat : hasInfix ['/', '*'] (blockEnd 0 text).1 = false) :
    skipBlockComment text = (blockEnd 0 text).2 := by
  fun_induction skipBlockComment text with
  | case1 rest => rfl
  | case2 ch rest closes induction =>
      have notOpen : ∀ others, ch = '/' → rest = '*' :: others → False := by
        rintro others rfl rfl
        have both := hasInfix_cons flat
        cases both.1
      have step : blockEnd 0 (ch :: rest) =
          (ch :: (blockEnd 0 rest).1, (blockEnd 0 rest).2) := by
        rw [blockEnd]
        · exact notOpen
        · exact fun others _ star same => closes others star same
        · exact fun depth others same => by cases same
      rw [step] at flat ⊢
      exact induction (hasInfix_cons flat).2
  | case3 => rfl

theorem isNameStart_eq {ch : Char} (ascii : isAscii ch = true) : isNameStart ch = isTagStart ch := by
  rw [isNameStart, isTagStart, ascii, Bool.not_true, Bool.or_false]

theorem isTagPart_eq {ch : Char} (ascii : isAscii ch = true) : isTagPart ch = isTagChar ch := by
  rw [isTagPart, isNameStart, isTagChar, Char.isAlphanum, ascii, Bool.not_true, Bool.or_false,
    Bool.or_assoc, Bool.or_comm (decide (ch = '_')), Bool.or_assoc]

theorem dollar_stops {keeps : Char → Bool} (outside : keeps '$' = false) {rest : List Char} :
    ∀ next, ('$' :: rest).head? = some next → keeps next = false := by
  rintro next same
  rw [← Option.some.inj same, outside]

/-- The tags that the scanners know are the tags in ASCII. -/
theorem dollarTag?_eq_some {text name : List Char} :
    dollarTag? text = some name ↔
      tag? text = some name ∧ ∀ ch ∈ name, isAscii ch = true := by
  constructor
  · intro tag
    obtain ⟨⟨rest, same⟩, inTag⟩ := dollarTag?_cases tag
    have ascii : ∀ ch ∈ name, isAscii ch = true := fun ch member =>
      isAscii_of_isTagChar (inTag ch member)
    refine ⟨?_, ascii⟩
    have parts : ∀ part ∈ name, isTagPart part = true := fun part member => by
      rw [isTagPart_eq (ascii part member), inTag part member]
    obtain ⟨taken, dropped⟩ := run_append parts (@dollar_stops isTagPart rfl rest)
    rw [tag?_eq_some, same, taken, dropped]
    refine ⟨rfl, rfl, ?_⟩
    cases name with
    | nil => rfl
    | cons first others =>
        rw [List.head?_cons, Option.all_some, isNameStart_eq (ascii first List.mem_cons_self)]
        rw [dollarTag?_eq, same] at tag
        have notDollar : ((first :: others) ++ '$' :: rest).head? ≠ some '$' := by
          intro front
          have outside := inTag first List.mem_cons_self
          rw [Option.some.inj front] at outside
          cases outside
        rw [if_neg notDollar] at tag
        dsimp only [List.cons_append] at tag
        split at tag
        · rename_i both
          exact both.1
        · cases tag
  · rintro ⟨reads, ascii⟩
    obtain ⟨taken, ends, starts⟩ := tag?_eq_some.mp reads
    obtain ⟨rest, same⟩ := tag?_append reads
    have parts : ∀ part ∈ name, isTagChar part = true := fun part member => by
      rw [← isTagPart_eq (ascii part member)]
      rw [← taken] at member
      exact List.mem_takeWhile_imp member
    rw [dollarTag?_eq, same]
    cases name with
    | nil => rfl
    | cons first others =>
        rw [List.forall_mem_cons] at parts
        have notDollar : ((first :: others) ++ '$' :: rest).head? ≠ some '$' := by
          intro front
          have outside := parts.1
          rw [Option.some.inj front] at outside
          cases outside
        obtain ⟨inner, dropped⟩ := run_append parts.2 (@dollar_stops isTagChar rfl rest)
        rw [List.head?_cons, Option.all_some, isNameStart_eq (ascii first List.mem_cons_self)]
          at starts
        rw [if_neg notDollar]
        dsimp only [List.cons_append]
        rw [inner, dropped, if_pos ⟨starts, rfl⟩]

theorem skipDollarQuoted_eq (tag text : List Char) :
    skipDollarQuoted (delimiter tag) text = (dollarEnd tag text).2 := by
  unfold skipDollarQuoted dollarEnd
  cases splitOnce (delimiter tag) text with
  | none => rfl
  | some found => rfl

/-! ## Tokens in the scanners -/

theorem skipLiteral?_of_begins {token : SqlToken} {after : List Char} (begins : token.Begins after)
    (plain : token.Plain after) (literal : token.isLiteral = true) :
    skipLiteral? (token.text ++ after) = some after := by
  cases begins with
  | @quoted body after ends =>
      rw [skipLiteral?_eq]
      change some (skipSingleQuoted (body ++ after)) = some after
      rw [skipSingleQuoted_eq, ends]
  | @dollarQuoted tag body after reads ends =>
      have known : dollarTag? (tag ++ '$' :: (body ++ after)) = some tag :=
        (dollarTag?_eq_some).mpr ⟨reads, plain⟩
      have whole : text (.dollarQuoted tag (delimiter tag ++ body)) ++ after =
          '$' :: (tag ++ '$' :: (body ++ after)) := by
        simp [text, delimiter]
      have dropped : (tag ++ '$' :: (body ++ after)).drop (tag.length + 1) = body ++ after := by
        rw [List.append_cons, List.drop_left']
        simp
      rw [whole, skipLiteral?_eq, if_neg (by simp), if_pos List.head?_cons, List.tail_cons, known,
        Option.map_some, dropped]
      have skips := skipDollarQuoted_eq tag (body ++ after)
      rw [ends] at skips
      exact congrArg some skips
  | lineComment | blockComment | name | number | symbol => cases literal

theorem skips_of_comment {token : SqlToken} {after : List Char} (begins : token.Begins after)
    (plain : token.Plain after) (comment : token.isComment = true) :
    skipLiteral? (token.text ++ after) = none ∧ skipComment? (token.text ++ after) = some after := by
  cases begins with
  | @lineComment body after ends =>
      have skips := @skipLineComment_eq (body ++ after) (by rw [ends]; exact plain)
      rw [ends] at skips
      exact ⟨rfl, congrArg some skips⟩
  | @blockComment body after ends =>
      have skips := @skipBlockComment_eq (body ++ after) (by rw [ends]; exact plain)
      rw [ends] at skips
      exact ⟨rfl, congrArg some skips⟩
  | quoted | dollarQuoted | name | number | symbol => cases comment

theorem skipLiteral?_none {ch : Char} {rest : List Char} (quote : ch ≠ '\'')
    (dollar : ch = '$' → dollarTag? rest = none) : skipLiteral? (ch :: rest) = none := by
  rw [skipLiteral?_eq, List.head?_cons, if_neg fun same => quote (Option.some.inj same)]
  split
  · rename_i same
    rw [List.tail_cons, dollar (Option.some.inj same), Option.map_none]
  · rfl

theorem skipComment?_none {ch : Char} {rest : List Char}
    (line : ¬ (ch = '-' ∧ rest.head? = some '-')) (block : ¬ (ch = '/' ∧ rest.head? = some '*')) :
    skipComment? (ch :: rest) = none := by
  have opens (first second : Char) (found : [first, second].isPrefixOf (ch :: rest) = true) :
      ch = first ∧ rest.head? = some second := by
    obtain ⟨others, same⟩ := List.isPrefixOf_iff_prefix.mp found
    obtain ⟨rfl, rfl⟩ := List.cons.inj same
    exact ⟨rfl, rfl⟩
  rw [skipComment?_eq, if_neg fun found => line (opens _ _ found),
    if_neg fun found => block (opens _ _ found)]

theorem dollarTag?_none {text : List Char} (absent : tag? text = none) :
    dollarTag? text = none := by
  cases tag : dollarTag? text with
  | none => rfl
  | some name =>
      rw [((dollarTag?_eq_some).mp tag).1] at absent
      cases absent

/-- A character of a name is no dollar of a tag, when the name does not look as if it
held one. -/
theorem skips_none_of_part {ch : Char} {rest : List Char} (part : isNamePart ch = true)
    (dollar : ch = '$' → dollarTag? rest = none) :
    skipLiteral? (ch :: rest) = none ∧ skipComment? (ch :: rest) = none := by
  have differs (other : Char) (outside : isNamePart other = false) : ch ≠ other := by
    rintro rfl
    rw [part] at outside
    cases outside
  exact ⟨skipLiteral?_none (differs _ rfl) dollar,
    skipComment?_none (fun both => differs _ rfl both.1) (fun both => differs _ rfl both.1)⟩

/-- At each character of another token nothing is skipped. -/
theorem skips_none {token : SqlToken} {after : List Char} (begins : token.Begins after)
    (plain : token.Plain after) (notLiteral : token.isLiteral = false)
    (regular : token.isComment = false) {before rest : List Char} {ch : Char}
    (same : token.text = before ++ ch :: rest) :
    skipLiteral? (ch :: (rest ++ after)) = none ∧ skipComment? (ch :: (rest ++ after)) = none := by
  cases begins with
  | quoted | dollarQuoted => cases notLiteral
  | lineComment | blockComment => cases regular
  | @name first body after starts parts stops =>
      have member : ch ∈ first :: body := by
        rw [show first :: body = before ++ ch :: rest from same]
        simp
      have part : isNamePart ch = true := by
        rcases List.mem_cons.mp member with rfl | inside
        · rw [isNamePart, isTagPart, starts]
          rfl
        · exact parts ch inside
      apply skips_none_of_part part
      rintro rfl
      cases tag : dollarTag? (rest ++ after) with
      | none => rfl
      | some name =>
          obtain ⟨reads, ascii⟩ := (dollarTag?_eq_some).mp tag
          have inner := tag?_name_swap [] reads stops
          rw [List.append_nil] at inner
          cases (plain before rest same).symm.trans ((dollarTag?_eq_some).mpr ⟨inner, ascii⟩)
  | @number first body after starts parts stops =>
      have member : ch ∈ first :: body := by
        rw [show first :: body = before ++ ch :: rest from same]
        simp
      have part : isTagPart ch = true := by
        rcases List.mem_cons.mp member with rfl | inside
        · rw [isTagPart, starts, Bool.or_true]
        · exact parts ch inside
      apply skips_none_of_part
      · rw [isNamePart, part, Bool.true_or]
      · rintro rfl
        cases part
  | @symbol first after quote line block dollar notName notDigit =>
      obtain ⟨rfl, rfl, rfl⟩ : before = [] ∧ first = ch ∧ rest = [] := by
        cases before with
        | nil =>
            obtain ⟨rfl, rfl⟩ := List.cons.inj same
            exact ⟨rfl, rfl, rfl⟩
        | cons other others =>
            have length := congrArg List.length same
            simp [text] at length
      exact ⟨skipLiteral?_none quote fun same => dollarTag?_none (dollar same),
        skipComment?_none line block⟩

/-! ## Splitting -/

/-- Characters where nothing is skipped and that are no semicolons belong to the
statement. -/
theorem splitFrom_pass {fuel : Nat} {current text after : List Char}
    (passes : ∀ before ch rest, text = before ++ ch :: rest →
      skipLiteral? (ch :: (rest ++ after)) = none ∧ skipComment? (ch :: (rest ++ after)) = none)
    (inside : ';' ∉ text) :
    splitFrom (fuel + text.length) current (text ++ after) =
      splitFrom fuel (current ++ text) after := by
  induction text generalizing current with
  | nil => simp
  | cons ch rest induction =>
      obtain ⟨literal, comment⟩ := passes [] ch rest rfl
      have notEnd : ch ≠ ';' := fun same => inside (by rw [same]; exact List.mem_cons_self)
      have neither : (skipLiteral? (ch :: (rest ++ after)) <|>
          skipComment? (ch :: (rest ++ after))) = none := by
        rw [literal, comment]
        rfl
      rw [List.cons_append, List.length_cons, ← Nat.add_assoc, splitFrom, neither]
      dsimp only
      rw [if_neg notEnd, induction]
      · simp
      · rintro before other others rfl
        exact passes (ch :: before) other others rfl
      · exact fun member => inside (List.mem_cons_of_mem _ member)

theorem textOf_eq_nil {list : List SqlToken} (each : ∀ token ∈ list, token.text ≠ []) :
    textOf list = [] ↔ list = [] := by
  cases list with
  | nil => simp
  | cons token others =>
      have front := each token List.mem_cons_self
      simp [front]

theorem semicolon_not_mem {token : SqlToken} {after : List Char} (begins : token.Begins after)
    (notLiteral : token.isLiteral = false) (regular : token.isComment = false)
    (inside : token ≠ .symbol ';') : ';' ∉ token.text := by
  intro member
  cases begins with
  | quoted | dollarQuoted => cases notLiteral
  | lineComment | blockComment => cases regular
  | name starts parts | number starts parts =>
      rcases List.mem_cons.mp member with rfl | inBody
      · cases starts
      · cases parts _ inBody
  | symbol => exact inside (by rw [List.mem_singleton.mp member])

theorem isLiteral_ne_semicolon {token : SqlToken}
    (skipped : token.isLiteral = true ∨ token.isComment = true) : token ≠ .symbol ';' := by
  rintro rfl
  rcases skipped with same | same
  · cases same
  · cases same

/-- What the scanners do at a literal or a comment. -/
theorem skips_of_begins {token : SqlToken} {after : List Char} (begins : token.Begins after)
    (plain : token.Plain after) (skipped : token.isLiteral = true ∨ token.isComment = true) :
    (skipLiteral? (token.text ++ after) <|> skipComment? (token.text ++ after)) = some after := by
  rcases skipped with literal | comment
  · rw [skipLiteral?_of_begins begins plain literal]
    rfl
  · obtain ⟨literal, comment⟩ := skips_of_comment begins plain comment
    rw [literal, comment]
    rfl

/-- In a plain text the scanner cuts at the semicolons that are tokens. -/
theorem splitFrom_segments {fuel : Nat} {current list : List SqlToken} (readable : Readable list)
    (plain : PlainIn list) (each : ∀ token ∈ current, token.text ≠ [])
    (enough : (textOf list).length < fuel) :
    splitFrom fuel (textOf current) (textOf list) = (segments current list).map textOf := by
  induction list generalizing fuel current with
  | nil =>
      cases fuel with
      | zero => omega
      | succ fuel =>
          rw [textOf_nil, splitFrom, segments]
          by_cases empty : current = []
          · rw [if_pos empty, if_pos ((textOf_eq_nil each).mpr empty)]
            rfl
          · rw [if_neg empty, if_neg fun same => empty ((textOf_eq_nil each).mp same)]
            rfl
  | cons token others induction =>
      obtain ⟨begins, readableOthers⟩ := readable
      obtain ⟨plainToken, plainOthers⟩ := plain
      have eachNext : ∀ next ∈ current ++ [token], next.text ≠ [] := by
        rw [List.forall_mem_append, List.forall_mem_singleton]
        exact ⟨each, begins.ne_nil⟩
      have positive := List.length_pos_iff.mpr begins.ne_nil
      rw [textOf_cons, List.length_append] at enough
      rw [textOf_cons, segments]
      by_cases skipped : token.isLiteral = true ∨ token.isComment = true
      · have skips := skips_of_begins begins plainToken skipped
        have next := @induction (fuel - 1) (current ++ [token]) readableOthers plainOthers eachNext
          (by omega)
        obtain ⟨ch, body, same⟩ := List.exists_cons_of_ne_nil begins.ne_nil
        rw [if_neg (isLiteral_ne_semicolon skipped), ← next]
        obtain ⟨remaining, rfl⟩ := Nat.exists_eq_add_of_le' (show 1 ≤ fuel by omega)
        rw [same, List.cons_append] at skips ⊢
        rw [splitFrom, skips]
        dsimp only
        rw [← List.cons_append, skipped_of_append, ← same, Nat.add_sub_cancel, textOf_append,
          textOf_cons, textOf_nil, List.append_nil]
      · rw [not_or, Bool.not_eq_true, Bool.not_eq_true] at skipped
        by_cases semicolon : token = .symbol ';'
        · subst semicolon
          have neither := skips_none begins plainToken rfl rfl (@List.nil_append _ [';']).symm
          have cuts : (skipLiteral? (';' :: textOf others) <|> skipComment? (';' :: textOf others)) =
              none := by
            rw [List.nil_append] at neither
            rw [neither.1, neither.2]
            rfl
          have next := @induction (fuel - 1) [] readableOthers plainOthers (by simp)
            (by rw [show text (.symbol ';') = [';'] from rfl] at enough; simp at enough; omega)
          obtain ⟨remaining, rfl⟩ := Nat.exists_eq_add_of_le' (show 1 ≤ fuel by omega)
          rw [if_pos rfl, List.map_cons, ← next, Nat.add_sub_cancel]
          change splitFrom (remaining + 1) _ (';' :: textOf others) = _
          rw [splitFrom, cuts]
          dsimp only
          rw [if_pos rfl, textOf_nil]
        · have inside := semicolon_not_mem begins skipped.1 skipped.2 semicolon
          have next := @induction (fuel - token.text.length) (current ++ [token]) readableOthers
            plainOthers eachNext (by omega)
          obtain ⟨remaining, rfl⟩ := Nat.exists_eq_add_of_le' (show token.text.length ≤ fuel by omega)
          rw [if_neg semicolon, ← next, Nat.add_sub_cancel, splitFrom_pass
            (fun before ch rest same => skips_none begins plainToken skipped.1 skipped.2 same)
            inside, textOf_append, textOf_cons, textOf_nil, List.append_nil]

/-! ## Stripping -/

theorem stripFrom_pass {fuel : Nat} {text after : List Char}
    (passes : ∀ before ch rest, text = before ++ ch :: rest →
      skipLiteral? (ch :: (rest ++ after)) = none ∧
        skipComment? (ch :: (rest ++ after)) = none) :
    stripFrom (fuel + text.length) (text ++ after) = text ++ stripFrom fuel after := by
  induction text with
  | nil => rfl
  | cons ch rest induction =>
      obtain ⟨literal, comment⟩ := passes [] ch rest rfl
      rw [List.cons_append, List.length_cons, ← Nat.add_assoc, stripFrom, literal, comment]
      dsimp only
      rw [induction]
      · rfl
      · rintro before other others rfl
        exact passes (ch :: before) other others rfl

/-- In a plain text the scanner removes the comments. -/
theorem stripFrom_kept {fuel : Nat} {list : List SqlToken} (readable : Readable list)
    (plain : PlainIn list) (enough : (textOf list).length < fuel) :
    stripFrom fuel (textOf list) = textOf (kept list) := by
  induction list generalizing fuel with
  | nil =>
      cases fuel with
      | zero => omega
      | succ fuel => rfl
  | cons token others induction =>
      obtain ⟨begins, readableOthers⟩ := readable
      obtain ⟨plainToken, plainOthers⟩ := plain
      have positive := List.length_pos_iff.mpr begins.ne_nil
      obtain ⟨ch, body, same⟩ := List.exists_cons_of_ne_nil begins.ne_nil
      rw [textOf_cons, List.length_append] at enough
      rw [textOf_cons]
      cases literal : token.isLiteral with
      | true =>
          have keeps : kept (token :: others) = token :: kept others := by
            cases begins with
            | quoted | dollarQuoted => rfl
            | lineComment | blockComment | name | number | symbol => cases literal
          have skips := skipLiteral?_of_begins begins plainToken literal
          have next := @induction (fuel - 1) readableOthers plainOthers (by omega)
          obtain ⟨remaining, rfl⟩ := Nat.exists_eq_add_of_le' (show 1 ≤ fuel by omega)
          rw [keeps, textOf_cons, ← next, Nat.add_sub_cancel]
          rw [same, List.cons_append] at skips ⊢
          rw [stripFrom, skips]
          dsimp only
          rw [← List.cons_append, skipped_of_append]
      | false =>
          cases comment : token.isComment with
          | true =>
              have keeps : kept (token :: others) = kept others := by simp [kept, comment]
              have skips := skips_of_comment begins plainToken comment
              have next := @induction (fuel - 1) readableOthers plainOthers (by omega)
              obtain ⟨remaining, rfl⟩ := Nat.exists_eq_add_of_le' (show 1 ≤ fuel by omega)
              rw [keeps, ← next, Nat.add_sub_cancel]
              rw [same, List.cons_append] at skips ⊢
              rw [stripFrom, skips.1, skips.2]
          | false =>
              have keeps : kept (token :: others) = token :: kept others := by
                simp [kept, comment]
              have next := @induction (fuel - token.text.length) readableOthers plainOthers
                (by omega)
              obtain ⟨remaining, rfl⟩ :=
                Nat.exists_eq_add_of_le' (show token.text.length ≤ fuel by omega)
              rw [keeps, textOf_cons, ← next, Nat.add_sub_cancel, stripFrom_pass]
              exact fun before ch rest same =>
                skips_none begins plainToken literal comment same

/-! ## Joining -/

theorem splitFrom_eq_nil {fuel : Nat} {current text : List Char} (enough : text.length < fuel)
    (empty : splitFrom fuel current text = []) : current = [] ∧ text = [] := by
  induction fuel generalizing current text with
  | zero => omega
  | succ fuel induction =>
      cases text with
      | nil =>
          rw [splitFrom] at empty
          split at empty
          · rename_i same
            exact ⟨same, rfl⟩
          · cases empty
      | cons ch rest =>
          rw [List.length_cons] at enough
          rw [splitFrom] at empty
          split at empty
          · rename_i after skips
            have suffix := skips_suffix skips
            have length := suffix.length_le
            obtain ⟨nothing, -⟩ := induction (by omega) empty
            have joined := skipped_append (suffix.trans (List.suffix_cons ch rest))
            rw [(List.append_eq_nil_iff.mp nothing).2, List.nil_append] at joined
            rw [joined, List.length_cons] at length
            omega
          · split at empty
            · cases empty
            · obtain ⟨nothing, -⟩ := induction (by omega) empty
              simp at nothing

/-- The statements with a semicolon between them are the text, up to a semicolon at the
end of the text. -/
theorem splitFrom_join {fuel : Nat} {current text : List Char} (enough : text.length < fuel) :
    [';'].intercalate (splitFrom fuel current text) = current ++ text ∨
      [';'].intercalate (splitFrom fuel current text) ++ [';'] = current ++ text := by
  induction fuel generalizing current text with
  | zero => omega
  | succ fuel induction =>
      cases text with
      | nil =>
          rw [splitFrom, List.append_nil]
          split
          · rename_i same
            exact .inl same.symm
          · exact .inl (List.intercalate_singleton)
      | cons ch rest =>
          rw [List.length_cons] at enough
          rw [splitFrom]
          split
          · rename_i after skips
            have suffix := skips_suffix skips
            have length := suffix.length_le
            have joined := skipped_append (suffix.trans (List.suffix_cons ch rest))
            have next := @induction (current ++ skipped (ch :: rest) after) after (by omega)
            rw [List.append_assoc, joined] at next
            exact next
          · split
            · rename_i semicolon
              subst semicolon
              by_cases last : splitFrom fuel [] rest = []
              · obtain ⟨-, rfl⟩ := splitFrom_eq_nil (by omega) last
                rw [last, List.intercalate_singleton]
                exact .inr rfl
              · rw [List.intercalate_cons_of_ne_nil last]
                have next := @induction [] rest (by omega)
                rw [List.nil_append] at next
                rcases next with next | next
                · rw [next]
                  exact .inl (by simp)
                · right
                  rw [List.append_assoc, next]
                  simp
            · have next := @induction (current ++ [ch]) rest (by omega)
              rw [List.append_assoc, List.singleton_append] at next
              exact next

end SqlToken

/-! ## Statements and their comments -/

/-- The text is sliced into statements at characters, they give the text back, and the
semicolons between them are those that are tokens. -/
structure Splits (sql : List Char) (statements : List (List Char)) : Prop where
  sliced : splitSlices sql = some statements
  joined : [';'].intercalate statements = sql ∨ [';'].intercalate statements ++ [';'] = sql
  outside : statements = SqlToken.statements sql

/-- The statement is stripped of its comments for good, and has its literals. -/
structure Strips (statement stripped : List Char) : Prop where
  sliced : stripSlices statement = some stripped
  comments : SqlToken.comments stripped = []
  again : stripSlices stripped = some stripped
  literals : SqlToken.literals stripped = SqlToken.literals statement

/-- The scanners do for the text what Postgres does. -/
def ReadsStatements (sql : List Char) : Prop :=
  ∃ statements, Splits sql statements ∧ ∀ statement ∈ statements, ∃ stripped, Strips statement stripped

theorem strips_of_plain {list : List SqlToken} (readable : SqlToken.Readable list)
    (plain : SqlToken.PlainIn list) (apart : SqlToken.Apart list) :
    Strips (SqlToken.textOf list) (SqlToken.textOf (SqlToken.kept list)) := by
  obtain ⟨readableKept, plainKept⟩ := SqlToken.readable_kept readable plain apart
  have twice : SqlToken.kept (SqlToken.kept list) = SqlToken.kept list := by
    simp [SqlToken.kept]
  constructor
  · rw [stripSlices_eq, stripSqlComments, SqlToken.stripFrom_kept readable plain]
    exact Nat.lt_succ_self _
  · rw [SqlToken.comments, SqlToken.tokens_textOf readableKept, SqlToken.kept, List.filter_filter]
    simp
  · rw [stripSlices_eq, stripSqlComments, SqlToken.stripFrom_kept readableKept plainKept, twice]
    exact Nat.lt_succ_self _
  · rw [SqlToken.literals, SqlToken.literals, SqlToken.tokens_textOf readableKept,
      SqlToken.tokens_textOf readable, SqlToken.kept, List.filter_filter]
    apply List.filter_congr
    intro token member
    cases token <;> rfl

/-- Plain texts without comments between tokens that join are read as Postgres reads
them. -/
theorem readsStatements_of_plain {sql : List Char} (plain : SqlToken.PlainIn (SqlToken.tokens sql))
    (apart : SqlToken.Apart (SqlToken.tokens sql)) : ReadsStatements sql := by
  have readable := SqlToken.readable_tokens sql
  have split : splitSqlStatements sql = SqlToken.statements sql := by
    have loop := @SqlToken.splitFrom_segments (sql.length + 1) [] _ readable plain (by simp)
      (by rw [SqlToken.textOf_tokens]; exact Nat.lt_succ_self _)
    rw [SqlToken.textOf_tokens] at loop
    exact loop
  refine ⟨splitSqlStatements sql, ⟨splitSlices_eq sql, ?_, split⟩, ?_⟩
  · have joined := @SqlToken.splitFrom_join (sql.length + 1) [] sql (Nat.lt_succ_self _)
    exact joined
  · rw [split, SqlToken.statements]
    intro statement member
    obtain ⟨segment, inside, rfl⟩ := List.mem_map.mp member
    obtain ⟨first, last, whole⟩ := SqlToken.exists_append_of_segment inside
    rw [List.nil_append] at whole
    obtain ⟨segmentReadable, segmentPlain⟩ := SqlToken.readable_segments
      (by rw [List.nil_append]; exact readable) (by rw [List.nil_append]; exact plain) segment
      inside
    rw [whole] at apart
    exact ⟨_, strips_of_plain segmentReadable segmentPlain (SqlToken.apart_of_append apart)⟩

theorem readsStatements_literal : ReadsStatements "a ';' /* ; */;".toList := by
  have read : SqlToken.tokens "a ';' /* ; */;".toList =
      [.name ['a'], .symbol ' ', .quoted "';'".toList, .symbol ' ',
        .blockComment "/* ; */".toList, .symbol ';'] := by
    decide +kernel
  apply readsStatements_of_plain
  · rw [read]
    refine ⟨?_, trivial, trivial, trivial, ?_, trivial, trivial⟩
    · intro before rest same
      cases before with
      | nil => cases same
      | cons ch others => simp at same
    · change hasInfix ['/', '*'] ("/* ; */".toList.drop 2) = false
      decide +kernel
  · rw [read]
    iterate 5
      apply SqlToken.apart_cons
      · intro right same
        cases same
        rfl
    apply SqlToken.apart_cons
    · intro right same
      cases same
    · exact SqlToken.apart_nil

/-- Postgres reads one statement: the comment goes on to its second end. -/
theorem nested_comment_cut :
    ¬ ReadsStatements "/* /* */ ; */".toList ∧ ¬ ReadsStatements "-/**/-".toList := by
  constructor
  · rintro ⟨statements, ⟨sliced, -, outside⟩, -⟩
    rw [splitSlices_eq, outside] at sliced
    have differs : splitSqlStatements "/* /* */ ; */".toList ≠
        SqlToken.statements "/* /* */ ; */".toList := by
      decide +kernel
    exact differs (Option.some.inj sliced)
  · rintro ⟨statements, ⟨sliced, -, -⟩, each⟩
    rw [splitSlices_eq] at sliced
    have single : splitSqlStatements "-/**/-".toList = ["-/**/-".toList] := by decide +kernel
    rw [single] at sliced
    obtain ⟨stripped, strips⟩ := each "-/**/-".toList (by
      rw [← Option.some.inj sliced]
      exact List.mem_cons_self)
    have joined : stripSqlComments "-/**/-".toList = "--".toList := by decide +kernel
    have same := strips.sliced
    rw [stripSlices_eq, joined] at same
    have comment : SqlToken.comments "--".toList ≠ [] := by decide +kernel
    rw [Option.some.inj same] at comment
    exact comment strips.comments

end Marreta.Migrations
