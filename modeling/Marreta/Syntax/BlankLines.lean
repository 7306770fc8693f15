import Marreta.Syntax.Runs

namespace Marreta

/-! Blank lines and comment lines between the lines of a source. -/

/-! ## Lines between the lines -/

/-- Whitespace, and a comment after it or nothing. -/
def BlankLine (line : List Char) : Prop :=
  ∃ white comment, line = white ++ comment ∧ (∀ ch ∈ white, ch = ' ' ∨ ch = '\t') ∧
    (comment = [] ∨ comment.head? = some '#') ∧ '\n' ∉ comment ∧ '\r' ∉ comment

/-- No line break is due: the last line has got its own, or needs none. -/
def Scan.Quiet (scan : Scan) : Prop :=
  scan.nestingDepth = 0 →
    (shouldSuppressNewline scan.kinds || decide (scan.kinds.head? = some .newline)) = true

theorem Scan.quiet_breakLine (scan : Scan) : scan.breakLine.Quiet := by
  rw [Scan.breakLine]
  split
  · intro outside
    change scan.nestingDepth = 0 at outside
    omega
  split
  · rename_i quiet
    exact fun _ => quiet
  · intro _
    have head : ∀ items, ({ scan with items := .newline :: items, lineBlank := true } : Scan).kinds.head? =
        some .newline := fun _ => rfl
    simp [head]

theorem Scan.Quiet.breakLine {scan : Scan} (quiet : scan.Quiet) : scan.breakLine.Alike scan := by
  rw [Scan.breakLine]
  split
  · exact ⟨rfl, rfl, rfl⟩
  · rename_i nested
    rw [if_pos (quiet (by omega))]
    exact ⟨rfl, rfl, rfl⟩

theorem Runs.quiet {text : List Char} {start : Bool} {scan final : Scan}
    (runs : Runs (text ++ ['\n']) start scan final) : final.Quiet := by
  generalize whole : text ++ ['\n'] = read at runs
  induction runs generalizing text with
  | ends => simp at whole
  | @skip ch rest scan middle skipped _ ih =>
      cases text with
      | nil =>
          obtain rfl : '\n' = ch := (List.cons.inj whole).1
          simp [isSkipped] at skipped
      | cons first text => exact ih (List.cons.inj whole).2
  | @newline rest scan middle runs ih =>
      cases text with
      | nil =>
          obtain rfl : [] = rest := (List.cons.inj whole).2
          obtain rfl := nil_iff.mp runs
          exact scan.quiet_breakLine
      | cons first text => exact ih (List.cons.inj whole).2
  | @lexeme read rest lexeme scan middle visible found _ ih =>
      subst whole
      obtain ⟨inner, rfl, -⟩ := lexemeAt_feed found
      exact ih rfl
  | @indent read scan next middle nonempty indents _ ih =>
      subst whole
      exact ih (dropSpaces_feed text []).symm

theorem lexemeAt_commentLine {comment : List Char} (hash : comment.head? = some '#')
    (oneLine : '\n' ∉ comment) (tail : List Char) :
    lexemeAt (comment ++ '\n' :: tail) = some (.comment comment, '\n' :: tail) := by
  obtain ⟨text, rfl⟩ := List.head?_eq_some_iff.mp hash
  have plain : ∀ ch ∈ '#' :: text, decide (ch ≠ '\n') = true := by
    intro ch member
    have differs : ch ≠ '\n' := by
      rintro rfl
      exact oneLine member
    simpa using differs
  rw [List.cons_append, lexemeAt, if_pos rfl, ← List.cons_append,
    List.takeWhile_append_of_pos plain, List.dropWhile_append_of_pos plain]
  simp

/-- Inside a line only the line break at its end counts. -/
theorem Runs.blank_iff {line : List Char} (blank : BlankLine line) (scan : Scan)
    (tail : List Char) :
    ∃ after, scan.breakLine.Alike after ∧ ∀ final,
      Runs (line ++ '\n' :: tail) false scan final ↔
        Runs tail (decide (scan.nestingDepth = 0)) after final := by
  obtain ⟨spaces, comment, rfl, white, hash, oneLine, -⟩ := blank
  induction spaces with
  | cons ch spaces ih =>
      have skipped : isSkipped ch = true := by
        rcases white ch (by simp) with rfl | rfl <;> rfl
      obtain ⟨after, alike, same⟩ := ih fun ch member => white ch (by simp [member])
      refine ⟨after, alike, fun final => ?_⟩
      rw [List.cons_append, List.cons_append, skip_iff skipped]
      exact same final
  | nil =>
      rcases hash with rfl | hash
      · exact ⟨_, ⟨rfl, rfl, rfl⟩, fun final => newline_iff⟩
      · have visible : (comment ++ '\n' :: tail).head?.any
            (fun ch => !isSkipped ch && ch ≠ '\n') = true := by
          obtain ⟨text, rfl⟩ := List.head?_eq_some_iff.mp hash
          rfl
        refine ⟨(scan.read (.comment comment)).breakLine, ?_, fun final => ?_⟩
        · apply Scan.Alike.breakLine
          exact ⟨rfl, rfl, rfl⟩
        · rw [List.nil_append, lexeme_iff visible (lexemeAt_commentLine hash oneLine tail),
            newline_iff]
          rfl

/-! ## Where lines begin -/

/-- `before` ends a line of a source that goes on with `after`. -/
def LineBoundary (before after : List Char) : Prop :=
  before = [] ∨ before.getLast? = some '\n' ∨
    before.getLast? = some '\r' ∧ after.head? ≠ some '\n'

theorem normalizeLineEndings_carriage {rest : List Char} (next : rest.head? ≠ some '\n') :
    normalizeLineEndings ('\r' :: rest) = '\n' :: normalizeLineEndings rest := by
  rw [normalizeLineEndings]
  rintro _ rfl
  exact next rfl

theorem normalizeLineEndings_plain {ch : Char} (plain : ch ≠ '\r') (rest : List Char) :
    normalizeLineEndings (ch :: rest) = ch :: normalizeLineEndings rest := by
  rw [normalizeLineEndings]
  · exact fun _ same => absurd same plain
  · exact plain

theorem normalizeLineEndings_append {before after : List Char}
    (apart : before.getLast? = some '\r' → after.head? ≠ some '\n') :
    normalizeLineEndings (before ++ after) =
      normalizeLineEndings before ++ normalizeLineEndings after := by
  induction before using normalizeLineEndings.induct with
  | case1 => rfl
  | case2 rest ih =>
      rw [List.cons_append, List.cons_append, normalizeLineEndings, normalizeLineEndings, ih]
      · rfl
      · intro last
        apply apart
        rw [List.getLast?_cons, List.getLast?_cons, last]
        rfl
  | case3 rest single ih =>
      have here : rest.head? ≠ some '\n' := by
        intro head
        obtain ⟨text, rfl⟩ := List.head?_eq_some_iff.mp head
        exact single text rfl
      have there : (rest ++ after).head? ≠ some '\n' := by
        cases rest with
        | nil => exact apart rfl
        | cons ch rest => exact here
      rw [List.cons_append, normalizeLineEndings_carriage there, normalizeLineEndings_carriage here,
        ih]
      · rfl
      · intro last
        apply apart
        rw [List.getLast?_cons, last]
        rfl
  | case4 ch rest pair plain ih =>
      have differs : ch ≠ '\r' := plain
      rw [List.cons_append, normalizeLineEndings_plain differs, normalizeLineEndings_plain differs,
        ih]
      · rfl
      · intro last
        apply apart
        rw [List.getLast?_cons, last]
        rfl

theorem normalizeLineEndings_self {text : List Char} (carriage : '\r' ∉ text) :
    normalizeLineEndings text = text := by
  induction text with
  | nil => rfl
  | cons ch text ih =>
      rw [List.mem_cons, not_or] at carriage
      rw [normalizeLineEndings_plain (Ne.symm carriage.1), ih carriage.2]

theorem normalizeLineEndings_line {line : List Char} (carriage : '\r' ∉ line) (tail : List Char) :
    normalizeLineEndings (line ++ '\n' :: tail) = line ++ '\n' :: normalizeLineEndings tail := by
  rw [normalizeLineEndings_append, normalizeLineEndings_self carriage,
    normalizeLineEndings_plain (by decide)]
  exact fun last => absurd (List.mem_of_getLast? last) carriage

theorem normalizeLineEndings_ends {text : List Char}
    (ends : text.getLast? = some '\n' ∨ text.getLast? = some '\r') :
    ∃ lines, normalizeLineEndings text = lines ++ ['\n'] := by
  rcases ends with feed | carriage
  · obtain ⟨front, rfl⟩ := List.getLast?_eq_some_iff.mp feed
    by_cases paired : front.getLast? = some '\r'
    · obtain ⟨start, rfl⟩ := List.getLast?_eq_some_iff.mp paired
      refine ⟨normalizeLineEndings start, ?_⟩
      rw [List.append_assoc, normalizeLineEndings_append (by simp)]
      rfl
    · refine ⟨normalizeLineEndings front, ?_⟩
      rw [normalizeLineEndings_append fun last => absurd last paired]
      rfl
  · obtain ⟨front, rfl⟩ := List.getLast?_eq_some_iff.mp carriage
    refine ⟨normalizeLineEndings front, ?_⟩
    rw [normalizeLineEndings_append (by simp)]
    rfl

/-- The text up to a line boundary, line endings unified. -/
theorem LineBoundary.lines {before after : List Char} (boundary : LineBoundary before after) :
    normalizeLineEndings (before ++ after) =
        normalizeLineEndings before ++ normalizeLineEndings after ∧
      (normalizeLineEndings before = [] ∨
        ∃ lines, normalizeLineEndings before = lines ++ ['\n']) := by
  rcases boundary with rfl | feed | ⟨carriage, next⟩
  · exact ⟨rfl, .inl rfl⟩
  · exact ⟨normalizeLineEndings_append (by simp [feed]),
      .inr (normalizeLineEndings_ends (.inl feed))⟩
  · exact ⟨normalizeLineEndings_append fun _ => next,
      .inr (normalizeLineEndings_ends (.inr carriage))⟩

/-- From a line boundary on, a run depends on the scan reached there. -/
theorem Runs.boundary {text : List Char} (lines : text = [] ∨ ∃ lines, text = lines ++ ['\n'])
    {middle : Scan} (runs : Runs text true Scan.start middle) :
    middle.Quiet ∧ ∀ tail final, Runs (text ++ tail) true Scan.start final ↔
      Runs tail (decide (middle.nestingDepth = 0)) middle final := by
  rcases lines with rfl | ⟨lines, rfl⟩
  · obtain rfl := nil_iff.mp runs
    exact ⟨fun _ => rfl, fun tail final => Iff.rfl⟩
  · refine ⟨runs.quiet, fun tail final => ?_⟩
    rw [List.append_assoc]
    exact runs.append_iff tail final

theorem BlankLine.dropSpaces {line : List Char} (blank : BlankLine line) :
    BlankLine (line.dropWhile (· = ' ')) := by
  obtain ⟨spaces, comment, rfl, white, hash, plain⟩ := blank
  induction spaces with
  | nil =>
      have same : comment.dropWhile (· = ' ') = comment := by
        rcases hash with rfl | hash
        · rfl
        · obtain ⟨text, rfl⟩ := List.head?_eq_some_iff.mp hash
          rfl
      rw [List.nil_append, same]
      exact ⟨[], comment, rfl, by simp, hash, plain⟩
  | cons ch spaces ih =>
      by_cases space : ch = ' '
      · rw [List.cons_append, List.dropWhile_cons_of_pos (by simpa using space)]
        exact ih fun ch member => white ch (by simp [member])
      · rw [List.cons_append, List.dropWhile_cons_of_neg (by simpa using space), ← List.cons_append]
        exact ⟨ch :: spaces, comment, rfl, white, hash, plain⟩

theorem BlankLine.head {line : List Char} (blank : BlankLine line) :
    ∀ ch ∈ line.head?, ch = ' ' ∨ ch = '\t' ∨ ch = '#' := by
  obtain ⟨spaces, comment, rfl, white, hash, -⟩ := blank
  intro ch head
  cases spaces with
  | cons first spaces =>
      obtain rfl : first = ch := Option.some.inj head
      exact (white first (by simp)).imp_right .inl
  | nil =>
      rcases hash with rfl | hash
      · cases head
      · rw [List.nil_append, hash] at head
        exact .inr (.inr (Option.some.inj head).symm)

/-- A tab after the spaces of a blank line counts as text. -/
theorem BlankLine.indentAt {line : List Char} (blank : BlankLine line) (scan : Scan)
    (tail : List Char) :
    scan.indentAt (line ++ '\n' :: tail) =
      if (line.dropWhile (· = ' ')).head? = some '\t' then
        scan.indentTo (line.takeWhile (· = ' ')).length
      else some scan := by
  have breaks : Breaks ('\n' :: tail) := by simp [Breaks]
  obtain ⟨taken, dropped⟩ := Lexer.span_breaks (p := (· = ' ')) rfl breaks line
  rw [Scan.indentAt, taken, dropped]
  have head := blank.dropSpaces.head
  have stops := List.head?_dropWhile_not (· = ' ') line
  cases rest : line.dropWhile (· = ' ') with
  | nil => rfl
  | cons ch rest' =>
      rw [rest] at head stops
      rcases head ch rfl with rfl | rfl | rfl
      · simp at stops
      · rfl
      · rfl

theorem Runs.blankStart_iff {line : List Char} (blank : BlankLine line) (scan final : Scan)
    (tail : List Char) :
    Runs (line ++ '\n' :: tail) true scan final ↔
      ∃ next, (if (line.dropWhile (· = ' ')).head? = some '\t' then
          scan.indentTo (line.takeWhile (· = ' ')).length else some scan) = some next ∧
        Runs (line.dropWhile (· = ' ') ++ '\n' :: tail) false next final := by
  have breaks : Breaks ('\n' :: tail) := by simp [Breaks]
  obtain ⟨-, dropped⟩ := Lexer.span_breaks (p := (· = ' ')) rfl breaks line
  have nonempty : (line ++ '\n' :: tail).dropWhile (· = ' ') ≠ [] := by simp [dropped]
  rw [indent_iff nonempty, blank.indentAt, dropped]

/-- Where the lexer skips a blank line: inside brackets, and outside when no tab
stands before its text, or the spaces before the tab are the current indentation. -/
def Scan.Skips (scan : Scan) (line : List Char) : Prop :=
  0 < scan.nestingDepth ∨ (line.dropWhile (· = ' ')).head? ≠ some '\t' ∨
    (line.takeWhile (· = ' ')).length = scan.indentStack.headD 0

theorem Scan.indentTo_headD (scan : Scan) :
    scan.indentTo (scan.indentStack.headD 0) = some scan := by
  simp [Scan.indentTo]

theorem Runs.skips {line : List Char} (blank : BlankLine line) {scan : Scan} (quiet : scan.Quiet)
    (skips : scan.Skips line) {tail : List Char} {final : Scan}
    (runs : Runs tail (decide (scan.nestingDepth = 0)) scan final) :
    ∃ done, Runs (line ++ '\n' :: tail) (decide (scan.nestingDepth = 0)) scan done ∧
      final.Alike done := by
  have inside : ∀ line, BlankLine line →
      ∃ done, Runs (line ++ '\n' :: tail) false scan done ∧ final.Alike done := by
    intro line blank
    obtain ⟨after, alike, same⟩ := blank_iff blank scan tail
    obtain ⟨done, rest, agrees⟩ := runs.alike (quiet.breakLine.symm.trans alike)
    exact ⟨done, (same done).mpr rest, agrees⟩
  by_cases outside : scan.nestingDepth = 0
  · obtain ⟨done, rest, agrees⟩ := inside _ blank.dropSpaces
    refine ⟨done, ?_, agrees⟩
    rw [decide_eq_true outside, blankStart_iff blank]
    refine ⟨scan, ?_, rest⟩
    rcases skips with nested | plain | level
    · omega
    · rw [if_neg plain]
    · rw [level, scan.indentTo_headD, ite_self]
  · rw [decide_eq_false outside]
    exact inside line blank

/-! ## Boundaries inside a string literal -/

/-- A string literal that is still open at the end of a line adds what it holds so
far to whatever closes it. -/
theorem stringBody_open {body tail : List Char} (unclosed : Lexer.stringBody body = none)
    (closes : (Lexer.stringBody (body ++ tail)).isSome = true)
    (ends : body = [] ∨ body.getLast? = some '\n') :
    ∃ value, ∀ more, Lexer.stringBody (body ++ more) =
      (Lexer.stringBody more).map fun (inner, rest) => (value ++ inner, rest) := by
  induction body using stringBody_induction with
  | nil => exact ⟨[], fun more => by simp⟩
  | quote rest => simp [Lexer.stringBody] at unclosed
  | feed rest => simp [Lexer.stringBody] at closes
  | cut => simp at ends
  | escape escaped rest ih =>
      rw [Lexer.stringBody, Option.map_eq_none_iff] at unclosed
      rw [List.cons_append, List.cons_append, Lexer.stringBody, Option.isSome_map] at closes
      obtain ⟨value, everywhere⟩ := ih unclosed closes (by
        cases rest with
        | nil => exact .inl rfl
        | cons ch rest => simpa using ends)
      refine ⟨Lexer.unescape escaped ++ value, fun more => ?_⟩
      rw [List.cons_append, List.cons_append, Lexer.stringBody, everywhere, Option.map_map]
      simp [Function.comp_def]
  | plain ch rest quote feed escape ih =>
      rw [stringBody_plain quote feed escape, Option.map_eq_none_iff] at unclosed
      rw [List.cons_append, stringBody_plain quote feed escape, Option.isSome_map] at closes
      obtain ⟨value, everywhere⟩ := ih unclosed closes (by
        cases rest with
        | nil => simp [feed] at ends
        | cons next rest => simpa using ends)
      refine ⟨ch :: value, fun more => ?_⟩
      rw [List.cons_append, stringBody_plain quote feed escape, everywhere, Option.map_map]
      simp [Function.comp_def]

/-- A lexeme that needs more than the line is a string literal. -/
theorem string_of_crossing {text tail rest : List Char} {lexeme : Lexeme}
    (absent : lexemeAt (text ++ ['\n']) = none)
    (found : lexemeAt (text ++ '\n' :: tail) = some (lexeme, rest)) :
    ∃ body, text ++ ['\n'] = '"' :: body ∧ Lexer.stringBody body = none ∧
      (Lexer.stringBody (body ++ tail)).isSome = true := by
  obtain ⟨used, whole, alone, cuts⟩ := lexemeAt_cuts found
  have breaks : ∀ tail, Breaks ('\n' :: tail) := by simp [Breaks]
  have short : ∀ inner, text = used ++ inner → rest = inner ++ '\n' :: tail → False := by
    rintro inner rfl rfl
    have here := lexemeAt_append_of_cuts alone (cuts.of_append (breaks tail).loose)
    have there := lexemeAt_append here (breaks [])
    rw [absent] at there
    cases there
  obtain ⟨inner, same, split⟩ | ⟨inner, same, split⟩ := List.append_eq_append_iff.mp whole
  · cases inner with
    | nil =>
        rw [List.append_nil] at same
        exact (short [] (by simp [same]) (by simpa using split.symm)).elim
    | cons ch inner =>
        obtain ⟨rfl, rfl⟩ := List.cons.inj split
        subst same
        obtain ⟨body, starts⟩ := quote_of_feed_mem alone (by simp)
        cases text with
        | nil => simp at starts
        | cons first text =>
            obtain ⟨rfl, -⟩ := List.cons.inj starts
            refine ⟨text ++ ['\n'], rfl, ?_, ?_⟩
            · rw [List.cons_append, lexemeAt, if_neg (by decide), if_pos rfl,
                Option.map_eq_none_iff] at absent
              exact absent
            · rw [List.cons_append, lexemeAt, if_neg (by decide), if_pos rfl,
                Option.map_eq_some_iff] at found
              obtain ⟨result, reads, -⟩ := found
              rw [List.append_assoc, List.singleton_append, reads]
              rfl
  · exact (short inner same split).elim

/-- A run over more than the first lines reads these lines, or stands inside a string
literal at their end. -/
theorem Runs.crossing {text tail : List Char} {start : Bool} {scan final : Scan}
    (runs : Runs (text ++ '\n' :: tail) start scan final) :
    (∃ middle, Runs (text ++ ['\n']) start scan middle) ∨
      ∃ body middle, Lexer.stringBody body = none ∧ body.getLast? = some '\n' ∧
        (Lexer.stringBody (body ++ tail)).isSome = true ∧
        ∀ more done, Runs (text ++ '\n' :: more) start scan done ↔
          Runs ('"' :: (body ++ more)) false middle done := by
  generalize whole : text ++ '\n' :: tail = read at runs
  induction runs generalizing text with
  | ends => simp at whole
  | @skip ch rest scan final skipped _ ih =>
      cases text with
      | nil =>
          obtain rfl : '\n' = ch := (List.cons.inj whole).1
          simp [isSkipped] at skipped
      | cons first text =>
          obtain ⟨rfl, rest⟩ := List.cons.inj whole
          simp only [List.cons_append, skip_iff skipped]
          exact ih rest
  | @newline rest scan final runs ih =>
      cases text with
      | nil => exact .inl ⟨scan.breakLine, .newline .ends⟩
      | cons first text =>
          obtain ⟨rfl, rest⟩ := List.cons.inj whole
          simp only [List.cons_append, newline_iff]
          exact ih rest
  | @lexeme read rest lexeme scan final visible found _ ih =>
      subst whole
      have heads : ∀ more, (text ++ '\n' :: more).head? = (text ++ '\n' :: tail).head? := by
        intro more
        cases text <;> rfl
      cases here : lexemeAt (text ++ ['\n']) with
      | some result =>
          obtain ⟨other, after⟩ := result
          obtain ⟨inner, rfl, everywhere⟩ := lexemeAt_feed here
          obtain ⟨rfl, rfl⟩ : other = lexeme ∧ inner ++ '\n' :: tail = rest := by
            have same := (everywhere tail).symm.trans found
            exact Prod.mk.inj (Option.some.inj same)
          have reads : ∀ more done, Runs (text ++ '\n' :: more) false scan done ↔
              Runs (inner ++ '\n' :: more) false (scan.read other) done := by
            intro more done
            apply lexeme_iff _ (everywhere more)
            rw [heads more]
            exact visible
          simp only [reads]
          exact ih rfl
      | none =>
          obtain ⟨body, starts, unclosed, closes⟩ := string_of_crossing here found
          refine .inr ⟨body, scan, unclosed, ?_, closes, fun more done => ?_⟩
          · have last := congrArg List.getLast? starts
            cases body with
            | nil => simp at last
            | cons ch body => simpa using last.symm
          · have same : text ++ '\n' :: more = '"' :: (body ++ more) := by
              rw [← List.cons_append, ← starts]
              simp
            rw [same]
  | @indent read scan next final nonempty indents _ ih =>
      subst whole
      simp only [indentFeed_iff indents]
      exact ih (dropSpaces_feed text tail).symm

theorem runs_string {text value rest : List Char}
    (reads : Lexer.stringBody text = some (value, rest)) (scan final : Scan) :
    Runs ('"' :: text) false scan final ↔ Runs rest false
      (scan.read (.token (.stringLiteral (String.ofList value))
        ("\"" ++ String.ofList value ++ "\""))) final := by
  apply Runs.lexeme_iff rfl
  rw [lexemeAt, if_neg (by decide), if_pos rfl, reads]
  rfl

/-- What a blank line leaves of a string literal: more text, when it does not break
the literal. -/
theorem stringBody_blank {line value rest tail : List Char} (blank : BlankLine line)
    (reads : Lexer.stringBody (line ++ '\n' :: tail) = some (value, rest)) : value ≠ [] := by
  have head := blank.head
  cases line with
  | nil => simp [Lexer.stringBody] at reads
  | cons ch line =>
      have plain : ch ≠ '"' ∧ ch ≠ '\n' ∧ ch ≠ '\\' := by
        rcases head ch rfl with rfl | rfl | rfl <;> decide
      rw [List.cons_append, stringBody_plain plain.1 plain.2.1 plain.2.2,
        Option.map_eq_some_iff] at reads
      obtain ⟨result, -, same⟩ := reads
      obtain ⟨rfl, -⟩ := Prod.mk.inj same
      simp

theorem finished_inj {one two : TokenKind} {kinds later other : List TokenKind} {count more : Nat}
    (same : LaidOut.finished count (later ++ one :: kinds) =
      LaidOut.finished more (other ++ two :: kinds)) : one = two := by
  simp only [LaidOut.finished, List.reverse_append, List.reverse_cons, List.append_assoc,
    List.singleton_append] at same
  exact (List.cons.inj (List.append_cancel_left same)).1

/-- Inside a string literal a blank line breaks or lengthens the literal. -/
theorem Runs.string_differs {body tail line : List Char} (blank : BlankLine line)
    (unclosed : Lexer.stringBody body = none) (ends : body.getLast? = some '\n')
    (closes : (Lexer.stringBody (body ++ tail)).isSome = true) (scan : Scan) :
    ∃ done, Runs ('"' :: (body ++ ['"'])) false scan done ∧
      ∀ final, Runs ('"' :: (body ++ (line ++ '\n' :: ['"']))) false scan final →
        final.finishedKinds ≠ done.finishedKinds := by
  obtain ⟨value, everywhere⟩ := stringBody_open unclosed closes (.inr ends)
  have short : Lexer.stringBody (body ++ ['"']) = some (value, []) := by
    rw [everywhere]
    simp [Lexer.stringBody]
  refine ⟨_, (runs_string short _ _).mpr .ends, fun final runs same => ?_⟩
  cases inserted : Lexer.stringBody (line ++ '\n' :: ['"']) with
  | none =>
      have long : lexemeAt ('"' :: (body ++ (line ++ '\n' :: ['"']))) = none := by
        rw [lexemeAt, if_neg (by decide), if_pos rfl, everywhere, inserted]
        rfl
      cases runs with
      | skip skipped => simp [isSkipped] at skipped
      | lexeme _ found =>
          rw [long] at found
          cases found
  | some result =>
      obtain ⟨inner, rest⟩ := result
      have long : Lexer.stringBody (body ++ (line ++ '\n' :: ['"'])) =
          some (value ++ inner, rest) := by
        rw [everywhere, inserted]
        rfl
      rw [runs_string long] at runs
      obtain ⟨later, kept⟩ := runs.suffix rfl ⟨[], (Scan.kinds_read_token _ _ _).symm⟩
      rw [Scan.finishedKinds, ← kept, Scan.finishedKinds, Scan.kinds_read_token,
        if_neg (by simp), if_neg (by simp)] at same
      have equal := @finished_inj _ _ _ later [] _ _ same
      have lengths : value ++ inner = value := String.ofList_injective (TokenKind.stringLiteral.inj equal)
      exact stringBody_blank blank inserted (by simpa using lengths)

/-! ## Blank lines are invisible where the lexer skips them -/

/-- Inserted after `before`, the line changes the tokens of no source. -/
def Invisible (before line : List Char) : Prop :=
  ∀ after, LineBoundary before after → (tokenKinds? (before ++ after)).isSome = true →
    tokenKinds? (before ++ (line ++ '\n' :: after)) = tokenKinds? (before ++ after)

/-- The lexer reads `before` to its end, not inside a string literal, and skips the
line there. -/
def SkippedAfter (before line : List Char) : Prop :=
  ∃ lexer, (Lexer.new before).loop (normalizeLineEndings before).length = .ok lexer ∧
    lexer.scan.Skips line

theorem LineBoundary.other {before after : List Char} (boundary : LineBoundary before after)
    {other : List Char} (head : other.head? ≠ some '\n') : LineBoundary before other :=
  boundary.imp_right (Or.imp_right fun carriage => ⟨carriage.1, head⟩)

theorem BlankLine.carriage {line : List Char} (blank : BlankLine line) : '\r' ∉ line := by
  obtain ⟨white, comment, rfl, spaces, -, -, carriage⟩ := blank
  rw [List.mem_append, not_or]
  refine ⟨fun member => ?_, carriage⟩
  rcases spaces _ member with same | same <;> cases same

section Insertion

variable {before line : List Char}

/-- The source with the line in it, line endings unified. -/
theorem normalizeLineEndings_insert (fits : LineBoundary before (line ++ ['\n']))
    (blank : BlankLine line) (after : List Char) :
    normalizeLineEndings (before ++ (line ++ '\n' :: after)) =
      normalizeLineEndings before ++ (line ++ '\n' :: normalizeLineEndings after) := by
  have boundary : LineBoundary before (line ++ '\n' :: after) := by
    refine fits.imp_right (Or.imp_right fun carriage => ⟨carriage.1, ?_⟩)
    cases line with
    | nil => exact absurd rfl carriage.2
    | cons ch line => exact carriage.2
  rw [boundary.lines.1, normalizeLineEndings_line blank.carriage]

theorem runs_of_loop {lexer : Lexer}
    (loops : (Lexer.new before).loop (normalizeLineEndings before).length = .ok lexer) :
    Runs (normalizeLineEndings before) true Scan.start lexer.scan :=
  ((Lexer.new before).loop_iff_runs (Nat.le_refl _) lexer.scan).mp ⟨lexer, loops, rfl⟩

theorem invisible_of_skippedAfter (fits : LineBoundary before (line ++ ['\n']))
    (blank : BlankLine line) (skipped : SkippedAfter before line) : Invisible before line := by
  obtain ⟨lexer, loops, skips⟩ := skipped
  intro after boundary reads
  obtain ⟨whole, lines⟩ := boundary.lines
  obtain ⟨quiet, goesOn⟩ := (runs_of_loop loops).boundary lines
  obtain ⟨kinds, same⟩ := Option.isSome_iff_exists.mp reads
  rw [same]
  obtain ⟨final, runs, rfl⟩ := tokenKinds?_eq_some_iff.mp same
  rw [whole, goesOn] at runs
  obtain ⟨done, inserted, alike⟩ := runs.skips blank quiet skips
  rw [tokenKinds?_eq_some_iff, normalizeLineEndings_insert fits blank]
  exact ⟨done, (goesOn _ _).mpr inserted, alike.finishedKinds.symm⟩

/-- The text before the boundary is read to its end. -/
theorem reads_of_invisible (fits : LineBoundary before (line ++ ['\n'])) (blank : BlankLine line)
    {after : List Char} (boundary : LineBoundary before after)
    (reads : (tokenKinds? (before ++ after)).isSome = true) (invisible : Invisible before line) :
    ∃ lexer, (Lexer.new before).loop (normalizeLineEndings before).length = .ok lexer := by
  obtain ⟨kinds, same⟩ := Option.isSome_iff_exists.mp reads
  obtain ⟨final, runs, -⟩ := tokenKinds?_eq_some_iff.mp same
  obtain ⟨whole, lines⟩ := boundary.lines
  have known : ∀ middle, Runs (normalizeLineEndings before) true Scan.start middle →
      ∃ lexer, (Lexer.new before).loop (normalizeLineEndings before).length = .ok lexer := by
    intro middle runs
    obtain ⟨lexer, loops, -⟩ := ((Lexer.new before).loop_iff_runs (Nat.le_refl _) middle).mpr runs
    exact ⟨lexer, loops⟩
  rcases lines with empty | ⟨lines, same⟩
  · exact known Scan.start (by rw [empty]; exact .ends)
  rw [whole, same, List.append_assoc] at runs
  rcases runs.crossing with ⟨middle, first⟩ | ⟨body, middle, unclosed, ends, closes, goesOn⟩
  · exact known middle (by rw [same]; exact first)
  -- The boundary is inside a string literal, and a quote closes it.
  exfalso
  obtain ⟨done, short, differs⟩ := Runs.string_differs blank unclosed ends closes middle
  have closed : LineBoundary before ['"'] := boundary.other (by simp)
  have original : tokenKinds? (before ++ ['"']) = some done.finishedKinds := by
    rw [tokenKinds?_eq_some_iff, closed.lines.1, same, List.append_assoc]
    exact ⟨done, (goesOn _ _).mpr short, rfl⟩
  have changed := invisible ['"'] closed (by rw [original]; rfl)
  rw [original, tokenKinds?_eq_some_iff, normalizeLineEndings_insert fits blank, same,
    List.append_assoc] at changed
  obtain ⟨final, long, equal⟩ := changed
  exact differs final ((goesOn _ _).mp long) equal

/-- A line that holds one word after `width` spaces. -/
def wordLine (width : Nat) : List Char :=
  List.replicate width ' ' ++ ['x']

theorem wordLine_head (width : Nat) : (wordLine width).head? ≠ some '\n' := by
  cases width <;> simp [wordLine, List.replicate_succ]

theorem runs_wordLine {width : Nat} {scan final : Scan} :
    Runs (wordLine width) true scan final ↔
      ∃ next, scan.indentTo width = some next ∧
        next.read (.token (.identifier "x") "x") = final := by
  have spaces : ∀ ch ∈ List.replicate width ' ', decide (ch = ' ') = true := by
    intro ch member
    simpa using List.eq_of_mem_replicate member
  have dropped : (wordLine width).dropWhile (· = ' ') = ['x'] := by
    rw [wordLine, List.dropWhile_append_of_pos spaces]
    rfl
  have taken : (wordLine width).takeWhile (· = ' ') = List.replicate width ' ' := by
    rw [wordLine, List.takeWhile_append_of_pos spaces]
    simp
  have indents : scan.indentAt (wordLine width) = scan.indentTo width := by
    rw [Scan.indentAt, dropped, taken, List.length_replicate]
    rfl
  have word : lexemeAt ['x'] = some (.token (.identifier "x") "x", []) := by decide +kernel
  rw [Runs.indent_iff (by simp [dropped]), indents, dropped]
  simp only [Runs.lexeme_iff (show _ = true from rfl) word, Runs.nil_iff]

theorem count_indent_finishedKinds (scan : Scan) :
    scan.finishedKinds.count .indent = scan.kinds.count .indent := by
  simp [Scan.finishedKinds, LaidOut.finished, List.count_append, List.count_replicate]

/-- A tab line of another width than the current indentation opens a block, itself
or with the next line. -/
theorem Runs.tab_count {line : List Char} (blank : BlankLine line) {scan final : Scan}
    (outside : scan.nestingDepth = 0) (nonempty : scan.indentStack ≠ [])
    (tab : (line.dropWhile (· = ' ')).head? = some '\t')
    (width : (line.takeWhile (· = ' ')).length ≠ scan.indentStack.headD 0)
    (runs : Runs (line ++ '\n' :: wordLine (scan.indentStack.headD 0)) true scan final) :
    scan.kinds.count .indent < final.kinds.count .indent := by
  rw [blankStart_iff blank, if_pos tab] at runs
  obtain ⟨next, indents, inside⟩ := runs
  obtain ⟨after, alike, goesOn⟩ :=
    blank_iff blank.dropSpaces next (wordLine (scan.indentStack.headD 0))
  rw [goesOn] at inside
  have grows : next.kinds.count .indent ≤ after.kinds.count .indent := by
    rw [← alike.kinds]
    exact next.suffix_breakLine.sublist.count_le _
  have stack : after.indentStack = next.indentStack := by
    rw [← alike.indentStack, next.indentStack_breakLine]
  rcases Scan.indentTo_cases nonempty indents with
    ⟨-, same⟩ | ⟨deeper, rfl⟩ | ⟨count, shallower, -, lands, rfl⟩
  · exact absurd same.symm width
  · have more := inside.count_indent_le
    have one : (TokenKind.indent :: scan.kinds).count .indent ≤ after.kinds.count .indent := grows
    rw [List.count_cons_self] at one
    omega
  · change Runs _ (decide (scan.nestingDepth = 0)) after final at inside
    rw [decide_eq_true outside, runs_wordLine] at inside
    obtain ⟨last, opens, rfl⟩ := inside
    have before := (Scan.suffix_indentTo indents).sublist.count_le TokenKind.indent
    have deeper : after.indentStack.headD 0 < scan.indentStack.headD 0 := by
      rw [stack, lands]
      exact shallower
    rw [Scan.indentTo, if_pos deeper] at opens
    have one : last.kinds = .indent :: after.kinds := by
      rw [← Option.some.inj opens]
      rfl
    rw [Scan.kinds_read_token, if_neg (by simp), List.count_cons_of_ne (by simp), one,
      List.count_cons_self]
    omega

theorem skips_of_invisible (fits : LineBoundary before (line ++ ['\n'])) (blank : BlankLine line)
    {after : List Char} (boundary : LineBoundary before after) {lexer : Lexer}
    (loops : (Lexer.new before).loop (normalizeLineEndings before).length = .ok lexer)
    (invisible : Invisible before line) : lexer.scan.Skips line := by
  by_contra seen
  rw [Scan.Skips, not_or, not_or, not_not] at seen
  obtain ⟨outside, tab, width⟩ := seen
  replace outside : lexer.scan.nestingDepth = 0 := by omega
  obtain ⟨well, -⟩ := (Lexer.Passes.start.loop loops).wellLaid
  obtain ⟨-, goesOn⟩ := (runs_of_loop loops).boundary boundary.lines.2
  rw [decide_eq_true outside] at goesOn
  let word := wordLine (lexer.scan.indentStack.headD 0)
  have single : normalizeLineEndings word = word := by
    apply normalizeLineEndings_self
    simp [word, wordLine]
  have starts : LineBoundary before word := by
    apply boundary.other
    exact wordLine_head _
  -- A word at the current indentation is read with no layout before it.
  have original : tokenKinds? (before ++ word) =
      some (lexer.scan.read (.token (.identifier "x") "x")).finishedKinds := by
    rw [tokenKinds?_eq_some_iff, starts.lines.1, single]
    exact ⟨_, (goesOn _ _).mpr ((runs_wordLine).mpr ⟨_, lexer.scan.indentTo_headD, rfl⟩), rfl⟩
  have changed := invisible word starts (by rw [original]; rfl)
  rw [original, tokenKinds?_eq_some_iff, normalizeLineEndings_insert fits blank, single] at changed
  obtain ⟨final, runs, same⟩ := changed
  have more := ((goesOn _ _).mp runs).tab_count blank outside well.nested.nonempty tab width
  have counts := congrArg (List.count TokenKind.indent) same
  rw [count_indent_finishedKinds, count_indent_finishedKinds, Scan.kinds_read_token,
    if_neg (by simp), List.count_cons_of_ne (by simp)] at counts
  omega

/-- A blank line or a comment line is invisible, whatever the source goes on with,
exactly where the lexer skips it. -/
theorem invisible_iff_skippedAfter {after : List Char} (boundary : LineBoundary before after)
    (reads : (tokenKinds? (before ++ after)).isSome = true)
    (fits : LineBoundary before (line ++ ['\n'])) (blank : BlankLine line) :
    Invisible before line ↔ SkippedAfter before line := by
  constructor
  · intro invisible
    obtain ⟨lexer, loops⟩ := reads_of_invisible fits blank boundary reads invisible
    exact ⟨lexer, loops, skips_of_invisible fits blank boundary loops invisible⟩
  · exact invisible_of_skippedAfter fits blank

end Insertion

/-- Two lines, with and without a line of blanks and a tab between them. -/
theorem shortLines_read :
    (tokenKinds? ("x\n".toList ++ "y\n".toList)).isSome = true ∧
      tokenKinds? ("x\n".toList ++ ("  \t".toList ++ '\n' :: "y\n".toList)) ≠
        tokenKinds? ("x\n".toList ++ "y\n".toList) := by
  decide +kernel

/-- A comment between two lines. -/
theorem commentLine_invisible : Invisible "x\n".toList "  # note".toList := by
  have blank : BlankLine "  # note".toList :=
    ⟨"  ".toList, "# note".toList, rfl, by decide, .inr rfl, by decide, by decide⟩
  have boundary : LineBoundary "x\n".toList "y\n".toList := .inr (.inl rfl)
  rw [invisible_iff_skippedAfter boundary shortLines_read.1 (.inr (.inl rfl)) blank]
  exact ⟨_, rfl, .inr (.inl (by decide))⟩

/-- A tab line of another width than the current indentation opens a block. -/
theorem tabLine_visible :
    ¬ ∀ before line, BlankLine line → LineBoundary before (line ++ ['\n']) →
      Invisible before line := by
  intro invisible
  have blank : BlankLine "  \t".toList :=
    ⟨"  \t".toList, [], rfl, by decide, .inl rfl, by decide, by decide⟩
  have same := invisible "x\n".toList "  \t".toList blank (.inr (.inl rfl)) "y\n".toList
    (.inr (.inl rfl)) shortLines_read.1
  exact absurd same shortLines_read.2

end Marreta
