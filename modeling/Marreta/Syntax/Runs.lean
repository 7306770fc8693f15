import Marreta.Syntax.Indentation

namespace Marreta

/-! The lexer as a relation between the texts it reads and the scans it reaches.

A run over whole lines depends on what follows them only through the scan at their
end, and on the comments before it not at all. -/

/-! ## Runs of the lexer over a text -/

/-- Reading a text takes one scan to another.  The flag says that the text starts a
line whose indentation counts. -/
inductive Runs : List Char → Bool → Scan → Scan → Prop
  | ends {start : Bool} {scan : Scan} : Runs [] start scan scan
  | skip {ch : Char} {rest : List Char} {scan final : Scan} : isSkipped ch = true →
      Runs rest false scan final → Runs (ch :: rest) false scan final
  | newline {rest : List Char} {scan final : Scan} :
      Runs rest (decide (scan.nestingDepth = 0)) scan.breakLine final →
        Runs ('\n' :: rest) false scan final
  | lexeme {text rest : List Char} {lexeme : Lexeme} {scan final : Scan} :
      text.head?.any (fun ch => !isSkipped ch && ch ≠ '\n') = true →
      lexemeAt text = some (lexeme, rest) → Runs rest false (scan.read lexeme) final →
        Runs text false scan final
  | indent {text : List Char} {scan next final : Scan} : text.dropWhile (· = ' ') ≠ [] →
      scan.indentAt text = some next → Runs (text.dropWhile (· = ' ')) false next final →
        Runs text true scan final

namespace Runs

variable {text rest : List Char} {scan next final : Scan}

theorem nil_iff {start : Bool} : Runs [] start scan final ↔ scan = final := by
  constructor
  · intro runs
    cases runs with
    | ends => rfl
    | lexeme visible => simp at visible
    | indent nonempty => simp at nonempty
  · rintro rfl
    exact .ends

theorem skip_iff {ch : Char} (skipped : isSkipped ch = true) :
    Runs (ch :: rest) false scan final ↔ Runs rest false scan final := by
  refine ⟨fun runs => ?_, .skip skipped⟩
  cases runs with
  | skip _ runs => exact runs
  | newline => simp [isSkipped] at skipped
  | lexeme visible => simp [skipped] at visible

theorem newline_iff :
    Runs ('\n' :: rest) false scan final ↔
      Runs rest (decide (scan.nestingDepth = 0)) scan.breakLine final := by
  refine ⟨fun runs => ?_, .newline⟩
  cases runs with
  | skip skipped => simp [isSkipped] at skipped
  | newline runs => exact runs
  | lexeme visible => simp at visible

theorem lexeme_iff {lexeme : Lexeme}
    (visible : text.head?.any (fun ch => !isSkipped ch && ch ≠ '\n') = true)
    (found : lexemeAt text = some (lexeme, rest)) :
    Runs text false scan final ↔ Runs rest false (scan.read lexeme) final := by
  refine ⟨fun runs => ?_, .lexeme visible found⟩
  cases runs with
  | ends => cases found
  | skip skipped => simp [skipped] at visible
  | newline => simp at visible
  | lexeme _ again runs =>
      rw [found] at again
      obtain ⟨rfl, rfl⟩ := Prod.mk.inj (Option.some.inj again)
      exact runs

theorem indent_iff (nonempty : text.dropWhile (· = ' ') ≠ []) :
    Runs text true scan final ↔
      ∃ next, scan.indentAt text = some next ∧ Runs (text.dropWhile (· = ' ')) false next final := by
  constructor
  · intro runs
    cases runs with
    | ends => simp at nonempty
    | indent _ indents runs => exact ⟨_, indents, runs⟩
  · rintro ⟨next, indents, runs⟩
    exact .indent nonempty indents runs

theorem of_start (runs : Runs text true scan final) (nonempty : text ≠ []) :
    text.dropWhile (· = ' ') ≠ [] ∧
      ∃ next, scan.indentAt text = some next ∧
        Runs (text.dropWhile (· = ' ')) false next final := by
  cases runs with
  | ends => exact absurd rfl nonempty
  | indent visible indents runs => exact ⟨visible, _, indents, runs⟩

end Runs

theorem Scan.nestingDepth_breakLine (scan : Scan) :
    scan.breakLine.nestingDepth = scan.nestingDepth := by
  rw [breakLine]
  split
  · rfl
  · split <;> rfl

theorem Scan.indentStack_breakLine (scan : Scan) :
    scan.breakLine.indentStack = scan.indentStack := by
  rw [breakLine]
  split
  · rfl
  · split <;> rfl

namespace Lexer

theorem handleNewline_atLineStart (lexer : Lexer) :
    lexer.handleNewline.atLineStart = decide (lexer.scan.nestingDepth = 0) := by
  obtain ⟨scans, -, atLine⟩ := handleNewline_spec lexer
  have depth : lexer.handleNewline.nestingDepth = lexer.scan.nestingDepth := by
    rw [← lexer.scan.nestingDepth_breakLine, ← scans]
    rfl
  rw [atLine, depth]

theorem runs_readItem {lexer next : Lexer} {final : Scan}
    (inside : lexer.atLineStart = false) (reads : lexer.readItem = .ok next) :
    Runs lexer.rest false lexer.scan final ↔
      Runs next.rest next.atLineStart next.scan final := by
  rcases readItem_cases reads with
    ⟨ch, rest, head, skipped, rfl⟩ | ⟨rest, head, rfl⟩ |
      ⟨lexeme, rest, visible, found, after, scans, start⟩
  · have start : (lexer.advanceBy 1).atLineStart = false := inside
    rw [start, rest_advanceBy, scan_advanceBy, head, Runs.skip_iff skipped]
    rfl
  · obtain ⟨scans, after, -⟩ := handleNewline_spec lexer
    rw [handleNewline_atLineStart, scans, after, head, Runs.newline_iff]
    rfl
  · rw [Runs.lexeme_iff visible found, after, scans, start, inside]

/-- A turn of the loop keeps what the run ends in. -/
theorem runs_step {lexer next : Lexer} {final : Scan} (steps : lexer.step = .ok next) :
    Runs lexer.rest lexer.atLineStart lexer.scan final ↔
      Runs next.rest next.atLineStart next.scan final := by
  rcases step_cases steps with ⟨inside, reads⟩ | ⟨start, middle, handles, reads⟩
  · rw [inside]
    exact runs_readItem inside reads
  · obtain ⟨indents, rest⟩ := handleIndentation_eq_ok handles
    have nonempty : lexer.rest.dropWhile (· = ' ') ≠ [] := by
      intro empty
      rw [← rest] at empty
      simp [readItem, empty] at reads
    rw [start, Runs.indent_iff nonempty, indents, ← rest, ← runs_readItem rfl reads]
    constructor
    · rintro ⟨scan, same, runs⟩
      rw [← Option.some.inj same] at runs
      exact runs
    · exact fun runs => ⟨middle.scan, rfl, runs⟩

theorem readItem_shorter {lexer next : Lexer} (reads : lexer.readItem = .ok next) :
    next.rest.length < lexer.rest.length := by
  rcases readItem_cases reads with
    ⟨ch, rest, head, -, rfl⟩ | ⟨rest, head, rfl⟩ | ⟨lexeme, rest, -, found, after, -, -⟩
  · rw [rest_advanceBy, head]
    simp
  · obtain ⟨-, after, -⟩ := handleNewline_spec lexer
    rw [after, head]
    simp
  · rw [after]
    exact lexemeAt_length found

theorem step_shorter {lexer next : Lexer} (steps : lexer.step = .ok next) :
    next.rest.length < lexer.rest.length := by
  rcases step_cases steps with ⟨-, reads⟩ | ⟨-, middle, handles, reads⟩
  · exact readItem_shorter reads
  · have shorter := readItem_shorter reads
    obtain ⟨-, rest⟩ := handleIndentation_eq_ok handles
    have dropped := (List.dropWhile_sublist (l := lexer.rest) (· = ' ')).length_le
    rw [← rest] at dropped
    exact Nat.lt_of_lt_of_le shorter dropped

theorem readItem_of_runs {lexer : Lexer} {final : Scan} (nonempty : lexer.rest ≠ [])
    (runs : Runs lexer.rest false lexer.scan final) : ∃ next, lexer.readItem = .ok next := by
  cases head : lexer.rest with
  | nil => exact absurd head nonempty
  | cons ch rest =>
      rw [head] at runs
      cases runs with
      | skip skipped => exact ⟨_, readItem_skip head skipped⟩
      | newline => exact ⟨_, readItem_newline head⟩
      | lexeme visible found =>
          rw [← head] at visible found
          obtain ⟨next, reads, -⟩ := readItem_lexeme visible found
          exact ⟨next, reads⟩

theorem step_of_runs {lexer : Lexer} {final : Scan} (nonempty : lexer.rest ≠ [])
    (runs : Runs lexer.rest lexer.atLineStart lexer.scan final) :
    ∃ next, lexer.step = .ok next := by
  cases start : lexer.atLineStart with
  | false =>
      rw [start] at runs
      rw [step_inside start]
      exact readItem_of_runs nonempty runs
  | true =>
      rw [start] at runs
      obtain ⟨visible, scan, indents, runs⟩ := runs.of_start nonempty
      have agrees := lexer.handleIndentation_at
      rw [indents] at agrees
      cases handles : lexer.handleIndentation with
      | error fault => simp [handles, Agrees] at agrees
      | ok middle =>
          rw [handles] at agrees
          obtain ⟨rfl, rest⟩ := agrees
          rw [← rest] at visible runs
          let inner : Lexer := { middle with atLineStart := false }
          obtain ⟨next, reads⟩ : ∃ next, inner.readItem = .ok next :=
            readItem_of_runs visible runs
          refine ⟨next, ?_⟩
          simpa [step, start, handles, bind, Except.bind, Functor.map, Except.map] using reads

/-- The lexer reads a text to its end exactly when a run does, and to the same scan. -/
theorem loop_iff_runs {lexer : Lexer} {fuel : Nat} (enough : lexer.rest.length ≤ fuel)
    (final : Scan) :
    (∃ done, lexer.loop fuel = .ok done ∧ done.scan = final) ↔
      Runs lexer.rest lexer.atLineStart lexer.scan final := by
  induction fuel generalizing lexer with
  | zero =>
      have empty : lexer.rest = [] := List.length_eq_zero_iff.mp (by omega)
      rw [loop_end empty, empty, Runs.nil_iff]
      simp
  | succ fuel ih =>
      by_cases empty : lexer.rest = []
      · rw [loop_end empty, empty, Runs.nil_iff]
        simp
      rw [loop_succ empty]
      cases steps : lexer.step with
      | ok next =>
          have shorter := step_shorter steps
          rw [runs_step steps]
          exact ih (by omega)
      | error fault =>
          constructor
          · rintro ⟨done, loops, -⟩
            cases loops
          · intro runs
            obtain ⟨next, reads⟩ := step_of_runs empty runs
            rw [steps] at reads
            cases reads

end Lexer

/-! ## Lexemes at the end of a line -/

theorem operatorAt_oneLine {text : List Char} {kind : TokenKind} {lexeme : String}
    (reads : Lexer.operatorAt text = some (kind, lexeme)) : '\n' ∉ lexeme.toList := by
  cases text with
  | nil => cases reads
  | cons ch rest =>
      simp only [Lexer.operatorAt] at reads
      split at reads
      all_goals repeat' split at reads
      all_goals cases reads
      all_goals decide

/-- Only a string literal can hold a line break. -/
theorem quote_of_feed_mem {used : List Char} {lexeme : Lexeme}
    (alone : lexemeAt used = some (lexeme, [])) (feed : '\n' ∈ used) :
    ∃ body, used = '"' :: body := by
  cases used with
  | nil => cases feed
  | cons ch text =>
      by_cases quote : ch = '"'
      · exact ⟨text, by rw [quote]⟩
      exfalso
      by_cases letter : ch.isDigit = true ∨ Lexer.isWordStart ch = true
      · obtain ⟨-, digits, words⟩ := lexemeAt_word alone letter
        cases digit : ch.isDigit with
        | true =>
            have number := (digits digit).1 _ feed
            exact absurd number (by decide)
        | false =>
            have word := words digit _ feed
            exact absurd word (by decide)
      · rw [not_or] at letter
        rw [lexemeAt] at alone
        split at alone
        · obtain ⟨-, nothing⟩ := Prod.mk.inj (Option.some.inj alone)
          have plain := List.dropWhile_eq_nil_iff.mp nothing _ feed
          simp at plain
        · rw [if_neg letter.1, if_neg letter.2, Option.map_eq_some_iff] at alone
          obtain ⟨⟨kind, spelling⟩, reads, same⟩ := alone
          obtain ⟨-, nothing⟩ := Prod.mk.inj same
          obtain ⟨whole, -⟩ := operatorAt_append_drop reads
          rw [nothing, List.append_nil] at whole
          rw [← whole] at feed
          exact operatorAt_oneLine reads feed

/-- A lexeme at the head of text that ends in a line break ends before it, whatever
follows. -/
theorem lexemeAt_feed {text rest : List Char} {lexeme : Lexeme}
    (found : lexemeAt (text ++ ['\n']) = some (lexeme, rest)) :
    ∃ inner, rest = inner ++ ['\n'] ∧
      ∀ tail, lexemeAt (text ++ '\n' :: tail) = some (lexeme, inner ++ '\n' :: tail) := by
  obtain ⟨used, whole, alone, cuts⟩ := lexemeAt_cuts found
  rcases List.eq_nil_or_concat rest with rfl | ⟨inner, last, rfl⟩
  · -- The lexeme would end in the line break.
    rw [List.append_nil] at whole
    obtain ⟨body, rfl⟩ := quote_of_feed_mem alone (by simp [← whole])
    rw [lexemeAt, if_neg (by decide), if_pos rfl, Option.map_eq_some_iff] at alone
    obtain ⟨⟨value, after⟩, reads, same⟩ := alone
    obtain ⟨-, rfl⟩ := Prod.mk.inj same
    have ends := congrArg List.getLast? whole
    rw [List.getLast?_concat, List.getLast?_cons, getLast?_stringBody reads] at ends
    simp at ends
  · rw [List.concat_eq_append] at *
    rw [← List.append_assoc] at whole
    obtain ⟨rfl, same⟩ := List.append_inj' whole rfl
    obtain rfl : '\n' = last := by simpa using same
    refine ⟨inner, rfl, fun tail => ?_⟩
    have loose : Loose ['\n'] := by
      intro ch head
      rw [← Option.some.inj head]
      decide
    have breaks : Breaks ('\n' :: tail) := by
      intro ch head
      exact (Option.some.inj head).symm
    exact lexemeAt_append (lexemeAt_append_of_cuts alone (cuts.of_append loose)) breaks

/-! ## Runs over whole lines -/

theorem dropSpaces_feed (text tail : List Char) :
    (text ++ '\n' :: tail).dropWhile (· = ' ') = text.dropWhile (· = ' ') ++ '\n' :: tail :=
  (Lexer.span_breaks (p := (· = ' ')) rfl (by simp [Breaks]) text).2

/-- The indentation of a line does not depend on the lines after it. -/
theorem Scan.indentAt_feed (scan : Scan) (text tail other : List Char) :
    scan.indentAt (text ++ '\n' :: tail) = scan.indentAt (text ++ '\n' :: other) := by
  have breaks : ∀ tail, Breaks ('\n' :: tail) := by simp [Breaks]
  obtain ⟨taken, dropped⟩ := Lexer.span_breaks (p := (· = ' ')) rfl (breaks tail) text
  obtain ⟨otherTaken, otherDropped⟩ := Lexer.span_breaks (p := (· = ' ')) rfl (breaks other) text
  rw [indentAt, indentAt, taken, dropped, otherTaken, otherDropped]
  cases text.dropWhile (· = ' ') with
  | nil => rfl
  | cons ch rest => rfl

theorem Runs.indentFeed_iff {text tail : List Char} {scan next : Scan}
    (indents : scan.indentAt (text ++ '\n' :: tail) = some next) (more : List Char)
    (final : Scan) :
    Runs (text ++ '\n' :: more) true scan final ↔
      Runs (text.dropWhile (· = ' ') ++ '\n' :: more) false next final := by
  have nonempty : (text ++ '\n' :: more).dropWhile (· = ' ') ≠ [] := by
    simp [dropSpaces_feed]
  rw [indent_iff nonempty, scan.indentAt_feed text more tail, indents, dropSpaces_feed]
  constructor
  · rintro ⟨other, same, runs⟩
    rw [← Option.some.inj same] at runs
    exact runs
  · exact fun runs => ⟨next, rfl, runs⟩

/-- After lines that read to `middle`, a run goes on from there. -/
theorem Runs.append_iff {text : List Char} {start : Bool} {scan middle : Scan}
    (lines : Runs (text ++ ['\n']) start scan middle) (tail : List Char) (final : Scan) :
    Runs (text ++ '\n' :: tail) start scan final ↔
      Runs tail (decide (middle.nestingDepth = 0)) middle final := by
  generalize whole : text ++ ['\n'] = read at lines
  induction lines generalizing text with
  | ends => simp at whole
  | @skip ch rest scan middle skipped _ ih =>
      cases text with
      | nil =>
          obtain rfl : '\n' = ch := (List.cons.inj whole).1
          simp [isSkipped] at skipped
      | cons first text =>
          obtain ⟨rfl, rest⟩ := List.cons.inj whole
          rw [List.cons_append, skip_iff skipped]
          exact ih rest
  | @newline rest scan middle runs ih =>
      cases text with
      | nil =>
          obtain rfl : [] = rest := (List.cons.inj whole).2
          obtain rfl := (nil_iff).mp runs
          rw [List.nil_append, newline_iff, scan.nestingDepth_breakLine]
      | cons first text =>
          obtain ⟨rfl, rest⟩ := List.cons.inj whole
          rw [List.cons_append, newline_iff]
          exact ih rest
  | @lexeme read rest lexeme scan middle visible found _ ih =>
      subst whole
      obtain ⟨inner, rfl, everywhere⟩ := lexemeAt_feed found
      have head : (text ++ '\n' :: tail).head? = (text ++ ['\n']).head? := by
        cases text <;> rfl
      rw [← head] at visible
      rw [lexeme_iff visible (everywhere tail)]
      exact ih rfl
  | @indent read scan next middle nonempty indents _ ih =>
      subst whole
      rw [indentFeed_iff indents]
      exact ih (dropSpaces_feed text []).symm

/-! ## Scans that differ in comments only -/

namespace Scan

structure Alike (scan other : Scan) : Prop where
  kinds : scan.kinds = other.kinds
  indentStack : scan.indentStack = other.indentStack
  nestingDepth : scan.nestingDepth = other.nestingDepth

namespace Alike

variable {scan other next : Scan}

theorem symm (alike : scan.Alike other) : other.Alike scan :=
  ⟨alike.kinds.symm, alike.indentStack.symm, alike.nestingDepth.symm⟩

theorem trans (one : scan.Alike other) (two : other.Alike next) : scan.Alike next :=
  ⟨one.kinds.trans two.kinds, one.indentStack.trans two.indentStack,
    one.nestingDepth.trans two.nestingDepth⟩

theorem read (alike : scan.Alike other) (lexeme : Lexeme) :
    (scan.read lexeme).Alike (other.read lexeme) := by
  cases lexeme with
  | comment text => exact ⟨alike.kinds, alike.indentStack, alike.nestingDepth⟩
  | token kind spelling =>
      refine ⟨?_, alike.indentStack, ?_⟩
      · rw [kinds_read_token, kinds_read_token, alike.kinds]
      · exact congrArg (Lexer.nestingAfter · kind) alike.nestingDepth

theorem breakLine (alike : scan.Alike other) : scan.breakLine.Alike other.breakLine := by
  rw [Scan.breakLine, Scan.breakLine, alike.nestingDepth, alike.kinds]
  split
  · exact ⟨alike.kinds, alike.indentStack, rfl⟩
  split
  · exact ⟨alike.kinds, alike.indentStack, rfl⟩
  · exact ⟨congrArg (TokenKind.newline :: ·) alike.kinds, alike.indentStack, rfl⟩

theorem popIndents (spaces : Nat) (stack : List Nat) {one two : List Item}
    (same : one.filterMap Item.kind? = two.filterMap Item.kind?) :
    (Scan.popIndents spaces stack one).1 = (Scan.popIndents spaces stack two).1 ∧
      (Scan.popIndents spaces stack one).2.filterMap Item.kind? =
        (Scan.popIndents spaces stack two).2.filterMap Item.kind? := by
  induction stack generalizing one two with
  | nil => exact ⟨rfl, same⟩
  | cons top stack ih =>
      cases stack with
      | nil => exact ⟨rfl, same⟩
      | cons below stack =>
          rw [Scan.popIndents, Scan.popIndents]
          split
          · exact ih (congrArg (TokenKind.dedent :: ·) same)
          · exact ⟨rfl, same⟩

theorem indentTo (alike : scan.Alike other) {spaces : Nat}
    (indents : scan.indentTo spaces = some next) :
    ∃ after, other.indentTo spaces = some after ∧ next.Alike after := by
  rw [Scan.indentTo, alike.indentStack] at indents
  rw [Scan.indentTo]
  split at indents
  · rename_i deeper
    rw [if_pos deeper]
    refine ⟨_, rfl, ?_⟩
    rw [← Option.some.inj indents]
    exact ⟨congrArg (TokenKind.indent :: ·) alike.kinds, rfl, alike.nestingDepth⟩
  rename_i deeper
  rw [if_neg deeper]
  split at indents
  · rename_i shallower
    obtain ⟨stack, items⟩ := popIndents spaces other.indentStack alike.kinds
    rw [if_pos shallower]
    simp only [stack] at indents
    split at indents
    · rename_i lands
      refine ⟨_, if_pos lands, ?_⟩
      rw [← Option.some.inj indents]
      exact ⟨items, rfl, alike.nestingDepth⟩
    · cases indents
  · rename_i shallower
    rw [if_neg shallower, ← Option.some.inj indents]
    exact ⟨_, rfl, alike⟩

theorem indentAt (alike : scan.Alike other) {text : List Char}
    (indents : scan.indentAt text = some next) :
    ∃ after, other.indentAt text = some after ∧ next.Alike after := by
  rw [Scan.indentAt] at indents ⊢
  split at indents
  · rename_i blank
    rw [if_pos blank, ← Option.some.inj indents]
    exact ⟨_, rfl, alike⟩
  · rename_i visible
    rw [if_neg visible]
    exact alike.indentTo indents

end Alike

end Scan

theorem Runs.alike {text : List Char} {start : Bool} {scan final other : Scan}
    (runs : Runs text start scan final) (alike : scan.Alike other) :
    ∃ done, Runs text start other done ∧ final.Alike done := by
  induction runs generalizing other with
  | ends => exact ⟨other, .ends, alike⟩
  | skip skipped _ ih =>
      obtain ⟨done, runs, same⟩ := ih alike
      exact ⟨done, .skip skipped runs, same⟩
  | newline _ ih =>
      obtain ⟨done, runs, same⟩ := ih alike.breakLine
      rw [alike.nestingDepth] at runs
      exact ⟨done, .newline runs, same⟩
  | lexeme visible found _ ih =>
      obtain ⟨done, runs, same⟩ := ih (alike.read _)
      exact ⟨done, .lexeme visible found runs, same⟩
  | indent nonempty indents _ ih =>
      obtain ⟨after, indents, alike⟩ := alike.indentAt indents
      obtain ⟨done, runs, same⟩ := ih alike
      exact ⟨done, .indent nonempty indents runs, same⟩

/-! ## The kinds of a source -/

def tokenKinds? (source : List Char) : Option (List TokenKind) :=
  (tokenize source).toOption.map (·.map (·.kind))

namespace Scan

def finishedKinds (scan : Scan) : List TokenKind :=
  LaidOut.finished (scan.indentStack.length - 1) scan.kinds

theorem Alike.finishedKinds {scan other : Scan} (alike : scan.Alike other) :
    scan.finishedKinds = other.finishedKinds := by
  rw [Scan.finishedKinds, alike.kinds, alike.indentStack]
  rfl

end Scan

theorem tokenKinds?_eq_some_iff {source : List Char} {kinds : List TokenKind} :
    tokenKinds? source = some kinds ↔
      ∃ final, Runs (normalizeLineEndings source) true Scan.start final ∧
        final.finishedKinds = kinds := by
  have reads : ∀ final, _ ↔ Runs (normalizeLineEndings source) true Scan.start final :=
    @Lexer.loop_iff_runs (Lexer.new source) _ (Nat.le_refl _)
  have rest : (Lexer.new source).rest = normalizeLineEndings source := rfl
  simp only [← reads]
  rw [tokenKinds?, tokenize, lexItems, ← rest]
  cases (Lexer.new source).loop (Lexer.new source).rest.length with
  | error fault => simp [Functor.map, Except.map, Except.toOption]
  | ok lexer =>
      simp only [Functor.map, Except.map, Except.toOption, Option.map_some, Option.some.injEq,
        lexer.finish_kinds]
      constructor
      · exact fun same => ⟨lexer.scan, ⟨lexer, rfl, rfl⟩, same⟩
      · rintro ⟨final, ⟨done, loops, rfl⟩, same⟩
        rw [Except.ok.inj loops]
        exact same

/-! ## What a run keeps -/

namespace Scan

theorem suffix_popIndents (spaces : Nat) (stack : List Nat) (items : List Item) :
    items <:+ (popIndents spaces stack items).2 := by
  induction stack generalizing items with
  | nil => exact List.suffix_rfl
  | cons top stack ih =>
      cases stack with
      | nil => exact List.suffix_rfl
      | cons below stack =>
          rw [popIndents]
          split
          · exact (List.suffix_cons _ _).trans (ih _)
          · exact List.suffix_rfl

theorem suffix_indentTo {scan next : Scan} {spaces : Nat}
    (indents : scan.indentTo spaces = some next) : scan.kinds <:+ next.kinds := by
  rw [indentTo] at indents
  split at indents
  · rw [← Option.some.inj indents]
    exact List.suffix_cons _ _
  split at indents
  · simp only at indents
    split at indents
    · rw [← Option.some.inj indents]
      exact (suffix_popIndents spaces scan.indentStack scan.items).filterMap _
    · cases indents
  · obtain rfl := Option.some.inj indents
    exact List.suffix_rfl

theorem suffix_indentAt {scan next : Scan} {text : List Char}
    (indents : scan.indentAt text = some next) : scan.kinds <:+ next.kinds := by
  rw [indentAt] at indents
  split at indents
  · obtain rfl := Option.some.inj indents
    exact List.suffix_rfl
  · exact suffix_indentTo indents

theorem suffix_breakLine (scan : Scan) : scan.kinds <:+ scan.breakLine.kinds := by
  rw [breakLine]
  split
  · exact List.suffix_rfl
  split
  · exact List.suffix_rfl
  · exact List.suffix_cons _ _

theorem suffix_withoutNewline {kind : TokenKind} (solid : kind.isLayout = false)
    {kinds all : List TokenKind} (suffix : kind :: kinds <:+ all) :
    kind :: kinds <:+ withoutNewline all := by
  induction all with
  | nil => exact suffix
  | cons first all ih =>
      have older : kind ≠ first → kind :: kinds <:+ all := by
        intro differs
        rcases List.suffix_cons_iff.mp suffix with same | shorter
        · exact absurd (List.cons.inj same).1 differs
        · exact shorter
      rw [withoutNewline.eq_def]
      simp only
      split
      · exact (ih (older (by rintro rfl; cases solid))).trans (List.suffix_cons _ _)
      · exact (ih (older (by rintro rfl; cases solid))).trans (List.suffix_cons _ _)
      · exact older (by rintro rfl; cases solid)
      · exact suffix

end Scan

/-- Everything up to a token that is no layout stays. -/
theorem Runs.suffix {text : List Char} {start : Bool} {scan final : Scan}
    (runs : Runs text start scan final) {kind : TokenKind} {kinds : List TokenKind}
    (solid : kind.isLayout = false) (suffix : kind :: kinds <:+ scan.kinds) :
    kind :: kinds <:+ final.kinds := by
  induction runs with
  | ends => exact suffix
  | skip _ _ ih => exact ih suffix
  | @newline rest scan final _ ih => exact ih (suffix.trans scan.suffix_breakLine)
  | @lexeme text rest lexeme scan final _ _ _ ih =>
      apply ih
      cases lexeme with
      | comment => exact suffix
      | token other spelling =>
          rw [Scan.kinds_read_token]
          apply List.IsSuffix.trans _ (List.suffix_cons _ _)
          split
          · exact Scan.suffix_withoutNewline solid suffix
          · exact suffix
  | indent _ indents _ ih => exact ih (suffix.trans (Scan.suffix_indentAt indents))

theorem Runs.count_indent_le {text : List Char} {start : Bool} {scan final : Scan}
    (runs : Runs text start scan final) :
    scan.kinds.count .indent ≤ final.kinds.count .indent := by
  induction runs with
  | ends => exact Nat.le_refl _
  | skip _ _ ih => exact ih
  | @newline rest scan final _ ih => exact (scan.suffix_breakLine.sublist.count_le _).trans ih
  | @lexeme text rest lexeme scan final _ _ _ ih =>
      refine Nat.le_trans ?_ ih
      cases lexeme with
      | comment => exact Nat.le_refl _
      | token other spelling =>
          rw [Scan.kinds_read_token]
          have fewer := (List.sublist_cons_self other
            (if other = .pipeline then Scan.withoutNewline scan.kinds else scan.kinds)).count_le
              TokenKind.indent
          refine Nat.le_trans (Nat.le_of_eq ?_) fewer
          split
          · exact (Scan.count_withoutNewline (by simp) _).symm
          · rfl
  | indent _ indents _ ih => exact ((Scan.suffix_indentAt indents).sublist.count_le _).trans ih

end Marreta
