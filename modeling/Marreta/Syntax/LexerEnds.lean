import Marreta.Syntax.Runs

namespace Marreta

/-! How reading a source ends.

Every turn of the lexer reads at least one character, so it never runs out of turns.  It
ends with the tokens, with an error that it reports, or, on a last line of spaces only, by
reading past the end of the source. -/

/-! ## Errors -/

namespace Lexer

theorem readItem_fails {lexer : Lexer} (nonempty : lexer.rest ≠ []) {fault : Fault}
    (fails : lexer.readItem = .error fault) : ∃ error, fault = .error error := by
  obtain ⟨ch, rest, head⟩ := List.exists_cons_of_ne_nil nonempty
  rw [readItem, head] at fails
  dsimp only at fails
  by_cases blank : ch = ' ' ∨ ch = '\t' ∨ ch = '\r'
  · rw [if_pos blank] at fails
    cases fails
  rw [if_neg blank] at fails
  by_cases feed : ch = '\n'
  · rw [if_pos feed] at fails
    cases fails
  rw [if_neg feed] at fails
  by_cases hash : ch = '#'
  · rw [if_pos hash] at fails
    cases fails
  rw [if_neg hash] at fails
  by_cases quote : ch = '"'
  · rw [if_pos quote, readString] at fails
    cases body : stringBody (lexer.rest.drop 1) with
    | none =>
        rw [body] at fails
        exact ⟨_, (Except.error.inj fails).symm⟩
    | some found =>
        rw [body] at fails
        cases fails
  rw [if_neg quote] at fails
  by_cases digit : ch.isDigit = true
  · rw [if_pos digit, readNumber] at fails
    cases spans : numberSpan lexer.rest false with
    | error text =>
        rw [spans] at fails
        exact ⟨_, (Except.error.inj fails).symm⟩
    | ok found =>
        obtain ⟨text, hasDot⟩ := found
        rw [spans] at fails
        dsimp only at fails
        cases kind : numberKind text hasDot with
        | none =>
            rw [kind] at fails
            exact ⟨_, (Except.error.inj fails).symm⟩
        | some kind' =>
            rw [kind] at fails
            cases fails
  rw [if_neg digit] at fails
  by_cases word : isWordStart ch = true
  · rw [if_pos word] at fails
    cases fails
  rw [if_neg word] at fails
  cases operator : operatorAt (ch :: rest) with
  | none =>
      rw [operator] at fails
      exact ⟨_, (Except.error.inj fails).symm⟩
  | some found =>
      rw [operator] at fails
      cases fails

theorem indentTo_fails {lexer : Lexer} {spaces : Nat} {fault : Fault}
    (fails : lexer.indentTo spaces = .error fault) : ∃ error, fault = .error error := by
  rw [indentTo] at fails
  dsimp only at fails
  by_cases deeper : lexer.indentStack.headD 0 < spaces
  · rw [if_pos deeper] at fails
    cases fails
  rw [if_neg deeper] at fails
  by_cases shallower : spaces < lexer.indentStack.headD 0
  · rw [if_pos shallower] at fails
    by_cases known :
        (popIndents lexer.line spaces lexer.indentStack lexer.items).1.headD 0 = spaces
    · rw [if_pos known] at fails
      cases fails
    · rw [if_neg known] at fails
      exact ⟨_, (Except.error.inj fails).symm⟩
  · rw [if_neg shallower] at fails
    cases fails

theorem handleIndentation_fails {lexer : Lexer} {fault : Fault}
    (fails : lexer.handleIndentation = .error fault) : ∃ error, fault = .error error := by
  let inside := lexer.advanceBy (lexer.rest.takeWhile (· = ' ')).length
  by_cases blank : inside.rest.head?.all (fun ch => ch = '\n' || ch = '#') = true
  · rw [handleIndentation, if_pos blank] at fails
    cases fails
  · rw [handleIndentation, if_neg blank] at fails
    exact indentTo_fails fails

end Lexer

/-! ## A last line of spaces -/

/-- The rest of the source is spaces. -/
def OnlySpaces (text : List Char) : Prop :=
  text ≠ [] ∧ ∀ ch ∈ text, ch = ' '

/-- The text ends in a line of spaces.  The lines before it are read to their end, and no
bracket is open there. -/
def Overruns (text : List Char) (start : Bool) (scan : Scan) : Prop :=
  ∃ lines spaces middle, text = lines ++ spaces ∧ OnlySpaces spaces ∧
    (lines = [] ∧ start = true ∨ ∃ inner, lines = inner ++ ['\n']) ∧
    Runs lines start scan middle ∧ middle.nestingDepth = 0

theorem OnlySpaces.loose {spaces : List Char} (only : OnlySpaces spaces) : Loose spaces := by
  intro ch head
  rw [only.2 ch (List.mem_of_head? head)]
  decide

theorem Overruns.inside {text : List Char} {scan : Scan} (beyond : Overruns text false scan) :
    ∃ inner spaces middle, text = inner ++ '\n' :: spaces ∧ OnlySpaces spaces ∧
      Runs (inner ++ ['\n']) false scan middle ∧ middle.nestingDepth = 0 := by
  obtain ⟨lines, spaces, middle, rfl, only, ⟨-, start⟩ | ⟨inner, rfl⟩, runs, outside⟩ := beyond
  · cases start
  · exact ⟨inner, spaces, middle, by simp, only, runs, outside⟩

theorem Overruns.of_inside {inner spaces : List Char} {start : Bool} {scan middle : Scan}
    (only : OnlySpaces spaces) (runs : Runs (inner ++ ['\n']) start scan middle)
    (outside : middle.nestingDepth = 0) : Overruns (inner ++ '\n' :: spaces) start scan :=
  ⟨inner ++ ['\n'], spaces, middle, by simp, only, .inr ⟨inner, rfl⟩, runs, outside⟩

namespace Lexer

variable {lexer next : Lexer}

/-- An item in front of such a text. -/
theorem overruns_of_readItem (inside : lexer.atLineStart = false)
    (reads : lexer.readItem = .ok next) (beyond : Overruns next.rest next.atLineStart next.scan) :
    Overruns lexer.rest false lexer.scan := by
  rcases readItem_cases reads with
    ⟨ch, rest, head, skipped, rfl⟩ | ⟨rest, head, rfl⟩ |
      ⟨lexeme, rest, visible, found, rfl, scans, start⟩
  · have start : (lexer.advanceBy 1).atLineStart = false := inside
    rw [start, rest_advanceBy, scan_advanceBy, head] at beyond
    obtain ⟨inner, spaces, middle, whole, only, runs, outside⟩ := beyond.inside
    rw [head, show rest = _ from whole]
    exact @Overruns.of_inside (ch :: inner) _ _ _ _ only (.skip skipped runs) outside
  · obtain ⟨scans, after, -⟩ := handleNewline_spec lexer
    rw [handleNewline_atLineStart, scans, after, head] at beyond
    obtain ⟨lines, spaces, middle, whole, only, ends, runs, outside⟩ := beyond
    rw [head, show rest = _ from whole]
    refine ⟨'\n' :: lines, spaces, middle, rfl, only, .inr ?_, .newline runs, outside⟩
    rcases ends with ⟨rfl, -⟩ | ⟨inner, rfl⟩
    · exact ⟨[], rfl⟩
    · exact ⟨'\n' :: inner, rfl⟩
  · rw [start, inside, scans] at beyond
    obtain ⟨inner, spaces, middle, whole, only, runs, outside⟩ := beyond.inside
    obtain ⟨used, split, alone, cuts⟩ := lexemeAt_cuts found
    have same : next.rest = (inner ++ ['\n']) ++ spaces := by rw [whole]; simp
    rw [same] at cuts
    have cut := lexemeAt_append_of_cuts alone (cuts.of_append only.loose)
    have head : (used ++ (inner ++ ['\n'])).head? = lexer.rest.head? := by
      rw [split]
      cases used with
      | nil => cases alone
      | cons ch used => rfl
    rw [← head] at visible
    rw [split, whole, ← List.append_assoc]
    rw [← List.append_assoc] at visible cut
    exact .of_inside only (.lexeme visible cut runs) outside

theorem overruns_of_step (steps : lexer.step = .ok next)
    (beyond : Overruns next.rest next.atLineStart next.scan) :
    Overruns lexer.rest lexer.atLineStart lexer.scan := by
  rcases step_cases steps with ⟨inside, reads⟩ | ⟨start, mid, handles, reads⟩
  · rw [inside]
    exact overruns_of_readItem inside reads beyond
  · obtain ⟨indents, rest⟩ := handleIndentation_eq_ok handles
    obtain ⟨inner, spaces, middle, whole, only, runs, outside⟩ :=
      (overruns_of_readItem rfl reads beyond).inside
    replace whole : lexer.rest.dropWhile (· = ' ') = inner ++ '\n' :: spaces := rest.symm.trans whole
    have same : lexer.rest = (lexer.rest.takeWhile (· = ' ') ++ inner) ++ '\n' :: spaces := by
      rw [List.append_assoc, ← whole, List.takeWhile_append_dropWhile]
    generalize lexer.rest.takeWhile (· = ' ') ++ inner = text at same
    have dropped : text.dropWhile (· = ' ') = inner := by
      rw [same, dropSpaces_feed] at whole
      exact List.append_cancel_right whole
    rw [start, same]
    rw [same, ← lexer.scan.indentAt_feed text [] spaces] at indents
    refine .of_inside only (.indent (by simp [dropSpaces_feed]) indents ?_) outside
    rw [dropSpaces_feed text [], dropped]
    exact runs

/-- What is read of such a text leaves such a text. -/
theorem readItem_of_overruns (inside : lexer.atLineStart = false)
    (beyond : Overruns lexer.rest false lexer.scan) :
    ∃ next, lexer.readItem = .ok next ∧ Overruns next.rest next.atLineStart next.scan := by
  obtain ⟨inner, spaces, middle, whole, only, runs, outside⟩ := beyond.inside
  generalize lines : inner ++ ['\n'] = text at runs
  cases runs with
  | ends => simp at lines
  | @skip ch rest _ _ skipped runs =>
      cases inner with
      | nil =>
          obtain rfl : '\n' = ch := (List.cons.inj lines).1
          simp [isSkipped] at skipped
      | cons first inner =>
          obtain ⟨rfl, rfl⟩ := List.cons.inj lines
          refine ⟨_, readItem_skip whole skipped, ?_⟩
          have start : (lexer.advanceBy 1).atLineStart = false := inside
          rw [start, rest_advanceBy, scan_advanceBy, whole]
          exact .of_inside only runs outside
  | @newline rest _ _ runs =>
      have head : lexer.rest = '\n' :: (rest ++ spaces) := by
        rw [whole, ← List.cons_append, ← lines]
        simp
      refine ⟨_, readItem_newline head, ?_⟩
      obtain ⟨scans, after, -⟩ := handleNewline_spec lexer
      rw [handleNewline_atLineStart, scans, after, head]
      refine ⟨rest, spaces, middle, rfl, only, ?_, runs, outside⟩
      cases inner with
      | nil =>
          obtain rfl : [] = rest := (List.cons.inj lines).2
          obtain rfl := (Runs.nil_iff).mp runs
          rw [Scan.nestingDepth_breakLine] at outside
          exact .inl ⟨rfl, decide_eq_true outside⟩
      | cons first inner =>
          obtain ⟨-, rfl⟩ := List.cons.inj lines
          exact .inr ⟨inner, rfl⟩
  | lexeme visible found runs =>
      subst lines
      obtain ⟨after, rfl, everywhere⟩ := lexemeAt_feed found
      have head : (inner ++ ['\n']).head? = lexer.rest.head? := by
        rw [whole]
        cases inner <;> rfl
      have cut := everywhere spaces
      rw [head] at visible
      rw [← whole] at cut
      obtain ⟨next, reads, rest, scans, start⟩ := readItem_lexeme visible cut
      refine ⟨next, reads, ?_⟩
      rw [rest, start, inside, scans]
      exact .of_inside only runs outside

theorem step_of_overruns (beyond : Overruns lexer.rest lexer.atLineStart lexer.scan) :
    lexer.step = .error (.panic .lexer) ∨
      ∃ next, lexer.step = .ok next ∧ Overruns next.rest next.atLineStart next.scan := by
  cases start : lexer.atLineStart with
  | false =>
      rw [start] at beyond
      rw [step_inside start]
      exact .inr (readItem_of_overruns start beyond)
  | true =>
      rw [start] at beyond
      obtain ⟨lines, spaces, middle, whole, only, ends, runs, outside⟩ := beyond
      have indents := lexer.handleIndentation_at
      rcases ends with ⟨rfl, -⟩ | ⟨inner, rfl⟩
      · -- The indentation is the rest of the text.
        have dropped : lexer.rest.dropWhile (· = ' ') = [] := by
          rw [whole, List.nil_append, List.dropWhile_eq_nil_iff]
          exact fun ch member => decide_eq_true (only.2 ch member)
        have quiet : lexer.scan.indentAt lexer.rest = some lexer.scan := by
          rw [Scan.indentAt, dropped]
          rfl
        rw [quiet, dropped] at indents
        cases handles : lexer.handleIndentation with
        | error fault => simp [handles, Agrees] at indents
        | ok mid =>
            rw [handles] at indents
            left
            simp [step, start, handles, bind, Except.bind, Functor.map, Except.map, readItem,
              indents.2]
      · obtain ⟨-, scan, found, runs⟩ := runs.of_start (by simp)
        rw [dropSpaces_feed] at runs
        replace whole : lexer.rest = inner ++ '\n' :: spaces := by rw [whole]; simp
        rw [whole, ← lexer.scan.indentAt_feed inner [] spaces, found, dropSpaces_feed] at indents
        cases handles : lexer.handleIndentation with
        | error fault => simp [handles, Agrees] at indents
        | ok mid =>
            rw [handles] at indents
            obtain ⟨rfl, rest⟩ := indents
            have beyond : Overruns mid.rest false mid.scan := by
              rw [rest]
              exact .of_inside only runs outside
            obtain ⟨next, reads, after⟩ :=
              @readItem_of_overruns { mid with atLineStart := false } rfl beyond
            refine .inr ⟨next, ?_, after⟩
            simpa [step, start, handles, bind, Except.bind, Functor.map, Except.map] using reads

/-! ## Turns -/

/-- A turn reports its error, or reads past a last line of spaces. -/
theorem step_fails (nonempty : lexer.rest ≠ []) {fault : Fault}
    (fails : lexer.step = .error fault) :
    (∃ error, fault = .error error) ∨
      fault = .panic .lexer ∧ lexer.atLineStart = true ∧ OnlySpaces lexer.rest := by
  cases start : lexer.atLineStart with
  | false =>
      rw [step_inside start] at fails
      exact .inl (readItem_fails nonempty fails)
  | true =>
      cases handles : lexer.handleIndentation with
      | error other =>
          obtain rfl : other = fault := by
            simpa [step, start, handles, bind, Except.bind, Functor.map, Except.map] using fails
          exact .inl (handleIndentation_fails handles)
      | ok mid =>
          have reads : ({ mid with atLineStart := false } : Lexer).readItem = .error fault := by
            simpa [step, start, handles, bind, Except.bind, Functor.map, Except.map] using fails
          obtain ⟨-, rest⟩ := handleIndentation_eq_ok handles
          by_cases more : ({ mid with atLineStart := false } : Lexer).rest = []
          · rw [readItem, more] at reads
            refine .inr ⟨(Except.error.inj reads).symm, rfl, nonempty, ?_⟩
            rw [rest, List.dropWhile_eq_nil_iff] at more
            exact fun ch inside => of_decide_eq_true (more ch inside)
          · exact .inl (readItem_fails more reads)

/-- With enough turns the lexer ends, with an error that it reports, or past a last line of
spaces. -/
theorem loop_ends {source : List Char} {fuel : Nat} (passes : Passes source lexer)
    (enough : lexer.rest.length ≤ fuel) :
    (lexer.loop fuel = .error (.panic .lexer) ↔
      Overruns lexer.rest lexer.atLineStart lexer.scan) ∧
    ∀ fault, lexer.loop fuel = .error fault →
      (∃ error, fault = .error error) ∨ fault = .panic .lexer := by
  have stays {lexer : Lexer} (empty : lexer.rest = []) :
      ¬ Overruns lexer.rest lexer.atLineStart lexer.scan := by
    rintro ⟨lines, spaces, middle, whole, only, -⟩
    rw [empty] at whole
    exact only.1 (List.append_eq_nil_iff.mp whole.symm).2
  induction fuel generalizing lexer with
  | zero =>
      have empty := List.length_eq_zero_iff.mp (Nat.le_zero.mp enough)
      rw [loop_end empty]
      exact ⟨iff_of_false (by simp) (stays empty), by simp⟩
  | succ fuel ih =>
      by_cases empty : lexer.rest = []
      · rw [loop_end empty]
        exact ⟨iff_of_false (by simp) (stays empty), by simp⟩
      rw [loop_succ empty]
      cases steps : lexer.step with
      | ok next =>
          have shorter := step_shorter steps
          obtain ⟨panics, fails⟩ := ih (passes.step empty steps) (by omega)
          refine ⟨panics.trans ⟨overruns_of_step steps, fun beyond => ?_⟩, fails⟩
          rcases step_of_overruns beyond with stopped | ⟨other, reads, after⟩
          · rw [steps] at stopped
            cases stopped
          · obtain rfl : next = other := Except.ok.inj (steps.symm.trans reads)
            exact after
      | error fault =>
          have ends := step_fails empty steps
          refine ⟨⟨fun panics => ?_, fun beyond => ?_⟩, fun other fails => ?_⟩
          · obtain rfl : fault = .panic .lexer := Except.error.inj panics
            obtain ⟨error, reported⟩ | ⟨-, start, only⟩ := ends
            · cases reported
            · refine ⟨[], lexer.rest, lexer.scan, rfl, only, .inl ⟨rfl, start⟩, .ends, ?_⟩
              exact passes.wellLaid.2 start
          · rcases step_of_overruns beyond with stopped | ⟨other, reads, -⟩
            · rw [steps] at stopped
              exact stopped
            · rw [steps] at reads
              cases reads
          · obtain rfl : fault = other := Except.error.inj fails
            exact ends.imp_right (·.1)

end Lexer

/-- The source ends in a line of spaces, the lines before it are read to their end, and no
bracket is open there. -/
def EndsInSpaces (source : List Char) : Prop :=
  Overruns (normalizeLineEndings source) true Scan.start

/-- A source that is no sequence of tokens is reported, or ends in a line of spaces. -/
theorem tokenize_ends (source : List Char) :
    (tokenize source = .error (.panic .lexer) ↔ EndsInSpaces source) ∧
    ∀ fault, tokenize source = .error fault →
      (∃ error, fault = .error error) ∨ fault = .panic .lexer := by
  obtain ⟨panics, fails⟩ := @Lexer.loop_ends _ source _ .start (Nat.le_refl _)
  have same (fault : Fault) : tokenize source = .error fault ↔
      (Lexer.new source).loop (normalizeLineEndings source).length = .error fault := by
    rw [tokenize, lexItems]
    cases (Lexer.new source).loop (normalizeLineEndings source).length <;>
      simp [Functor.map, Except.map]
  exact ⟨(same _).trans panics, fun fault found => fails fault ((same fault).mp found)⟩

end Marreta
