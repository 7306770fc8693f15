import Marreta.Syntax.BlankLines
import Marreta.Syntax.BlockProductions

namespace Marreta

open Marreta.Parser

/-! Pipelines that start on a line of their own, indented deeper than the
assignment they belong to.  The parser passes the `Indent` in front of the first
`>>` and leaves the `Dedent` behind the last stage to whoever reads on, so no
source with such a line is accepted. -/

/-! ## What a whole parse consumes -/

/-- Fewer blocks than `Indent`s are opened where one of them stands in front of
`>>`. -/
theorem blocksOf_le (body : List TokenKind) (noEof : .eof ∉ body) :
    blocksOf (body ++ [.eof]) + body.count .dedent ≤ body.count .indent ∧
      ([.indent, .pipeline] <:+: body →
        blocksOf (body ++ [.eof]) + body.count .dedent < body.count .indent) := by
  induction body with
  | nil => simp [blocksOf]
  | cons kind rest induction =>
      obtain ⟨bound, strict⟩ := induction fun member => noEof (List.mem_cons_of_mem _ member)
      have inner : kind ≠ .indent → [.indent, .pipeline] <:+: kind :: rest →
          [.indent, .pipeline] <:+: rest := by
        intro other pair
        rcases List.infix_cons_iff.mp pair with front | later
        · exact absurd (List.cons_prefix_cons.mp front).1.symm other
        · exact later
      cases kind
      case eof => exact absurd List.mem_cons_self noEof
      case dedent =>
        rw [List.cons_append, List.count_cons_self, List.count_cons_of_ne (by simp)]
        change blocksOf (rest ++ [.eof]) - 1 + _ ≤ _ ∧ (_ → blocksOf (rest ++ [.eof]) - 1 + _ < _)
        refine ⟨by omega, fun pair => ?_⟩
        have fewer := strict (inner (by simp) pair)
        omega
      case indent =>
        rw [List.cons_append, List.count_cons_self, List.count_cons_of_ne (by simp), blocksOf]
        split
        · exact ⟨by omega, fun _ => by omega⟩
        · rename_i ahead
          refine ⟨by omega, fun pair => ?_⟩
          rcases List.infix_cons_iff.mp pair with front | later
          · obtain ⟨after, same⟩ := (List.cons_prefix_cons.mp front).2
            rw [← same] at ahead
            exact absurd rfl ahead
          · have fewer := strict later
            omega
      all_goals
        rw [List.cons_append, List.count_cons_of_ne (by simp), List.count_cons_of_ne (by simp)]
        exact ⟨bound, fun pair => strict (inner (by simp) pair)⟩

theorem infix_of_append_eof {body : List TokenKind}
    (pair : [.indent, .pipeline] <:+: body ++ [.eof]) : [.indent, .pipeline] <:+: body := by
  obtain ⟨before, after, whole⟩ := pair
  rcases List.eq_nil_or_concat after with rfl | ⟨after, last, rfl⟩
  · have ends := congrArg List.getLast? whole
    simp at ends
  · rw [List.concat_eq_append, ← List.append_assoc] at whole
    exact ⟨before, after, (List.append_inj' whole rfl).1⟩

theorem ParserState.blocks_of_eof {state : ParserState} (eof : state.current.kind = .eof) :
    state.blocks = 0 := by
  obtain ⟨rest, inside⟩ := state
  cases rest with
  | nil => rfl
  | cons token rest =>
      have last : token.kind = .eof := eof
      simp [blocks, blocksOf, last]

/-- The loop over the statements of a program ends at the end of the stream. -/
theorem collectWhile_ends {α : Type} {item : Parser α} {fuel : Nat} {state after : ParserState}
    {values : List α} (runs : collectWhile notAtEnd item fuel state = .ok (values, after)) :
    after.current.kind = .eof := by
  induction fuel generalizing state values with
  | zero => cases runs
  | succ fuel induction =>
      obtain ⟨goes, between, looked, runs⟩ := Drops.bind_run runs
      obtain ⟨rfl, rfl⟩ := Prod.mk.inj (Except.ok.inj looked)
      split at runs
      · obtain ⟨head, between, -, runs⟩ := Drops.bind_run runs
        obtain ⟨tail, last, loops, runs⟩ := Drops.bind_run runs
        obtain ⟨-, rfl⟩ := Prod.mk.inj (Except.ok.inj runs)
        exact induction loops
      · rename_i stops
        obtain ⟨-, rfl⟩ := Prod.mk.inj (Except.ok.inj runs)
        simpa [ParserState.isAtEnd] using stops

/-- No well laid out stream with an `Indent` in front of `>>` is a program. -/
theorem parse_ne_ok {tokens : List Token} (layout : WellFormedLayout (tokens.map (·.kind)))
    (pair : [.indent, .pipeline] <:+: tokens.map (·.kind)) (program : Program) :
    parse tokens ≠ .ok program := by
  intro parses
  obtain ⟨body, kinds, noEof⟩ := layout.ends
  have closes := layout.closes
  rw [kinds, List.count_append, List.count_append] at closes
  have fewer := (blocksOf_le body noEof).2 (infix_of_append_eof (kinds ▸ pair))
  have ended : (ParserState.new tokens).Ended := by
    rw [ParserState.Ended, ParserState.new, kinds, List.getLast?_concat]
  rw [parse] at parses
  cases runs : parseProgram (productions (parseDepth tokens)) (.new tokens) with
  | error fault => simp [runs, Functor.map, Except.map] at parses
  | ok result =>
      obtain ⟨program, after⟩ := result
      obtain ⟨endedAfter, most⟩ :=
        (settles_productions (parseDepth tokens)).program _ ended program after runs
      obtain ⟨_, between, -, runs⟩ := Drops.bind_run runs
      rw [ParserState.blocks_of_eof (collectWhile_ends runs)] at most
      have total : (ParserState.new tokens).blocks = blocksOf (body ++ [.eof]) := by
        rw [ParserState.blocks, ParserState.new, kinds]
      simp at closes
      omega

/-! ## The layout -/

namespace Scan

theorem headD_indentTo {scan next : Scan} {spaces : Nat}
    (indents : scan.indentTo spaces = some next) : next.indentStack.headD 0 = spaces := by
  rw [indentTo] at indents
  split at indents
  · rw [← Option.some.inj indents]
    rfl
  split at indents
  · simp only at indents
    split at indents
    · rename_i lands
      rw [← Option.some.inj indents]
      exact lands
    · cases indents
  · obtain rfl := Option.some.inj indents
    omega

theorem indentAt_visible {text : List Char} {spaces : Nat} (scan : Scan)
    (visible : text.head?.any (fun ch => ch ≠ ' ' && ch ≠ '\n' && ch ≠ '#') = true) :
    scan.indentAt (List.replicate spaces ' ' ++ text) = scan.indentTo spaces ∧
      (List.replicate spaces ' ' ++ text).dropWhile (· = ' ') = text := by
  cases text with
  | nil => cases visible
  | cons ch rest =>
  simp only [List.head?_cons, Option.any_some, ne_eq, decide_not, Bool.and_eq_true,
    Bool.not_eq_true', decide_eq_false_iff_not] at visible
  obtain ⟨⟨space, feed⟩, hash⟩ := visible
  have spaced : ∀ other ∈ List.replicate spaces ' ', decide (other = ' ') = true := by
    simp
  have dropped : (List.replicate spaces ' ' ++ ch :: rest).dropWhile (· = ' ') = ch :: rest := by
    rw [List.dropWhile_append_of_pos spaced, List.dropWhile_cons_of_neg (by simpa using space)]
  refine ⟨?_, dropped⟩
  rw [indentAt, dropped, List.takeWhile_append_of_pos spaced,
    List.takeWhile_cons_of_neg (by simpa using space)]
  simp [feed, hash]

end Scan

/-- A line, indented by `width`, that the lexer reads to its end outside brackets,
below the text `above`. -/
structure StatementLine (above : List Char) (width : Nat) (line : List Char) : Prop where
  below : above = [] ∨ ∃ lines, above = lines ++ ['\n']
  visible : line.head?.any (fun ch => ch ≠ ' ' && ch ≠ '\n' && ch ≠ '#') = true
  oneLine : '\n' ∉ line
  reads : ∃ before after, Runs above true Scan.start before ∧ before.nestingDepth = 0 ∧
    Runs (List.replicate width ' ' ++ line ++ ['\n']) true before after ∧
    after.nestingDepth = 0

theorem Runs.indentStack_oneLine {line : List Char} {scan final : Scan} (oneLine : '\n' ∉ line)
    (runs : Runs (line ++ ['\n']) false scan final) : final.indentStack = scan.indentStack := by
  generalize whole : line ++ ['\n'] = text at runs
  generalize inside : false = start at runs
  induction runs generalizing line with
  | ends => simp at whole
  | @skip ch rest scan final skipped _ ih =>
      cases line with
      | nil =>
          obtain rfl : '\n' = ch := (List.cons.inj whole).1
          simp [isSkipped] at skipped
      | cons first line =>
          exact ih (fun member => oneLine (List.mem_cons_of_mem _ member)) (List.cons.inj whole).2 rfl
  | @newline rest scan final runs _ =>
      cases line with
      | nil =>
          obtain rfl : [] = rest := (List.cons.inj whole).2
          obtain rfl := nil_iff.mp runs
          exact scan.indentStack_breakLine
      | cons first line =>
          obtain ⟨rfl, -⟩ := List.cons.inj whole
          exact absurd List.mem_cons_self oneLine
  | @lexeme text rest lexeme scan final _ found _ ih =>
      subst whole
      obtain ⟨inner, rfl, -⟩ := lexemeAt_feed found
      obtain ⟨used, split, -⟩ := lexemeAt_cuts found
      rw [← List.append_assoc] at split
      obtain ⟨rfl, -⟩ := List.append_inj' split rfl
      have same : (scan.read lexeme).indentStack = scan.indentStack := by
        cases lexeme <;> rfl
      rw [← same]
      exact ih (fun member => oneLine (List.mem_append_right _ member)) rfl rfl
  | indent => cases inside

theorem lexemeAt_pipeline (rest : List Char) :
    lexemeAt ('>' :: '>' :: rest) = some (.token .pipeline ">>", rest) := by
  have letter : Lexer.isWordStart '>' = false := by decide
  simp [lexemeAt, letter, Lexer.operatorAt]
  rfl

variable {above line stages : List Char} {width spaces : Nat}

/-- The tokens of a line that is indented deeper than the statement above it and
starts with `>>`. -/
theorem StatementLine.pair {source : List Char} {kinds : List TokenKind}
    (statement : StatementLine above width line) (deeper : width < spaces)
    (layout : normalizeLineEndings source = above ++ (List.replicate width ' ' ++ line ++
      '\n' :: (List.replicate spaces ' ' ++ '>' :: '>' :: stages)))
    (reads : tokenKinds? source = some kinds) : [.indent, .pipeline] <:+: kinds := by
  obtain ⟨final, runs, rfl⟩ := tokenKinds?_eq_some_iff.mp reads
  obtain ⟨before, after, runsAbove, outside, runsLine, outside'⟩ := statement.reads
  have top : after.indentStack.headD 0 = width := by
    obtain ⟨-, next, indents, runs⟩ := runsLine.of_start (by simp)
    have visible : (line ++ ['\n']).head?.any (fun ch => ch ≠ ' ' && ch ≠ '\n' && ch ≠ '#') =
        true := by
      rw [← statement.visible]
      cases line with
      | nil => cases statement.visible
      | cons ch rest => rfl
    obtain ⟨indent, dropped⟩ := before.indentAt_visible visible
    rw [List.append_assoc, indent] at indents
    rw [List.append_assoc, dropped] at runs
    rw [runs.indentStack_oneLine statement.oneLine, Scan.headD_indentTo indents]
  rw [layout, (runsAbove.boundary statement.below).2, outside, decide_eq_true rfl,
    runsLine.append_iff, outside', decide_eq_true rfl] at runs
  obtain ⟨-, next, indents, runs⟩ := runs.of_start (by simp)
  have visible : ('>' :: '>' :: stages).head?.any
      (fun ch => ch ≠ ' ' && ch ≠ '\n' && ch ≠ '#') = true := rfl
  obtain ⟨indent, dropped⟩ := after.indentAt_visible visible
  rw [indent, Scan.indentTo, top, if_pos deeper] at indents
  obtain rfl := Option.some.inj indents
  rw [dropped, Runs.lexeme_iff (by rfl) (lexemeAt_pipeline stages)] at runs
  have newest : .pipeline :: .indent :: Scan.withoutNewline after.kinds <:+ final.kinds := by
    apply runs.suffix rfl
    rw [Scan.kinds_read_token, if_pos rfl]
    exact List.suffix_rfl
  obtain ⟨newer, same⟩ := newest
  refine ⟨(Scan.withoutNewline after.kinds).reverse, newer.reverse ++
    (List.replicate (final.indentStack.length - 1) .dedent ++ [.eof]), ?_⟩
  rw [Scan.finishedKinds, LaidOut.finished, ← same]
  simp

/-- A source in which a statement is followed by a line that is indented deeper and
starts with `>>` is no program. -/
theorem indentedPipeline_rejected (source above line stages : List Char) (width spaces : Nat)
    (statement : StatementLine above width line) (deeper : width < spaces)
    (layout : normalizeLineEndings source = above ++ (List.replicate width ' ' ++ line ++
      '\n' :: (List.replicate spaces ' ' ++ '>' :: '>' :: stages))) (program : Program) :
    parseSource source ≠ .ok program := by
  intro parses
  rw [parseSource] at parses
  cases reads : tokenize source with
  | error fault => simp [reads, bind, Except.bind] at parses
  | ok tokens =>
      rw [reads] at parses
      have kinds : tokenKinds? source = some (tokens.map (·.kind)) := by
        rw [tokenKinds?, reads]
        rfl
      exact parse_ne_ok (wellFormedLayout_of_tokenize reads)
        (statement.pair deeper layout kinds) program parses

theorem indentedPipeline_rejected_stage :
    ¬ ∃ program, parseSource "x = a\n    >> f\ny = 1\n".toList = .ok program := by
  have runs : ∃ after, Runs "x = a\n".toList true Scan.start after ∧ after.nestingDepth = 0 :=
    ⟨_, @runs_of_loop "x = a\n".toList _ rfl, rfl⟩
  obtain ⟨after, line, outside⟩ := runs
  have statement : StatementLine [] 0 "x = a".toList :=
    ⟨.inl rfl, rfl, by decide, Scan.start, after, .ends, rfl, line, outside⟩
  rintro ⟨program, parses⟩
  exact indentedPipeline_rejected _ _ _ " f\ny = 1\n".toList 0 4 statement (by decide) rfl program
    parses

/-- The three layouts of `x = a >> f` in front of `y = 1`. -/
theorem indentedPipeline_differs :
    let read := fun source : String =>
      match parseSource source.toList with
      | .ok [.assignment "x" (.pipeline (.identifier input) [.expression (.identifier stage)]) _ _,
          .assignment "y" (.integer 1) _ _] => some (input, stage)
      | _ => none
    let failure := fun source : String =>
      match parseSource source.toList with
      | .error (.error error) => some error.display
      | _ => none
    read "x = a >> f\ny = 1\n" = some ("a", "f") ∧
      read "x = a\n>> f\ny = 1\n" = some ("a", "f") ∧
      read "x = a\n    >> f\ny = 1\n" = none ∧
      failure "x = a\n    >> f\ny = 1\n" =
        some "Error at 3:1: expected expression, got ''" := by
  decide +kernel

end Marreta
