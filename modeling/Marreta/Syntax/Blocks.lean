import Marreta.Syntax.Indentation
import Marreta.Syntax.Pratt

namespace Marreta

/-! The blocks a parse opens and closes.

Every production of the parser closes the blocks it opens and no other: it leaves
no more `Dedent`s behind than it passed.  An `Indent` in front of `>>` is the
exception.  It is passed with the pipeline and its `Dedent` is left to whoever
reads on. -/

/-- The blocks opened by tokens still to be read, less the blocks they close.  An
`Indent` in front of `>>` opens none. -/
def blocksOf : List TokenKind → Int
  | [] => 0
  | kind :: rest =>
      match kind with
      | .eof => 0
      | .indent => if rest.head? = some .pipeline then blocksOf rest else blocksOf rest + 1
      | .dedent => blocksOf rest - 1
      | _ => blocksOf rest

namespace TokenKind

/-- A token that can be passed without closing a block or leaving the stream. -/
def isPassed : TokenKind → Bool
  | .dedent | .eof => false
  | _ => true

end TokenKind

theorem blocksOf_le_cons {kind : TokenKind} (passed : kind.isPassed = true)
    (rest : List TokenKind) : blocksOf rest ≤ blocksOf (kind :: rest) := by
  cases kind
  case eof => cases passed
  case dedent => cases passed
  case indent =>
      simp only [blocksOf]
      split <;> omega
  all_goals exact Int.le_refl _

namespace ParserState

def blocks (state : ParserState) : Int :=
  blocksOf (state.rest.map (·.kind))

/-- The last token is an `Eof`. -/
def Ended (state : ParserState) : Prop :=
  (state.rest.map (·.kind)).getLast? = some .eof

theorem Ended.advance {state : ParserState} (ended : state.Ended) : state.advance.Ended := by
  obtain ⟨rest, inside⟩ := state
  match rest with
  | [] => exact ended
  | [token] => exact ended
  | token :: next :: rest =>
      simpa only [Ended, ParserState.advance, List.map_cons, List.getLast?_cons_cons] using ended

theorem Ended.skipNewlines {state : ParserState} (ended : state.Ended) :
    state.skipNewlines.Ended := by
  obtain ⟨rest, inside⟩ := state
  induction rest with
  | nil => exact ended
  | cons token rest induction =>
      simp only [Ended, ParserState.skipNewlines, List.dropWhile_cons] at ended ⊢
      split
      · rename_i newline
        cases rest with
        | nil =>
            rw [List.map_singleton, List.getLast?_singleton, of_decide_eq_true newline] at ended
            cases ended
        | cons next rest =>
            rw [List.map_cons, List.map_cons, List.getLast?_cons_cons] at ended
            exact induction ended
      · exact ended

/-- A token other than the last is in front of another one. -/
theorem Ended.front {state : ParserState} (ended : state.Ended)
    (inner : state.current.kind ≠ .eof) : ∃ token next rest,
      state.rest = token :: next :: rest ∧ token = state.current ∧
        state.advance = { state with rest := next :: rest } := by
  obtain ⟨rest, inside⟩ := state
  match rest with
  | [] => cases ended
  | [token] => exact absurd (Option.some.inj ended) inner
  | token :: next :: rest => exact ⟨token, next, rest, rfl, rfl, rfl⟩

theorem Ended.advance_blocks {state : ParserState} (ended : state.Ended)
    (passed : state.current.kind.isPassed = true) : state.advance.blocks ≤ state.blocks := by
  obtain ⟨token, next, rest, tokens, rfl, moved⟩ :=
    ended.front (fun eof => by rw [eof] at passed; cases passed)
  rw [moved, blocks, blocks, tokens]
  exact blocksOf_le_cons passed _

/-- An `Indent` opens a block unless a pipeline follows. -/
theorem Ended.advance_indent {state : ParserState} (ended : state.Ended)
    (indent : state.current.kind = .indent) :
    state.advance.blocks + 1 = state.blocks ∨ state.advance.current.kind = .pipeline := by
  obtain ⟨token, next, rest, tokens, rfl, moved⟩ :=
    ended.front (fun eof => by rw [indent] at eof; cases eof)
  by_cases pipeline : next.kind = .pipeline
  · right
    rw [moved]
    exact pipeline
  · left
    rw [moved, blocks, blocks, tokens]
    simp [blocksOf, indent, pipeline]

theorem Ended.advance_dedent {state : ParserState} (ended : state.Ended)
    (dedent : state.current.kind = .dedent) : state.advance.blocks = state.blocks + 1 := by
  obtain ⟨token, next, rest, tokens, rfl, moved⟩ :=
    ended.front (fun eof => by rw [dedent] at eof; cases eof)
  rw [moved, blocks, blocks, tokens]
  simp [blocksOf, dedent]

@[simp] theorem skipNewlines_blocks (state : ParserState) :
    state.skipNewlines.blocks = state.blocks := by
  obtain ⟨rest, inside⟩ := state
  simp only [blocks, skipNewlines]
  induction rest with
  | nil => rfl
  | cons token rest induction =>
      rw [List.dropWhile_cons]
      split
      · rename_i newline
        rw [induction, List.map_cons, of_decide_eq_true newline]
        rfl
      · rfl

theorem skipNewlines_of_current {state : ParserState} (other : state.current.kind ≠ .newline) :
    state.skipNewlines = state := by
  obtain ⟨rest, inside⟩ := state
  cases rest with
  | nil => rfl
  | cons token rest =>
      have kept : token.kind ≠ .newline := other
      simp [skipNewlines, kept]

end ParserState

namespace Parser

variable {α β : Type}

/-! ## Productions that close what they open -/

/-- The blocks left after a successful run are at most `bound`. -/
def Drops (bound : Int) (parser : Parser α) (state : ParserState) : Prop :=
  ∀ value after, parser state = .ok (value, after) → after.Ended ∧ after.blocks ≤ bound

/-- Every successful run closes the blocks it opens and no other. -/
def Falls (parser : Parser α) : Prop :=
  ∀ state, state.Ended → Drops state.blocks parser state

/-- No run succeeds in front of `>>`. -/
def Refuses (parser : Parser α) : Prop :=
  ∀ state, state.current.kind = .pipeline → ∀ result, parser state ≠ .ok result

variable {bound : Int} {state : ParserState} {first : Parser α} {next : α → Parser β}

theorem Drops.bind_run {result : β × ParserState} (runs : (first >>= next) state = .ok result) :
    ∃ value between, first state = .ok (value, between) ∧ next value between = .ok result := by
  rw [Parser.bind_run] at runs
  split at runs
  · rename_i value between reads
    exact ⟨value, between, reads, runs⟩
  · cases runs

/-- A step that leaves the state alone. -/
theorem Drops.reads {value : α} (reads : first state = .ok (value, state))
    (later : Drops bound (next value) state) : Drops bound (first >>= next) state := by
  intro result after runs
  rw [Parser.bind_run, reads] at runs
  exact later result after runs

theorem Drops.then (drops : Drops bound first state) (later : ∀ value, Falls (next value)) :
    Drops bound (first >>= next) state := by
  intro result after runs
  obtain ⟨value, between, reads, continues⟩ := Drops.bind_run runs
  obtain ⟨ended, fewer⟩ := drops value between reads
  obtain ⟨ended, fewer'⟩ := later value between ended result after continues
  exact ⟨ended, Int.le_trans fewer' fewer⟩

theorem Falls.bind (falls : Falls first) (later : ∀ value, Falls (next value)) :
    Falls (first >>= next) :=
  fun state ended => (falls state ended).then later

theorem Falls.pure (value : α) : Falls (Pure.pure value : Parser α) := by
  intro state ended result after runs
  obtain ⟨-, rfl⟩ := Prod.mk.inj (Except.ok.inj runs)
  exact ⟨ended, Int.le_refl _⟩

theorem Falls.throw (fault : Fault) : Falls (throw fault : Parser α) := by
  intro state ended result after runs
  cases runs

theorem Falls.raise (error : MarretaError) : Falls (Parser.raise error : Parser α) :=
  .throw _

theorem Falls.unexpected (expected : String) : Falls (Parser.unexpected expected : Parser α) := by
  intro state ended result after runs
  cases runs

/-- A step that only looks at the state. -/
theorem Falls.of_reads {look : ParserState → α}
    (reads : ∀ state, first state = .ok (look state, state)) : Falls first := by
  intro state ended value after runs
  rw [reads] at runs
  obtain ⟨-, rfl⟩ := Prod.mk.inj (Except.ok.inj runs)
  exact ⟨ended, Int.le_refl _⟩

theorem get_run (state : ParserState) :
    (get : Parser ParserState) state = .ok (state, state) := rfl

theorem Falls.skipNewlines : Falls skipNewlines := by
  intro state ended value after runs
  obtain ⟨-, rfl⟩ := Prod.mk.inj (Except.ok.inj runs)
  exact ⟨ended.skipNewlines, Int.le_of_eq state.skipNewlines_blocks⟩

/-! ## Steps at a known token -/

/-- A run that starts at a token of the given kind closes the blocks it opens and
no other. -/
def FallsAt (kind : TokenKind) (parser : Parser α) : Prop :=
  ∀ state, state.Ended → state.current.kind = kind → Drops state.blocks parser state

variable {kind : TokenKind}

theorem Falls.at (falls : Falls first) : FallsAt kind first :=
  fun state ended _ => falls state ended

theorem FallsAt.bind (falls : FallsAt kind first) (later : ∀ value, Falls (next value)) :
    FallsAt kind (first >>= next) :=
  fun state ended here => (falls state ended here).then later

theorem FallsAt.advance (passed : kind.isPassed = true) : FallsAt kind advance := by
  rintro state ended rfl value after runs
  obtain ⟨-, rfl⟩ := Prod.mk.inj (Except.ok.inj runs)
  exact ⟨ended.advance, ended.advance_blocks passed⟩

/-- A step that only looks at the state, at a known token. -/
theorem FallsAt.reads {look : ParserState → α}
    (reads : ∀ state, first state = .ok (look state, state))
    (later : ∀ value, FallsAt kind (next value)) : FallsAt kind (first >>= next) :=
  fun state ended here => .reads (reads state) (later _ state ended here)

theorem FallsAt.current {next : Token → Parser β} (later : ∀ token, FallsAt kind (next token)) :
    FallsAt kind (current >>= next) :=
  .reads current_run later

theorem Falls.currentKind {next : TokenKind → Parser β}
    (later : ∀ kind, FallsAt kind (next kind)) : Falls (currentKind >>= next) :=
  fun state ended => .reads (currentKind_run state) (later _ state ended rfl)

theorem Falls.ifCheck {yes no : Parser α} (found : FallsAt kind yes) (other : Falls no) :
    Falls (check kind >>= fun holds => if holds = true then yes else no) := by
  intro state ended
  refine .reads (check_run kind state) ?_
  split
  · rename_i here
    exact found state ended (of_decide_eq_true here)
  · exact other state ended

theorem Falls.ite {condition : Prop} [Decidable condition] {yes no : Parser α}
    (found : Falls yes) (other : Falls no) : Falls (if condition then yes else no) := by
  split
  · exact found
  · exact other

theorem Falls.check (kind : TokenKind) : Falls (check kind) :=
  .of_reads (check_run kind)

theorem Falls.current : Falls current :=
  .of_reads current_run

theorem Falls.peekKind : Falls peekKind :=
  .of_reads peekKind_run

theorem Falls.isAtEnd : Falls isAtEnd :=
  .of_reads isAtEnd_run

theorem Falls.budget : Falls budget :=
  .of_reads budget_run

theorem Falls.reservedWordAsName : Falls reservedWordAsName :=
  .of_reads reservedWordAsName_run

theorem Falls.expect (passed : kind.isPassed = true) : Falls (expect kind) := by
  unfold Parser.expect
  refine .bind .isAtEnd fun _ => .ite (.raise _) ?_
  exact .ifCheck (.advance passed) (.unexpected _)

theorem expect_spec {after : ParserState} {value : Unit}
    (expected : Parser.expect kind state = .ok (value, after)) :
    state.current.kind = kind ∧ after = state.advance := by
  rw [Parser.expect, Parser.bind_run, isAtEnd_run] at expected
  simp only at expected
  split at expected
  · cases expected
  · rw [Parser.bind_run, check_run] at expected
    simp only at expected
    split at expected
    · rename_i here
      obtain ⟨-, rfl⟩ := Prod.mk.inj (Except.ok.inj expected)
      exact ⟨of_decide_eq_true here, rfl⟩
    · cases expected

theorem keyword_solid {word : String} {kind : TokenKind}
    (keyword : keywordLookup word = some kind) :
    kind.isPassed = true ∧ kind ≠ .pipeline := by
  unfold keywordLookup at keyword
  split at keyword <;> cases keyword <;> exact ⟨rfl, by decide⟩

theorem Falls.expectIdentifier : Falls expectIdentifier := by
  intro state ended
  refine .reads (current_run state) ?_
  split
  · exact Falls.raise _ state ended
  · rename_i name same
    exact ((FallsAt.advance rfl).bind fun _ => .pure _) state ended same
  · refine .reads (reservedWordAsName_run state) ?_
    split
    · exact Falls.raise _ state ended
    · exact Falls.unexpected _ state ended

theorem Falls.expectName : Falls expectName := by
  intro state ended
  refine .reads (current_run state) ?_
  split
  · rename_i name same
    exact ((FallsAt.advance rfl).bind fun _ => .pure _) state ended same
  · refine .reads (reservedWordAsName_run state) ?_
    split
    · rename_i word found
      obtain ⟨keyword, -⟩ := Option.ite_none_right_eq_some.mp found
      exact ((FallsAt.advance (keyword_solid keyword).1).bind fun _ => .pure _) state ended rfl
    · exact Falls.unexpected _ state ended

theorem Falls.ifIdentifierLexeme {name : String} {yes no : Parser α}
    (found : FallsAt (.identifier name) yes) (other : Falls no) :
    Falls (checkIdentifierLexeme name >>= fun holds => if holds = true then yes else no) :=
  .ifCheck found other

theorem Falls.expectIdentifierLexeme (expected : String) :
    Falls (expectIdentifierLexeme expected) :=
  .ifIdentifierLexeme (.advance rfl) (.unexpected _)

theorem Falls.expectInteger : Falls expectInteger := by
  refine .currentKind fun kind => ?_
  split
  · exact (FallsAt.advance rfl).bind fun _ => .pure _
  · exact (Falls.unexpected _).at

theorem Falls.expectString : Falls expectString := by
  refine .currentKind fun kind => ?_
  split
  · exact (FallsAt.advance rfl).bind fun _ => .pure _
  · exact (Falls.unexpected _).at

/-! ## Loops and blocks -/

/-- A loop whose condition may look past line breaks. -/
theorem Falls.collectWhile {continues : Parser Bool} {item : Parser α}
    (looks : Falls continues)
    (falls : ∀ state between, state.Ended → continues state = .ok (true, between) →
      Drops between.blocks item between) (fuel : Nat) :
    Falls (collectWhile continues item fuel) := by
  induction fuel with
  | zero => exact .throw _
  | succ fuel induction =>
      intro state ended value after runs
      obtain ⟨goes, between, looked, runs⟩ := Drops.bind_run runs
      obtain ⟨ended', fewer⟩ := looks state ended goes between looked
      have turns : Drops between.blocks
          (if goes = true then do
            let head ← item
            let tail ← Parser.collectWhile continues item fuel
            return head :: tail
          else return []) between := by
        cases goes with
        | false => exact Falls.pure _ between ended'
        | true =>
            exact (falls state between ended looked).then fun _ =>
              induction.bind fun _ => .pure _
      obtain ⟨ended, fewer'⟩ := turns value after runs
      exact ⟨ended, Int.le_trans fewer' fewer⟩

theorem Falls.many {continues : Parser Bool} {item : Parser α}
    (looks : Falls continues) (falls : Falls item) : Falls (many continues item) := by
  refine .bind .budget fun fuel => .collectWhile looks ?_ fuel
  intro state between ended looked
  exact falls between (looks state ended _ _ looked).1

/-- A loop over items that start with a known token. -/
theorem Falls.manyAt {item : Parser α} (falls : FallsAt kind item) :
    Falls (Parser.many (Parser.check kind) item) := by
  refine .bind .budget fun fuel => .collectWhile (.check kind) ?_ fuel
  intro state between ended looked
  obtain ⟨here, rfl⟩ := Prod.mk.inj (Except.ok.inj looked)
  exact falls state ended (of_decide_eq_true here)

theorem Falls.before (kind : TokenKind) : Falls (before kind) :=
  .bind (.check kind) fun _ => .bind .isAtEnd fun _ => .pure _

theorem Falls.optionalAfter {item : Parser α} (passed : kind.isPassed = true)
    (falls : Falls item) : Falls (optionalAfter kind item) :=
  .ifCheck ((FallsAt.advance passed).bind fun _ => falls.bind fun _ => .pure _) (.pure _)

/-- No run that starts in front of `>>` ends in front of a `Dedent`. -/
def Unclosed (parser : Parser α) : Prop :=
  ∀ state, state.current.kind = .pipeline → ∀ value after, parser state = .ok (value, after) →
    after.current.kind ≠ .dedent

theorem Refuses.unclosed (refuses : Refuses first) : Unclosed first :=
  fun state pipeline _ _ runs => absurd runs (refuses state pipeline _)

/-- The body of a block, from behind its `Indent` past its `Dedent`. -/
theorem Drops.block {inner : Parser α} {next : α → Parser β} (falls : Falls inner)
    (unclosed : Unclosed inner) (later : ∀ value, Falls (next value)) (ended : state.Ended)
    (indent : state.current.kind = .indent) :
    Drops state.blocks (inner >>= fun value => Parser.expect .dedent >>= fun _ => next value)
      state.advance := by
  intro result after runs
  obtain ⟨value, closing, reads, runs⟩ := Drops.bind_run runs
  obtain ⟨_, closed, expected, runs⟩ := Drops.bind_run runs
  obtain ⟨dedent, rfl⟩ := expect_spec expected
  obtain ⟨endedClosing, fewer⟩ := falls _ ended.advance value closing reads
  obtain ⟨endedAfter, fewer'⟩ := later value _ endedClosing.advance result after runs
  rw [endedClosing.advance_dedent dedent] at fewer'
  rcases ended.advance_indent indent with opens | pipeline
  · exact ⟨endedAfter, by omega⟩
  · exact absurd dedent (unclosed _ pipeline _ _ reads)

theorem Falls.block {inner : Parser α} {next : α → Parser β} (falls : Falls inner)
    (unclosed : Unclosed inner) (later : ∀ value, Falls (next value)) :
    Falls (Parser.expect .indent >>= fun _ =>
      inner >>= fun value => Parser.expect .dedent >>= fun _ => next value) := by
  intro state ended result after runs
  obtain ⟨_, opened, expected, runs⟩ := Drops.bind_run runs
  obtain ⟨indent, rfl⟩ := expect_spec expected
  exact Drops.block falls unclosed later ended indent result after runs

theorem FallsAt.block {inner : Parser α} {next : α → Parser β} (falls : Falls inner)
    (unclosed : Unclosed inner) (later : ∀ value, Falls (next value)) :
    FallsAt .indent (Parser.advance >>= fun _ =>
      inner >>= fun value => Parser.expect .dedent >>= fun _ => next value) := by
  intro state ended indent result after runs
  rw [Parser.bind_run, advance_run] at runs
  exact Drops.block falls unclosed later ended indent result after runs

/-! ## Productions that cannot start with a pipeline -/

theorem Refuses.bind (refuses : Refuses first) : Refuses (first >>= next) := by
  intro state pipeline result runs
  obtain ⟨value, between, reads, -⟩ := Drops.bind_run runs
  exact refuses state pipeline _ reads

theorem Refuses.reads {look : ParserState → α}
    (reads : ∀ state, first state = .ok (look state, state))
    (later : ∀ value, Refuses (next value)) : Refuses (first >>= next) := by
  intro state pipeline result runs
  rw [Parser.bind_run, reads] at runs
  exact later _ state pipeline result runs

/-- A step that stays in front of the pipeline. -/
theorem Refuses.past {value : α}
    (stays : ∀ state, state.current.kind = .pipeline → first state = .ok (value, state))
    (later : Refuses (next value)) : Refuses (first >>= next) := by
  intro state pipeline result runs
  rw [Parser.bind_run, stays state pipeline] at runs
  exact later state pipeline result runs

theorem Refuses.ifCheck {yes no : Parser α} (different : kind ≠ .pipeline)
    (refuses : Refuses no) :
    Refuses (Parser.check kind >>= fun holds => if holds = true then yes else no) := by
  have stays : ∀ state : ParserState, state.current.kind = .pipeline →
      Parser.check kind state = .ok (false, state) := by
    intro state pipeline
    rw [check_run, pipeline, decide_eq_false different.symm]
  exact .past stays refuses

theorem skipNewlines_of_pipeline (pipeline : state.current.kind = .pipeline) :
    Parser.skipNewlines state = .ok ((), state) := by
  have other : state.current.kind ≠ .newline := by
    rw [pipeline]
    decide
  exact congrArg (fun state => Except.ok ((), state)) (ParserState.skipNewlines_of_current other)

theorem Refuses.skipNewlines {body : Parser α} (refuses : Refuses body) :
    Refuses (Parser.skipNewlines >>= fun _ => body) :=
  .past (fun _ => skipNewlines_of_pipeline) refuses

theorem Refuses.many {continues : Parser Bool} {item : Parser α}
    (goes : ∀ state, state.current.kind = .pipeline → continues state = .ok (true, state))
    (refuses : Refuses item) : Refuses (Parser.many continues item) := by
  intro state pipeline result runs
  rw [Parser.many, Parser.bind_run, budget_run] at runs
  obtain ⟨enters, between, looked, runs⟩ := Drops.bind_run runs
  rw [goes state pipeline] at looked
  obtain ⟨rfl, rfl⟩ := Prod.mk.inj (Except.ok.inj looked)
  exact refuses.bind state pipeline _ runs

theorem before_pipeline (different : kind ≠ .pipeline) (pipeline : state.current.kind = .pipeline) :
    Parser.before kind state = .ok (true, state) := by
  simp [Parser.before, ParserState.isAtEnd, pipeline, different.symm]

/-- The items of a block, up to its `Dedent`. -/
def bodyItems (item : Parser α) : Parser (List α) := do
  Parser.skipNewlines
  Parser.many (Parser.before .dedent) do
    let value ← item
    Parser.skipNewlines
    return value

theorem blockItems_eq (item : Parser α) :
    blockItems item = bodyItems item >>= fun items =>
      Parser.expect .dedent >>= fun _ => Pure.pure items := by
  rw [bodyItems, bind_assoc]
  rfl

theorem Falls.bodyItems {item : Parser α} (falls : Falls item) : Falls (bodyItems item) :=
  .bind .skipNewlines fun _ =>
    .many (.before _) (falls.bind fun _ => .bind .skipNewlines fun _ => .pure _)

theorem Refuses.bodyItems {item : Parser α} (refuses : Refuses item) :
    Refuses (bodyItems item) :=
  .skipNewlines (.many (fun _ pipeline => before_pipeline (by decide) pipeline) refuses.bind)

theorem Falls.indentedBlock {item : Parser α} (falls : Falls item) (refuses : Refuses item) :
    Falls (indentedBlock item) := by
  refine .bind (.expect rfl) fun _ => ?_
  rw [blockItems_eq]
  exact .block falls.bodyItems refuses.bodyItems.unclosed fun _ => .pure _

end Parser

end Marreta
