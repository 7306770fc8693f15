import Marreta.Syntax.Blocks

namespace Marreta

namespace Parser

/-! The productions of the parser, one after the other: each closes the blocks it
opens and no other. -/

variable {α β : Type} {state : ParserState} {kind : TokenKind}

/-! ## Expressions -/

/-- What the productions of a level may assume about the level below. -/
structure Settles (below : Productions) : Prop where
  expression : ∀ prec, Falls (below.expression prec)
  statement : Falls below.statement
  ifExpression : FallsAt .ifKeyword below.ifExpression
  schemaType : Falls below.schemaType
  refusesExpression : ∀ prec, Refuses (below.expression prec)
  refusesStatement : Refuses below.statement

variable {self : Productions} (settles : Settles self)

include settles

theorem Settles.listLiteral (passed : kind.isPassed = true) :
    FallsAt kind (parseListLiteral self) := by
  refine (FallsAt.advance passed).bind fun _ => .bind (.many (.before _) ?_) fun _ => ?_
  · exact .bind (settles.expression _) fun _ =>
      .bind (.check _) fun _ => .ite (.pure _) (.bind (.expect rfl) fun _ => .pure _)
  · exact .bind (.expect rfl) fun _ => .pure _

theorem Settles.pair : Falls (parsePair self) :=
  .bind .expectName fun _ => .bind (.expect rfl) fun _ =>
    .bind (settles.expression _) fun _ => .pure _

theorem Settles.mapLiteral (passed : kind.isPassed = true) :
    FallsAt kind (parseMapLiteral self) := by
  refine (FallsAt.advance passed).bind fun _ => .bind (.many (.before _) ?_) fun _ => ?_
  · exact .bind settles.pair fun _ =>
      .bind (.check _) fun _ => .ite (.pure _) (.bind (.expect rfl) fun _ => .pure _)
  · exact .bind (.expect rfl) fun _ => .pure _

omit settles in
theorem Falls.skipComma : Falls skipComma :=
  .ifCheck (.advance rfl) (.pure _)

omit settles in
theorem Falls.beforeRightBrace : Falls beforeRightBrace :=
  .bind (.before _) fun _ =>
    .ite (.bind .skipNewlines fun _ => .bind (.check _) fun _ => .pure _) (.pure _)

theorem Settles.schemaConstructor (name : String) :
    Falls (parseSchemaConstructor self name) := by
  refine .bind (.expect rfl) fun _ => .bind (.many .beforeRightBrace ?_) fun _ => ?_
  · exact .bind settles.pair fun _ => .bind .skipComma fun _ =>
      .bind .skipNewlines fun _ => .pure _
  · exact .bind (.expect rfl) fun _ => .pure _

omit settles in
/-- Two tokens are passed, the second of which is known by looking ahead. -/
theorem Drops.advanceTwice {body : Parser α} {second : TokenKind} (ended : state.Ended)
    (passed : state.current.kind.isPassed = true) (ahead : state.peekKind = some second)
    (passed' : second.isPassed = true) (later : Falls body) :
    Drops state.blocks (Parser.advance >>= fun _ => Parser.advance >>= fun _ => body) state := by
  obtain ⟨token, next, rest, tokens, -, moved⟩ :=
    ended.front (fun eof => by rw [eof] at passed; cases passed)
  rw [ParserState.peekKind, tokens] at ahead
  have here : state.advance.current.kind = second := by
    rw [moved]
    exact Option.some.inj ahead
  intro value after runs
  rw [Parser.bind_run, advance_run] at runs
  obtain ⟨ended', fewer⟩ :=
    ((FallsAt.advance passed').bind fun _ => later) state.advance ended.advance here value after runs
  exact ⟨ended', Int.le_trans fewer (ended.advance_blocks passed)⟩

omit settles in
theorem namedArgName_spec {after : ParserState} {name : Option String}
    (looked : namedArgName state = .ok (name, after)) :
    after = state ∧ (name.isSome = true →
      state.current.kind.isPassed = true ∧ state.peekKind = some .colon) := by
  rw [namedArgName, Parser.bind_run, peekKind_run] at looked
  simp only at looked
  split at looked
  · rename_i colon
    rw [Parser.bind_run, currentKind_run] at looked
    simp only at looked
    generalize same : state.current.kind = kind at looked
    split at looked
    · obtain ⟨-, rfl⟩ := Prod.mk.inj (Except.ok.inj looked)
      exact ⟨rfl, fun _ => ⟨rfl, colon⟩⟩
    · rw [reservedWordAsName_run] at looked
      obtain ⟨rfl, rfl⟩ := Prod.mk.inj (Except.ok.inj looked)
      refine ⟨rfl, fun found => ⟨?_, colon⟩⟩
      split at found
      · rename_i keyword
        rw [← same]
        exact (keyword_solid keyword).1
      · cases found
  · obtain ⟨rfl, rfl⟩ := Prod.mk.inj (Except.ok.inj looked)
    exact ⟨rfl, fun found => by cases found⟩

theorem Settles.argumentLoop (fuel : Nat) : Falls (argumentLoop self fuel) := by
  induction fuel with
  | zero => exact .throw _
  | succ fuel induction =>
      intro state ended result after runs
      obtain ⟨name, between, looked, runs⟩ := Drops.bind_run runs
      obtain ⟨rfl, named⟩ := namedArgName_spec looked
      cases name with
      | some name =>
          obtain ⟨passed, colon⟩ := named rfl
          refine Drops.advanceTwice ended passed colon rfl ?_ result after runs
          exact .bind (settles.expression _) fun _ => .bind (.check _) fun _ =>
            .ite (.pure _) (.bind (.expect rfl) fun _ => .bind induction fun _ => .pure _)
      | none =>
          have positional : Falls (do
              let value ← self.expression precNone
              if ← Parser.check .rightParen then return [Argument.positional value]
              else do
                Parser.expect .comma
                if ← Parser.check .rightParen then return [.positional value]
                else do
                  let rest ← Parser.argumentLoop self fuel
                  return .positional value :: rest) :=
            .bind (settles.expression _) fun _ => .bind (.check _) fun _ =>
              .ite (.pure _) (.bind (.expect rfl) fun _ => .bind (.check _) fun _ =>
                .ite (.pure _) (.bind induction fun _ => .pure _))
          exact positional between ended result after runs

theorem Settles.callArguments (passed : kind.isPassed = true) :
    FallsAt kind (parseCallArguments self) := by
  refine (FallsAt.advance passed).bind fun _ => .bind ?_ fun _ =>
    .bind (.expect rfl) fun _ => .pure _
  exact .bind (.check _) fun _ =>
    .ite (.pure _) (.bind .budget fun fuel => settles.argumentLoop fuel)

theorem Settles.expressionBlockBody : Falls (parseExpressionBlockBody self) :=
  .bind (.indentedBlock settles.statement settles.refusesStatement) fun _ => .pure _

theorem Settles.taskLikeBody : Falls (parseTaskLikeBody self) :=
  .ifCheck ((FallsAt.advance rfl).bind fun _ => .bind (settles.expression _) fun _ => .pure _)
    settles.expressionBlockBody

theorem Settles.ifElse (passed : kind.isPassed = true) :
    FallsAt kind (parseIfExpression self) := by
  refine (FallsAt.advance passed).bind fun _ => .bind (settles.expression _) fun _ =>
    .bind settles.expressionBlockBody fun _ => .ifCheck ?_ (.pure _)
  refine (FallsAt.advance rfl).bind fun _ => .ifCheck ?_ ?_
  · exact settles.ifExpression.bind fun _ => .pure _
  · exact .bind settles.expressionBlockBody fun _ => .pure _

theorem Settles.matchArm : Falls (parseMatchArm self) := by
  refine .bind (.ifCheck ((FallsAt.advance rfl).bind fun _ => .pure _) ?_) fun _ => ?_
  · exact .bind (settles.expression _) fun _ => .pure _
  · exact .bind (.expect rfl) fun _ => .bind (settles.expression _) fun _ => .pure _

theorem Settles.refusesMatchArm : Refuses (parseMatchArm self) :=
  .bind (.ifCheck (by decide) (settles.refusesExpression _).bind)

theorem Settles.matchExpression (passed : kind.isPassed = true) :
    FallsAt kind (parseMatchExpression self) :=
  (FallsAt.advance passed).bind fun _ => .bind (settles.expression _) fun _ =>
    .bind (.indentedBlock settles.matchArm settles.refusesMatchArm) fun _ => .pure _

/-! ## Pipelines -/

theorem Settles.mapStatement : Falls (parseMapStatement self) := by
  refine .currentKind fun kind => ?_
  split
  · exact (FallsAt.advance rfl).bind fun _ => .bind (settles.expression _) fun _ =>
      .bind (.optionalAfter rfl (settles.expression _)) fun _ => .pure _
  · exact (FallsAt.advance rfl).bind fun _ => .bind (.expect rfl) fun _ =>
      .bind (settles.expression _) fun _ => .pure _
  · exact (settles.statement.bind fun _ => .pure _).at

theorem Settles.refusesMapStatement : Refuses (parseMapStatement self) := by
  intro state pipeline result runs
  rw [parseMapStatement, Parser.bind_run, currentKind_run, pipeline] at runs
  exact settles.refusesStatement.bind state pipeline result runs

theorem Settles.mapStage (passed : kind.isPassed = true) :
    FallsAt kind (parseMapStage self) :=
  (FallsAt.advance passed).bind fun _ => .bind .expectIdentifier fun _ =>
    .bind (.indentedBlock settles.mapStatement settles.refusesMapStatement) fun _ => .pure _

theorem Settles.reduceStage (passed : kind.isPassed = true) :
    FallsAt kind (parseReduceStage self) :=
  (FallsAt.advance passed).bind fun _ => .bind (.expect rfl) fun _ =>
    .bind (settles.expression _) fun _ => .bind (.expect rfl) fun _ =>
      .bind .expectIdentifier fun _ => .bind (.expect rfl) fun _ =>
        .bind .expectIdentifier fun _ => .bind settles.taskLikeBody fun _ => .pure _

theorem Settles.inlineRescue :
    Falls (do
      match ← Parser.currentKind with
      | .newline | .dedent | .eof => return PipelineStage.rescue (.inline .null)
      | _ => do
          let handler ← self.expression precNone
          return .rescue (.inline handler)) := by
  refine .currentKind fun kind => ?_
  split
  · exact (Falls.pure _).at
  · exact (Falls.pure _).at
  · exact (Falls.pure _).at
  · exact (Falls.bind (settles.expression _) fun _ => .pure _).at

theorem Settles.rescueStage (passed : kind.isPassed = true) :
    FallsAt kind (parseRescueStage self) := by
  refine (FallsAt.advance passed).bind fun _ => ?_
  intro state ended result after runs
  rw [Parser.bind_run, get_run] at runs
  obtain ⟨_, between, skipped, runs⟩ := Drops.bind_run runs
  obtain ⟨-, rfl⟩ := Prod.mk.inj (Except.ok.inj skipped)
  rw [Parser.bind_run, check_run] at runs
  simp only at runs
  split at runs
  · rename_i indent
    have falls := FallsAt.block settles.statement.bodyItems
      settles.refusesStatement.bodyItems.unclosed (fun body => Falls.pure (PipelineStage.rescue (.block body))) _ ended.skipNewlines
      (of_decide_eq_true indent)
    rw [ParserState.skipNewlines_blocks] at falls
    simp only [blockItems_eq, bind_assoc, pure_bind] at runs
    exact falls result after runs
  · obtain ⟨_, between, restored, runs⟩ := Drops.bind_run runs
    obtain ⟨-, rfl⟩ := Prod.mk.inj (Except.ok.inj restored)
    exact settles.inlineRescue _ ended result after runs

theorem Settles.pipelineLoop (fuel : Nat) : Falls (pipelineLoop self fuel) := by
  induction fuel with
  | zero => exact .throw _
  | succ fuel induction =>
      have onwards : ∀ stage : PipelineStage, Falls (do
          Parser.skipNewlines
          let stages ← Parser.pipelineLoop self fuel
          return stage :: stages) :=
        fun _ => .bind .skipNewlines fun _ => .bind induction fun _ => .pure _
      refine .ifCheck ((FallsAt.advance rfl).bind fun _ => .bind .skipNewlines fun _ => ?_)
        (.pure _)
      refine .currentKind fun kind => ?_
      split
      · exact (settles.mapStage rfl).bind onwards
      · exact (settles.reduceStage rfl).bind onwards
      · exact (settles.rescueStage rfl).bind fun _ => .pure _
      · exact (Falls.bind (settles.expression _) fun _ => onwards _).at

theorem Settles.pipelineStages (input : Expression) : Falls (parsePipelineStages self input) :=
  .bind .budget fun fuel => .bind (settles.pipelineLoop fuel) fun _ => .pure _

theorem Settles.broadcastTargets : Falls (do
    Parser.skipNewlines
    Parser.many (Parser.check .arrow) (parseBroadcastTarget self)) := by
  refine .bind .skipNewlines fun _ => .manyAt ?_
  exact (FallsAt.advance rfl).bind fun _ => .bind (settles.expression _) fun _ =>
    .bind .skipNewlines fun _ => .pure _

omit settles in
theorem unclosed_broadcastTargets : Unclosed (do
    Parser.skipNewlines
    Parser.many (Parser.check .arrow) (parseBroadcastTarget self)) := by
  intro state pipeline value after runs
  rw [Parser.bind_run, skipNewlines_of_pipeline pipeline] at runs
  simp only [Parser.many, budget_run, collectWhile, Parser.bind_run, check_run, pipeline] at runs
  obtain ⟨-, rfl⟩ := Prod.mk.inj (Except.ok.inj runs)
  rw [pipeline]
  decide

theorem Settles.broadcast (passed : kind.isPassed = true) (input : Expression) :
    FallsAt kind (parseBroadcast self input) := by
  refine (FallsAt.advance passed).bind fun _ => .bind .skipNewlines fun _ => .ifCheck ?_ ?_
  · have block := FallsAt.block settles.broadcastTargets unclosed_broadcastTargets
      fun targets => Falls.pure (Expression.broadcast input targets)
    simp only [bind_assoc] at block
    exact block
  · exact .bind (.expect rfl) fun _ => .bind (settles.expression _) fun _ => .pure _

theorem Settles.operator (passed : kind.isPassed = true) (left : Expression) (prec : Nat) :
    FallsAt kind (parseInfix self left prec) := by
  rintro state ended rfl
  refine .reads (currentKind_run state) ?_
  split
  · exact ((FallsAt.advance passed).bind fun _ => .bind (settles.expression _) fun _ =>
      .pure _) state ended rfl
  · split
    · exact ((FallsAt.advance passed).bind fun _ => .bind (settles.expression _) fun _ =>
        .bind (.expect rfl) fun _ => .pure _) state ended rfl
    · refine ((FallsAt.advance passed).bind fun _ => .bind .expectName fun _ => .ifCheck ?_ ?_)
        state ended rfl
      · exact (settles.callArguments rfl).bind fun _ => .pure _
      · exact .pure _
    · exact settles.pipelineStages left state ended
    · exact settles.broadcast passed left state ended rfl
    · exact Falls.pure _ state ended

/-- The end of `maybeParsePipeline`, which may go back to where it started. -/
theorem Settles.pipelineOrBack (value : Expression) {saved between : ParserState}
    (ended : saved.Ended) (ended' : between.Ended) (fewer : between.blocks ≤ saved.blocks) :
    Drops saved.blocks (do
      match ← Parser.currentKind with
      | .pipeline => parsePipelineStages self value
      | .broadcast => parseInfix self value precOr
      | _ => do
          set saved
          return value) between := by
  refine .reads (currentKind_run between) ?_
  generalize here : between.current.kind = kind
  intro result after runs
  split at runs
  · obtain ⟨ended, fewer'⟩ := settles.pipelineStages value between ended' result after runs
    exact ⟨ended, Int.le_trans fewer' fewer⟩
  · obtain ⟨ended, fewer'⟩ := settles.operator rfl value precOr between ended' here result after runs
    exact ⟨ended, Int.le_trans fewer' fewer⟩
  · obtain ⟨-, rfl⟩ := Prod.mk.inj (Except.ok.inj runs)
    exact ⟨ended, Int.le_refl _⟩

theorem Settles.maybePipeline (value : Expression) : Falls (maybeParsePipeline self value) := by
  intro state ended result after runs
  rw [maybeParsePipeline, Parser.bind_run, get_run] at runs
  obtain ⟨_, between, skipped, runs⟩ := Drops.bind_run runs
  obtain ⟨-, rfl⟩ := Prod.mk.inj (Except.ok.inj skipped)
  have same := state.skipNewlines_blocks
  rw [Parser.bind_run, check_run] at runs
  simp only at runs
  split at runs
  · rename_i indent
    have passed : state.skipNewlines.current.kind.isPassed = true := by
      rw [of_decide_eq_true indent]
      rfl
    have fewer := ended.skipNewlines.advance_blocks passed
    rw [Parser.bind_run, advance_run] at runs
    exact settles.pipelineOrBack value ended ended.skipNewlines.advance
      (Int.le_trans fewer (Int.le_of_eq same)) result after runs
  · exact settles.pipelineOrBack value ended ended.skipNewlines (Int.le_of_eq same) result after runs

/-! ## Prefixes and operators -/

omit settles in
theorem Falls.expectSchemaName : Falls expectSchemaName := by
  refine .currentKind fun kind => ?_
  split
  · exact (FallsAt.advance rfl).bind fun _ => .pure _
  · exact (Falls.unexpected _).at

theorem Settles.queueProducerArgs : Falls (parseQueueProducerArgs self) :=
  .bind (settles.expression _) fun _ => .bind (.optionalAfter rfl .expectSchemaName) fun _ =>
    .bind (.optionalAfter rfl (settles.expression _)) fun _ => .pure _

theorem Settles.queueExpression (passed : kind.isPassed = true) :
    FallsAt kind (parseQueueExpression self) := by
  refine (FallsAt.advance passed).bind fun _ => .ifCheck ?_ (.pure _)
  refine (FallsAt.advance rfl).bind fun _ => .currentKind fun kind => ?_
  split
  · intro state ended here
    split
    · exact ((FallsAt.advance rfl).bind fun _ => .bind settles.queueProducerArgs fun _ =>
        .pure _) state ended here
    · exact Falls.ite (.unexpected _) (.unexpected _) state ended
  · exact (Falls.unexpected _).at

theorem Settles.topicExpression (passed : kind.isPassed = true) :
    FallsAt kind (parseTopicExpression self) := by
  refine (FallsAt.advance passed).bind fun _ => .ifCheck ?_ (.pure _)
  refine (FallsAt.advance rfl).bind fun _ => .ifIdentifierLexeme ?_ (.unexpected _)
  exact (FallsAt.advance rfl).bind fun _ => .bind settles.queueProducerArgs fun _ => .pure _

theorem Settles.failExpression (passed : kind.isPassed = true) :
    FallsAt kind (parseFailExpression self) :=
  (FallsAt.advance passed).bind fun _ => .bind .expectInteger fun _ =>
    .bind (.expect rfl) fun _ => .bind (settles.expression _) fun _ => .pure _

theorem Settles.wordExpression (passed : kind.isPassed = true) (name : String) :
    FallsAt kind (parseWordExpression self name) := by
  refine (FallsAt.advance passed).bind fun _ =>
    .ifCheck (settles.schemaConstructor name).at (.ifCheck ?_ (.pure _))
  exact (settles.callArguments rfl).bind fun _ => .pure _

theorem Settles.unary (passed : kind.isPassed = true) (operator : UnaryOperator) :
    FallsAt kind (parseUnary self operator) :=
  (FallsAt.advance passed).bind fun _ => .bind (settles.expression _) fun _ => .pure _

theorem Settles.grouped (passed : kind.isPassed = true) : FallsAt kind (parseGrouped self) :=
  (FallsAt.advance passed).bind fun _ => .bind (settles.expression _) fun _ =>
    .bind (.expect rfl) fun _ => .pure _

omit settles in
theorem FallsAt.leaf (passed : kind.isPassed = true) (value : Expression) :
    FallsAt kind (parseLeaf value) :=
  (FallsAt.advance passed).bind fun _ => .pure _

omit settles in
/-- `task` starts a call if a parenthesis follows. -/
theorem FallsAt.taskCall : FallsAt .task (do
    if (← Parser.peekKind) = some .leftParen then parseTaskCall
    else Parser.unexpected "expression") := by
  intro state ended here
  refine .reads (peekKind_run state) ?_
  split
  · rename_i ahead
    refine Drops.advanceTwice ended (by rw [here]; rfl) ahead rfl ?_
    exact .bind .expectIdentifier fun _ => .bind (.expect rfl) fun _ => .pure _
  · exact Falls.unexpected _ state ended

theorem Settles.operand : Falls (parsePrefix self) := by
  refine .currentKind fun kind => ?_
  cases kind
  case notKeyword => exact settles.unary rfl .not
  case minus => exact settles.unary rfl .negate
  case leftParen => exact settles.grouped rfl
  case leftBracket => exact settles.listLiteral rfl
  case leftBrace => exact settles.mapLiteral rfl
  case task => exact .taskCall
  case identifier name => exact settles.wordExpression rfl name
  case matchKeyword => exact settles.matchExpression rfl
  case ifKeyword => exact settles.ifElse rfl
  case queue => exact settles.queueExpression rfl
  case topic => exact settles.topicExpression rfl
  case fail => exact settles.failExpression rfl
  all_goals first
    | exact .leaf rfl _
    | exact (Falls.unexpected _).at

omit settles in
theorem isPassed_of_operator {minPrec : Nat} (binds : ¬ infixPrecedence kind ≤ minPrec) :
    kind.isPassed = true := by
  cases kind <;> first | rfl | exact absurd (Nat.zero_le _) binds

theorem Settles.infixLoop (minPrec fuel : Nat) (left : Expression) :
    Falls (infixLoop self minPrec fuel left) := by
  induction fuel generalizing left with
  | zero => exact .throw _
  | succ fuel induction =>
      refine .currentKind fun kind => ?_
      intro state ended here
      dsimp only
      split
      · exact Falls.pure _ state ended
      · rename_i binds
        exact ((settles.operator (isPassed_of_operator binds) left _).bind fun left =>
          induction left) state ended here

omit settles in
theorem Falls.responseSchema (left : Expression) : Falls (parseResponseSchema left) := by
  intro state ended
  refine .reads (check_run .as state) ?_
  split
  · rename_i here
    have as : state.current.kind = .as :=
      of_decide_eq_true (Bool.and_eq_true_iff.mp here).1
    exact ((FallsAt.advance rfl).bind fun _ => .bind .expectIdentifier fun _ => .pure _)
      state ended as
  · exact Falls.pure _ state ended

theorem Settles.rescueModifier (left : Expression) : Falls (parseRescueModifier self left) :=
  .ifCheck ((FallsAt.advance rfl).bind fun _ => .bind (settles.expression _) fun _ => .pure _)
    (.pure _)

theorem Settles.expressions (minPrec : Nat) : Falls (parseExpression self minPrec) := by
  refine .bind settles.operand fun left => .bind .budget fun fuel =>
    .bind (settles.infixLoop minPrec fuel left) fun left => .ite ?_ (.pure _)
  exact .bind (.responseSchema left) fun left => settles.rescueModifier left

omit settles in
theorem refuses_operand : Refuses (parsePrefix self) := by
  intro state pipeline result runs
  rw [parsePrefix, Parser.bind_run, currentKind_run, pipeline] at runs
  cases runs

omit settles in
theorem refuses_expression (minPrec : Nat) : Refuses (parseExpression self minPrec) :=
  refuses_operand.bind

/-! ## Schemas -/

omit settles in
theorem Falls.enumValues (line column : Nat) (seen : List String) (fuel : Nat) :
    Falls (enumValues line column seen fuel) := by
  induction fuel generalizing seen with
  | zero => exact .throw _
  | succ fuel induction =>
      refine .bind .expectString fun _ => .ite (.raise _) (.ite (.raise _) ?_)
      exact .bind (.check _) fun _ => .ite (.pure _)
        (.bind (.expect rfl) fun _ => .bind (induction _) fun _ => .pure _)

omit settles in
theorem FallsAt.enumSchemaType (passed : kind.isPassed = true) :
    FallsAt kind parseEnumSchemaType := by
  refine .current fun _ => (FallsAt.advance passed).bind fun _ => .bind (.expect rfl) fun _ =>
    .bind (.check _) fun _ => .ite (.raise _) ?_
  exact .bind .budget fun _ => .bind (.enumValues _ _ _ _) fun _ =>
    .bind (.expect rfl) fun _ => .pure _

theorem Settles.listSchemaType (passed : kind.isPassed = true) :
    FallsAt kind (parseListSchemaType self) := by
  refine (FallsAt.advance passed).bind fun _ =>
    .bind (.optionalAfter rfl settles.schemaType) fun element => ?_
  cases element with
  | some element => exact .pure _
  | none => exact .pure _

omit settles in
theorem FallsAt.schemaLeaf (passed : kind.isPassed = true) (fieldType : SchemaType) :
    FallsAt kind (schemaLeaf fieldType) :=
  (FallsAt.advance passed).bind fun _ => .pure _

theorem Settles.schemaTypes : Falls (parseSchemaType self) := by
  refine .currentKind fun kind => ?_
  split
  case h_11 =>
    intro state ended here
    split
    · exact FallsAt.schemaLeaf rfl _ state ended here
    split
    · exact FallsAt.enumSchemaType rfl state ended here
    split
    · exact settles.listSchemaType rfl state ended here
    split
    · exact FallsAt.schemaLeaf rfl _ state ended here
    · exact FallsAt.schemaLeaf rfl _ state ended here
  case h_12 => exact (Falls.unexpected _).at
  all_goals exact .schemaLeaf rfl _

theorem Settles.schemaEntry : Falls (parseSchemaEntry self) := by
  intro state ended
  refine .reads (currentKind_run state) (.reads (peekKind_run state) ?_)
  split
  · rename_i here
    have db : state.current.kind = .db := of_decide_eq_true (Bool.and_eq_true_iff.mp here).1
    exact ((FallsAt.advance rfl).bind fun _ => .bind (.expect rfl) fun _ =>
      .bind .expectName fun _ => .pure _) state ended db
  · exact (Falls.bind .expectName fun _ => .bind (.expect rfl) fun _ =>
      .bind settles.schemaType fun _ => .pure _) state ended

omit settles in
theorem refuses_expectName : Refuses expectName := by
  intro state pipeline result runs
  rw [expectName, Parser.bind_run, current_run] at runs
  simp only [pipeline] at runs
  obtain ⟨found, between, looked, runs⟩ := Drops.bind_run runs
  rw [reservedWordAsName_run, if_neg fun keyword => (keyword_solid keyword).2 pipeline] at looked
  obtain ⟨rfl, rfl⟩ := Prod.mk.inj (Except.ok.inj looked)
  cases runs

omit settles in
theorem refuses_schemaEntry : Refuses (parseSchemaEntry self) := by
  intro state pipeline result runs
  rw [parseSchemaEntry, Parser.bind_run, currentKind_run] at runs
  simp only [Parser.bind_run, peekKind_run, pipeline] at runs
  exact refuses_expectName.bind state pipeline result runs

theorem Settles.schema (passed : kind.isPassed = true) : FallsAt kind (parseSchema self) :=
  .current fun _ => (FallsAt.advance passed).bind fun _ => .bind .expectIdentifier fun _ =>
    .bind (.indentedBlock settles.schemaEntry refuses_schemaEntry) fun _ => .pure _

/-! ## Statements -/

theorem Settles.assignment : Falls (parseAssignment self) := by
  refine .bind .expectIdentifier fun _ => .bind (.expect rfl) fun _ =>
    .currentKind fun kind => ?_
  split
  · exact (settles.matchExpression rfl).bind fun value =>
      .bind (settles.maybePipeline value) fun _ => .pure _
  · exact (settles.ifElse rfl).bind fun value =>
      .bind (settles.maybePipeline value) fun _ => .pure _
  · refine (Falls.bind (settles.expression _) fun value => .ifCheck ?_ ?_).at
    · exact (FallsAt.advance rfl).bind fun _ => .bind (settles.expression _) fun _ => .pure _
    · exact .bind (settles.maybePipeline value) fun _ => .pure _

omit settles in
theorem Falls.requeue : Falls parseRequeue :=
  .ifCheck ((FallsAt.advance rfl).bind fun _ => .pure _) (.pure _)

omit settles in
theorem Falls.guardFailure : Falls parseGuardFailure :=
  .bind (.expect rfl) fun _ => .bind .expectInteger fun _ => .bind (.expect rfl) fun _ =>
    .bind .expectString fun _ => .pure _

theorem Settles.require (passed : kind.isPassed = true) : FallsAt kind (parseRequire self) := by
  refine .current fun _ => (FallsAt.advance passed).bind fun _ =>
    .bind (settles.expression _) fun _ => .bind (.expect rfl) fun _ => .currentKind fun kind => ?_
  split
  · exact (FallsAt.advance rfl).bind fun _ => .bind .requeue fun _ => .pure _
  · exact (FallsAt.advance rfl).bind fun _ => .bind (settles.expression _) fun _ => .pure _
  · exact (Falls.bind .guardFailure fun _ => .pure _).at

theorem Settles.reject (passed : kind.isPassed = true) : FallsAt kind (parseReject self) :=
  .current fun _ => (FallsAt.advance passed).bind fun _ => .bind (settles.expression _) fun _ =>
    .bind (.expect rfl) fun _ => .bind .guardFailure fun _ => .pure _

theorem Settles.while (passed : kind.isPassed = true) : FallsAt kind (parseWhile self) :=
  .current fun _ => (FallsAt.advance passed).bind fun _ => .bind (settles.expression _) fun _ =>
    .bind (.indentedBlock settles.statement settles.refusesStatement) fun _ => .pure _

omit settles in
theorem Falls.setInsideTransaction (value : Bool) : Falls (setInsideTransaction value) := by
  intro state ended result after runs
  obtain ⟨-, rfl⟩ := Prod.mk.inj (Except.ok.inj runs)
  exact ⟨ended, Int.le_refl _⟩

/-- The body of a transaction is a block with a mark on the state. -/
theorem Settles.transactionBody : Falls (do
    setInsideTransaction true
    let body ← bodyItems self.statement
    setInsideTransaction false
    return body : Parser (List Statement)) :=
  .bind (.setInsideTransaction _) fun _ => .bind settles.statement.bodyItems fun _ =>
    .bind (.setInsideTransaction _) fun _ => .pure _

theorem Settles.refusesTransactionBody : Refuses (do
    setInsideTransaction true
    let body ← bodyItems self.statement
    setInsideTransaction false
    return body : Parser (List Statement)) := by
  intro state pipeline result runs
  obtain ⟨_, between, marked, runs⟩ := Drops.bind_run runs
  obtain ⟨-, rfl⟩ := Prod.mk.inj (Except.ok.inj marked)
  have marked : ({ state with insideTransaction := true } : ParserState).current.kind =
      .pipeline := pipeline
  exact settles.refusesStatement.bodyItems.bind _ marked result runs

theorem Settles.transaction (passed : kind.isPassed = true) :
    FallsAt kind (parseTransaction self) := by
  refine .current fun token => .reads get_run fun _ => ?_
  split
  · exact (Falls.raise _).at
  · refine (FallsAt.advance passed).bind fun _ => .bind (.expect rfl) fun _ => ?_
    have block := Falls.block settles.transactionBody settles.refusesTransactionBody.unclosed
      fun body => Falls.pure (Statement.transaction body token.line token.column)
    simp only [bodyItems, bind_assoc, pure_bind] at block
    exact block

omit settles in
theorem Falls.onTopic : Falls parseOnTopic := by
  refine .currentKind fun kind => ?_
  split
  · exact (FallsAt.advance rfl).bind fun _ => .pure _
  · exact (FallsAt.advance rfl).bind fun _ => .pure _
  · exact (Falls.unexpected _).at

omit settles in
theorem Falls.expectBinding : Falls expectBinding := by
  intro state ended
  refine .reads (current_run state) ?_
  split
  · rename_i name same
    exact ((FallsAt.advance rfl).bind fun _ => .pure _) state ended same
  · refine .reads (reservedWordAsName_run state) ?_
    split
    · exact Falls.raise _ state ended
    · exact Falls.unexpected _ state ended

omit settles in
theorem Falls.rejectWildcard (isTopic : Bool) (target : Expression) (token : Token) :
    Falls (rejectWildcard isTopic target token) := by
  unfold Parser.rejectWildcard
  split
  · exact .raise _
  · exact .pure _

theorem Settles.on (passed : kind.isPassed = true) : FallsAt kind (parseOn self) := by
  refine .current fun _ => (FallsAt.advance passed).bind fun _ => .bind .onTopic fun _ =>
    .bind (settles.expression _) fun _ => .bind (.rejectWildcard _ _ _) fun _ =>
    .bind (.expect rfl) fun _ => .bind .expectBinding fun _ =>
    .bind (.optionalAfter rfl .expectSchemaName) fun _ =>
    .bind (.indentedBlock settles.statement settles.refusesStatement) fun _ => ?_
  exact .ite (.pure _) (.pure _)

omit settles in
theorem FallsAt.nack (passed : kind.isPassed = true) : FallsAt kind parseNack :=
  .current fun _ => (FallsAt.advance passed).bind fun _ => .bind .requeue fun _ => .pure _

theorem Settles.raise (passed : kind.isPassed = true) : FallsAt kind (parseRaise self) :=
  .current fun _ => (FallsAt.advance passed).bind fun _ => .bind (settles.expression _) fun _ =>
    .bind (.optionalAfter rfl (settles.expression _)) fun _ => .pure _

omit settles in
theorem Falls.httpVerb : Falls parseHttpVerb := by
  have verb : ∀ {kind : TokenKind} (value : HttpVerb), kind.isPassed = true →
      FallsAt kind (parseHttpVerb.verb value) :=
    fun _ passed => (FallsAt.advance passed).bind fun _ => .pure _
  refine .currentKind fun kind => ?_
  split
  case h_6 => exact (Falls.unexpected _).at
  all_goals exact verb _ rfl

omit settles in
theorem Falls.expectIdentifierName : Falls expectIdentifierName :=
  .bind .expectIdentifier fun _ => .pure _

omit settles in
theorem Falls.takeBinding : Falls parseTakeBinding :=
  .bind .expectIdentifierName fun _ =>
    .bind (.optionalAfter rfl .expectIdentifierName) fun _ => .pure _

omit settles in
theorem Falls.takeBindings : Falls parseTakeBindings :=
  .bind .takeBinding fun _ =>
    .bind (.manyAt ((FallsAt.advance rfl).bind fun _ => .takeBinding)) fun _ => .pure _

omit settles in
theorem FallsAt.takeLine (passed : kind.isPassed = true) (inlineTake : Bool) :
    FallsAt kind (parseTakeLine inlineTake) := by
  unfold parseTakeLine
  split
  · exact (Falls.unexpected _).at
  · exact (FallsAt.advance passed).bind fun _ => .bind .takeBindings fun _ =>
      .bind (.expect rfl) fun _ => .bind .skipNewlines fun _ => .pure _


omit settles in
theorem atRouteAuth_run (state : ParserState) :
    ∃ holds, atRouteAuth state = .ok (holds, state) ∧
      (holds = true → state.current.kind = .require) := by
  refine ⟨_, rfl, fun holds => ?_⟩
  exact of_decide_eq_true (Bool.and_eq_true_iff.mp holds).1

omit settles in
theorem Falls.atRouteAuth : Falls atRouteAuth :=
  .bind (.check _) fun _ => .bind (.bind .peekKind fun _ => .pure _) fun _ => .pure _

omit settles in
theorem Falls.optionalRouteAuth : Falls parseOptionalRouteAuth := by
  intro state ended
  obtain ⟨holds, looked, required⟩ := atRouteAuth_run state
  refine .reads looked ?_
  split
  · rename_i here
    refine (FallsAt.bind ?_ fun _ => .bind .skipNewlines fun _ => .pure _) state ended
      (required here)
    exact .current fun _ => (FallsAt.advance rfl).bind fun _ =>
      .bind (.expectIdentifierLexeme _) fun _ => .bind .expectIdentifierName fun _ => .pure _
  · exact Falls.pure _ state ended

theorem Settles.routeAllow (passed : kind.isPassed = true) :
    FallsAt kind (parseRouteAllow self) :=
  (FallsAt.advance passed).bind fun _ => .bind (settles.expression _) fun _ =>
    .bind .skipNewlines fun _ => .pure _

theorem Settles.routeStatement : Falls (parseRouteStatement self) := by
  refine .ifIdentifierLexeme (Falls.unexpected _).at (.bind .atRouteAuth fun _ =>
    .ite (.unexpected _) (.ifCheck (Falls.unexpected _).at ?_))
  exact .bind settles.statement fun _ => .bind .skipNewlines fun _ => .pure _

theorem Settles.refusesRouteStatement : Refuses (parseRouteStatement self) := by
  refine .ifCheck (by simp) ?_
  intro state pipeline result runs
  obtain ⟨holds, looked, required⟩ := atRouteAuth_run state
  rw [Parser.bind_run, looked] at runs
  cases holds with
  | true => cases runs
  | false => exact Refuses.ifCheck (by decide) settles.refusesStatement.bind state pipeline result runs

omit settles in
theorem Falls.inlineTake : Falls parseInlineTake :=
  .ifCheck ((FallsAt.advance rfl).bind fun _ => .takeBindings) (.pure _)

/-- The lines of a route, up to the `Dedent`. -/
def routeLines (self : Productions) (inlineTake : Bool) :
    Parser (List (List TakeBinding) × Option RouteAuth × List Expression × List Statement) := do
  Parser.skipNewlines
  let takeLines ← Parser.many (Parser.check .take) (parseTakeLine inlineTake)
  let auth ← parseOptionalRouteAuth
  let allow ← Parser.many (checkIdentifierLexeme "allow") (parseRouteAllow self)
  let body ← Parser.many (Parser.before .dedent) (parseRouteStatement self)
  return (takeLines, auth, allow, body)

theorem Settles.routeLines (inlineTake : Bool) : Falls (routeLines self inlineTake) :=
  .bind .skipNewlines fun _ => .bind (.manyAt (.takeLine rfl inlineTake)) fun _ =>
    .bind .optionalRouteAuth fun _ => .bind (.manyAt (settles.routeAllow rfl)) fun _ =>
    .bind (.many (.before _) settles.routeStatement) fun _ => .pure _

omit settles in
/-- A loop that waits for another token stays in front of a pipeline. -/
theorem manyAt_pipeline {item : Parser α} (different : kind ≠ .pipeline)
    (pipeline : state.current.kind = .pipeline) :
    Parser.many (Parser.check kind) item state = .ok ([], state) := by
  simp [Parser.many, collectWhile, pipeline, different.symm]

omit settles in
theorem optionalRouteAuth_pipeline (pipeline : state.current.kind = .pipeline) :
    parseOptionalRouteAuth state = .ok (none, state) := by
  obtain ⟨holds, looked, required⟩ := atRouteAuth_run state
  rw [parseOptionalRouteAuth, Parser.bind_run, looked]
  cases holds with
  | true => exact absurd ((required rfl).symm.trans pipeline) (by decide)
  | false => rfl

theorem Settles.refusesRouteLines (inlineTake : Bool) :
    Refuses (Parser.routeLines self inlineTake) := by
  refine .skipNewlines (.past (fun _ => manyAt_pipeline (by decide))
    (.past (fun _ => optionalRouteAuth_pipeline)
      (.past (fun _ => manyAt_pipeline (by simp)) (.bind ?_))))
  exact .many (fun _ pipeline => before_pipeline (by decide) pipeline)
    settles.refusesRouteStatement

theorem Settles.route (passed : kind.isPassed = true) : FallsAt kind (parseRoute self) := by
  refine .current fun token => (FallsAt.advance passed).bind fun _ => .bind .httpVerb fun verb =>
    .bind .expectString fun path => .bind .inlineTake fun inlineTake =>
    .bind (.expect rfl) fun _ => ?_
  have block := Falls.block (settles.routeLines !inlineTake.isEmpty)
    (settles.refusesRouteLines _).unclosed fun lines =>
      Falls.pure (Statement.route verb path lines.2.1 lines.2.2.1
        (inlineTake ++ lines.1.flatten) lines.2.2.2 token.line token.column)
  simp only [Parser.routeLines, bind_assoc, pure_bind] at block
  exact block

/-! ## Declarations -/

theorem Settles.authField : Falls (parseAuthField self) :=
  .bind .expectName fun _ => .bind (.expect rfl) fun _ => .bind (settles.expression _) fun _ =>
    .bind .skipComma fun _ => .bind .skipNewlines fun _ => .pure _

theorem Settles.authProvider (passed : kind.isPassed = true) :
    FallsAt kind (parseAuthProvider self) := by
  refine .current fun _ => (FallsAt.advance passed).bind fun _ =>
    .bind .expectIdentifierName fun _ => .bind .expectIdentifierName fun _ =>
    .bind (.expect rfl) fun _ => .bind .skipNewlines fun _ =>
    .bind (.many (.before _) settles.authField) fun _ => .bind (.expect rfl) fun _ => ?_
  exact .ite (.pure _) (.ite (.pure _) (.raise _))

omit settles in
theorem Falls.contentType : Falls parseContentType :=
  .ifIdentifierLexeme ((FallsAt.advance rfl).bind fun _ => .pure _)
    (.ifIdentifierLexeme ((FallsAt.advance rfl).bind fun _ => .pure _) (.pure _))

theorem Settles.reply (passed : kind.isPassed = true) : FallsAt kind (parseReply self) :=
  .current fun _ => (FallsAt.advance passed).bind fun _ => .bind .contentType fun _ =>
    .bind (settles.expression _) fun _ => .bind (.optionalAfter rfl .expectIdentifierName) fun _ =>
    .bind (.expect rfl) fun _ => .bind (settles.expression _) fun _ =>
    .bind (.optionalAfter rfl (settles.expression _)) fun _ => .pure _

theorem Settles.fail (passed : kind.isPassed = true) : FallsAt kind (parseFail self) :=
  .current fun _ => (FallsAt.advance passed).bind fun _ => .bind .expectInteger fun _ =>
    .bind (.expect rfl) fun _ => .bind (settles.expression _) fun _ => .pure _

omit settles in
theorem Falls.param : Falls parseParam :=
  .bind .expectIdentifierName fun _ =>
    .bind (.optionalAfter rfl .expectIdentifierName) fun _ => .pure _

omit settles in
theorem Falls.paramList : Falls parseParamList :=
  .bind (.check _) fun _ => .ite (.pure _) (.bind .param fun _ =>
    .bind (.manyAt ((FallsAt.advance rfl).bind fun _ => .param)) fun _ => .pure _)

theorem Settles.taskDef (passed : kind.isPassed = true) : FallsAt kind (parseTaskDef self) :=
  .current fun _ => (FallsAt.advance passed).bind fun _ => .bind .expectIdentifierName fun _ =>
    .bind (.expect rfl) fun _ => .bind .paramList fun _ => .bind (.expect rfl) fun _ =>
    .bind settles.taskLikeBody fun _ => .pure _

theorem Settles.scenarioGiven (passed : kind.isPassed = true) :
    FallsAt kind (parseScenarioGiven self) :=
  .current fun _ => (FallsAt.advance passed).bind fun _ => .bind (settles.expression _) fun _ =>
    .bind (.expectIdentifierLexeme _) fun _ => .bind (settles.expression _) fun _ => .pure _

theorem Settles.scenarioBody : Falls (parseScenarioBody self) :=
  .ifIdentifierLexeme ((FallsAt.advance rfl).bind fun _ => .bind (settles.expression _) fun _ =>
    .pure _) (.pure _)

theorem Settles.scenarioHeaders : Falls (parseScenarioHeaders self) :=
  .bind (.expectIdentifierLexeme _) fun _ => settles.expression _

theorem Settles.scenarioWhen (passed : kind.isPassed = true) :
    FallsAt kind (parseScenarioWhen self) :=
  .current fun _ => (FallsAt.advance passed).bind fun _ => .bind .httpVerb fun _ =>
    .bind .expectString fun _ => .bind settles.scenarioBody fun _ =>
    .bind (.optionalAfter rfl settles.scenarioHeaders) fun _ => .pure _

theorem Settles.scenarioThen (passed : kind.isPassed = true) :
    FallsAt kind (parseScenarioThen self) := by
  refine .current fun _ => (FallsAt.advance passed).bind fun _ =>
    .ifIdentifierLexeme ?_ (.ifIdentifierLexeme ?_ (.unexpected _))
  · exact (FallsAt.advance rfl).bind fun _ => .bind (settles.expression _) fun _ => .pure _
  · exact (FallsAt.advance rfl).bind fun _ => .bind (.expectIdentifierLexeme _) fun _ =>
      .bind (settles.expression _) fun _ => .pure _

theorem Settles.scenarioStep : Falls (parseScenarioStep self) :=
  .ifIdentifierLexeme (settles.scenarioGiven rfl)
    (.ifIdentifierLexeme (settles.scenarioWhen rfl)
      (.ifIdentifierLexeme (settles.scenarioThen rfl) (.unexpected _)))

omit settles in
theorem refuses_unexpected (expected : String) :
    Refuses (Parser.unexpected expected : Parser α) := by
  intro state pipeline result runs
  cases runs

omit settles in
theorem refuses_scenarioStep : Refuses (parseScenarioStep self) :=
  .ifCheck (by simp) (.ifCheck (by simp) (.ifCheck (by simp) (refuses_unexpected _)))

theorem Settles.scenario (passed : kind.isPassed = true) : FallsAt kind (parseScenario self) := by
  refine .current fun _ => (FallsAt.advance passed).bind fun _ => .bind .expectString fun _ =>
    .bind (.indentedBlock settles.scenarioStep refuses_scenarioStep) fun _ => ?_
  exact .ite (.raise _) (.ite (.raise _) (.pure _))

omit settles in
theorem Falls.isReservedWordToken : Falls isReservedWordToken :=
  .bind .reservedWordAsName fun _ => .pure _

theorem Settles.export (passed : kind.isPassed = true) : FallsAt kind (parseExport self) := by
  refine .current fun _ => (FallsAt.advance passed).bind fun _ => ?_
  intro state ended
  refine .reads (current_run state) ?_
  split
  · rename_i here
    exact ((settles.taskDef rfl).bind fun _ => .pure _) state ended here
  · rename_i here
    exact ((settles.schema rfl).bind fun _ => .pure _) state ended here
  · refine (Falls.bind .isReservedWordToken fun _ => .bind .peekKind fun _ => ?_) state ended
    exact .ite (.bind settles.assignment fun _ => .pure _) (.ite (.raise _) (.raise _))

theorem Settles.expressionStatement : Falls (parseExpressionStatement self) :=
  .bind .current fun _ => .bind (settles.expression _) fun _ => .pure _

omit settles in
theorem atAuthProvider_run (state : ParserState) :
    ∃ holds, atAuthProvider state = .ok (holds, state) ∧
      (holds = true → state.current.kind = .identifier "auth") := by
  rw [atAuthProvider, Parser.bind_run, checkIdentifierLexeme]
  simp only [Parser.bind_run, currentKind_run, Parser.pure_run]
  split
  · rename_i here
    exact ⟨_, rfl, fun _ => of_decide_eq_true here⟩
  · exact ⟨_, rfl, fun holds => by cases holds⟩

omit settles in
theorem atScenario_run (state : ParserState) :
    ∃ holds, atScenario state = .ok (holds, state) ∧
      (holds = true → state.current.kind = .identifier "scenario") := by
  rw [atScenario, Parser.bind_run, checkIdentifierLexeme]
  simp only [Parser.bind_run, currentKind_run, Parser.pure_run]
  split
  · rename_i here
    exact ⟨_, rfl, fun _ => of_decide_eq_true here⟩
  · exact ⟨_, rfl, fun holds => by cases holds⟩

omit settles in
theorem Falls.atAssignment : Falls atAssignment :=
  .bind (.of_reads currentKind_run) fun _ => .bind .isReservedWordToken fun _ =>
    .bind .peekKind fun _ => .pure _

theorem Settles.other : Falls (parseOther self) := by
  intro state ended
  obtain ⟨provides, looked, auth⟩ := atAuthProvider_run state
  refine .reads looked ?_
  split
  · rename_i here
    exact settles.authProvider rfl state ended (auth here)
  obtain ⟨plays, looked, scenario⟩ := atScenario_run state
  refine .reads looked ?_
  split
  · rename_i here
    exact settles.scenario rfl state ended (scenario here)
  refine (Falls.bind .atAssignment fun _ => .ite settles.assignment ?_) state ended
  exact .bind .current fun _ => .ite (.raise _) settles.expressionStatement

omit settles in
/-- A pipeline is no word. -/
theorem atAssignment_pipeline (pipeline : state.current.kind = .pipeline) :
    atAssignment state = .ok (false, state) := by
  have unreserved : keywordLookup state.current.lexeme ≠ some .pipeline :=
    fun keyword => (keyword_solid keyword).2 rfl
  simp [atAssignment, isReservedWordToken, unreserved, pipeline]

omit settles in
theorem atAuthProvider_pipeline (pipeline : state.current.kind = .pipeline) :
    atAuthProvider state = .ok (false, state) := by
  obtain ⟨holds, looked, word⟩ := atAuthProvider_run state
  rw [looked, Bool.eq_false_iff.mpr fun found => nomatch pipeline.symm.trans (word found)]

omit settles in
theorem atScenario_pipeline (pipeline : state.current.kind = .pipeline) :
    atScenario state = .ok (false, state) := by
  obtain ⟨holds, looked, word⟩ := atScenario_run state
  rw [looked, Bool.eq_false_iff.mpr fun found => nomatch pipeline.symm.trans (word found)]

theorem Settles.refusesOther : Refuses (parseOther self) := by
  refine .past (fun _ => atAuthProvider_pipeline) (.past (fun _ => atScenario_pipeline)
    (.past (fun _ => atAssignment_pipeline) (.reads current_run fun _ => ?_)))
  split
  · intro state pipeline result runs
    cases runs
  · exact .reads current_run fun _ => (settles.refusesExpression _).bind

theorem Settles.refusesStatements : Refuses (parseStatement self) := by
  intro state pipeline result runs
  rw [parseStatement, Parser.bind_run, currentKind_run, pipeline] at runs
  exact settles.refusesOther state pipeline result runs

theorem Settles.statements : Falls (parseStatement self) := by
  refine .currentKind fun kind => ?_
  split
  · exact settles.require rfl
  · exact settles.reject rfl
  · exact settles.while rfl
  · exact settles.taskDef rfl
  · exact settles.route rfl
  · exact settles.schema rfl
  · exact settles.reply rfl
  · exact settles.fail rfl
  · exact settles.export rfl
  · exact settles.transaction rfl
  · exact settles.raise rfl
  · exact settles.on rfl
  · exact .nack rfl
  · exact settles.other.at

/-! ## Programs -/

omit settles in
theorem settles_productions (depth : Nat) : Settles (productions depth) := by
  induction depth with
  | zero =>
      refine ⟨fun _ => .throw _, .throw _, (Falls.throw _).at, .throw _, fun _ => ?_, ?_⟩
      · intro state pipeline result runs
        cases runs
      · intro state pipeline result runs
        cases runs
  | succ depth induction =>
      exact ⟨induction.expressions, induction.statements, induction.ifElse rfl,
        induction.schemaTypes, refuses_expression, induction.refusesStatements⟩

omit settles in
theorem Falls.notAtEnd : Falls notAtEnd :=
  .bind .isAtEnd fun _ => .pure _

theorem Settles.program : Falls (parseProgram self) :=
  .bind .skipNewlines fun _ => .many .notAtEnd
    (.bind settles.statement fun _ => .bind .skipNewlines fun _ => .pure _)

end Parser

end Marreta
