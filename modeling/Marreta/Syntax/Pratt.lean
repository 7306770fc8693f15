import Marreta.Foundation.Precedence
import Marreta.Syntax.Parser

namespace Marreta

open Foundation

/-! The expression parser on sequences of operands and binary operators.

`Operand` says which tokens form an operand and which value it has; between its own
delimiters stands any expression that the parser reads as a whole.  The Pratt parser reads
every sequence of operands and binary operators, up to the token that ends it, as the value
of the tree that is ordered by precedence. -/

/-! ## Running the parser's steps -/

namespace Parser

variable {α β : Type}

@[simp] theorem bind_run (first : Parser α) (next : α → Parser β) (state : ParserState) :
    (first >>= next) state =
      match first state with
      | .ok (value, state) => next value state
      | .error fault => .error fault := by
  change (first state >>= fun result => next result.1 result.2) = _
  cases first state <;> rfl

@[simp] theorem map_run (change : α → β) (body : Parser α) (state : ParserState) :
    (change <$> body) state =
      match body state with
      | .ok (value, state) => .ok (change value, state)
      | .error fault => .error fault := by
  change (body state >>= fun result => pure (change result.1, result.2)) = _
  cases body state <;> rfl

@[simp] theorem pure_run (value : α) (state : ParserState) :
    (pure value : Parser α) state = .ok (value, state) := rfl

@[simp] theorem currentKind_run (state : ParserState) :
    currentKind state = .ok (state.current.kind, state) := rfl

@[simp] theorem current_run (state : ParserState) : current state = .ok (state.current, state) := rfl

@[simp] theorem peekKind_run (state : ParserState) : peekKind state = .ok (state.peekKind, state) :=
  rfl

@[simp] theorem isAtEnd_run (state : ParserState) : isAtEnd state = .ok (state.isAtEnd, state) := rfl

@[simp] theorem check_run (kind : TokenKind) (state : ParserState) :
    check kind state = .ok (decide (state.current.kind = kind), state) := rfl

@[simp] theorem advance_run (state : ParserState) : advance state = .ok ((), state.advance) := rfl

@[simp] theorem budget_run (state : ParserState) :
    budget state = .ok (state.rest.length + 1, state) := rfl

@[simp] theorem reservedWordAsName_run (state : ParserState) :
    reservedWordAsName state =
      .ok (if keywordLookup state.current.lexeme = some state.current.kind then
        some state.current.lexeme else none, state) := by
  simp only [reservedWordAsName, bind_run, current_run]
  split <;> rfl

end Parser

namespace ParserState

@[simp] theorem current_cons (token : Token) (rest : List Token) (inside : Bool) :
    (ParserState.mk (token :: rest) inside).current = token := rfl

theorem advance_cons {token : Token} {rest : List Token} (nonempty : rest ≠ []) (inside : Bool) :
    (ParserState.mk (token :: rest) inside).advance = ⟨rest, inside⟩ := by
  cases rest with
  | nil => exact absurd rfl nonempty
  | cons next rest => rfl

end ParserState

namespace Parser

theorem expect_cons {kind : TokenKind} {token : Token} (same : token.kind = kind)
    (inner : kind ≠ .eof) {rest : List Token} (nonempty : rest ≠ []) (inside : Bool) :
    expect kind ⟨token :: rest, inside⟩ = .ok ((), ⟨rest, inside⟩) := by
  simp [expect, ParserState.isAtEnd, same, inner, ParserState.advance_cons nonempty]

/-! ## Climbing -/

variable (self : Productions)

/-- Turns of the Pratt loop, each of which takes tokens. -/
inductive Climbs (minPrec : Nat) :
    Expression → ParserState → Expression → ParserState → Prop
  | refl {left : Expression} {state : ParserState} : Climbs minPrec left state left state
  | step {left next final : Expression} {state after stop : ParserState} :
      minPrec < infixPrecedence state.current.kind →
      parseInfix self left (infixPrecedence state.current.kind) state = .ok (next, after) →
      after.rest.length < state.rest.length → Climbs minPrec next after final stop →
        Climbs minPrec left state final stop

variable {self}

theorem Climbs.trans {minPrec : Nat} {left middle final : Expression}
    {state between stop : ParserState} (one : Climbs self minPrec left state middle between)
    (two : Climbs self minPrec middle between final stop) :
    Climbs self minPrec left state final stop := by
  induction one with
  | refl => exact two
  | step tighter reads shorter _ ih => exact .step tighter reads shorter (ih two)

theorem infixLoop_of_climbs {minPrec : Nat} {left final : Expression}
    {state stop : ParserState} (climbs : Climbs self minPrec left state final stop)
    (looser : infixPrecedence stop.current.kind ≤ minPrec) {fuel : Nat}
    (enough : state.rest.length < fuel) :
    infixLoop self minPrec fuel left state = .ok (final, stop) := by
  induction climbs generalizing fuel with
  | refl =>
      obtain ⟨fuel, rfl⟩ : ∃ less, fuel = less + 1 := ⟨fuel - 1, by omega⟩
      simp [infixLoop, looser]
  | step tighter reads shorter _ ih =>
      obtain ⟨fuel, rfl⟩ : ∃ less, fuel = less + 1 := ⟨fuel - 1, by omega⟩
      rw [infixLoop, bind_run, currentKind_run]
      simp only [if_neg (Nat.not_le.mpr tighter), bind_run, reads]
      exact ih looser (by omega)

/-- The tokens are read as the value, before `after`, by one prefix and turns of the
Pratt loop. -/
def ReadsTo (self : Productions) (minPrec : Nat) (tokens : List Token) (value : Expression)
    (after : List Token) : Prop :=
  ∀ inside, ∃ base middle, parsePrefix self ⟨tokens ++ after, inside⟩ = .ok (base, middle) ∧
    Climbs self minPrec base middle value ⟨after, inside⟩

/-- An expression ends before these tokens: no suffix, operator or modifier follows. -/
def Ends (after : List Token) : Prop :=
  ∃ token rest, after = token :: rest ∧ infixPrecedence token.kind = precNone ∧
    token.kind ≠ .leftParen ∧ token.kind ≠ .leftBrace ∧ token.kind ≠ .as ∧
    token.kind ≠ .rescue

theorem parseExpression_of_readsTo {minPrec : Nat} {tokens : List Token} {value : Expression}
    {token : Token} {rest : List Token} (reads : ReadsTo self minPrec tokens value (token :: rest))
    (looser : infixPrecedence token.kind ≤ minPrec)
    (plain : minPrec = precNone → token.kind ≠ .as ∧ token.kind ≠ .rescue) (inside : Bool) :
    parseExpression self minPrec ⟨tokens ++ token :: rest, inside⟩ =
      .ok (value, ⟨token :: rest, inside⟩) := by
  obtain ⟨base, middle, starts, climbs⟩ := reads inside
  have loops := infixLoop_of_climbs climbs looser (Nat.lt_succ_self _)
  simp only [parseExpression, bind_run, starts, budget_run, loops]
  split
  · rename_i none
    obtain ⟨response, rescue⟩ := plain none
    simp [parseResponseSchema, parseRescueModifier, response, rescue]
  · rfl

end Parser

/-! ## Operands -/

/-- A literal or a name, one token. -/
def leafOf : TokenKind → Option Expression
  | .integer value => some (.integer value)
  | .float value => some (.float value)
  | .stringLiteral value => some (.stringLiteral value)
  | .trueKeyword => some (.boolean true)
  | .falseKeyword => some (.boolean false)
  | .null => some .null
  | .identifier name => some (.identifier name)
  | kind => (Parser.keywordIdentifier kind).map .identifier

def unaryOf : TokenKind → Option UnaryOperator
  | .notKeyword => some .not
  | .minus => some .negate
  | _ => none

/-- The name a token stands for after a dot or before a colon. -/
def nameOf (token : Token) : Option String :=
  match token.kind with
  | .identifier name => some name
  | kind => if keywordLookup token.lexeme = some kind then some token.lexeme else none

/-- The kinds that no operand starts with and a delimited list can end before. -/
def isStop : TokenKind → Bool
  | .colon | .rightParen | .rightBracket | .rightBrace | .eof => true
  | _ => false

/-- An operator token binds as tightly as the infix table says. -/
def operatorPrecedence (token : Token) : Nat :=
  Parser.infixPrecedence token.kind

/-- The parser reads the tokens whole, as the value, when `next` stands after them. -/
def Whole (next : TokenKind) (tokens : List Token) (value : Expression) : Prop :=
  ∀ depth, tokens.length < depth → ∀ token rest inside, token.kind = next →
    (Parser.productions depth).expression Parser.precNone ⟨tokens ++ token :: rest, inside⟩ =
      .ok (value, ⟨token :: rest, inside⟩)

inductive ArgumentPhrase (next : TokenKind) : List Token → Argument → Prop
  | positional {tokens : List Token} {value : Expression} : Whole next tokens value →
      ArgumentPhrase next tokens (.positional value)
  | named {name colon : Token} {text : String} {tokens : List Token} {value : Expression} :
      nameOf name = some text → colon.kind = .colon → Whole next tokens value →
        ArgumentPhrase next (name :: colon :: tokens) (.named text value)

/-- One argument or more.  A comma can end the list after a positional one. -/
inductive ArgumentPhrases : List Token → List Argument → Prop
  | one {tokens : List Token} {argument : Argument} :
      ArgumentPhrase .rightParen tokens argument → ArgumentPhrases tokens [argument]
  | trailing {tokens : List Token} {value : Expression} {comma : Token} :
      ArgumentPhrase .comma tokens (.positional value) → comma.kind = .comma →
        ArgumentPhrases (tokens ++ [comma]) [.positional value]
  | more {tokens rest : List Token} {argument : Argument} {arguments : List Argument}
      {comma : Token} : ArgumentPhrase .comma tokens argument → comma.kind = .comma →
      ArgumentPhrases rest arguments →
        ArgumentPhrases (tokens ++ comma :: rest) (argument :: arguments)

/-- The pairs of a map literal. -/
inductive PairPhrase (next : TokenKind) : List Token → String × Expression → Prop
  | mk {name colon : Token} {text : String} {tokens : List Token} {value : Expression} :
      nameOf name = some text → colon.kind = .colon → Whole next tokens value →
        PairPhrase next (name :: colon :: tokens) (text, value)

/-- Items with commas between them, and possibly after the last, before `stop`. -/
inductive Listed {α : Type} (Item : TokenKind → List Token → α → Prop) (stop : TokenKind) :
    List Token → List α → Prop
  | nil : Listed Item stop [] []
  | last {tokens : List Token} {value : α} : Item stop tokens value →
      Listed Item stop tokens [value]
  | more {tokens rest : List Token} {value : α} {values : List α} {comma : Token} :
      Item .comma tokens value → comma.kind = .comma → Listed Item stop rest values →
        Listed Item stop (tokens ++ comma :: rest) (value :: values)

/-- Arguments between parentheses. -/
def CallPhrase (tokens : List Token) (arguments : List Argument) : Prop :=
  tokens = [] ∧ arguments = [] ∨ ArgumentPhrases tokens arguments

/-- A literal, a name, a call or an expression in parentheses, with the suffixes after
it. -/
inductive Primary : List Token → Expression → Prop
  | leaf {token : Token} {value : Expression} : leafOf token.kind = some value →
      Primary [token] value
  | grouped {opening closing : Token} {tokens : List Token} {value : Expression} :
      opening.kind = .leftParen → Whole .rightParen tokens value → closing.kind = .rightParen →
        Primary (opening :: (tokens ++ [closing])) value
  | list {opening closing : Token} {tokens : List Token} {values : List Expression} :
      opening.kind = .leftBracket → Listed Whole .rightBracket tokens values →
      closing.kind = .rightBracket → Primary (opening :: (tokens ++ [closing])) (.list values)
  | mapLiteral {opening closing : Token} {tokens : List Token}
      {pairs : List (String × Expression)} : opening.kind = .leftBrace →
      Listed PairPhrase .rightBrace tokens pairs → closing.kind = .rightBrace →
        Primary (opening :: (tokens ++ [closing])) (.mapLiteral pairs)
  | call {name opening closing : Token} {text : String} {inner : List Token}
      {arguments : List Argument} : name.kind = .identifier text →
      opening.kind = .leftParen → CallPhrase inner arguments →
      closing.kind = .rightParen →
        Primary (name :: opening :: (inner ++ [closing])) (.functionCall text arguments)
  | property {tokens : List Token} {value : Expression} {dot name : Token} {text : String} :
      Primary tokens value → dot.kind = .dot → nameOf name = some text →
        Primary (tokens ++ [dot, name]) (.propertyAccess value text)
  | method {tokens : List Token} {value : Expression} {dot name opening closing : Token}
      {text : String} {inner : List Token} {arguments : List Argument} :
      Primary tokens value → dot.kind = .dot → nameOf name = some text →
      opening.kind = .leftParen → CallPhrase inner arguments →
      closing.kind = .rightParen →
        Primary (tokens ++ dot :: name :: opening :: (inner ++ [closing]))
          (.methodCall value text arguments)
  | subscript {tokens : List Token} {value key : Expression} {opening closing : Token}
      {inner : List Token} : Primary tokens value → opening.kind = .leftBracket →
      Whole .rightBracket inner key → closing.kind = .rightBracket →
        Primary (tokens ++ opening :: (inner ++ [closing])) (.subscript value key)

/-- Prefix operators bind more loosely than the suffixes of what they stand before. -/
inductive Operand : List Token → Expression → Prop
  | primary {tokens : List Token} {value : Expression} : Primary tokens value →
      Operand tokens value
  | prefixed {token : Token} {operator : UnaryOperator} {tokens : List Token}
      {value : Expression} : unaryOf token.kind = some operator → Operand tokens value →
        Operand (token :: tokens) (.unaryOp operator value)

/-! ## Sequences -/

/-- The tokens of an operand and its value. -/
structure Phrase where
  tokens : List Token
  value : Expression

/-- A tree of operands under operator tokens. -/
abbrev PhraseTree := OperatorTree Phrase Token

namespace PhraseTree

def tokens : PhraseTree → List Token
  | .leaf phrase => phrase.tokens
  | .node left operator right => tokens left ++ operator :: tokens right

def value : PhraseTree → Expression
  | .leaf phrase => phrase.value
  | .node left operator right =>
      .binaryOp (value left) ((Parser.tokenToBinop operator.kind).getD .add) (value right)

/-- The leaves are operands and the operators are binary ones. -/
def OfOperands : PhraseTree → Prop
  | .leaf phrase => Operand phrase.tokens phrase.value
  | .node left operator right =>
      OfOperands left ∧ (Parser.tokenToBinop operator.kind).isSome = true ∧ OfOperands right

end PhraseTree

/-! ## Reading operands -/

open Marreta.Parser

/-- The tokens start like an expression: the first is no stop and the second no
colon. -/
def Starts (tokens : List Token) : Prop :=
  ∃ first rest, tokens = first :: rest ∧ isStop first.kind = false ∧
    ∀ next ∈ rest.head?, next.kind ≠ .colon

/-- A primary expression ends before these tokens, or has a suffix there. -/
def Separates (after : List Token) : Prop :=
  ∃ token rest, after = token :: rest ∧ token.kind ≠ .leftParen ∧ token.kind ≠ .leftBrace

theorem Separates.nonempty {after : List Token} (separates : Separates after) : after ≠ [] := by
  obtain ⟨next, rest, rfl, -⟩ := separates
  simp

theorem keywordLookup_word {word : String} {kind : TokenKind}
    (found : keywordLookup word = some kind) : isStop kind = false := by
  unfold keywordLookup at found
  split at found <;> cases found <;> rfl

/-- A name is an identifier or a reserved word as it is spelled. -/
theorem nameOf_cases {name : Token} {text : String} (named : nameOf name = some text) :
    name.kind = .identifier text ∨
      (∀ word, name.kind ≠ .identifier word) ∧ keywordLookup name.lexeme = some name.kind ∧
        name.lexeme = text := by
  rw [nameOf] at named
  split at named
  · rename_i word same
    exact .inl (same.trans (congrArg _ (Option.some.inj named)))
  · rename_i other
    rw [Option.ite_none_right_eq_some, Option.some.injEq] at named
    exact .inr ⟨other, named⟩

theorem nameOf_word {name : Token} {text : String} (named : nameOf name = some text) :
    isStop name.kind = false := by
  rcases nameOf_cases named with same | ⟨-, keyword, -⟩
  · rw [same]
    rfl
  · exact keywordLookup_word keyword

theorem ne_of_isStop {kind stop : TokenKind} (opens : isStop kind = false)
    (stops : isStop stop = true) : kind ≠ stop := by
  rintro rfl
  rw [opens] at stops
  cases stops

theorem expectName_cons {name : Token} {text : String} (named : nameOf name = some text)
    {rest : List Token} (nonempty : rest ≠ []) (inside : Bool) :
    ∃ line column, expectName ⟨name :: rest, inside⟩ = .ok ((text, line, column), ⟨rest, inside⟩) := by
  obtain ⟨kind, line, column, lexeme⟩ := name
  refine ⟨line, column, ?_⟩
  rw [expectName, bind_run, current_run]
  simp only [ParserState.current_cons]
  rcases nameOf_cases named with same | ⟨other, word, rfl⟩
  · obtain rfl : kind = .identifier text := same
    simp [ParserState.advance_cons nonempty]
  · split
    · exact absurd rfl (other _)
    · simp [word, ParserState.advance_cons nonempty]

theorem parsePrefix_leaf {self : Productions} {token : Token} {value : Expression}
    (leaf : leafOf token.kind = some value) {after : List Token} (separates : Separates after)
    (inside : Bool) :
    parsePrefix self ⟨token :: after, inside⟩ = .ok (value, ⟨after, inside⟩) := by
  obtain ⟨next, rest, rfl, paren, brace⟩ := separates
  have advance : (ParserState.mk (token :: next :: rest) inside).advance = ⟨next :: rest, inside⟩ :=
    rfl
  rw [parsePrefix, bind_run, currentKind_run, ParserState.current_cons]
  generalize token.kind = kind at leaf
  cases kind
  case identifier name =>
    obtain rfl := Option.some.inj leaf
    simp [parseWordExpression, advance, paren, brace]
  all_goals first | cases leaf; done | (obtain rfl := Option.some.inj leaf; simp [parseLeaf, keywordIdentifier, advance])

/-- A comma or a stop ends an expression. -/
theorem ends_of_stop {token : Token} {rest : List Token}
    (stops : token.kind = .comma ∨ isStop token.kind = true) : Ends (token :: rest) := by
  refine ⟨token, rest, rfl, ?_⟩
  generalize token.kind = kind at stops
  cases kind
  case comma | colon | rightParen | rightBracket | rightBrace | eof =>
    exact ⟨rfl, by simp, by simp, by simp, by simp⟩
  all_goals simp [isStop] at stops

/-! ## Where an expression starts -/

/-- The kinds that can stand after an expression inside delimiters. -/
def Delimits (next : TokenKind) : Prop :=
  next = .comma ∨ isStop next = true

theorem parsePrefix_delimiter {self : Productions} {token : Token} (delimits : Delimits token.kind)
    {rest : List Token} {inside : Bool} {value : Expression} {after : ParserState} :
    parsePrefix self ⟨token :: rest, inside⟩ ≠ .ok (value, after) := by
  obtain ⟨kind, line, column, lexeme⟩ := token
  intro reads
  rw [parsePrefix, bind_run, currentKind_run] at reads
  rcases delimits with rfl | stops
  · cases reads
  · cases kind
    case colon | rightParen | rightBracket | rightBrace | eof => cases reads
    all_goals cases stops

theorem expression_delimiter {depth minPrec : Nat} {token : Token}
    (delimits : Delimits token.kind) {rest : List Token} {inside : Bool} :
    ∃ fault, (productions depth).expression minPrec ⟨token :: rest, inside⟩ = .error fault := by
  cases ends : (productions depth).expression minPrec ⟨token :: rest, inside⟩ with
  | error fault => exact ⟨fault, rfl⟩
  | ok result =>
      cases depth with
      | zero => cases ends
      | succ depth =>
          change parseExpression (productions depth) minPrec _ = _ at ends
          rw [parseExpression, bind_run] at ends
          split at ends
          · rename_i reads
            exact absurd reads (parsePrefix_delimiter delimits)
          · cases ends

@[simp] theorem before_run (kind : TokenKind) (state : ParserState) :
    before kind state =
      .ok (!decide (state.current.kind = kind) && !state.isAtEnd, state) := rfl

/-- A loop stops with its first item. -/
theorem many_error {α : Type} {continues : Parser Bool} {item : Parser α} {state : ParserState}
    {fault : Fault} (goesOn : continues state = .ok (true, state))
    (fails : item state = .error fault) : many continues item state = .error fault := by
  rw [many, bind_run, budget_run]
  simp only [collectWhile, bind_run, goesOn, if_true, fails]

theorem expectName_colon {colon : Token} (isColon : colon.kind = .colon) {rest : List Token}
    {inside : Bool} : ∃ fault, expectName ⟨colon :: rest, inside⟩ = .error fault := by
  obtain ⟨kind, line, column, lexeme⟩ := colon
  obtain rfl : kind = .colon := isColon
  have plain : keywordLookup lexeme ≠ some .colon := by
    intro keyword
    cases keywordLookup_word keyword
  rw [expectName, bind_run, current_run]
  simp [plain, unexpected, raise]
  exact ⟨_, rfl⟩

/-- A prefix before a colon is one token. -/
theorem parsePrefix_colon {depth : Nat} {token colon : Token} (isColon : colon.kind = .colon)
    {rest : List Token} {inside : Bool} {value : Expression} {after : ParserState}
    (reads : parsePrefix (productions depth) ⟨token :: colon :: rest, inside⟩ =
      .ok (value, after)) :
    after = ⟨colon :: rest, inside⟩ := by
  have refused : ∀ minPrec, ∃ fault,
      (productions depth).expression minPrec ⟨colon :: rest, inside⟩ = .error fault := fun _ =>
    expression_delimiter (.inr (by rw [isColon]; rfl))
  obtain ⟨unary, unaryFails⟩ := refused precUnary
  obtain ⟨fault, fails⟩ := refused precNone
  obtain ⟨noName, nameFails⟩ := @expectName_colon colon isColon rest inside
  obtain ⟨kind, line, column, lexeme⟩ := token
  obtain ⟨colonKind, colonLine, colonColumn, colonLexeme⟩ := colon
  obtain rfl : colonKind = .colon := isColon
  have advance : (ParserState.mk (⟨kind, line, column, lexeme⟩ ::
      ⟨.colon, colonLine, colonColumn, colonLexeme⟩ :: rest) inside).advance =
      ⟨⟨.colon, colonLine, colonColumn, colonLexeme⟩ :: rest, inside⟩ := rfl
  cases kind
  case notKeyword | minus =>
    change parseUnary (productions depth) _ _ = _ at reads
    simp [parseUnary, advance, unaryFails] at reads
  case leftParen =>
    change parseGrouped (productions depth) _ = _ at reads
    simp [parseGrouped, advance, fails] at reads
  case leftBracket =>
    change parseListLiteral (productions depth) _ = _ at reads
    rw [parseListLiteral, bind_run, advance_run, advance] at reads
    simp only at reads
    rw [bind_run, many_error rfl (by rw [bind_run, fails])] at reads
    cases reads
  case leftBrace =>
    change parseMapLiteral (productions depth) _ = _ at reads
    rw [parseMapLiteral, bind_run, advance_run, advance] at reads
    simp only at reads
    rw [bind_run, many_error rfl (by rw [bind_run, parsePair, bind_run, nameFails])] at reads
    cases reads
  case matchKeyword =>
    change parseMatchExpression (productions depth) _ = _ at reads
    simp [parseMatchExpression, advance, fails] at reads
  case ifKeyword =>
    change parseIfExpression (productions depth) _ = _ at reads
    simp [parseIfExpression, advance, fails] at reads
  all_goals
    cases reads
    try rfl

/-- An expression in delimiters starts with no delimiter, and no colon stands second. -/
theorem Whole.starts {next : TokenKind} {tokens : List Token} {value : Expression}
    (delimits : Delimits next) (whole : Whole next tokens value) : Starts tokens := by
  have reads := whole (tokens.length + 1) (Nat.lt_succ_self _) ⟨next, 0, 0, ""⟩ [] false rfl
  cases tokens with
  | nil =>
      obtain ⟨fault, fails⟩ := @expression_delimiter 1 precNone ⟨next, 0, 0, ""⟩ delimits [] false
      cases reads.symm.trans fails
  | cons first rest =>
      have opens : isStop first.kind = false := by
        by_contra stops
        rw [Bool.not_eq_false] at stops
        obtain ⟨fault, fails⟩ := @expression_delimiter ((first :: rest).length + 1) precNone first
          (.inr stops) (rest ++ [⟨next, 0, 0, ""⟩]) false
        cases reads.symm.trans fails
      refine ⟨first, rest, rfl, opens, ?_⟩
      cases rest with
      | nil => simp
      | cons second rest =>
          simp only [List.head?_cons, Option.mem_def, Option.some.injEq, forall_eq']
          intro isColon
          change parseExpression _ precNone _ = _ at reads
          simp only [parseExpression, List.cons_append, bind_run, budget_run] at reads
          split at reads
          · rename_i base middle starts
            rw [parsePrefix_colon isColon starts] at reads
            simp [infixLoop, isColon, infixPrecedence, precNone, parseResponseSchema,
              parseRescueModifier] at reads
          · cases reads

theorem Whole.opens {next : TokenKind} (delimits : Delimits next) {tokens : List Token}
    {value : Expression} (whole : Whole next tokens value) :
    ∃ first rest, tokens = first :: rest ∧ isStop first.kind = false := by
  obtain ⟨first, rest, rfl, opens, -⟩ := whole.starts delimits
  exact ⟨first, rest, rfl, opens⟩

/-! ## Arguments -/

variable {depth : Nat}

theorem namedArgName_positional {kind : TokenKind} (delimits : Delimits kind)
    {tokens : List Token} {value : Expression} (whole : Whole kind tokens value) {next : Token}
    (plain : next.kind ≠ .colon) (rest : List Token) (inside : Bool) :
    namedArgName ⟨tokens ++ next :: rest, inside⟩ =
      .ok (none, ⟨tokens ++ next :: rest, inside⟩) := by
  obtain ⟨first, more, rfl, -, second⟩ := whole.starts delimits
  have peeks : (ParserState.mk (first :: more ++ next :: rest) inside).peekKind ≠ some .colon := by
    cases more with
    | nil => simpa [ParserState.peekKind] using plain
    | cons token more => simpa [ParserState.peekKind] using second token rfl
  rw [namedArgName, bind_run, peekKind_run]
  simp only [if_neg peeks, pure_run]

theorem namedArgName_named {name colon : Token} {text : String} (named : nameOf name = some text)
    (isColon : colon.kind = .colon) (rest : List Token) (inside : Bool) :
    namedArgName ⟨name :: colon :: rest, inside⟩ = .ok (some text, ⟨name :: colon :: rest, inside⟩) := by
  obtain ⟨kind, line, column, lexeme⟩ := name
  have peeks : (ParserState.mk (⟨kind, line, column, lexeme⟩ :: colon :: rest) inside).peekKind =
      some .colon := by
    simp [ParserState.peekKind, isColon]
  rw [namedArgName, bind_run, peekKind_run]
  simp only [peeks, if_true]
  rw [bind_run, currentKind_run]
  simp only [ParserState.current_cons]
  rcases nameOf_cases named with same | ⟨other, word, rfl⟩
  · obtain rfl : kind = .identifier text := same
    rfl
  · split
    · exact absurd rfl (other _)
    · simp [word]

theorem argumentLoop_last {tokens : List Token} {argument : Argument}
    (phrase : ArgumentPhrase .rightParen tokens argument) (enough : tokens.length < depth)
    {closing : Token} (closes : closing.kind = .rightParen) (after : List Token) (inside : Bool)
    (fuel : Nat) :
    argumentLoop (productions depth) (fuel + 1) ⟨tokens ++ closing :: after, inside⟩ =
      .ok ([argument], ⟨closing :: after, inside⟩) := by
  cases phrase with
  | positional whole =>
      have plain : closing.kind ≠ .colon := by simp [closes]
      simp [argumentLoop, namedArgName_positional (.inr rfl) whole plain,
        whole depth enough closing after inside closes, closes]
  | @named name colon text tokens value named isColon whole =>
      have shorter : tokens.length < depth := by simp at enough; omega
      simp [argumentLoop, namedArgName_named named isColon, ParserState.advance_cons,
        whole depth shorter closing after inside closes, closes]

theorem argumentLoop_comma {tokens : List Token} {argument : Argument}
    (phrase : ArgumentPhrase .comma tokens argument) (enough : tokens.length < depth)
    {comma next : Token} (separator : comma.kind = .comma) (opens : next.kind ≠ .rightParen)
    (rest : List Token) (inside : Bool) (fuel : Nat) :
    argumentLoop (productions depth) (fuel + 1) ⟨tokens ++ comma :: next :: rest, inside⟩ =
      ((argument :: ·) <$> argumentLoop (productions depth) fuel) ⟨next :: rest, inside⟩ := by
  have expects : expect .comma ⟨comma :: next :: rest, inside⟩ = .ok ((), ⟨next :: rest, inside⟩) :=
    expect_cons separator (by simp) (by simp) inside
  cases phrase with
  | positional whole =>
      have plain : comma.kind ≠ .colon := by simp [separator]
      simp [argumentLoop, namedArgName_positional (.inl rfl) whole plain,
        whole depth enough comma _ inside separator, separator, expects, opens]
  | @named name colon text tokens value named isColon whole =>
      have shorter : tokens.length < depth := by simp at enough; omega
      simp [argumentLoop, namedArgName_named named isColon, ParserState.advance_cons,
        whole depth shorter comma _ inside separator, separator, expects]

theorem ArgumentPhrase.starts {next : TokenKind} (delimits : Delimits next)
    {tokens : List Token} {argument : Argument} (phrase : ArgumentPhrase next tokens argument) :
    ∃ first rest, tokens = first :: rest ∧ isStop first.kind = false := by
  cases phrase with
  | positional whole => exact whole.opens delimits
  | named named _ _ => exact ⟨_, _, rfl, nameOf_word named⟩

theorem ArgumentPhrases.starts {tokens : List Token} {arguments : List Argument}
    (phrases : ArgumentPhrases tokens arguments) :
    ∃ first rest, tokens = first :: rest ∧ isStop first.kind = false := by
  cases phrases with
  | one phrase => exact phrase.starts (.inr rfl)
  | trailing phrase _ =>
      obtain ⟨first, rest, rfl, opens⟩ := phrase.starts (.inl rfl)
      exact ⟨first, _, rfl, opens⟩
  | more phrase _ _ =>
      obtain ⟨first, rest, rfl, opens⟩ := phrase.starts (.inl rfl)
      exact ⟨first, _, rfl, opens⟩

theorem argumentLoop_reads {tokens : List Token} {arguments : List Argument}
    (phrases : ArgumentPhrases tokens arguments) (enough : tokens.length < depth)
    {closing : Token} (closes : closing.kind = .rightParen) (after : List Token) (inside : Bool)
    {fuel : Nat} (turns : tokens.length < fuel) :
    argumentLoop (productions depth) fuel ⟨tokens ++ closing :: after, inside⟩ =
      .ok (arguments, ⟨closing :: after, inside⟩) := by
  induction phrases generalizing fuel with
  | one phrase =>
      obtain ⟨fuel, rfl⟩ : ∃ less, fuel = less + 1 := ⟨fuel - 1, by omega⟩
      exact argumentLoop_last phrase enough closes after inside fuel
  | @trailing tokens value comma phrase separator =>
      obtain ⟨fuel, rfl⟩ : ∃ less, fuel = less + 1 := ⟨fuel - 1, by omega⟩
      rw [List.length_append] at enough
      have expects : expect .comma ⟨comma :: closing :: after, inside⟩ =
          .ok ((), ⟨closing :: after, inside⟩) :=
        expect_cons separator (by simp) (by simp) inside
      have plain : comma.kind ≠ .colon := by simp [separator]
      cases phrase with
      | positional whole =>
          simp [argumentLoop, namedArgName_positional (.inl rfl) whole plain,
            whole depth (Nat.lt_of_le_of_lt (Nat.le_add_right _ _) enough) comma _ inside
              separator, separator, expects, closes]
  | @more tokens rest argument arguments comma phrase separator phrases ih =>
      obtain ⟨fuel, rfl⟩ : ∃ less, fuel = less + 1 := ⟨fuel - 1, by omega⟩
      simp only [List.length_append, List.length_cons] at enough turns
      obtain ⟨first, more, rfl, opens⟩ := phrases.starts
      have later : argumentLoop (productions depth) fuel
          ⟨first :: more ++ closing :: after, inside⟩ = _ := ih (by omega) (by omega)
      rw [List.append_assoc, List.cons_append, List.cons_append,
        argumentLoop_comma phrase (by omega) separator (ne_of_isStop opens rfl)]
      rw [map_run, ← List.cons_append, later]

/-! ## Primary expressions -/

theorem parseCallArguments_reads {opening closing : Token} {inner : List Token}
    {arguments : List Argument} (closes : closing.kind = .rightParen)
    (phrases : CallPhrase inner arguments) (enough : inner.length < depth) {after : List Token}
    (nonempty : after ≠ []) (inside : Bool) :
    parseCallArguments (productions depth) ⟨opening :: (inner ++ closing :: after), inside⟩ =
      .ok (arguments, ⟨after, inside⟩) := by
  have expects : expect .rightParen ⟨closing :: after, inside⟩ = .ok ((), ⟨after, inside⟩) :=
    expect_cons closes (by simp) nonempty inside
  rcases phrases with ⟨rfl, rfl⟩ | phrases
  · simp [parseCallArguments, parseArgumentList, ParserState.advance_cons, closes, expects]
  · obtain ⟨first, rest, rfl, opens⟩ := phrases.starts
    have loops : ∀ fuel, (first :: rest).length < fuel → argumentLoop (productions depth) fuel
        ⟨first :: (rest ++ closing :: after), inside⟩ = .ok (arguments, ⟨closing :: after, inside⟩) :=
      fun fuel turns => argumentLoop_reads phrases enough closes after inside turns
    simp only [parseCallArguments, parseArgumentList, bind_run, advance_run, List.cons_append,
      ParserState.advance_cons (List.cons_ne_nil _ _), check_run, ParserState.current_cons,
      ne_of_isStop opens (show isStop .rightParen = true from rfl), decide_false,
      Bool.false_eq_true, if_false, budget_run]
    have turns : (first :: rest).length < (first :: (rest ++ closing :: after)).length + 1 := by
      simp only [List.length_cons, List.length_append]
      omega
    rw [loops _ turns]
    simp only [expects, pure_run]

theorem PairPhrase.starts {next : TokenKind} {tokens : List Token} {pair : String × Expression}
    (phrase : PairPhrase next tokens pair) :
    ∃ first rest, tokens = first :: rest ∧ isStop first.kind = false := by
  obtain ⟨named, -, -⟩ := phrase
  exact ⟨_, _, rfl, nameOf_word named⟩

section Lists

variable {α : Type} {Item : TokenKind → List Token → α → Prop} {parser : Parser α}
  {stop : TokenKind} (stops : isStop stop = true) {inside : Bool}
  (opens : ∀ {next} (_ : Delimits next) {tokens value}, Item next tokens value →
    ∃ first rest, tokens = first :: rest ∧ isStop first.kind = false)
  (reads : ∀ {kind tokens value}, Item kind tokens value → tokens.length < depth →
    ∀ next rest, next.kind = kind →
      parser ⟨tokens ++ next :: rest, inside⟩ = .ok (value, ⟨next :: rest, inside⟩))
include stops opens reads

/-- The loop over a delimited list reads its items, when its item parser does. -/
theorem collectWhile_listed {tokens : List Token} {values : List α} (listed : Listed Item stop tokens values)
    (enough : tokens.length < depth) {closing : Token} (closes : closing.kind = stop)
    (after : List Token) {fuel : Nat} (turns : tokens.length < fuel) :
    collectWhile (before stop) (do
      let item ← parser
      if ← check stop then return item
      else do
        expect .comma
        return item) fuel ⟨tokens ++ closing :: after, inside⟩ =
      .ok (values, ⟨closing :: after, inside⟩) := by
  have apart : TokenKind.comma ≠ stop := by
    rintro rfl
    cases stops
  obtain ⟨fuel, rfl⟩ : ∃ less, fuel = less + 1 := ⟨fuel - 1, by omega⟩
  induction listed generalizing fuel with
  | nil => simp [collectWhile, closes]
  | @last tokens value phrase =>
      have item := reads phrase enough closing after closes
      obtain ⟨first, rest, rfl, plain⟩ := opens (.inr stops) phrase
      obtain ⟨fuel, rfl⟩ : ∃ less, fuel = less + 1 := ⟨fuel - 1, by simp at turns; omega⟩
      have goesOn : first.kind ≠ stop := ne_of_isStop plain stops
      have inner : first.kind ≠ .eof := ne_of_isStop plain rfl
      rw [collectWhile, bind_run, before_run]
      simp [ParserState.isAtEnd, goesOn, inner] at item ⊢
      simp [item, closes, collectWhile]
  | @more tokens rest value values comma phrase separator _ ih =>
      simp only [List.length_append, List.length_cons] at enough turns
      have item := reads phrase (by omega) comma (rest ++ closing :: after) separator
      obtain ⟨first, others, rfl, plain⟩ := opens (.inl rfl) phrase
      obtain ⟨fuel, rfl⟩ : ∃ less, fuel = less + 1 := ⟨fuel - 1, by omega⟩
      have later := ih (by omega) fuel (by omega)
      have goesOn : first.kind ≠ stop := ne_of_isStop plain stops
      have inner : first.kind ≠ .eof := ne_of_isStop plain rfl
      have expects : expect .comma ⟨comma :: (rest ++ closing :: after), inside⟩ =
          .ok ((), ⟨rest ++ closing :: after, inside⟩) :=
        expect_cons separator (by simp) (by simp) inside
      rw [collectWhile, bind_run, before_run]
      simp [ParserState.isAtEnd, goesOn, inner] at item ⊢
      simp at later
      simp [item, separator, apart, expects, later]

/-- A list between delimiters, given the parser of its items. -/
theorem delimited_reads {tokens : List Token} {values : List α} (listed : Listed Item stop tokens values)
    (enough : tokens.length < depth) {opening closing : Token} (closes : closing.kind = stop)
    (inner : stop ≠ .eof) {after : List Token} (nonempty : after ≠ [])
    (build : List α → Expression) :
    (do
      advance
      let items ← many (before stop) do
        let item ← parser
        if ← check stop then return item
        else do
          expect .comma
          return item
      expect stop
      return build items : Parser Expression) ⟨opening :: (tokens ++ closing :: after), inside⟩ =
      .ok (build values, ⟨after, inside⟩) := by
  have loops : ∀ fuel, tokens.length < fuel → collectWhile (before stop) _ fuel
      ⟨tokens ++ closing :: after, inside⟩ = .ok (values, ⟨closing :: after, inside⟩) :=
    fun fuel turns => collectWhile_listed stops opens reads listed enough closes after turns
  have expects : expect stop ⟨closing :: after, inside⟩ = .ok ((), ⟨after, inside⟩) :=
    expect_cons closes inner nonempty inside
  have advances : (ParserState.mk (opening :: (tokens ++ closing :: after)) inside).advance =
      ⟨tokens ++ closing :: after, inside⟩ := ParserState.advance_cons (by simp) inside
  simp only [many, bind_run, advance_run, advances, budget_run]
  have turns : tokens.length < (tokens ++ closing :: after).length + 1 := by
    rw [List.length_append]
    omega
  rw [loops _ turns]
  simp only [expects, pure_run]

end Lists

theorem parsePair_reads {kind : TokenKind} {tokens : List Token} {pair : String × Expression}
    (phrase : PairPhrase kind tokens pair) (enough : tokens.length < depth) (next : Token)
    (rest : List Token) (follows : next.kind = kind) (inside : Bool) :
    parsePair (productions depth) ⟨tokens ++ next :: rest, inside⟩ =
      .ok (pair, ⟨next :: rest, inside⟩) := by
  obtain ⟨named, isColon, whole⟩ := phrase
  rename_i name colon text tokens value
  rw [List.length_cons, List.length_cons] at enough
  obtain ⟨line, column, names⟩ := expectName_cons named
    (List.cons_ne_nil colon (tokens ++ next :: rest)) inside
  have expects : expect .colon ⟨colon :: (tokens ++ next :: rest), inside⟩ =
      .ok ((), ⟨tokens ++ next :: rest, inside⟩) := expect_cons isColon (by simp) (by simp) inside
  have reads := whole depth (by omega) next rest inside follows
  simp [parsePair, names, expects, reads]

theorem Primary.reads {tokens : List Token} {value : Expression}
    (primary : Primary tokens value) {depth minPrec : Nat} (enough : tokens.length ≤ depth)
    (loose : minPrec < precCall) {after : List Token} (separates : Separates after) :
    ReadsTo (productions depth) minPrec tokens value after := by
  induction primary generalizing after with
  | leaf leaf => exact fun inside => ⟨_, _, parsePrefix_leaf leaf separates inside, .refl⟩
  | @grouped opening closing tokens value opens whole closes =>
      intro inside
      have shorter : tokens.length < depth := by simp at enough; omega
      have expects : expect .rightParen ⟨closing :: after, inside⟩ = .ok ((), ⟨after, inside⟩) :=
        expect_cons closes (by simp) separates.nonempty inside
      have reads := whole depth shorter closing after inside closes
      refine ⟨value, ⟨after, inside⟩, ?_, .refl⟩
      rw [List.cons_append, List.append_assoc, List.singleton_append, parsePrefix, bind_run,
        currentKind_run, ParserState.current_cons, opens]
      simp [parseGrouped, ParserState.advance_cons, reads, expects]
  | @list opening closing tokens values opens listed closes =>
      intro inside
      have shorter : tokens.length < depth := by simp at enough; omega
      refine ⟨.list values, ⟨after, inside⟩, ?_, .refl⟩
      rw [List.cons_append, List.append_assoc, List.singleton_append, parsePrefix, bind_run,
        currentKind_run, ParserState.current_cons, opens]
      refine delimited_reads rfl Whole.opens ?_ listed shorter closes (by simp)
        separates.nonempty .list
      intro kind tokens value whole short next rest follows
      exact whole depth short next rest inside follows
  | @mapLiteral opening closing tokens pairs opens listed closes =>
      intro inside
      have shorter : tokens.length < depth := by simp at enough; omega
      refine ⟨.mapLiteral pairs, ⟨after, inside⟩, ?_, .refl⟩
      rw [List.cons_append, List.append_assoc, List.singleton_append, parsePrefix, bind_run,
        currentKind_run, ParserState.current_cons, opens]
      refine delimited_reads rfl (fun _ _ _ phrase => phrase.starts) ?_ listed shorter closes
        (by simp) separates.nonempty .mapLiteral
      intro kind tokens pair phrase short next rest follows
      exact parsePair_reads phrase short next rest follows inside
  | @call name opening closing text inner arguments word opens phrases closes =>
      intro inside
      simp only [List.length_cons, List.length_append] at enough
      have calls : parseCallArguments (productions depth)
          ⟨opening :: (inner ++ closing :: after), inside⟩ = .ok (arguments, ⟨after, inside⟩) :=
        parseCallArguments_reads closes phrases (by omega) separates.nonempty inside
      refine ⟨.functionCall text arguments, ⟨after, inside⟩, ?_, .refl⟩
      rw [List.cons_append, List.cons_append, List.append_assoc, List.singleton_append,
        parsePrefix, bind_run, currentKind_run, ParserState.current_cons, word]
      simp [parseWordExpression, ParserState.advance_cons, opens, calls]
  | @property tokens value dot name text _ isDot named ih =>
      intro inside
      have here : Separates (dot :: name :: after) :=
        ⟨dot, name :: after, rfl, by simp [isDot], by simp [isDot]⟩
      have shorter : tokens.length ≤ depth := by simp at enough; omega
      obtain ⟨base, middle, starts, climbs⟩ := ih shorter here inside
      obtain ⟨next, rest, rfl, paren, -⟩ := separates
      obtain ⟨line, column, names⟩ := expectName_cons named (List.cons_ne_nil next rest) inside
      refine ⟨base, middle, by simpa using starts, climbs.trans (.step ?_ ?_ ?_ .refl)⟩
      · simpa [isDot, infixPrecedence] using loose
      · simp [parseInfix, isDot, tokenToBinop, ParserState.advance_cons, names, paren]
      · simp
  | @method tokens value dot name opening closing text inner arguments _ isDot named opens
      phrases closes ih =>
      intro inside
      have here : Separates (dot :: name :: opening :: (inner ++ closing :: after)) :=
        ⟨dot, _, rfl, by simp [isDot], by simp [isDot]⟩
      simp only [List.length_append, List.length_cons] at enough
      obtain ⟨base, middle, starts, climbs⟩ := ih (by omega) here inside
      obtain ⟨line, column, names⟩ := expectName_cons named
        (List.cons_ne_nil opening (inner ++ closing :: after)) inside
      have calls : parseCallArguments (productions depth)
          ⟨opening :: (inner ++ closing :: after), inside⟩ = .ok (arguments, ⟨after, inside⟩) :=
        parseCallArguments_reads closes phrases (by omega) separates.nonempty inside
      refine ⟨base, middle, by simpa using starts, climbs.trans (.step ?_ ?_ ?_ .refl)⟩
      · simpa [isDot, infixPrecedence] using loose
      · simp [parseInfix, isDot, tokenToBinop, ParserState.advance_cons, names, opens, calls]
      · simp
        omega
  | @subscript tokens value key opening closing inner _ opens nested closes ih =>
      intro inside
      have here : Separates (opening :: (inner ++ closing :: after)) :=
        ⟨opening, _, rfl, by simp [opens], by simp [opens]⟩
      simp only [List.length_append, List.length_cons] at enough
      obtain ⟨base, middle, starts, climbs⟩ := ih (by omega) here inside
      have reads := nested depth (by omega) closing after inside closes
      have expects : expect .rightBracket ⟨closing :: after, inside⟩ = .ok ((), ⟨after, inside⟩) :=
        expect_cons closes (by simp) separates.nonempty inside
      refine ⟨base, middle, by simpa using starts, climbs.trans (.step ?_ ?_ ?_ .refl)⟩
      · simpa [opens, infixPrecedence] using loose
      · simp [parseInfix, opens, tokenToBinop, ParserState.advance_cons, reads, expects]
      · simp
        omega

/-- No suffix follows. -/
def NoSuffix (after : List Token) : Prop :=
  ∃ token rest, after = token :: rest ∧ token.kind ≠ .leftParen ∧ token.kind ≠ .leftBrace ∧
    infixPrecedence token.kind ≤ precUnary

theorem Operand.reads {tokens : List Token} {value : Expression}
    (operand : Operand tokens value) {depth minPrec : Nat} (enough : tokens.length ≤ depth)
    (loose : minPrec < precCall) {after : List Token} (follows : NoSuffix after) :
    ReadsTo (productions depth) minPrec tokens value after := by
  induction operand generalizing depth minPrec with
  | primary primary =>
      obtain ⟨token, rest, same, paren, brace, -⟩ := follows
      exact primary.reads enough loose ⟨token, rest, same, paren, brace⟩
  | @prefixed token operator tokens value unary _ ih =>
      intro inside
      rw [List.length_cons] at enough
      obtain ⟨depth, rfl⟩ : ∃ less, depth = less + 1 := ⟨depth - 1, by omega⟩
      obtain ⟨next, rest, rfl, -, -, looser⟩ := follows
      have inner : ReadsTo (productions depth) precUnary tokens value (next :: rest) :=
        ih (by omega) (by decide)
      have parses : (productions (depth + 1)).expression precUnary
          ⟨tokens ++ next :: rest, inside⟩ = .ok (value, ⟨next :: rest, inside⟩) :=
        parseExpression_of_readsTo inner looser (by simp [precUnary, precNone]) inside
      have advance : (ParserState.mk (token :: (tokens ++ next :: rest)) inside).advance =
          ⟨tokens ++ next :: rest, inside⟩ := ParserState.advance_cons (by simp) inside
      refine ⟨_, _, ?_, .refl⟩
      rw [List.cons_append, parsePrefix, bind_run, currentKind_run, ParserState.current_cons]
      generalize token.kind = kind at unary
      cases kind
      case notKeyword | minus =>
        obtain rfl := Option.some.inj unary
        simp [parseUnary, advance, parses]
      all_goals cases unary

/-! ## Reading sequences -/

theorem binop_spec {kind : TokenKind} (binary : (tokenToBinop kind).isSome = true) :
    0 < infixPrecedence kind ∧ infixPrecedence kind ≤ precMultiplication ∧
      kind ≠ .leftParen ∧ kind ≠ .leftBrace ∧ kind ≠ .colon := by
  cases kind
  case identifier name =>
    by_cases word : name = "in"
    · subst word
      exact ⟨by decide, by decide, by simp, by simp, by simp⟩
    · simp [tokenToBinop, word] at binary
  all_goals first | cases binary; done | exact ⟨by decide, by decide, by simp, by simp, by simp⟩

theorem PhraseTree.reads {tree : PhraseTree} (phrases : PhraseTree.OfOperands tree)
    (ordered : tree.Ordered operatorPrecedence) {depth minPrec : Nat}
    (enough : (PhraseTree.tokens tree).length ≤ depth) (loose : minPrec < precCall)
    (tighter : ∀ root ∈ tree.root?, minPrec < operatorPrecedence root)
    {token : Token} {rest : List Token} (follows : NoSuffix (token :: rest))
    (looser : ∀ root ∈ tree.root?, infixPrecedence token.kind ≤ operatorPrecedence root) :
    ReadsTo (productions depth) minPrec (PhraseTree.tokens tree) (PhraseTree.value tree)
      (token :: rest) := by
  induction tree generalizing depth minPrec token rest with
  | leaf phrase => exact phrases.reads enough loose follows
  | node left operator right leftIh rightIh =>
      intro inside
      obtain ⟨leftPhrases, binary, rightPhrases⟩ := phrases
      obtain ⟨leftOrdered, rightOrdered, leftRoot, rightRoot⟩ := ordered
      obtain ⟨positive, bounded, paren, brace, -⟩ := binop_spec binary
      have above : minPrec < operatorPrecedence operator := tighter operator rfl
      have next : infixPrecedence token.kind ≤ operatorPrecedence operator := looser operator rfl
      rw [PhraseTree.tokens, List.length_append, List.length_cons] at enough
      obtain ⟨depth, rfl⟩ : ∃ less, depth = less + 1 := ⟨depth - 1, by omega⟩
      -- The left operand is read up to the operator, which binds no tighter than it.
      have leftFollows : NoSuffix (operator :: (PhraseTree.tokens right ++ token :: rest)) :=
        ⟨operator, _, rfl, paren, brace, Nat.le_trans bounded (by decide)⟩
      have leftReads : ReadsTo (productions (depth + 1)) minPrec (PhraseTree.tokens left)
          (PhraseTree.value left) (operator :: (PhraseTree.tokens right ++ token :: rest)) :=
        leftIh leftPhrases leftOrdered (by omega) loose
          (fun root same => Nat.lt_of_lt_of_le above (leftRoot root same)) leftFollows leftRoot
      obtain ⟨base, middle, starts, climbs⟩ := leftReads inside
      -- The right operand is read with the operator's precedence as the bound.
      have rightReads : ReadsTo (productions depth) (operatorPrecedence operator)
          (PhraseTree.tokens right) (PhraseTree.value right) (token :: rest) :=
        rightIh rightPhrases rightOrdered (by omega) (Nat.lt_of_le_of_lt bounded (by decide))
          rightRoot follows fun root same => Nat.le_trans next (Nat.le_of_lt (rightRoot root same))
      have parses : (productions (depth + 1)).expression (operatorPrecedence operator)
          ⟨PhraseTree.tokens right ++ token :: rest, inside⟩ =
            .ok (PhraseTree.value right, ⟨token :: rest, inside⟩) :=
        parseExpression_of_readsTo rightReads next (fun zero => absurd zero (Nat.ne_of_gt positive))
          inside
      obtain ⟨binop, found⟩ := Option.isSome_iff_exists.mp binary
      have advance : (ParserState.mk (operator :: (PhraseTree.tokens right ++ token :: rest))
          inside).advance = ⟨PhraseTree.tokens right ++ token :: rest, inside⟩ :=
        ParserState.advance_cons (by simp) inside
      refine ⟨base, middle, by simpa [PhraseTree.tokens] using starts,
        climbs.trans (.step above ?_ ?_ .refl)⟩
      · simp only [parseInfix, bind_run, currentKind_run, ParserState.current_cons, found,
          advance_run, advance]
        rw [show infixPrecedence operator.kind = operatorPrecedence operator from rfl, parses]
        simp [PhraseTree.value, found]
      · simp only [List.length_cons, List.length_append]
        omega

/-- A sequence before its end is read as the value of its ordered tree. -/
theorem parseExpression_tree {tree : PhraseTree} (phrases : PhraseTree.OfOperands tree)
    (ordered : tree.Ordered operatorPrecedence) {depth : Nat}
    (enough : (PhraseTree.tokens tree).length < depth) {after : List Token} (ends : Ends after)
    (inside : Bool) :
    (productions depth).expression precNone ⟨PhraseTree.tokens tree ++ after, inside⟩ =
      .ok (PhraseTree.value tree, ⟨after, inside⟩) := by
  obtain ⟨depth, rfl⟩ : ∃ less, depth = less + 1 := ⟨depth - 1, by omega⟩
  obtain ⟨token, rest, rfl, none, paren, brace, response, rescue⟩ := ends
  have tighter : ∀ root ∈ tree.root?, precNone < operatorPrecedence root := by
    intro root same
    cases tree with
    | leaf phrase => cases same
    | node left operator right =>
        obtain rfl : operator = root := Option.some.inj same
        exact (binop_spec phrases.2.1).1
  have reads : ReadsTo (productions depth) precNone (PhraseTree.tokens tree)
      (PhraseTree.value tree) (token :: rest) := by
    apply PhraseTree.reads phrases ordered (by omega) (by decide) tighter
    · exact ⟨token, rest, rfl, paren, brace, Nat.le_trans (Nat.le_of_eq none) (by decide)⟩
    · intro root _
      exact Nat.le_trans (Nat.le_of_eq none) (Nat.zero_le _)
  exact parseExpression_of_readsTo reads (Nat.le_of_eq none) (fun _ => ⟨response, rescue⟩) inside

/-- A sequence of operands can stand in delimiters itself. -/
theorem PhraseTree.whole {tree : PhraseTree} (phrases : PhraseTree.OfOperands tree)
    (ordered : tree.Ordered operatorPrecedence) {next : TokenKind} (delimits : Delimits next) :
    Whole next (PhraseTree.tokens tree) (PhraseTree.value tree) := by
  intro depth enough token rest inside follows
  have ends : Ends (token :: rest) := ends_of_stop (by rwa [follows])
  exact parseExpression_tree phrases ordered enough ends inside

theorem Operand.whole {tokens : List Token} {value : Expression} (operand : Operand tokens value)
    {next : TokenKind} (delimits : Delimits next) : Whole next tokens value := by
  have phrases : PhraseTree.OfOperands (.leaf ⟨tokens, value⟩) := operand
  exact PhraseTree.whole phrases trivial delimits

/-! ## Every sequence -/

/-- The tokens of a sequence of operands with operators between them. -/
def sequenceTokens (first : Phrase) (rest : List (Token × Phrase)) : List Token :=
  first.tokens ++ rest.flatMap fun pair => pair.1 :: pair.2.tokens

theorem PhraseTree.tokens_inOrder (tree : PhraseTree) :
    PhraseTree.tokens tree = sequenceTokens tree.inOrder.1 tree.inOrder.2 := by
  induction tree with
  | leaf phrase => simp [PhraseTree.tokens, sequenceTokens, OperatorTree.inOrder]
  | node left operator right leftIh rightIh =>
      rw [PhraseTree.tokens, leftIh, rightIh]
      simp [sequenceTokens, OperatorTree.inOrder]

theorem PhraseTree.ofOperands_iff (tree : PhraseTree) :
    PhraseTree.OfOperands tree ↔
      Operand tree.inOrder.1.tokens tree.inOrder.1.value ∧
        ∀ pair ∈ tree.inOrder.2, (tokenToBinop pair.1.kind).isSome = true ∧
          Operand pair.2.tokens pair.2.value := by
  induction tree with
  | leaf phrase => simp [PhraseTree.OfOperands, OperatorTree.inOrder]
  | node left operator right leftIh rightIh =>
      simp only [PhraseTree.OfOperands, leftIh, rightIh, OperatorTree.inOrder, List.forall_mem_append,
        List.forall_mem_cons]
      tauto

/-- The Pratt parser reads every sequence of operands and binary operators, and no
token more, as the value of its one tree ordered by precedence.  In the parentheses,
argument lists and brackets of an operand stands any expression. -/
theorem parseExpression_alternating (first : Phrase) (rest : List (Token × Phrase))
    (operand : Operand first.tokens first.value)
    (operands : ∀ pair ∈ rest, (tokenToBinop pair.1.kind).isSome = true ∧
      Operand pair.2.tokens pair.2.value)
    {after : List Token} (ends : Ends after) {depth : Nat}
    (enough : (sequenceTokens first rest).length < depth) (inside : Bool) :
    ∃ tree : PhraseTree,
      (productions depth).expression precNone ⟨sequenceTokens first rest ++ after, inside⟩ =
          .ok (PhraseTree.value tree, ⟨after, inside⟩) ∧
        tree.inOrder = (first, rest) ∧ tree.Ordered operatorPrecedence ∧
        ∀ other : PhraseTree, other.inOrder = (first, rest) → other.Ordered operatorPrecedence →
          other = tree := by
  obtain ⟨tree, ordered, inOrder⟩ :=
    @OperatorTree.exists_ordered _ _ operatorPrecedence first rest
  have tokens : sequenceTokens first rest = PhraseTree.tokens tree := by
    rw [PhraseTree.tokens_inOrder, inOrder]
  have phrases : PhraseTree.OfOperands tree := by
    rw [PhraseTree.ofOperands_iff, inOrder]
    exact ⟨operand, operands⟩
  refine ⟨tree, ?_, inOrder, ordered, fun other same otherOrdered => ?_⟩
  · rw [tokens] at enough ⊢
    exact parseExpression_tree phrases ordered enough ends inside
  · exact otherOrdered.unique ordered (same.trans inOrder.symm)

/-- `a + b * c` -/
theorem parseExpression_sum :
    (productions 6).expression precNone
        ⟨[⟨.identifier "a", 1, 1, "a"⟩, ⟨.plus, 1, 3, "+"⟩, ⟨.identifier "b", 1, 5, "b"⟩,
          ⟨.star, 1, 7, "*"⟩, ⟨.identifier "c", 1, 9, "c"⟩, .eof 1 10], false⟩ =
      .ok (.binaryOp (.identifier "a") .add
        (.binaryOp (.identifier "b") .multiply (.identifier "c")), ⟨[.eof 1 10], false⟩) := by
  let word (name : String) (column : Nat) : Phrase :=
    ⟨[⟨.identifier name, 1, column, name⟩], .identifier name⟩
  have operand : ∀ name column, Operand (word name column).tokens
      (word name column).value := fun _ _ => .primary (.leaf rfl)
  let plus : Token := ⟨.plus, 1, 3, "+"⟩
  let star : Token := ⟨.star, 1, 7, "*"⟩
  obtain ⟨tree, parses, -, -, unique⟩ := parseExpression_alternating (word "a" 1)
    [(plus, word "b" 5), (star, word "c" 9)] (operand "a" 1)
    (by
      intro pair member
      simp only [List.mem_cons, List.not_mem_nil, or_false] at member
      rcases member with rfl | rfl
      · exact ⟨rfl, operand "b" 5⟩
      · exact ⟨rfl, operand "c" 9⟩)
    (show Ends [.eof 1 10] from ends_of_stop (.inr rfl)) (show _ < 6 by decide) false
  rw [← unique (.node (.leaf (word "a" 1)) plus (.node (.leaf (word "b" 5)) star
    (.leaf (word "c" 9)))) rfl (by simp [OperatorTree.Ordered, OperatorTree.root?]; decide)] at parses
  exact parses

end Marreta
