import Marreta.Syntax.Lexer
import Marreta.Syntax.Ast

namespace Marreta

/-! The parser's state and token navigation.  The state holds the tokens from
the current position on; a stream ends in `Eof`, and the parser never moves past
its last token. -/

structure ParserState where
  rest : List Token
  insideTransaction : Bool
deriving DecidableEq

abbrev Parser := StateT ParserState (Except Fault)

namespace ParserState

def new (tokens : List Token) : ParserState :=
  { rest := tokens, insideTransaction := false }

def current (state : ParserState) : Token :=
  state.rest.headD (.eof 0 0)

def peekKind (state : ParserState) : Option TokenKind :=
  (state.rest.drop 1).head?.map (·.kind)

def isAtEnd (state : ParserState) : Bool :=
  state.current.kind = .eof

def advance (state : ParserState) : ParserState :=
  match state.rest with
  | _ :: next :: rest => { state with rest := next :: rest }
  | _ => state

def skipNewlines (state : ParserState) : ParserState :=
  { state with rest := state.rest.dropWhile (·.kind = .newline) }

end ParserState

/-- The name of a token kind in an error message.  Kinds with a value are never
asked for by name. -/
def TokenKind.debugName : TokenKind → String
  | .assign => "Assign"
  | .arrow => "Arrow"
  | .leftParen => "LeftParen"
  | .rightParen => "RightParen"
  | .leftBracket => "LeftBracket"
  | .rightBracket => "RightBracket"
  | .leftBrace => "LeftBrace"
  | .rightBrace => "RightBrace"
  | .comma => "Comma"
  | .colon => "Colon"
  | .ifKeyword => "If"
  | .elseKeyword => "Else"
  | .take => "Take"
  | .fail => "Fail"
  | .newline => "Newline"
  | .indent => "Indent"
  | .dedent => "Dedent"
  | _ => ""

namespace Parser

variable {α : Type}

def raise (error : MarretaError) : Parser α :=
  throw (.error error)

def current : Parser Token :=
  return (← get).current

def currentKind : Parser TokenKind :=
  return (← current).kind

def peekKind : Parser (Option TokenKind) :=
  return (← get).peekKind

def isAtEnd : Parser Bool :=
  return (← get).isAtEnd

def advance : Parser Unit :=
  modify ParserState.advance

def skipNewlines : Parser Unit :=
  modify ParserState.skipNewlines

/-- Whether the current token has a given kind.  It is only asked about kinds
without a value, for which comparing discriminants is comparing kinds. -/
def check (kind : TokenKind) : Parser Bool :=
  return (← currentKind) = kind

def unexpected (expected : String) : Parser α := do
  let token ← current
  raise (.unexpectedToken expected token.lexeme token.line token.column)

def expect (kind : TokenKind) : Parser Unit := do
  if ← isAtEnd then raise (.unexpectedEndOfInput kind.debugName)
  else if ← check kind then advance
  else unexpected kind.debugName

/-- The spelling of the current token when it is a reserved word. -/
def reservedWordAsName : Parser (Option String) := do
  let token ← current
  if keywordLookup token.lexeme = some token.kind then return some token.lexeme
  else return none

def isReservedWordToken : Parser Bool :=
  return (← reservedWordAsName).isSome

/-- A binder position: reserved words are rejected. -/
def expectIdentifier : Parser (String × Nat × Nat) := do
  let token ← current
  match token.kind with
  | .eof => raise (.unexpectedEndOfInput "identifier")
  | .identifier name => do
      advance
      return (name, token.line, token.column)
  | _ =>
      match ← reservedWordAsName with
      | some word => raise (.reservedWord word token.line token.column)
      | none => unexpected "identifier"

/-- A name position: any word is a name. -/
def expectName : Parser (String × Nat × Nat) := do
  let token ← current
  match token.kind with
  | .identifier name => do
      advance
      return (name, token.line, token.column)
  | _ =>
      match ← reservedWordAsName with
      | some name => do
          advance
          return (name, token.line, token.column)
      | none => unexpected "identifier"

def checkIdentifierLexeme (expected : String) : Parser Bool :=
  return (← currentKind) = .identifier expected

def checkNextIdentifierLexeme (expected : String) : Parser Bool :=
  return (← peekKind) = some (.identifier expected)

def expectIdentifierLexeme (expected : String) : Parser Unit := do
  if ← checkIdentifierLexeme expected then advance
  else unexpected expected

def expectInteger : Parser Int64 := do
  match ← currentKind with
  | .integer value => do
      advance
      return value
  | _ => unexpected "integer"

def expectString : Parser String := do
  match ← currentKind with
  | .stringLiteral value => do
      advance
      return value
  | _ => unexpected "string"

/-! ## Loops

Every loop of the parser consumes a token per turn, so the number of tokens left
bounds its turns. -/

def budget : Parser Nat :=
  return (← get).rest.length + 1

/-- `while continues { items.push(item) }` -/
def collectWhile (continues : Parser Bool) (item : Parser α) :
    Nat → Parser (List α)
  | 0 => throw .exhausted
  | fuel + 1 => do
      if ← continues then do
        let head ← item
        let tail ← collectWhile continues item fuel
        return head :: tail
      else return []

def many (continues : Parser Bool) (item : Parser α) : Parser (List α) := do
  collectWhile continues item (← budget)

/-- Not at `kind` and not at the end of the stream. -/
def before (kind : TokenKind) : Parser Bool :=
  return !(← check kind) && !(← isAtEnd)

/-- The items of an indented block up to its `Dedent`, one or more line breaks
apart. -/
def blockItems (item : Parser α) : Parser (List α) := do
  skipNewlines
  let items ← many (before .dedent) do
    let value ← item
    skipNewlines
    return value
  expect .dedent
  return items

/-- A block that opens on the next line. -/
def indentedBlock (item : Parser α) : Parser (List α) := do
  expect .newline
  expect .indent
  blockItems item

/-- Run `item` after the current token if that token has the given kind. -/
def optionalAfter (kind : TokenKind) (item : Parser α) : Parser (Option α) := do
  if ← check kind then do
    advance
    return some (← item)
  else return none

end Parser
end Marreta
