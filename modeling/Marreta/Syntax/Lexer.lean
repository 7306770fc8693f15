import Marreta.Error
import Marreta.Syntax.Token

namespace Marreta

/-! The tokenizer: significant indentation, newline suppression after
continuation operators and inside delimiters, and `#` comments.

The source text is the list of characters still to be read, and the output is
built newest first.  The lexer of the program throws comments away; the model
keeps each skipped run as a ghost item of the output, which every function that
inspects the emitted tokens looks through.  The item says whether the comment
has its line to itself. -/

inductive LexItem where
  | token (token : Token)
  | comment (text : List Char) (ownLine : Bool)
deriving DecidableEq

namespace LexItem

def token? : LexItem → Option Token
  | .token value => some value
  | .comment _ _ => none

end LexItem

/-- Line endings are unified before anything else is read. -/
def normalizeLineEndings : List Char → List Char
  | [] => []
  | '\r' :: '\n' :: rest => '\n' :: normalizeLineEndings rest
  | '\r' :: rest => '\n' :: normalizeLineEndings rest
  | ch :: rest => ch :: normalizeLineEndings rest

structure Lexer where
  rest : List Char
  items : List LexItem
  line : Nat
  column : Nat
  indentStack : List Nat
  atLineStart : Bool
  nestingDepth : Nat
  /-- Ghost: no token of the current line has been read. -/
  lineBlank : Bool
deriving DecidableEq

namespace Lexer

def new (source : List Char) : Lexer :=
  { rest := normalizeLineEndings source
    items := []
    line := 1
    column := 1
    indentStack := [0]
    atLineStart := true
    nestingDepth := 0
    lineBlank := true }

def tokens (lexer : Lexer) : List Token :=
  lexer.items.filterMap LexItem.token?

/-- Move past the next `count` characters of the current line. -/
def advanceBy (lexer : Lexer) (count : Nat) : Lexer :=
  { lexer with rest := lexer.rest.drop count, column := lexer.column + count }

def push (lexer : Lexer) (token : Token) : Lexer :=
  { lexer with items := .token token :: lexer.items, lineBlank := false }

/-! ## Token emission -/

def emitSingle (lexer : Lexer) (kind : TokenKind) (lexeme : String) : Lexer :=
  (lexer.push { kind, line := lexer.line, column := lexer.column, lexeme }).advanceBy 1

/-- Drop the newline that precedes a continuation operator, looking past the
layout tokens of the operator's own line. -/
def removeNewline : List LexItem → List LexItem
  | [] => []
  | .comment text ownLine :: items => .comment text ownLine :: removeNewline items
  | .token token :: items =>
      match token.kind with
      | .indent | .dedent => .token token :: removeNewline items
      | .newline => items
      | _ => .token token :: items

def emitDouble (lexer : Lexer) (kind : TokenKind) (lexeme : String) : Lexer :=
  let lexer :=
    if kind = .pipeline ∨ kind = .broadcast then
      { lexer with items := removeNewline lexer.items }
    else lexer
  (lexer.push { kind, line := lexer.line, column := lexer.column, lexeme }).advanceBy 2

/-- Unlike `emitDouble`, three-character operators keep a preceding newline. -/
def emitTriple (lexer : Lexer) (kind : TokenKind) (lexeme : String) : Lexer :=
  (lexer.push { kind, line := lexer.line, column := lexer.column, lexeme }).advanceBy 3

/-! ## Indentation and newlines -/

/-- Close blocks deeper than `spaces`, one `Dedent` each. -/
def popIndents (line spaces : Nat) :
    List Nat → List LexItem → List Nat × List LexItem
  | top :: next :: stack, items =>
      if spaces < top then
        popIndents line spaces (next :: stack)
          (.token { kind := .dedent, line, column := 1, lexeme := "" } :: items)
      else (top :: next :: stack, items)
  | stack, items => (stack, items)

/-- Compare the width of a line's indentation with the open blocks. -/
def indentTo (lexer : Lexer) (spaces : Nat) : Except Fault Lexer :=
  let currentIndent := lexer.indentStack.headD 0
  if currentIndent < spaces then
    .ok { lexer with
      indentStack := spaces :: lexer.indentStack
      items := .token { kind := .indent, line := lexer.line, column := 1, lexeme := "" } ::
        lexer.items }
  else if spaces < currentIndent then
    let (indentStack, items) := popIndents lexer.line spaces lexer.indentStack lexer.items
    let current := indentStack.headD 0
    if current = spaces then .ok { lexer with indentStack, items }
    else .error (.error (.invalidIndentation lexer.line current spaces))
  else .ok lexer

/-- Blank lines and comment-only lines are skipped; a tab ends the indentation
and is neither. -/
def handleIndentation (lexer : Lexer) : Except Fault Lexer :=
  let spaces := (lexer.rest.takeWhile (· = ' ')).length
  let lexer := lexer.advanceBy spaces
  if lexer.rest.head?.all (fun ch => ch = '\n' || ch = '#') then .ok lexer
  else lexer.indentTo spaces

def isContinuation : TokenKind → Bool
  | .pipeline | .broadcast | .arrow | .fatArrow | .comma => true
  | _ => false

/-- Whether the last token that is not layout asks for the next line. -/
def shouldSuppressNewline : List Token → Bool
  | [] => true
  | token :: tokens =>
      match token.kind with
      | .indent | .dedent | .newline => shouldSuppressNewline tokens
      | kind => isContinuation kind

def lastIsNewline (lexer : Lexer) : Bool :=
  lexer.tokens.head?.any (·.kind = .newline)

def handleNewline (lexer : Lexer) : Lexer :=
  if 0 < lexer.nestingDepth then
    { lexer with
      rest := lexer.rest.drop 1, line := lexer.line + 1, column := 1
      atLineStart := false, lineBlank := true }
  else
    let lexer :=
      if shouldSuppressNewline lexer.tokens || lexer.lastIsNewline
          || lexer.tokens.isEmpty then lexer
      else lexer.push
        { kind := .newline, line := lexer.line, column := lexer.column, lexeme := "\\n" }
    { lexer with
      rest := lexer.rest.drop 1, line := lexer.line + 1, column := 1
      atLineStart := true, lineBlank := true }

/-! ## Comments, strings, numbers and words -/

def skipComment (lexer : Lexer) : Lexer :=
  let text := lexer.rest.takeWhile (· ≠ '\n')
  { lexer.advanceBy text.length with
    items := .comment text lexer.lineBlank :: lexer.items }

def unescape : Char → List Char
  | 'n' => ['\n']
  | 't' => ['\t']
  | 'r' => ['\r']
  | '\\' => ['\\']
  | '"' => ['"']
  | '#' => ['#']
  | other => ['\\', other]

/-- The value of a string literal and the text after its closing quote, given
the text after the opening one.  A backslash protects any character, a line
break included. -/
def stringBody : List Char → Option (List Char × List Char)
  | [] => none
  | '"' :: rest => some ([], rest)
  | '\n' :: _ => none
  | '\\' :: [] => none
  | '\\' :: escaped :: rest =>
      (stringBody rest).map fun (value, rest) => (unescape escaped ++ value, rest)
  | ch :: rest =>
      (stringBody rest).map fun (value, rest) => (ch :: value, rest)

def readString (lexer : Lexer) : Except Fault Lexer :=
  match stringBody (lexer.rest.drop 1) with
  | none => .error (.error (.unterminatedString lexer.line lexer.column))
  | some (value, rest) =>
      let consumed := lexer.rest.length - rest.length
      let text := String.ofList value
      .ok ((lexer.push
        { kind := .stringLiteral text, line := lexer.line, column := lexer.column
          lexeme := "\"" ++ text ++ "\"" }).advanceBy consumed)

/-- The longest `digits` or `digits.digits` text; a dot that no digit follows
belongs to a property access.  The error is the text up to a second dot. -/
def numberSpan : List Char → Bool → Except (List Char) (List Char × Bool)
  | [], hasDot => .ok ([], hasDot)
  | ch :: rest, hasDot =>
      if ch.isDigit then more ch (numberSpan rest hasDot)
      else if ch = '.' ∧ rest.head?.any Char.isDigit then
        if hasDot then .error [ch]
        else more ch (numberSpan rest true)
      else .ok ([], hasDot)
where
  more (ch : Char) : Except (List Char) (List Char × Bool) →
      Except (List Char) (List Char × Bool)
    | .ok (text, hasDot) => .ok (ch :: text, hasDot)
    | .error text => .error (ch :: text)

def digitsValue (digits : List Char) : Nat :=
  digits.foldl (fun value digit => value * 10 + (digit.toNat - '0'.toNat)) 0

def numberKind (text : List Char) (hasDot : Bool) : Option TokenKind :=
  if hasDot then
    let fraction := (text.dropWhile (· ≠ '.')).drop 1
    some (.float (.ofDecimal (digitsValue (text.filter (· ≠ '.'))) fraction.length))
  else if digitsValue text < 2 ^ 63 then
    some (.integer (Int64.ofNat (digitsValue text)))
  else none

def readNumber (lexer : Lexer) : Except Fault Lexer :=
  let invalid (text : List Char) : Except Fault Lexer :=
    .error (.error (.invalidNumber (String.ofList text) lexer.line lexer.column))
  match numberSpan lexer.rest false with
  | .error text => invalid text
  | .ok (text, hasDot) =>
      match numberKind text hasDot with
      | none => invalid text
      | some kind =>
          .ok ((lexer.push
            { kind, line := lexer.line, column := lexer.column
              lexeme := String.ofList text }).advanceBy text.length)

def isWordStart (ch : Char) : Bool :=
  ch.isAlpha || ch = '_'

def isWordChar (ch : Char) : Bool :=
  ch.isAlphanum || ch = '_' || ch = '?'

def wordKind (word : String) : TokenKind :=
  (keywordLookup word).getD (.identifier word)

def readIdentifier (lexer : Lexer) : Lexer :=
  let text := lexer.rest.takeWhile isWordChar
  let word := String.ofList text
  (lexer.push
    { kind := wordKind word, line := lexer.line, column := lexer.column
      lexeme := word }).advanceBy text.length

/-! ## The main loop -/

/-- The operator or delimiter at the head of the text. -/
def operatorAt : List Char → Option (TokenKind × String)
  | [] => none
  | ch :: rest =>
      let peek := rest.head?
      match ch with
      | '+' => some (.plus, "+")
      | '-' => some (if peek = some '>' then (.arrow, "->") else (.minus, "-"))
      | '*' =>
          some (if peek = some '>' ∧ (rest.drop 1).head? = some '>' then (.broadcast, "*>>")
            else (.star, "*"))
      | '/' => some (.slash, "/")
      | '%' => some (.percent, "%")
      | '=' =>
          some (if peek = some '=' then (.equal, "==")
            else if peek = some '>' then (.fatArrow, "=>")
            else (.assign, "="))
      | '!' => if peek = some '=' then some (.notEqual, "!=") else none
      | '>' =>
          some (if peek = some '>' then (.pipeline, ">>")
            else if peek = some '=' then (.greaterEqual, ">=")
            else (.greater, ">"))
      | '<' => some (if peek = some '=' then (.lessEqual, "<=") else (.less, "<"))
      | '(' => some (.leftParen, "(")
      | ')' => some (.rightParen, ")")
      | '[' => some (.leftBracket, "[")
      | ']' => some (.rightBracket, "]")
      | '{' => some (.leftBrace, "\x7b")
      | '}' => some (.rightBrace, "\x7d")
      | ',' => some (.comma, ",")
      | '.' => some (.dot, ".")
      | ':' => some (.colon, ":")
      | _ => none

/-- Delimiters open and close the region in which layout is suppressed; a
closing delimiter without an opening one is ignored. -/
def nestingAfter (depth : Nat) : TokenKind → Nat
  | .leftParen | .leftBracket | .leftBrace => depth + 1
  | .rightParen | .rightBracket | .rightBrace => depth - 1
  | _ => depth

def emitOperator (lexer : Lexer) (kind : TokenKind) (lexeme : String) : Lexer :=
  let lexer := { lexer with nestingDepth := nestingAfter lexer.nestingDepth kind }
  match lexeme.length with
  | 1 => lexer.emitSingle kind lexeme
  | 2 => lexer.emitDouble kind lexeme
  | _ => lexer.emitTriple kind lexeme

/-- Read the item at the head of a nonempty text. -/
def readItem (lexer : Lexer) : Except Fault Lexer :=
  match lexer.rest with
  -- `handleIndentation` can reach the end of the text, and the next read is
  -- then out of bounds.
  | [] => .error (.panic .lexer)
  | ch :: _ =>
      if ch = ' ' ∨ ch = '\t' ∨ ch = '\r' then .ok (lexer.advanceBy 1)
      else if ch = '\n' then .ok lexer.handleNewline
      else if ch = '#' then .ok lexer.skipComment
      else if ch = '"' then lexer.readString
      else if ch.isDigit then lexer.readNumber
      else if isWordStart ch then .ok lexer.readIdentifier
      else
        match operatorAt lexer.rest with
        | some (kind, lexeme) => .ok (lexer.emitOperator kind lexeme)
        | none => .error (.error (.unexpectedCharacter ch lexer.line lexer.column))

/-- One turn of the main loop. -/
def step (lexer : Lexer) : Except Fault Lexer := do
  let lexer ←
    if lexer.atLineStart then
      (fun lexer => { lexer with atLineStart := false }) <$> lexer.handleIndentation
    else .ok lexer
  lexer.readItem

def loop : Nat → Lexer → Except Fault Lexer
  | 0, lexer => if lexer.rest.isEmpty then .ok lexer else .error .exhausted
  | fuel + 1, lexer =>
      if lexer.rest.isEmpty then .ok lexer
      else lexer.step >>= loop fuel

/-- Close the open blocks and end the stream, in reading order. -/
def finish (lexer : Lexer) : List LexItem :=
  let dedent : LexItem := .token
    { kind := .dedent, line := lexer.line, column := lexer.column, lexeme := "" }
  lexer.items.reverse ++ List.replicate (lexer.indentStack.length - 1) dedent ++
    [.token (.eof lexer.line lexer.column)]

end Lexer

/-- Tokens and skipped comments of a source, in reading order. -/
def lexItems (source : List Char) : Except Fault (List LexItem) :=
  Lexer.finish <$> (Lexer.new source).loop (normalizeLineEndings source).length

def tokenize (source : List Char) : Except Fault (List Token) :=
  List.filterMap LexItem.token? <$> lexItems source

example :
    (tokenize "x = 1 # one\n  >> f\n".toList).map (·.map (·.kind)) =
      .ok [.identifier "x", .assign, .integer 1, .indent, .pipeline,
        .identifier "f", .newline, .dedent, .eof] := by decide +kernel

example : tokenize "x\n  ".toList = .error (.panic .lexer) := by decide +kernel

end Marreta
