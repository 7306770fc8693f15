import Marreta.Syntax.ParserState

namespace Marreta

/-! The parser: a Pratt parser for expressions and recursive descent for
statements and blocks.

The recursion is open.  Every production takes the productions it may call as
`self`, and `productions` ties the knot up to a nesting depth; `parse` picks a
depth that the length of the token stream bounds. -/

structure Productions where
  expression : Nat → Parser Expression
  statement : Parser Statement
  ifExpression : Parser Expression
  schemaType : Parser SchemaType

namespace Parser

/-! ## Operator precedence, lowest to highest -/

def precNone : Nat := 0
def precOr : Nat := 1
def precAnd : Nat := 2
def precEquality : Nat := 4
def precComparison : Nat := 5
def precAddition : Nat := 6
def precMultiplication : Nat := 7
def precUnary : Nat := 8
def precCall : Nat := 9

def infixPrecedence : TokenKind → Nat
  | .orKeyword => precOr
  | .andKeyword => precAnd
  | .equal | .notEqual => precEquality
  | .greater | .less | .greaterEqual | .lessEqual => precComparison
  | .identifier name => if name = "in" then precComparison else precNone
  | .plus | .minus => precAddition
  | .star | .slash | .percent => precMultiplication
  | .dot | .leftBracket => precCall
  | .pipeline | .broadcast => precOr
  | _ => precNone

def tokenToBinop : TokenKind → Option BinaryOperator
  | .plus => some .add
  | .minus => some .subtract
  | .star => some .multiply
  | .slash => some .divide
  | .percent => some .modulo
  | .equal => some .equal
  | .notEqual => some .notEqual
  | .greater => some .greater
  | .less => some .less
  | .greaterEqual => some .greaterEqual
  | .lessEqual => some .lessEqual
  | .identifier name => if name = "in" then some .isIn else none
  | .andKeyword => some .and
  | .orKeyword => some .or
  | _ => none

/-- Reserved words that read as plain identifiers in expression position. -/
def keywordIdentifier : TokenKind → Option String
  | .db => some "db"
  | .doc => some "doc"
  | .feature => some "feature"
  | .env => some "env"
  | .cache => some "cache"
  | .fs => some "fs"
  | .json => some "json"
  | .base64 => some "base64"
  | .uuid => some "uuid"
  | .log => some "log"
  | .time => some "time"
  | .math => some "math"
  | .httpClient => some "http_client"
  | .typeString => some "string"
  | .typeInteger => some "integer"
  | .typeFloat => some "float"
  | .typeBoolean => some "boolean"
  | .typeInstant => some "instant"
  | .typeDate => some "date"
  | .typeDuration => some "duration"
  | .typeInterval => some "interval"
  | _ => none

def isHttpClientMethodCall : Expression → Bool
  | .methodCall (.identifier name) _ _ => name = "http_client"
  | _ => false

variable (self : Productions)

/-! ## Collection literals and arguments -/

def parseListLiteral : Parser Expression := do
  advance
  let elements ← many (before .rightBracket) do
    let element ← self.expression precNone
    if ← check .rightBracket then return element
    else do
      expect .comma
      return element
  expect .rightBracket
  return .list elements

def parsePair : Parser (String × Expression) := do
  let (key, _, _) ← expectName
  expect .colon
  let value ← self.expression precNone
  return (key, value)

def parseMapLiteral : Parser Expression := do
  advance
  let pairs ← many (before .rightBrace) do
    let pair ← parsePair self
    if ← check .rightBrace then return pair
    else do
      expect .comma
      return pair
  expect .rightBrace
  return .mapLiteral pairs

/-- Continue a brace block, looking past line breaks first. -/
def beforeRightBrace : Parser Bool := do
  if ← before .rightBrace then do
    skipNewlines
    return !(← check .rightBrace)
  else return false

def skipComma : Parser Unit := do
  if ← check .comma then advance else return ()

def parseSchemaConstructor (schemaName : String) : Parser Expression := do
  expect .leftBrace
  let fields ← many beforeRightBrace do
    let field ← parsePair self
    skipComma
    skipNewlines
    return field
  expect .rightBrace
  return .schemaConstructor schemaName fields

/-- The name of a named argument, if the current tokens are `name :`. -/
def namedArgName : Parser (Option String) := do
  if (← peekKind) = some .colon then
    match ← currentKind with
    | .identifier name => return some name
    | _ => reservedWordAsName
  else return none

/-- A trailing comma is accepted after a positional argument only. -/
def argumentLoop : Nat → Parser (List Argument)
  | 0 => throw .exhausted
  | fuel + 1 => do
      match ← namedArgName with
      | some name => do
          advance
          advance
          let value ← self.expression precNone
          if ← check .rightParen then return [.named name value]
          else do
            expect .comma
            let rest ← argumentLoop fuel
            return .named name value :: rest
      | none => do
          let value ← self.expression precNone
          if ← check .rightParen then return [.positional value]
          else do
            expect .comma
            if ← check .rightParen then return [.positional value]
            else do
              let rest ← argumentLoop fuel
              return .positional value :: rest

def parseArgumentList : Parser (List Argument) := do
  if ← check .rightParen then return []
  else argumentLoop self (← budget)

/-- An argument list after its opening parenthesis, and the closing one. -/
def parseCallArguments : Parser (List Argument) := do
  advance
  let arguments ← parseArgumentList self
  expect .rightParen
  return arguments

/-! ## Blocks -/

/-- The last expression statement of a block is its value. -/
def blockBody (statements : List Statement) : TaskBody :=
  match statements.getLast? with
  | some (.expressionStatement expression _ _) =>
      .block statements.dropLast expression
  | _ => .block statements .null

def parseExpressionBlockBody : Parser TaskBody := do
  let statements ← indentedBlock self.statement
  return blockBody statements

def parseTaskLikeBody : Parser TaskBody := do
  if ← check .fatArrow then do
    advance
    let value ← self.expression precNone
    return .inline value
  else parseExpressionBlockBody self

def parseIfExpression : Parser Expression := do
  advance
  let condition ← self.expression precNone
  let thenBranch ← parseExpressionBlockBody self
  if ← check .elseKeyword then do
    advance
    if ← check .ifKeyword then do
      let nested ← self.ifExpression
      return .ifElse condition thenBranch (some (.inline nested))
    else do
      let elseBranch ← parseExpressionBlockBody self
      return .ifElse condition thenBranch (some elseBranch)
  else return .ifElse condition thenBranch none

def parseMatchPattern : Parser MatchPattern := do
  if ← check .fallback then do
    advance
    return .fallback
  else do
    let value ← self.expression precNone
    return .literal value

def parseMatchArm : Parser MatchArm := do
  let pattern ← parseMatchPattern self
  expect .arrow
  let value ← self.expression precNone
  return .mk pattern value

def parseMatchExpression : Parser Expression := do
  advance
  let subject ← self.expression precNone
  let arms ← indentedBlock (parseMatchArm self)
  return .matchOn subject arms

/-! ## Pipelines -/

def parseMapStatement : Parser MapStatement := do
  match ← currentKind with
  | .keep => do
      advance
      let value ← self.expression precNone
      let condition ← optionalAfter .ifKeyword (self.expression precNone)
      return .keep value condition
  | .skip => do
      advance
      expect .ifKeyword
      let condition ← self.expression precNone
      return .skip condition
  | _ => do
      let statement ← self.statement
      return .statement statement

def parseMapStage : Parser PipelineStage := do
  advance
  let (element, _, _) ← expectIdentifier
  let body ← indentedBlock (parseMapStatement self)
  return .map element body

def parseReduceStage : Parser PipelineStage := do
  advance
  expect .leftParen
  let initial ← self.expression precNone
  expect .rightParen
  let (accumulator, _, _) ← expectIdentifier
  expect .comma
  let (item, _, _) ← expectIdentifier
  let body ← parseTaskLikeBody self
  return .reduce initial accumulator item body

def parseRescueStage : Parser PipelineStage := do
  advance
  let saved ← get
  skipNewlines
  if ← check .indent then do
    advance
    let body ← blockItems self.statement
    return .rescue (.block body)
  else do
    -- Not a block: look for a handler on the same logical line.
    set saved
    match ← currentKind with
    | .newline | .dedent | .eof => return .rescue (.inline .null)
    | _ => do
        let handler ← self.expression precNone
        return .rescue (.inline handler)

/-- The stages of a pipeline whose next token may be `>>`.  A rescue stage is
terminal, and it is the only one after which line breaks are left alone. -/
def pipelineLoop : Nat → Parser (List PipelineStage)
  | 0 => throw .exhausted
  | fuel + 1 => do
      if ← check .pipeline then do
        advance
        skipNewlines
        match ← currentKind with
        | .map => do
            let stage ← parseMapStage self
            skipNewlines
            let stages ← pipelineLoop fuel
            return stage :: stages
        | .reduce => do
            let stage ← parseReduceStage self
            skipNewlines
            let stages ← pipelineLoop fuel
            return stage :: stages
        | .rescue => do
            let stage ← parseRescueStage self
            return [stage]
        | _ => do
            let value ← self.expression (precCall - 1)
            skipNewlines
            let stages ← pipelineLoop fuel
            return .expression value :: stages
      else return []

def parsePipelineStages (input : Expression) : Parser Expression := do
  let stages ← pipelineLoop self (← budget)
  return .pipeline input stages

def parseBroadcastTarget : Parser Expression := do
  advance
  let target ← self.expression precNone
  skipNewlines
  return target

def parseBroadcast (input : Expression) : Parser Expression := do
  advance
  skipNewlines
  if ← check .indent then do
    advance
    skipNewlines
    let targets ← many (check .arrow) (parseBroadcastTarget self)
    expect .dedent
    return .broadcast input targets
  else do
    expect .arrow
    let target ← self.expression precNone
    return .broadcast input [target]

/-- Suffixes and operators, given the operand to their left. -/
def parseInfix (left : Expression) (prec : Nat) : Parser Expression := do
  let kind ← currentKind
  match tokenToBinop kind with
  | some operator => do
      advance
      let right ← self.expression prec
      return .binaryOp left operator right
  | none =>
      match kind with
      | .leftBracket => do
          advance
          let key ← self.expression precNone
          expect .rightBracket
          return .subscript left key
      | .dot => do
          advance
          let (name, _, _) ← expectName
          if ← check .leftParen then do
            let arguments ← parseCallArguments self
            return .methodCall left name arguments
          else return .propertyAccess left name
      | .pipeline => parsePipelineStages self left
      | .broadcast => parseBroadcast self left
      | _ => return left

/-- Wrap a value in a pipeline or broadcast that starts on the next line, and
leave the position alone when there is none. -/
def maybeParsePipeline (value : Expression) : Parser Expression := do
  let saved ← get
  skipNewlines
  if ← check .indent then do
    advance
    match ← currentKind with
    | .pipeline => parsePipelineStages self value
    | .broadcast => parseInfix self value precOr
    | _ => do
        set saved
        return value
  else
    match ← currentKind with
    | .pipeline => parsePipelineStages self value
    | .broadcast => parseInfix self value precOr
    | _ => do
        set saved
        return value

/-! ## Expressions -/

/-- A schema name that is not a binder. -/
def expectSchemaName : Parser String := do
  match ← currentKind with
  | .identifier name => do
      advance
      return name
  | _ => unexpected "schema name"

def parseQueueProducerArgs :
    Parser (Expression × Option String × Option Expression) := do
  let name ← self.expression precNone
  let schema ← optionalAfter .as expectSchemaName
  let payload ← optionalAfter .comma (self.expression precNone)
  return (name, schema, payload)

def parseQueueExpression : Parser Expression := do
  advance
  if ← check .dot then do
    advance
    match ← currentKind with
    | .identifier method =>
        if method = "push" then do
          advance
          let (name, schema, payload) ← parseQueueProducerArgs self
          return .queuePush name schema payload
        else if method = "publish" then
          unexpected "push (use topic.publish to publish to a topic)"
        else unexpected "push"
    | _ => unexpected "push"
  else return .identifier "queue"

def parseTopicExpression : Parser Expression := do
  advance
  if ← check .dot then do
    advance
    if ← checkIdentifierLexeme "publish" then do
      advance
      let (topic, schema, payload) ← parseQueueProducerArgs self
      return .topicPublish topic schema payload
    else unexpected "publish"
  else return .identifier "topic"

/-- `fail CODE, MSG` in expression position is a call that the interpreter
recognises by its name. -/
def parseFailExpression : Parser Expression := do
  advance
  let code ← expectInteger
  expect .comma
  let message ← self.expression precNone
  return .functionCall "__fail__" [.positional (.integer code), .positional message]

def parseWordExpression (name : String) : Parser Expression := do
  advance
  if ← check .leftBrace then parseSchemaConstructor self name
  else if ← check .leftParen then do
    let arguments ← parseCallArguments self
    return .functionCall name arguments
  else return .identifier name

def parseTaskCall : Parser Expression := do
  advance
  advance
  let (name, _, _) ← expectIdentifier
  expect .rightParen
  return .taskCall name

def parseUnary (operator : UnaryOperator) : Parser Expression := do
  advance
  let operand ← self.expression precUnary
  return .unaryOp operator operand

def parseGrouped : Parser Expression := do
  advance
  let value ← self.expression precNone
  expect .rightParen
  return value

/-- Consume one token and return a leaf. -/
def parseLeaf (value : Expression) : Parser Expression := do
  advance
  return value

def parsePrefix : Parser Expression := do
  match ← currentKind with
  | .integer value => parseLeaf (.integer value)
  | .float value => parseLeaf (.float value)
  | .stringLiteral value => parseLeaf (.stringLiteral value)
  | .trueKeyword => parseLeaf (.boolean true)
  | .falseKeyword => parseLeaf (.boolean false)
  | .null => parseLeaf .null
  | .notKeyword => parseUnary self .not
  | .minus => parseUnary self .negate
  | .leftParen => parseGrouped self
  | .leftBracket => parseListLiteral self
  | .leftBrace => parseMapLiteral self
  | .task => do
      if (← peekKind) = some .leftParen then parseTaskCall
      else unexpected "expression"
  | .identifier name => parseWordExpression self name
  | .matchKeyword => parseMatchExpression self
  | .ifKeyword => parseIfExpression self
  | .queue => parseQueueExpression self
  | .topic => parseTopicExpression self
  | .fail => parseFailExpression self
  | kind =>
      match keywordIdentifier kind with
      | some name => parseLeaf (.identifier name)
      | none => unexpected "expression"

/-- The Pratt loop: extend the operand while an operator binds tighter than
`minPrec`. -/
def infixLoop (minPrec : Nat) : Nat → Expression → Parser Expression
  | 0, _ => throw .exhausted
  | fuel + 1, left => do
      let prec := infixPrecedence (← currentKind)
      if prec ≤ minPrec then return left
      else do
        let left ← parseInfix self left prec
        infixLoop minPrec fuel left

/-- `http_client.get(...) as Schema` -/
def parseResponseSchema (left : Expression) : Parser Expression := do
  if (← check .as) && isHttpClientMethodCall left then do
    advance
    let (schemaName, _, _) ← expectIdentifier
    return .httpClientResponseSchema left schemaName
  else return left

/-- `expr rescue handler` -/
def parseRescueModifier (left : Expression) : Parser Expression := do
  if ← check .rescue then do
    advance
    let handler ← self.expression precNone
    return .rescue left handler
  else return left

def parseExpression (minPrec : Nat) : Parser Expression := do
  let left ← parsePrefix self
  let left ← infixLoop self minPrec (← budget) left
  if minPrec = precNone then do
    let left ← parseResponseSchema left
    parseRescueModifier self left
  else return left

/-! ## Schemas -/

def enumValues (line column : Nat) (seen : List String) :
    Nat → Parser (List String)
  | 0 => throw .exhausted
  | fuel + 1 => do
      let value ← expectString
      if value = "" then
        raise (.unexpectedToken "non-empty enum string value" "\"\"" line column)
      else if value ∈ seen then
        raise (.unexpectedToken "unique enum string values" value line column)
      else if ← check .rightBracket then return [value]
      else do
        expect .comma
        let values ← enumValues line column (value :: seen) fuel
        return value :: values

def parseEnumSchemaType : Parser SchemaType := do
  let token ← current
  advance
  expect .leftBracket
  if ← check .rightBracket then
    raise (.unexpectedToken "at least one enum string value" "]" token.line token.column)
  else do
    let values ← enumValues token.line token.column [] (← budget)
    expect .rightBracket
    return .enumType values

def parseListSchemaType : Parser SchemaType := do
  advance
  match ← optionalAfter .of self.schemaType with
  | some element => return .typedList element
  | none => return .listType

/-- Consume one token and return a primitive type. -/
def schemaLeaf (fieldType : SchemaType) : Parser SchemaType := do
  advance
  return fieldType

def parseSchemaType : Parser SchemaType := do
  match ← currentKind with
  | .typeString => schemaLeaf .stringType
  | .typeInteger => schemaLeaf .integerType
  | .typeFloat => schemaLeaf .floatType
  | .typeBoolean => schemaLeaf .booleanType
  | .typeInstant => schemaLeaf .instantType
  | .typeDate => schemaLeaf .dateType
  | .time => schemaLeaf .timeType
  | .typeDuration => schemaLeaf .durationType
  | .typeInterval => schemaLeaf .intervalType
  | .map => schemaLeaf .mapType
  | .identifier name =>
      if name = "decimal" then schemaLeaf .decimalType
      else if name = "enum" then parseEnumSchemaType
      else if name = "list" then parseListSchemaType self
      else if name = "map" then schemaLeaf .mapType
      else schemaLeaf (.reference name)
  | _ =>
      unexpected "schema type (string, integer, float, decimal, boolean, instant, date, time, duration, interval, enum, list, map, or schema name)"

/-- A line of a schema declaration. -/
inductive SchemaEntry where
  | directive (table : String)
  | field (field : SchemaField)

/-- `email?` declares an optional field; every trailing `?` is dropped. -/
def optionalFieldName (rawName : String) : String × Bool :=
  let letters := rawName.toList
  if letters.getLast? = some '?' then
    (String.ofList (letters.reverse.dropWhile (· = '?')).reverse, true)
  else (rawName, false)

def parseSchemaEntry : Parser SchemaEntry := do
  if (← currentKind) = .db && (← peekKind) = some .colon then do
    advance
    expect .colon
    let (table, _, _) ← expectName
    return .directive table
  else do
    let (rawName, _, _) ← expectName
    expect .colon
    let fieldType ← self.schemaType
    let (name, optional) := optionalFieldName rawName
    return .field { name, fieldType, optional }

def parseSchema : Parser Statement := do
  let token ← current
  advance
  let (name, _, _) ← expectIdentifier
  let entries ← indentedBlock (parseSchemaEntry self)
  let directives := entries.filterMap fun
    | .directive table => some table
    | .field _ => none
  let fields := entries.filterMap fun
    | .directive _ => none
    | .field field => some field
  return .schema name directives.getLast? fields token.line token.column

/-! ## Statements -/

def parseAssignment : Parser Statement := do
  let (name, line, column) ← expectIdentifier
  expect .assign
  match ← currentKind with
  | .matchKeyword => do
      let value ← parseMatchExpression self
      let value ← maybeParsePipeline self value
      return .assignment name value line column
  | .ifKeyword => do
      let value ← parseIfExpression self
      let value ← maybeParsePipeline self value
      return .assignment name value line column
  | _ => do
      let value ← self.expression precNone
      if ← check .ifKeyword then do
        advance
        let condition ← self.expression precNone
        return .conditionalAssignment name value condition line column
      else do
        let value ← maybeParsePipeline self value
        return .assignment name value line column

def parseRequeue : Parser Bool := do
  if ← check .requeue then do
    advance
    return true
  else return false

/-- `fail CODE, MSG` at the end of a guard. -/
def parseGuardFailure : Parser (Int64 × String) := do
  expect .fail
  let code ← expectInteger
  expect .comma
  let message ← expectString
  return (code, message)

/-- `require` guards become `nack` or `raise` statements under the negated
condition, or a statement of their own. -/
def parseRequire : Parser Statement := do
  let token ← current
  advance
  let condition ← self.expression precNone
  expect .elseKeyword
  match ← currentKind with
  | .nack => do
      advance
      let requeue ← parseRequeue
      return .nack requeue (some (.unaryOp .not condition)) token.line token.column
  | .raise => do
      advance
      let message ← self.expression precNone
      return .raise message (some (.unaryOp .not condition)) token.line token.column
  | _ => do
      let (code, message) ← parseGuardFailure
      return .require condition code message token.line token.column

def parseReject : Parser Statement := do
  let token ← current
  advance
  let condition ← self.expression precNone
  expect .elseKeyword
  let (code, message) ← parseGuardFailure
  return .reject condition code message token.line token.column

def parseWhile : Parser Statement := do
  let token ← current
  advance
  let condition ← self.expression precNone
  let body ← indentedBlock self.statement
  return .while condition body token.line token.column

def setInsideTransaction (value : Bool) : Parser Unit :=
  modify fun state => { state with insideTransaction := value }

def parseTransaction : Parser Statement := do
  let token ← current
  if (← get).insideTransaction then
    raise (.unexpectedToken
      "statement (not transaction — nested transactions are not allowed)"
      "transaction" token.line token.column)
  else do
    advance
    expect .newline
    expect .indent
    setInsideTransaction true
    skipNewlines
    let body ← many (before .dedent) do
      let statement ← self.statement
      skipNewlines
      return statement
    setInsideTransaction false
    expect .dedent
    return .transaction body token.line token.column

/-- `queue` or `topic` after `on`. -/
def parseOnTopic : Parser Bool := do
  match ← currentKind with
  | .queue => do
      advance
      return false
  | .topic => do
      advance
      return true
  | _ => unexpected "queue or topic"

def expectBinding : Parser String := do
  let token ← current
  match token.kind with
  | .identifier name => do
      advance
      return name
  | _ =>
      match ← reservedWordAsName with
      | some word => raise (.reservedWord word token.line token.column)
      | none => unexpected "identifier (binding name)"

/-- The literal text of a topic that contains a wildcard. -/
def wildcardTopic : Expression → Option String
  | .stringLiteral topic =>
      if '*' ∈ topic.toList ∨ '#' ∈ topic.toList then some topic else none
  | _ => none

def rejectWildcard (isTopic : Bool) (target : Expression) (token : Token) :
    Parser Unit :=
  match isTopic, wildcardTopic target with
  | true, some topic =>
      raise (.unexpectedToken "exact topic string without '*' or '#' wildcards"
        topic token.line token.column)
  | _, _ => return ()

def parseOn : Parser Statement := do
  let token ← current
  advance
  let isTopic ← parseOnTopic
  let target ← self.expression precNone
  rejectWildcard isTopic target token
  expect .take
  let binding ← expectBinding
  let schema ← optionalAfter .as expectSchemaName
  let body ← indentedBlock self.statement
  if isTopic then return .onTopic target binding schema body token.line token.column
  else return .onQueue target binding schema body token.line token.column

def parseNack : Parser Statement := do
  let token ← current
  advance
  let requeue ← parseRequeue
  return .nack requeue none token.line token.column

def parseRaise : Parser Statement := do
  let token ← current
  advance
  let message ← self.expression precNone
  let condition ← optionalAfter .ifKeyword (self.expression precNone)
  return .raise message condition token.line token.column

def parseHttpVerb : Parser HttpVerb := do
  match ← currentKind with
  | .get => verb .get
  | .post => verb .post
  | .put => verb .put
  | .patch => verb .patch
  | .delete => verb .delete
  | _ => unexpected "HTTP verb (GET, POST, PUT, PATCH, DELETE)"
where
  verb (value : HttpVerb) : Parser HttpVerb := do
    advance
    return value

def expectIdentifierName : Parser String := do
  let (name, _, _) ← expectIdentifier
  return name

def takeKind (name : String) : TakeKind :=
  match name with
  | "query" => .query
  | "headers" => .headers
  | "form" => .form
  | "raw" => .raw
  | _ => .payload

def parseTakeBinding : Parser TakeBinding := do
  let name ← expectIdentifierName
  let schema ← optionalAfter .as expectIdentifierName
  return { kind := takeKind name, name, schema }

def parseTakeBindings : Parser (List TakeBinding) := do
  let first ← parseTakeBinding
  let others ← many (check .comma) do
    advance
    parseTakeBinding
  return first :: others

def parseTakeLine (inlineTake : Bool) : Parser (List TakeBinding) := do
  if inlineTake then
    unexpected "route body statement (a route uses either an inline `take` on the route line or indented `take` lines, not both)"
  else do
    advance
    let bindings ← parseTakeBindings
    expect .newline
    skipNewlines
    return bindings

def parseRouteAuth : Parser RouteAuth := do
  let token ← current
  advance
  expectIdentifierLexeme "auth"
  let provider ← expectIdentifierName
  return { provider, line := token.line, column := token.column }

def atRouteAuth : Parser Bool :=
  return (← check .require) && (← checkNextIdentifierLexeme "auth")

def parseOptionalRouteAuth : Parser (Option RouteAuth) := do
  if ← atRouteAuth then do
    let auth ← parseRouteAuth
    skipNewlines
    return some auth
  else return none

def parseRouteAllow : Parser Expression := do
  advance
  let condition ← self.expression precNone
  skipNewlines
  return condition

def parseRouteStatement : Parser Statement := do
  if ← checkIdentifierLexeme "allow" then
    unexpected "route body statement (allow clauses must appear before the route body)"
  else if ← atRouteAuth then
    unexpected "route body statement (require auth must appear before allow clauses and body)"
  else if ← check .take then
    unexpected "route body statement (`take` bindings must be the leading statements of the route, before any logic)"
  else do
    let statement ← self.statement
    skipNewlines
    return statement

def parseInlineTake : Parser (List TakeBinding) := do
  if ← check .take then do
    advance
    parseTakeBindings
  else return []

def parseRoute : Parser Statement := do
  let token ← current
  advance
  let verb ← parseHttpVerb
  let path ← expectString
  let inlineTake ← parseInlineTake
  expect .newline
  expect .indent
  skipNewlines
  let takeLines ← many (check .take) (parseTakeLine !inlineTake.isEmpty)
  let auth ← parseOptionalRouteAuth
  let allow ← many (checkIdentifierLexeme "allow") (parseRouteAllow self)
  let body ← many (before .dedent) (parseRouteStatement self)
  expect .dedent
  return .route verb path auth allow (inlineTake ++ takeLines.flatten) body
    token.line token.column

def parseAuthField : Parser AuthProviderField := do
  let (name, line, column) ← expectName
  expect .colon
  let value ← self.expression precNone
  skipComma
  skipNewlines
  return .mk name value line column

def parseAuthProvider : Parser Statement := do
  let token ← current
  advance
  let kind ← expectIdentifierName
  let name ← expectIdentifierName
  expect .leftBrace
  skipNewlines
  let fields ← many (before .rightBrace) (parseAuthField self)
  expect .rightBrace
  if kind = "jwt" then
    return .authProvider (.jwt name fields) token.line token.column
  else if kind = "api_key" then
    return .authProvider (.apiKey name fields) token.line token.column
  else raise (.unexpectedToken "jwt or api_key" kind token.line token.column)

/-- `html` and `text` select a content type only as the first word. -/
def parseContentType : Parser ReplyContentType := do
  if ← checkIdentifierLexeme "html" then do
    advance
    return .html
  else if ← checkIdentifierLexeme "text" then do
    advance
    return .text
  else return .json

def parseReply : Parser Statement := do
  let token ← current
  advance
  let contentType ← parseContentType
  let statusCode ← self.expression precNone
  let responseSchema ← optionalAfter .as expectIdentifierName
  expect .comma
  let body ← self.expression precNone
  let extraHeaders ← optionalAfter .comma (self.expression precNone)
  return .reply statusCode contentType body responseSchema extraHeaders
    token.line token.column

def parseFail : Parser Statement := do
  let token ← current
  advance
  let statusCode ← expectInteger
  expect .comma
  let message ← self.expression precNone
  return .fail statusCode message token.line token.column

def parseParam : Parser ParamDef := do
  let name ← expectIdentifierName
  let schema ← optionalAfter .as expectIdentifierName
  return { name, schema }

def parseParamList : Parser (List ParamDef) := do
  if ← check .rightParen then return []
  else do
    let first ← parseParam
    let others ← many (check .comma) do
      advance
      parseParam
    return first :: others

def parseTaskDef : Parser Statement := do
  let token ← current
  advance
  let name ← expectIdentifierName
  expect .leftParen
  let params ← parseParamList
  expect .rightParen
  let body ← parseTaskLikeBody self
  return .taskDef name params body token.line token.column

/-! ## Scenarios -/

def parseScenarioGiven : Parser ScenarioStep := do
  let token ← current
  advance
  let target ← self.expression precNone
  expectIdentifierLexeme "returns"
  let returns ← self.expression precNone
  return .given target returns token.line token.column

def parseScenarioBody : Parser (Option Expression) := do
  if ← checkIdentifierLexeme "with" then do
    advance
    -- Stop before the scenario-level `and headers` clause.
    let body ← self.expression (precAnd + 1)
    return some body
  else return none

def parseScenarioHeaders : Parser Expression := do
  expectIdentifierLexeme "headers"
  self.expression precNone

def parseScenarioWhen : Parser ScenarioStep := do
  let token ← current
  advance
  let verb ← parseHttpVerb
  let path ← expectString
  let body ← parseScenarioBody self
  let headers ← optionalAfter .andKeyword (parseScenarioHeaders self)
  return .when verb path body headers token.line token.column

def parseScenarioThen : Parser ScenarioStep := do
  let token ← current
  advance
  if ← checkIdentifierLexeme "status" then do
    advance
    let status ← self.expression precNone
    return .thenStatus status token.line token.column
  else if ← checkIdentifierLexeme "response" then do
    advance
    expectIdentifierLexeme "is"
    let expected ← self.expression precNone
    return .thenResponse expected token.line token.column
  else unexpected "status or response after then"

def parseScenarioStep : Parser ScenarioStep := do
  if ← checkIdentifierLexeme "given" then parseScenarioGiven self
  else if ← checkIdentifierLexeme "when" then parseScenarioWhen self
  else if ← checkIdentifierLexeme "then" then parseScenarioThen self
  else unexpected "given, when, or then inside scenario"

def isWhen : ScenarioStep → Bool
  | .when .. => true
  | _ => false

def isThen : ScenarioStep → Bool
  | .thenStatus .. | .thenResponse .. => true
  | _ => false

def parseScenario : Parser Statement := do
  let token ← current
  advance
  let name ← expectString
  let steps ← indentedBlock (parseScenarioStep self)
  let whenCount := steps.countP isWhen
  if whenCount ≠ 1 then
    raise (.unexpectedToken "exactly one when request inside scenario"
      (toString whenCount ++ " when requests") token.line token.column)
  else if steps.countP isThen = 0 then
    raise (.unexpectedToken "at least one then assertion inside scenario"
      "no then assertions" token.line token.column)
  else return .scenario name steps token.line token.column

/-! ## Dispatch -/

def parseExport : Parser Statement := do
  let token ← current
  advance
  let next ← current
  match next.kind with
  | .task => do
      let inner ← parseTaskDef self
      return .export inner
  | .schema => do
      let inner ← parseSchema self
      return .export inner
  | _ => do
      let isWord := next.kind matches .identifier _
      if (isWord || (← isReservedWordToken)) && (← peekKind) = some .assign then do
        let inner ← parseAssignment self
        return .export inner
      else if next.kind = .route then
        raise (.unexpectedToken "task, schema, or assignment" "route"
          token.line token.column)
      else
        raise (.unexpectedToken "task, schema, or assignment after export"
          next.lexeme token.line token.column)

def parseExpressionStatement : Parser Statement := do
  let token ← current
  let expression ← self.expression precNone
  return .expressionStatement expression token.line token.column

/-- `auth jwt` and `auth api_key` open a provider declaration. -/
def atAuthProvider : Parser Bool := do
  if ← checkIdentifierLexeme "auth" then
    return (← checkNextIdentifierLexeme "jwt") ||
      (← checkNextIdentifierLexeme "api_key")
  else return false

def atScenario : Parser Bool := do
  if ← checkIdentifierLexeme "scenario" then
    return (← peekKind) matches some (.stringLiteral _)
  else return false

/-- A word followed by `=`, reserved or not, starts an assignment. -/
def atAssignment : Parser Bool := do
  let kind ← currentKind
  let isWord := kind matches .identifier _
  return (isWord || (← isReservedWordToken)) && (← peekKind) = some .assign

def parseOther : Parser Statement := do
  if ← atAuthProvider then parseAuthProvider self
  else if ← atScenario then parseScenario self
  else if ← atAssignment then parseAssignment self
  else do
    let token ← current
    if token.kind = .indent then raise (.unexpectedIndentation token.line)
    else parseExpressionStatement self

def parseStatement : Parser Statement := do
  match ← currentKind with
  | .require => parseRequire self
  | .reject => parseReject self
  | .while => parseWhile self
  | .task => parseTaskDef self
  | .route => parseRoute self
  | .schema => parseSchema self
  | .reply => parseReply self
  | .fail => parseFail self
  | .export => parseExport self
  | .transaction => parseTransaction self
  | .raise => parseRaise self
  | .on => parseOn self
  | .nack => parseNack
  | _ => parseOther self

end Parser

/-! ## Tying the knot -/

namespace Parser

def productions : Nat → Productions
  | 0 =>
      { expression := fun _ => throw .exhausted
        statement := throw .exhausted
        ifExpression := throw .exhausted
        schemaType := throw .exhausted }
  | depth + 1 =>
      { expression := parseExpression (productions depth)
        statement := parseStatement (productions depth)
        ifExpression := parseIfExpression (productions depth)
        schemaType := parseSchemaType (productions depth) }

def notAtEnd : Parser Bool :=
  return !(← isAtEnd)

def parseProgram (self : Productions) : Parser Program := do
  skipNewlines
  many notAtEnd do
    let statement ← self.statement
    skipNewlines
    return statement

end Parser

/-- Nested productions consume a token every other level. -/
def parseDepth (tokens : List Token) : Nat :=
  2 * tokens.length + 2

def parse (tokens : List Token) : Except Fault Program :=
  (·.1) <$> Parser.parseProgram (Parser.productions (parseDepth tokens)) (.new tokens)

/-- Lex and parse a source text. -/
def parseSource (source : List Char) : Except Fault Program :=
  tokenize source >>= parse

end Marreta
