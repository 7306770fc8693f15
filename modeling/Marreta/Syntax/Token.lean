import Marreta.Foundation.Binary64

namespace Marreta

/-! Tokens of the language.  Positions are carried by every token, because the
parser copies them into the syntax tree. -/

inductive TokenKind where
  | integer (value : Int64)
  | float (value : Binary64)
  | stringLiteral (value : String)
  | identifier (value : String)
  | trueKeyword | falseKeyword | null | plus | minus | star | slash | percent
  | equal | notEqual | greater | less | greaterEqual | lessEqual | andKeyword
  | orKeyword | notKeyword | assign | pipeline | broadcast | arrow | fatArrow
  | leftParen | rightParen | leftBracket | rightBracket | leftBrace
  | rightBrace | comma | dot | colon | task | matchKeyword | fallback | map
  | reduce | keep | skip | require | reject | while | ifKeyword | elseKeyword
  | route | take | reply | fail | listen | get | post | put | patch | delete
  | db | queue | cache | fs | json | base64 | uuid | log | time | math
  | httpClient | doc | feature | env | schema | as | export | of
  | transaction | raise | rescue | on | topic | nack | requeue | typeString
  | typeInteger | typeFloat | typeBoolean | typeInstant | typeDate
  | typeDuration | typeInterval | typeList | typeMap | newline | indent
  | dedent | eof
deriving DecidableEq

structure Token where
  kind : TokenKind
  line : Nat
  column : Nat
  lexeme : String
deriving DecidableEq

namespace Token

def eof (line column : Nat) : Token :=
  { kind := .eof, line, column, lexeme := "" }

end Token

/-- Reserved words.  Any other word is an identifier. -/
def keywordLookup (word : String) : Option TokenKind :=
  match word with
  | "task" => some .task
  | "match" => some .matchKeyword
  | "fallback" => some .fallback
  | "map" => some .map
  | "reduce" => some .reduce
  | "keep" => some .keep
  | "skip" => some .skip
  | "require" => some .require
  | "reject" => some .reject
  | "while" => some .while
  | "if" => some .ifKeyword
  | "else" => some .elseKeyword
  | "and" => some .andKeyword
  | "or" => some .orKeyword
  | "not" => some .notKeyword
  | "true" => some .trueKeyword
  | "false" => some .falseKeyword
  | "null" => some .null
  | "route" => some .route
  | "take" => some .take
  | "reply" => some .reply
  | "fail" => some .fail
  | "listen" => some .listen
  | "db" => some .db
  | "queue" => some .queue
  | "cache" => some .cache
  | "fs" => some .fs
  | "json" => some .json
  | "base64" => some .base64
  | "uuid" => some .uuid
  | "log" => some .log
  | "time" => some .time
  | "math" => some .math
  | "http_client" => some .httpClient
  | "doc" => some .doc
  | "feature" => some .feature
  | "env" => some .env
  | "GET" => some .get
  | "POST" => some .post
  | "PUT" => some .put
  | "PATCH" => some .patch
  | "DELETE" => some .delete
  | "schema" => some .schema
  | "as" => some .as
  | "export" => some .export
  | "of" => some .of
  | "string" => some .typeString
  | "integer" => some .typeInteger
  | "float" => some .typeFloat
  | "boolean" => some .typeBoolean
  | "instant" => some .typeInstant
  | "date" => some .typeDate
  | "duration" => some .typeDuration
  | "interval" => some .typeInterval
  | "transaction" => some .transaction
  | "raise" => some .raise
  | "rescue" => some .rescue
  | "on" => some .on
  | "topic" => some .topic
  | "nack" => some .nack
  | "requeue" => some .requeue
  | _ => none

example : keywordLookup "http_client" = some .httpClient := by decide
example : keywordLookup "list" = none := by decide

end Marreta
