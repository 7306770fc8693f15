import Marreta.Foundation.Utf8
import Marreta.Migrations.Sql

namespace Marreta.Migrations

open Foundation.Utf8 (isAscii)

/-! The tokens of SQL.

What Postgres reads as a string, a dollar quote or a comment, told apart from names and
numbers, since a dollar inside of a name quotes nothing.  This is what the statements of
a text should be; the scanners are compared with it. -/

inductive SqlToken where
  | quoted (text : List Char)
  | dollarQuoted (tag text : List Char)
  | lineComment (text : List Char)
  | blockComment (text : List Char)
  | name (text : List Char)
  | number (text : List Char)
  | symbol (ch : Char)
deriving DecidableEq

namespace SqlToken

def text : SqlToken → List Char
  | .quoted text | .dollarQuoted _ text | .lineComment text | .blockComment text | .name text
  | .number text => text
  | .symbol ch => [ch]

def isComment : SqlToken → Bool
  | .lineComment _ | .blockComment _ => true
  | _ => false

def isLiteral : SqlToken → Bool
  | .quoted _ | .dollarQuoted _ _ => true
  | _ => false

/-! ## Reading -/

def isNameStart (ch : Char) : Bool :=
  ch.isAlpha || ch = '_' || !isAscii ch

/-- The characters of a tag, and of a number with the letters that follow it. -/
def isTagPart (ch : Char) : Bool :=
  isNameStart ch || ch.isDigit

def isNamePart (ch : Char) : Bool :=
  isTagPart ch || ch = '$'

/-- The text to the quote that closes a string, and what follows it.  Two quotes stand
for one; a string that is not closed goes on to the end. -/
def quotedEnd : List Char → List Char × List Char
  | '\'' :: '\'' :: rest => ('\'' :: '\'' :: (quotedEnd rest).1, (quotedEnd rest).2)
  | '\'' :: rest => (['\''], rest)
  | ch :: rest => (ch :: (quotedEnd rest).1, (quotedEnd rest).2)
  | [] => ([], [])

/-- A line ends at a line feed, or at a carriage return. -/
def lineEnd : List Char → List Char × List Char
  | [] => ([], [])
  | ch :: rest =>
      if ch = '\n' ∨ (ch = '\r' ∧ rest ≠ [] ∧ rest.head? ≠ some '\n') then ([], ch :: rest)
      else (ch :: (lineEnd rest).1, (lineEnd rest).2)

/-- The text to the end of a block comment, with the number of comments that are open
around the current one. -/
def blockEnd : Nat → List Char → List Char × List Char
  | 0, '*' :: '/' :: rest => (['*', '/'], rest)
  | depth + 1, '*' :: '/' :: rest =>
      ('*' :: '/' :: (blockEnd depth rest).1, (blockEnd depth rest).2)
  | depth, '/' :: '*' :: rest =>
      ('/' :: '*' :: (blockEnd (depth + 1) rest).1, (blockEnd (depth + 1) rest).2)
  | depth, ch :: rest => (ch :: (blockEnd depth rest).1, (blockEnd depth rest).2)
  | _, [] => ([], [])

/-- The name between the dollars of a tag, after the first of them. -/
def tag? (text : List Char) : Option (List Char) :=
  let name := text.takeWhile isTagPart
  if (text.dropWhile isTagPart).head? = some '$' ∧ name.head?.all isNameStart = true then
    some name
  else none

def delimiter (tag : List Char) : List Char :=
  '$' :: tag ++ ['$']

def dollarEnd (tag text : List Char) : List Char × List Char :=
  match splitOnce (delimiter tag) text with
  | some (body, rest) => (body ++ delimiter tag, rest)
  | none => (text, [])

/-- The token that a text begins with, and the text after it. -/
def read (ch : Char) (rest : List Char) : SqlToken × List Char :=
  if ch = '\'' then
    (.quoted (ch :: (quotedEnd rest).1), (quotedEnd rest).2)
  else if ch = '-' ∧ rest.head? = some '-' then
    (.lineComment ('-' :: '-' :: (lineEnd rest.tail).1), (lineEnd rest.tail).2)
  else if ch = '/' ∧ rest.head? = some '*' then
    (.blockComment ('/' :: '*' :: (blockEnd 0 rest.tail).1), (blockEnd 0 rest.tail).2)
  else if ch = '$' then
    match tag? rest with
    | some tag =>
        let (body, after) := dollarEnd tag (rest.drop (tag.length + 1))
        (.dollarQuoted tag (delimiter tag ++ body), after)
    | none => (.symbol ch, rest)
  else if isNameStart ch = true then
    (.name (ch :: rest.takeWhile isNamePart), rest.dropWhile isNamePart)
  else if ch.isDigit = true then
    (.number (ch :: rest.takeWhile isTagPart), rest.dropWhile isTagPart)
  else (.symbol ch, rest)

def readAll : Nat → List Char → List SqlToken
  | 0, _ => []
  | _ + 1, [] => []
  | fuel + 1, ch :: rest => (read ch rest).1 :: readAll fuel (read ch rest).2

/-- The tokens of a text. -/
def tokens (sql : List Char) : List SqlToken :=
  readAll (sql.length + 1) sql

def textOf (tokens : List SqlToken) : List Char :=
  tokens.flatMap text

/-! ## Statements -/

/-- The tokens between the semicolons, with those of the current statement. -/
def segments : List SqlToken → List SqlToken → List (List SqlToken)
  | current, [] => if current = [] then [] else [current]
  | current, token :: rest =>
      if token = .symbol ';' then current :: segments [] rest
      else segments (current ++ [token]) rest

/-- The statements of a text: it is cut at the semicolons that are tokens. -/
def statements (sql : List Char) : List (List Char) :=
  (segments [] (tokens sql)).map textOf

def comments (sql : List Char) : List SqlToken :=
  (tokens sql).filter isComment

def literals (sql : List Char) : List SqlToken :=
  (tokens sql).filter isLiteral

example : statements "a$b$;/* /* */ ; */ $é$;$é$".toList =
    ["a$b$".toList, "/* /* */ ; */ $é$;$é$".toList] := by decide +kernel

end SqlToken

end Marreta.Migrations
