import Marreta.Foundation.Text

namespace Marreta.Migrations

open Foundation.Text (isWhitespace trim trimEnd trimStart words lines)

/-! Reading SQL text.

Migrations are read as plain text: a scanner finds the ends of statements, another
one removes comments, a third one cuts the body of a table into definitions.  The
functions that skip a part of a text return what follows it. -/

/-! ## Skipping -/

/-- After the quote that opens a string.  Two quotes stand for one. -/
def skipSingleQuoted : List Char → List Char
  | '\'' :: '\'' :: rest => skipSingleQuoted rest
  | '\'' :: rest => rest
  | _ :: rest => skipSingleQuoted rest
  | [] => []

/-- The line feed that ends the comment is left. -/
def skipLineComment (text : List Char) : List Char :=
  text.dropWhile (· ≠ '\n')

def skipBlockComment : List Char → List Char
  | '*' :: '/' :: rest => rest
  | _ :: rest => skipBlockComment rest
  | [] => []

def isTagStart (ch : Char) : Bool :=
  ch.isAlpha || ch = '_'

def isTagChar (ch : Char) : Bool :=
  ch.isAlphanum || ch = '_'

/-- The tag that opens a dollar quote, after its first `$`: a name, or nothing. -/
def dollarTag? (text : List Char) : Option (List Char) :=
  match text with
  | '$' :: _ => some []
  | ch :: rest =>
      if isTagStart ch then
        match rest.dropWhile isTagChar with
        | '$' :: _ => some (ch :: rest.takeWhile isTagChar)
        | _ => none
      else none
  | [] => none

/-- The text before and after the first place where a pattern occurs. -/
def splitOnce (pattern : List Char) : List Char → Option (List Char × List Char)
  | [] => if pattern = [] then some ([], []) else none
  | ch :: rest =>
      if pattern.isPrefixOf (ch :: rest) then some ([], (ch :: rest).drop pattern.length)
      else (splitOnce pattern rest).map fun (before, after) => (ch :: before, after)

/-- After the tag, the text goes on to the same tag. -/
def skipDollarQuoted (tag text : List Char) : List Char :=
  match splitOnce tag text with
  | some (_, after) => after
  | none => []

/-- What follows a string or a dollar quote that a text starts with. -/
def skipLiteral? : List Char → Option (List Char)
  | '\'' :: rest => some (skipSingleQuoted rest)
  | '$' :: rest =>
      (dollarTag? rest).map fun name =>
        skipDollarQuoted ('$' :: name ++ ['$']) (rest.drop (name.length + 1))
  | _ => none

/-- What follows a comment that a text starts with. -/
def skipComment? : List Char → Option (List Char)
  | '-' :: '-' :: rest => some (skipLineComment rest)
  | '/' :: '*' :: rest => some (skipBlockComment rest)
  | _ => none

/-- The part of a text before the rest of it. -/
def skipped (text rest : List Char) : List Char :=
  text.take (text.length - rest.length)

/-! ## Statements -/

/-- The statements of a text, with what was read of the current one.  Semicolons
in literals and comments end nothing. -/
def splitFrom : Nat → List Char → List Char → List (List Char)
  | 0, _, _ => []
  | _ + 1, current, [] => if current = [] then [] else [current]
  | fuel + 1, current, ch :: rest =>
      match skipLiteral? (ch :: rest) <|> skipComment? (ch :: rest) with
      | some after => splitFrom fuel (current ++ skipped (ch :: rest) after) after
      | none =>
          if ch = ';' then current :: splitFrom fuel [] rest
          else splitFrom fuel (current ++ [ch]) rest

def splitSqlStatements (sql : List Char) : List (List Char) :=
  splitFrom (sql.length + 1) [] sql

/-- A text without its comments. -/
def stripFrom : Nat → List Char → List Char
  | 0, _ => []
  | _ + 1, [] => []
  | fuel + 1, ch :: rest =>
      match skipLiteral? (ch :: rest) with
      | some after => skipped (ch :: rest) after ++ stripFrom fuel after
      | none =>
          match skipComment? (ch :: rest) with
          | some after => stripFrom fuel after
          | none => ch :: stripFrom fuel rest

def stripSqlComments (sql : List Char) : List Char :=
  stripFrom (sql.length + 1) sql

def replaySkipMarker : String :=
  "-- marreta: skip-replay"

/-- A line of the statement is the marker. -/
def chunkHasSkipMarker (chunk : List Char) : Bool :=
  (lines chunk).any fun line => trim line = replaySkipMarker.toList

/-! ## Definitions -/

/-- Definitions of a table, separated by commas outside of parentheses and
strings. -/
def splitDefsFrom : Nat → Int → List Char → List Char → List (List Char)
  | 0, _, _, _ => []
  | _ + 1, _, current, [] => if current = [] then [] else [current]
  | fuel + 1, depth, current, ch :: rest =>
      if ch = '\'' then
        let after := skipSingleQuoted rest
        splitDefsFrom fuel depth (current ++ skipped (ch :: rest) after) after
      else if ch = '(' then splitDefsFrom fuel (depth + 1) (current ++ [ch]) rest
      else if ch = ')' then splitDefsFrom fuel (depth - 1) (current ++ [ch]) rest
      else if ch = ',' ∧ depth = 0 then current :: splitDefsFrom fuel depth [] rest
      else splitDefsFrom fuel depth (current ++ [ch]) rest

def splitColumnDefs (body : List Char) : List (List Char) :=
  splitDefsFrom (body.length + 1) 0 [] body

/-- Every string replaced by a space. -/
def blankFrom : Nat → List Char → List Char
  | 0, _ => []
  | _ + 1, [] => []
  | fuel + 1, ch :: rest =>
      if ch = '\'' then ' ' :: blankFrom fuel (skipSingleQuoted rest)
      else ch :: blankFrom fuel rest

def blankStringLiterals (fragment : List Char) : List Char :=
  blankFrom (fragment.length + 1) fragment

def isAsciiWhitespace (ch : Char) : Bool :=
  ch = ' ' || ch = '\t' || ch = '\n' || ch = '\x0c' || ch = '\r'

/-- Words separated by whitespace outside of parentheses. -/
def tokenizeFrom : Int → Option (List Char) → List Char → List (List Char)
  | _, current, [] => current.toList
  | depth, current, ch :: rest =>
      if ch = '(' then tokenizeFrom (depth + 1) (some (current.getD [] ++ [ch])) rest
      else if ch = ')' then tokenizeFrom (depth - 1) (current.map (· ++ [ch])) rest
      else if depth = 0 ∧ isAsciiWhitespace ch then
        current.toList ++ tokenizeFrom depth none rest
      else tokenizeFrom depth (some (current.getD [] ++ [ch])) rest

def tokenizeParenAware (text : List Char) : List (List Char) :=
  tokenizeFrom 0 none text

/-! ## Words -/

def toAsciiUppercase (text : List Char) : List Char :=
  text.map Char.toUpper

/-- The rest of a text that begins with a keyword, in any case. -/
def stripKeywordCi (text : List Char) (keyword : String) : Option (List Char) :=
  if toAsciiUppercase (text.take keyword.length) = toAsciiUppercase keyword.toList then
    some (text.drop keyword.length)
  else none

/-- The first word of a text and what follows the whitespace character after it. -/
def splitWord (separates : Char → Bool) (text : List Char) : Option (List Char × List Char) :=
  match text.dropWhile fun ch => !separates ch with
  | [] => none
  | _ :: rest => some (text.takeWhile fun ch => !separates ch, rest)

def collapseWhitespace (text : List Char) : List Char :=
  [' '].intercalate (words text)

def hasInfix (pattern text : List Char) : Bool :=
  (splitOnce pattern text).isSome

example : (splitSqlStatements "a'x;'; -- b;\n $t$;$t$c;".toList).map String.ofList =
    ["a'x;'", " -- b;\n $t$;$t$c"] := by decide

example : (splitColumnDefs "a NUMERIC(10, 2), b TEXT DEFAULT ','".toList).map String.ofList =
    ["a NUMERIC(10, 2)", " b TEXT DEFAULT ','"] := by decide

end Marreta.Migrations
