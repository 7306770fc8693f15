import Marreta.Format.Respace
import Marreta.Syntax.Parser

namespace Marreta

open Foundation

/-! The source formatter.

Each line gets a depth from a stack of the indentation widths of the open
blocks, is respaced and indented anew; blank lines are collapsed, and a blank
line is put before each top-level declaration.  The result is only returned when
its significant tokens are those of the source. -/

inductive FormatError where
  | parse (error : MarretaError)
  | astDivergence
deriving DecidableEq

abbrev FormatFault := Stop FormatError Panic

/-- A fault of the lexer or the parser, as the formatter reports it. -/
def FormatFault.ofFault : Fault → FormatFault
  | .error error => .error (.parse error)
  | .panic cause => .panic cause
  | .exhausted => .exhausted

structure FormatResult where
  changed : Bool
  output : List Char
deriving DecidableEq

/-! ## Depth of a line -/

/-- A tab counts four columns here. -/
def leadingIndentWidth (line : List Char) : Nat :=
  ((line.takeWhile isBlank).map fun ch => if ch = '\t' then 4 else 1).sum

/-- The stack holds the innermost width first; the position of a width counts
from the outermost one. -/
def depthForComment (rawIndent : Nat) (stack : List Nat) : Nat :=
  if rawIndent ∈ stack then stack.length - 1 - stack.idxOf rawIndent
  else if stack.headD 0 < rawIndent then stack.length
  else stack.length - 1

def popWiderThan (rawIndent : Nat) : List Nat → List Nat
  | top :: next :: stack =>
      if rawIndent < top then popWiderThan rawIndent (next :: stack)
      else top :: next :: stack
  | stack => stack

def stackForCode (rawIndent : Nat) (stack : List Nat) : List Nat :=
  if stack.headD 0 < rawIndent then rawIndent :: stack
  else if rawIndent < stack.headD 0 then popWiderThan rawIndent stack
  else stack

def depthForCode (rawIndent : Nat) (stack : List Nat) : Nat :=
  (stackForCode rawIndent stack).length - 1

/-- A line that is not blank: its depth and its text without indentation. -/
structure SourceLine where
  depth : Nat
  stripped : List Char
deriving DecidableEq

namespace SourceLine

def isComment (line : SourceLine) : Bool :=
  line.stripped.head? = some '#'

end SourceLine

def readLine (stack : List Nat) (rawLine : List Char) : Option SourceLine × List Nat :=
  let line := Text.trimEnd rawLine
  if (Text.trim line).isEmpty then (none, stack)
  else
    let rawIndent := leadingIndentWidth line
    let stripped := line.dropWhile isBlank
    if stripped.head? = some '#' then
      (some { depth := depthForComment rawIndent stack, stripped }, stack)
    else
      (some { depth := depthForCode rawIndent stack, stripped },
        stackForCode rawIndent stack)

/-- The lines of a source with their depths, `none` for a blank one. -/
def readLines (stack : List Nat) : List (List Char) → List (Option SourceLine)
  | [] => []
  | rawLine :: rest =>
      let (line, stack) := readLine stack rawLine
      line :: readLines stack rest

def sourceLines (source : List Char) : List (Option SourceLine) :=
  readLines [0] (Text.lines source)

/-! ## Formatted lines -/

structure FormattedLine where
  text : List Char
  depth : Nat
  isBlank : Bool
  isComment : Bool
  isTopLevelDeclaration : Bool
deriving DecidableEq

/-- Decided on the text as it is given, before any respacing. -/
def isTopLevelDeclaration (stripped : List Char) : Bool :=
  ["route ", "task ", "schema ", "auth ", "on queue ", "on topic ", "export task ",
    "export schema "].any fun keyword => keyword.toList.isPrefixOf stripped

/-- A single `#` gets a space after it, unless one or another `#` stands there. -/
def normalizeCommentSpacing (comment : List Char) : List Char :=
  match comment.drop 1 with
  | next :: rest =>
      if next ≠ ' ' ∧ next ≠ '#' then '#' :: ' ' :: next :: rest else comment
  | [] => comment

namespace FormattedLine

def blank : FormattedLine :=
  { text := [], depth := 0, isBlank := true, isComment := false
    isTopLevelDeclaration := false }

variable (beyondAscii : Char → Bool)

def new (depth : Nat) (stripped : List Char) : FormattedLine :=
  let isComment : Bool := stripped.head? = some '#'
  let content :=
    if isComment then normalizeCommentSpacing stripped
    else respaceLine beyondAscii stripped
  { text := List.replicate (depth * 4) ' ' ++ content
    depth
    isBlank := false
    isComment
    isTopLevelDeclaration := depth = 0 && Marreta.isTopLevelDeclaration stripped }

def ofSource : Option SourceLine → FormattedLine
  | none => blank
  | some line => new beyondAscii line.depth line.stripped

end FormattedLine

/-! ## Blank lines -/

/-- Drop each blank line that follows another one, or nothing. -/
def collapseBlankLines (afterBlank : Bool) : List FormattedLine → List FormattedLine
  | [] => []
  | line :: rest =>
      if line.isBlank && afterBlank then collapseBlankLines true rest
      else line :: collapseBlankLines line.isBlank rest

def normalizeBlankLines (lines : List FormattedLine) : List FormattedLine :=
  ((collapseBlankLines true lines).reverse.dropWhile (·.isBlank)).reverse

/-- Whether the first line that is not a comment is a top-level declaration. -/
def commentGroupLeadsToTopLevelDeclaration : List FormattedLine → Bool
  | [] => false
  | line :: rest =>
      if line.isComment then commentGroupLeadsToTopLevelDeclaration rest
      else !line.isBlank && line.isTopLevelDeclaration

/-- Whether a blank line goes before `line`.  The lines before it are given last
first, and the last text written is that of the line right before. -/
def shouldInsertBlankBefore (before : List FormattedLine) (line : FormattedLine)
    (after : List FormattedLine) : Bool :=
  let previousNonblank := before.find? (!·.isBlank)
  if line.isBlank || before.head?.all (·.text.isEmpty) then false
  else if line.depth ≠ 0 then false
  else if line.isComment then
    -- Only the first line of a comment group, and only when the group leads a
    -- declaration: a blank inside the group would split the comment.
    if previousNonblank.all (·.isComment) then false
    else commentGroupLeadsToTopLevelDeclaration (line :: after)
  else if line.isTopLevelDeclaration then !previousNonblank.any (·.isComment)
  else false

def spaceAfter (before : List FormattedLine) : List FormattedLine → List (List Char)
  | [] => []
  | line :: rest =>
      let texts := line.text :: spaceAfter (line :: before) rest
      if shouldInsertBlankBefore before line rest then [] :: texts else texts

def applyTopLevelSpacing (lines : List FormattedLine) : List (List Char) :=
  spaceAfter [] lines

/-! ## The formatter -/

/-- `texts.join("\n")` with one more line feed at the end. -/
def joinLines : List (List Char) → List Char
  | [] => ['\n']
  | texts => Text.unlines texts

/-- The token stream without the end sentinel and without the line break that
ends the file, which stands before the block ends of an indented last line. -/
def dropTerminalNewline (kinds : List TokenKind) : List TokenKind :=
  let dedents := kinds.reverse.takeWhile (· = .dedent)
  match kinds.reverse.dropWhile (· = .dedent) with
  | .newline :: rest => rest.reverse ++ dedents
  | _ => kinds

def significantTokens (source : List Char) : Except Fault (List TokenKind) := do
  let tokens ← tokenize source
  return dropTerminalNewline ((tokens.map (·.kind)).filter (· ≠ .eof))

section Formatting

variable (beyondAscii : Char → Bool)

def formattedLines (source : List Char) : List FormattedLine :=
  (sourceLines source).map (FormattedLine.ofSource beyondAscii)

def normalizeSource (source : List Char) : List Char :=
  joinLines (applyTopLevelSpacing (normalizeBlankLines (formattedLines beyondAscii source)))

/-- The checks of `formatSource` on a source and its normal form. -/
def compareSources (source formatted : List Char) : Except Fault Bool := do
  let _ ← parseSource source
  let before ← significantTokens source
  let _ ← parseSource formatted
  let after ← significantTokens formatted
  return before = after

def formatSource (source : List Char) : Except FormatFault FormatResult :=
  let formatted := normalizeSource beyondAscii source
  match compareSources source formatted with
  | .error fault => .error (.ofFault fault)
  | .ok false => .error (.error .astDivergence)
  | .ok true => .ok { changed := formatted ≠ source, output := formatted }

end Formatting

example :
    normalizeSource (fun _ => false)
        "x=1\n\n\n#a\nroute GET \"/\"\n  reply 200,x\n".toList =
      "x = 1\n\n# a\nroute GET \"/\"\n    reply 200, x\n".toList := by decide

end Marreta
