import Marreta.Foundation.Text

namespace Marreta

open Foundation

/-! Spacing inside a line of code.

The formatter reads the line a second time, with a scanner of its own, into
atoms, and writes the atoms back with the blanks of the house style between
them.  String literals and a trailing comment are copied as they stand. -/

inductive Atom where
  | word (text : List Char)
  | str (text : List Char)
  | comment (text : List Char)
  | op (text : List Char)
deriving DecidableEq

namespace Atom

def textOf : Atom → List Char
  | .word text | .str text | .comment text | .op text => text

def opStr : Atom → Option (List Char)
  | .op text => some text
  | _ => none

/-- Whether the atom is the operator spelled `text`. -/
def isOp (atom : Atom) (text : String) : Bool :=
  atom.opStr = some text.toList

end Atom

/-! ## Scanning -/

def isBlank (ch : Char) : Bool :=
  ch = ' ' || ch = '\t'

/-- The rest of a string literal with its closing quote, and what follows it.  A
literal that the line does not close takes the whole rest of the line. -/
def stringSpan : List Char → List Char × List Char
  | [] => ([], [])
  | ['\\'] => (['\\'], [])
  | '\\' :: escaped :: rest =>
      let (text, rest) := stringSpan rest
      ('\\' :: escaped :: text, rest)
  | '"' :: rest => (['"'], rest)
  | ch :: rest =>
      let (text, rest) := stringSpan rest
      (ch :: text, rest)

attribute [grind =] stringSpan

/-- The number of characters of the operator at the head of the text. -/
def operatorLength : List Char → Nat
  | '*' :: '>' :: '>' :: _ => 3
  | '>' :: '>' :: _ | '-' :: '>' :: _ | '=' :: '>' :: _ | '=' :: '=' :: _
  | '!' :: '=' :: _ | '>' :: '=' :: _ | '<' :: '=' :: _ => 2
  | _ => 1

section Scanning

variable (beyondAscii : Char → Bool)

def isWordAtomChar (ch : Char) : Bool :=
  Text.isAlphanumeric beyondAscii ch || ch = '_'

/-- The atoms of a text of at most `fuel` characters. -/
def scanFrom : Nat → List Char → List Atom
  | 0, _ | _, [] => []
  | fuel + 1, ch :: rest =>
      if isBlank ch then scanFrom fuel rest
      else if ch = '"' then
        let (text, rest) := stringSpan rest
        .str (ch :: text) :: scanFrom fuel rest
      else if ch = '#' then [.comment (ch :: rest)]
      else if isWordAtomChar beyondAscii ch then
        .word ((ch :: rest).takeWhile (isWordAtomChar beyondAscii)) ::
          scanFrom fuel ((ch :: rest).dropWhile (isWordAtomChar beyondAscii))
      else
        let length := operatorLength (ch :: rest)
        .op ((ch :: rest).take length) :: scanFrom fuel ((ch :: rest).drop length)

def scanAtoms (line : List Char) : List Atom :=
  scanFrom beyondAscii line.length line

end Scanning

/-! ## Joining -/

def isKeywordOperator (word : List Char) : Bool :=
  word = "and".toList || word = "or".toList || word = "not".toList || word = "in".toList

/-- Keyword operators are operators, not operands: a bracket after one opens a
group, and a sign after one is unary. -/
def isOperandEnd (atom : Atom) : Bool :=
  match atom with
  | .word word => !isKeywordOperator word
  | .str _ => true
  | .op _ => atom.isOp ")" || atom.isOp "]" || atom.isOp "\x7d"
  | .comment _ => false

def spacedOperators : List (List Char) :=
  ["=", "==", "!=", ">=", "<=", "<", ">", "*", "/", "%", ">>", "*>>", "->", "=>"].map
    String.toList

def isSign (text : List Char) : Bool :=
  text = "+".toList || text = "-".toList

/-- A sign is a binary operator after an operand only. -/
def isBinarySpacedOp (text : List Char) (prevIsOperand : Bool) : Bool :=
  spacedOperators.contains text || isSign text && prevIsOperand

/-- Whether one space goes between `prev` and `cur`, given the atom before
`prev`. -/
def separator (prevPrev : Option Atom) (prev cur : Atom) : Bool :=
  let prevPrevOperand := prevPrev.any isOperandEnd
  -- Member access and the optional marker are tight.
  if cur.isOp "." || prev.isOp "." || cur.isOp "?" || prev.isOp "?" then false
  -- An open bracket hugs what follows, a close bracket what precedes.
  else if prev.isOp "(" || prev.isOp "[" || cur.isOp ")" || cur.isOp "]" then false
  else if cur.isOp "," || cur.isOp ":" then false
  else if prev.isOp "," || prev.isOp ":" then true
  else if prev.isOp "\x7b" && cur.isOp "\x7d" then false
  else if prev.isOp "\x7b" || cur.isOp "\x7d" then true
  -- After an operand a bracket is a call or an index.
  else if cur.isOp "(" || cur.isOp "[" then !isOperandEnd prev
  else if cur.opStr.any (isBinarySpacedOp · (isOperandEnd prev)) then true
  else if prev.opStr.any (isBinarySpacedOp · prevPrevOperand) then true
  else if prev.opStr.any isSign && !prevPrevOperand then false
  else true

/-- The blanks before an atom that is not the first of its line. -/
def gapBefore (prevPrev : Option Atom) (prev cur : Atom) : List Char :=
  match cur with
  | .comment _ => "  ".toList
  | _ => if separator prevPrev prev cur then [' '] else []

def joinAfter (prevPrev : Option Atom) (prev : Atom) : List Atom → List Char
  | [] => []
  | cur :: rest =>
      gapBefore prevPrev prev cur ++ (cur.textOf ++ joinAfter (some prev) cur rest)

def joinAtoms : List Atom → List Char
  | [] => []
  | first :: rest => first.textOf ++ joinAfter none first rest

def respaceLine (beyondAscii : Char → Bool) (line : List Char) : List Char :=
  joinAtoms (scanAtoms beyondAscii line)

example :
    respaceLine (fun _ => false) "x=f( a,-1 )  # \"c".toList =
      "x = f(a, -1)  # \"c".toList := by decide

end Marreta
