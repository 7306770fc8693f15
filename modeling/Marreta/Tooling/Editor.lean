import Marreta.Foundation.Utf8
import Marreta.Runtime.Json
import Marreta.Syntax.Lexer

namespace Marreta.Tooling

open Foundation Foundation.Utf8

/-! What the editor asks for: hovers, completions and definitions.

The source slices the lines of a text at offsets in bytes.  A slice that does not lie on
character boundaries is a panic, which is `none` here. -/

/-! ## Symbols and the catalog -/

inductive SymbolKind where
  | task | schema | auth | route | consumer | scenario
deriving DecidableEq

namespace SymbolKind

def asStr : SymbolKind → String
  | .task => "task"
  | .schema => "schema"
  | .auth => "auth"
  | .route => "route"
  | .consumer => "consumer"
  | .scenario => "scenario"

end SymbolKind

structure ToolingSymbol where
  name : String
  kind : SymbolKind
  file : String
  line : Nat
  column : Nat
  detail : String
  exported : Bool
deriving DecidableEq

/-- The stem of a file. -/
def fileStem (file : String) : String :=
  let name := (file.toList.reverse.takeWhile (· ≠ '/')).reverse
  let ending := ".marreta".toList
  if ending.isSuffixOf name then String.ofList (name.take (name.length - ending.length))
  else String.ofList name

namespace ToolingSymbol

/-- Exported tasks are called by the stem of their file. -/
def nameSpace (symbol : ToolingSymbol) : String :=
  fileStem symbol.file

end ToolingSymbol

inductive CatalogKind where
  | keyword | nameSpace | function | method
deriving DecidableEq

namespace CatalogKind

def asStr : CatalogKind → String
  | .keyword => "keyword"
  | .nameSpace => "namespace"
  | .function => "function"
  | .method => "method"

end CatalogKind

structure CatalogEntry where
  name : String
  kind : CatalogKind
  signature : String
  insertText : String
  summary : String
  exampleText : String
deriving DecidableEq

namespace CatalogEntry

def completionLabel (entry : CatalogEntry) : String :=
  match Text.splitOnceAt '.' entry.name.toList with
  | some (_, method) => String.ofList method
  | none => entry.name

end CatalogEntry

/-- The entries the engine comes with. -/
abbrev Catalog := List CatalogEntry

def findEntry (catalog : Catalog) (name : List Char) : Option CatalogEntry :=
  catalog.find? fun entry => entry.name.toList = name

def entriesForNamespace (catalog : Catalog) (nameSpace : List Char) : List CatalogEntry :=
  catalog.filter fun entry => (nameSpace ++ ['.']).isPrefixOf entry.name.toList

/-! ## Identifiers -/

def isIdent (ch : Char) : Bool :=
  ch.isAlpha || ch.isDigit || ch = '_'

/-- The start of the identifier that ends at an offset.  Its characters are single
bytes. -/
def scanIdentLeftFrom (line : List Char) : Nat → Option Nat
  | 0 => some 0
  | pos + 1 =>
      match takeBytes? (pos + 1) line with
      | none => none
      | some before =>
          match before.getLast? with
          | some ch => if isIdent ch then scanIdentLeftFrom line pos else some (pos + 1)
          | none => none

def scanIdentLeft (line : List Char) (pos : Nat) : Option Nat :=
  scanIdentLeftFrom line (min pos (bytes line).length)

/-- The end of the identifier that starts at an offset, with the bytes that are left. -/
def scanIdentRightFrom (line : List Char) : Nat → Nat → Option Nat
  | 0, pos => some pos
  | left + 1, pos =>
      match dropBytes? pos line with
      | none | some [] => none
      | some (ch :: _) => if isIdent ch then scanIdentRightFrom line left (pos + 1) else some pos

def scanIdentRight (line : List Char) (pos : Nat) : Option Nat :=
  let pos := min pos (bytes line).length
  scanIdentRightFrom line ((bytes line).length - pos) pos

/-! ## Hover -/

/-- The identifier at a column, or none; the outer `none` is a panic. -/
def wordRange (line : List Char) (column : Nat) : Option (Option (Nat × Nat)) := do
  let target := min (column - 1) (bytes line).length
  let start ← scanIdentLeft line target
  let stop ← scanIdentRight line target
  return if start = stop then none else some (start, stop)

/-- The name before or after a dot together with the word. -/
def dottedNameAt (line : List Char) (start stop : Nat) : Option (Option (List Char)) := do
  if 2 ≤ start ∧ (bytes line)[start - 1]? = some '.' then
    let nsStart ← scanIdentLeft line (start - 1)
    let nameSpace ← slice? line nsStart (start - 1)
    let word ← slice? line start stop
    return some (nameSpace ++ '.' :: word)
  else if (bytes line)[stop]? = some '.' then
    let methodEnd ← scanIdentRight line (stop + 1)
    if stop + 1 < methodEnd then
      let word ← slice? line start stop
      let method ← slice? line (stop + 1) methodEnd
      return some (word ++ '.' :: method)
    else return none
  else return none

def jsonNat (number : Nat) : Json :=
  .number (.posInt (UInt64.ofNat number))

def rangeJson (line : Nat) (range : Nat × Nat) : Json :=
  .object [
    ("start", .object [("line", jsonNat line), ("column", jsonNat (range.1 + 1))]),
    ("end", .object [("line", jsonNat line), ("column", jsonNat (range.2 + 1))])]

def markdownHover (value : String) (line : Nat) (range : Nat × Nat) : Json :=
  .object [
    ("contents", .array [.object [("kind", .string "markdown"), ("value", .string value)]]),
    ("range", rangeJson line range)]

def catalogHover (entry : CatalogEntry) (line : Nat) (range : Nat × Nat) : Json :=
  let heading := "### " ++ entry.signature ++ "\n\n" ++ entry.summary
  let value := if entry.exampleText = "" then heading
    else heading ++ "\n\n```marreta\n" ++ entry.exampleText ++ "\n```"
  markdownHover value line range

def symbolHover (symbol : ToolingSymbol) (line : Nat) (range : Nat × Nat) : Json :=
  markdownHover ("### " ++ symbol.detail ++ "\n\nDefined in `" ++ symbol.file ++ ":" ++
    toString symbol.line ++ "`.") line range

/-- The line of a source.  Lines are counted from one. -/
def lineText (source : List Char) (line : Nat) : Option (List Char) :=
  if line = 0 then none else (Text.lines source)[line - 1]?

/-- What is shown at the word at a range. -/
def hoverAt (catalog : Catalog) (symbols : List ToolingSymbol) (text : List Char) (line : Nat)
    (range : Nat × Nat) : Option (Option Json) := do
  let word ← slice? text range.1 range.2
  let dotted ← dottedNameAt text range.1 range.2
  match dotted.bind (findEntry catalog) with
  | some entry => return some (catalogHover entry line range)
  | none =>
      match findEntry catalog word with
      | some entry => return some (catalogHover entry line range)
      | none =>
          return (symbols.find? fun symbol => symbol.name.toList = word).map fun symbol =>
            symbolHover symbol line range

def hover (catalog : Catalog) (symbols : List ToolingSymbol) (source : List Char)
    (line column : Nat) : Option (Option Json) :=
  match lineText source line with
  | none => some none
  | some text =>
      match wordRange text column with
      | none => none
      | some none => some none
      | some (some range) => hoverAt catalog symbols text line range

/-! ## Completions -/

/-- The identifier at the end of a text. -/
def trailingIdentifier (input : List Char) : Option (Option (List Char)) := do
  let before := (input.reverse.dropWhile isIdent).reverse
  let ident ← slice? input (bytes before).length (bytes input).length
  return match ident with
    | first :: _ => if first.isAlpha || first = '_' then some ident else none
    | [] => none

def stripDot (trimmed : List Char) : Option (List Char) :=
  if trimmed.getLast? = some '.' then some trimmed.dropLast else none

def endsWith (text : List Char) (ending : String) : Bool :=
  ending.toList.isSuffixOf text

def containsText (part : String) : List Char → Bool
  | [] => part.isEmpty
  | ch :: rest => part.toList.isPrefixOf (ch :: rest) || containsText part rest

def isDbDocMemberPosition (trimmed : List Char) : Option Bool := do
  match stripDot trimmed with
  | none => return false
  | some beforeDot =>
      match ← trailingIdentifier beforeDot with
      | none => return false
      | some table =>
          let before ← slice? beforeDot 0 ((bytes beforeDot).length - (bytes table).length)
          let beforeTable := Text.trimEnd before
          return endsWith beforeTable "db." || endsWith beforeTable "doc."

def dottedNamespace (trimmed : List Char) : Option (Option (List Char)) :=
  match stripDot trimmed with
  | none => some none
  | some beforeDot => trailingIdentifier beforeDot

def wantsSchemaCompletion (trimmed : List Char) : Bool :=
  endsWith trimmed " as" || endsWith trimmed " as " || endsWith trimmed "take payload as" ||
    endsWith trimmed "take form as" || endsWith trimmed "take raw as" ||
    endsWith trimmed "reply 200 as" || containsText " as " trimmed

def isStatementPosition (trimmed : List Char) : Bool :=
  [[], "require".toList, "reject".toList, "if".toList, "else".toList].contains
    (Text.trimStart trimmed)

def sortText (entry : CatalogEntry) : String :=
  (match entry.kind with
    | .keyword => "010"
    | .nameSpace => "020"
    | .function => "030"
    | .method => "040") ++ "_" ++ entry.name

def completionFromCatalogEntry (entry : CatalogEntry) : Json :=
  .object [("label", .string entry.completionLabel), ("kind", .string entry.kind.asStr),
    ("detail", .string entry.signature), ("documentation", .string entry.summary),
    ("insert_text", .string entry.insertText),
    ("source", .string (if entry.kind = .keyword then "keyword" else "builtin")),
    ("sort_text", .string (sortText entry))]

def symbolInsertText (symbol : ToolingSymbol) : String :=
  if symbol.kind = .task then symbol.name ++ "($\x7b1:arg\x7d)" else symbol.name

def completionFromSymbol (symbol : ToolingSymbol) : Json :=
  .object [("label", .string symbol.name), ("kind", .string symbol.kind.asStr),
    ("detail", .string symbol.detail),
    ("documentation", .string ("Defined in " ++ symbol.file ++ ":" ++ toString symbol.line ++ ".")),
    ("insert_text", .string (symbolInsertText symbol)), ("source", .string "project")]

/-- Operations of tables and collections, and what is inserted for each. -/
def dbDocOperations : List (String × String) :=
  [("save", "save($\x7b1:value\x7d)"), ("find", "find($\x7b1:id\x7d)"),
    ("find_all", "find_all()"), ("update", "update($\x7b1:id\x7d, $\x7b2:changes\x7d)"),
    ("delete", "delete($\x7b1:id\x7d)")]

def dbDocOperationCompletion (operation : String × String) : Json :=
  .object [("label", .string operation.1), ("kind", .string "method"),
    ("detail", .string "db/doc operation"),
    ("documentation", .string "Relational/document store operation."),
    ("insert_text", .string operation.2), ("source", .string "builtin"),
    ("sort_text", .string ("040_" ++ operation.1))]

/-- The characters of a line before a column. -/
def linePrefix (source : List Char) (line column : Nat) : List Char :=
  match (Text.lines source)[line - 1]? with
  | none => []
  | some text => text.take (column - 1)

section Completions

variable (catalog : Catalog) (symbols : List ToolingSymbol)

/-- What is offered after `name.`. -/
def memberCompletions (nameSpace : List Char) : List Json :=
  match entriesForNamespace catalog nameSpace with
  | [] =>
      (symbols.filter fun symbol => symbol.kind = .task && symbol.exported &&
        symbol.nameSpace.toList = nameSpace).map completionFromSymbol
  | entries => entries.map completionFromCatalogEntry

/-- What is offered where no member is. -/
def plainCompletions (trimmed : List Char) : Option (List Json) := do
  if wantsSchemaCompletion trimmed then
    return (symbols.filter (·.kind = .schema)).map completionFromSymbol
  else if isStatementPosition trimmed || trimmed.isEmpty then
    return (catalog.filter fun entry => entry.kind = .keyword || entry.kind = .nameSpace).map
        completionFromCatalogEntry ++
      (symbols.filter (·.kind = .task)).map completionFromSymbol
  else
    match ← trailingIdentifier trimmed with
    | none => return []
    | some part =>
        return (symbols.filter fun symbol => (symbol.kind = .task || symbol.kind = .schema) &&
            part.isPrefixOf symbol.name.toList).map completionFromSymbol ++
          (catalog.filter fun entry => part.isPrefixOf entry.name.toList).map
            completionFromCatalogEntry

def completions (source : List Char) (line column : Nat) : Option (List Json) := do
  let trimmed := Text.trimEnd (linePrefix source line column)
  if ← isDbDocMemberPosition trimmed then
    return dbDocOperations.map dbDocOperationCompletion
  else
    match ← dottedNamespace trimmed with
    | none => plainCompletions catalog symbols trimmed
    | some nameSpace =>
        match memberCompletions catalog symbols nameSpace with
        | [] => plainCompletions catalog symbols trimmed
        | items => return items

end Completions

/-! ## Definitions -/

def isLayout : TokenKind → Bool
  | .newline | .indent | .dedent => true
  | _ => false

/-- The identifier whose span contains the cursor. -/
def tokenAt (tokens : List Token) (line column : Nat) : Option Nat :=
  tokens.findIdx? fun token =>
    (match token.kind with
      | .identifier _ => true
      | _ => false) && token.line = line && decide (token.column ≤ column) &&
      decide (column ≤ token.column + token.lexeme.length)

def nextSignificant (tokens : List Token) (index : Nat) : Option Token :=
  (tokens.drop (index + 1)).find? fun token => !isLayout token.kind

def prevSignificantIdx (tokens : List Token) (index : Nat) : Option Nat :=
  ((List.range index).reverse).find? fun before =>
    match tokens[before]? with
    | some token => !isLayout token.kind
    | none => false

def prevSignificant (tokens : List Token) (index : Nat) : Option Token :=
  (prevSignificantIdx tokens index).bind (tokens[·]?)

/-- The namespace in `namespace.task`. -/
def precedingNamespace (tokens : List Token) (index : Nat) : Option String := do
  let dot ← prevSignificantIdx tokens index
  let token ← tokens[dot]?
  if token.kind = .dot then
    match (← prevSignificant tokens dot).kind with
    | .identifier name => some name
    | _ => none
  else none

def indentOf (line : List Char) : Nat :=
  (line.takeWhile (· = ' ')).length

/-- The nearest line above that is indented less is the head of a schema. -/
def headsSchema (currentIndent : Nat) : List (List Char) → Bool
  | [] => false
  | line :: above =>
      let trimmed := Text.trimStart line
      if trimmed.isEmpty || trimmed.head? = some '#' then headsSchema currentIndent above
      else if indentOf line < currentIndent then
        "schema ".toList.isPrefixOf trimmed || "export schema ".toList.isPrefixOf trimmed
      else headsSchema currentIndent above

def inSchemaBlock (source : List Char) (line : Nat) : Bool :=
  match lineText source line with
  | none => false
  | some text => headsSchema (indentOf text) ((Text.lines source).take (line - 1)).reverse

/-- What kind of symbol the identifier refers to. -/
def classify (tokens : List Token) (index : Nat) (inSchema : Bool) : Option SymbolKind :=
  match (nextSignificant tokens index).map Token.kind with
  | some .leftParen => some .task
  | some .leftBrace => some .schema
  | _ =>
      match prevSignificant tokens index with
      | none => none
      | some before =>
          match before.kind with
          | .pipeline | .broadcast | .arrow => some .task
          | .as => some .schema
          | kind =>
              if kind = .colon && inSchema then some .schema
              else if before.lexeme = "auth" then some .auth
              else none

/-- The symbol that the identifier at an index stands for. -/
def resolveAt (tokens : List Token) (index : Nat) (name : String) (inSchema : Bool)
    (symbols : List ToolingSymbol) : Option ToolingSymbol := do
  let kind ← classify tokens index inSchema
  let qualified : Option ToolingSymbol := match kind, precedingNamespace tokens index with
    | .task, some nameSpace =>
        symbols.find? fun symbol => symbol.kind = .task && symbol.exported &&
          symbol.name = name && symbol.nameSpace = nameSpace
    | _, _ => none
  qualified.or (symbols.find? fun symbol => symbol.kind = kind && symbol.name = name)

/-- A source that is no sequence of tokens has no definitions. -/
def resolve (source : List Char) (line column : Nat) (symbols : List ToolingSymbol) :
    Except Fault (Option ToolingSymbol) :=
  match tokenize source with
  | .error (.error _) => .ok none
  | .error fault => .error fault
  | .ok tokens =>
      .ok do
        let index ← tokenAt tokens line column
        match (← tokens[index]?).kind with
        | .identifier name => resolveAt tokens index name (inSchemaBlock source line) symbols
        | _ => none

def definitionJson (source : List Char) (line column : Nat) (symbols : List ToolingSymbol) :
    Except Fault Json := do
  match ← resolve source line column symbols with
  | some symbol =>
      return .object [("file", .string symbol.file), ("line", jsonNat symbol.line),
        ("column", jsonNat symbol.column), ("kind", .string symbol.kind.asStr)]
  | none => return .null

end Marreta.Tooling
