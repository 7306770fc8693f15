import Marreta.Syntax.Lexemes

namespace Marreta

open Foundation

/-! The lexer over lines of lexemes.

The layout tokens of a line depend on the lexemes of the earlier lines and on the
width of its indentation.  `Scan` is the part of the lexer's state that decides
them, and a run of the lexer is a run of scans. -/

/-- An item of the lexer's output without its position. -/
inductive Item where
  | token (kind : TokenKind) (lexeme : String)
  | comment (text : List Char) (ownLine : Bool)
deriving DecidableEq

def LexItem.item : LexItem → Item
  | .token value => .token value.kind value.lexeme
  | .comment text ownLine => .comment text ownLine

namespace Item

def kind? : Item → Option TokenKind
  | .token kind _ => some kind
  | .comment _ _ => none

def newline : Item := .token .newline "\\n"
def indent : Item := .token .indent ""
def dedent : Item := .token .dedent ""

end Item

/-! ## The state that decides the layout -/

structure Scan where
  items : List Item
  indentStack : List Nat
  nestingDepth : Nat
  lineBlank : Bool
deriving DecidableEq

namespace Scan

def kinds (scan : Scan) : List TokenKind :=
  scan.items.filterMap Item.kind?

def removeNewline : List Item → List Item
  | [] => []
  | .comment text ownLine :: items => .comment text ownLine :: removeNewline items
  | .token kind lexeme :: items =>
      match kind with
      | .indent | .dedent => .token kind lexeme :: removeNewline items
      | .newline => items
      | _ => .token kind lexeme :: items

/-- One lexeme of the current line. -/
def read (scan : Scan) : Lexeme → Scan
  | .comment text => { scan with items := .comment text scan.lineBlank :: scan.items }
  | .token kind lexeme =>
      { scan with
        items := .token kind lexeme ::
          if kind = .pipeline then removeNewline scan.items else scan.items
        nestingDepth := Lexer.nestingAfter scan.nestingDepth kind
        lineBlank := false }

/-- Close the blocks deeper than `spaces`. -/
def popIndents (spaces : Nat) : List Nat → List Item → List Nat × List Item
  | top :: next :: stack, items =>
      if spaces < top then popIndents spaces (next :: stack) (.dedent :: items)
      else (top :: next :: stack, items)
  | stack, items => (stack, items)

/-- The layout tokens of a line indented by `spaces`. -/
def indentTo (scan : Scan) (spaces : Nat) : Option Scan :=
  let currentIndent := scan.indentStack.headD 0
  if currentIndent < spaces then
    some { scan with
      items := .indent :: scan.items, indentStack := spaces :: scan.indentStack }
  else if spaces < currentIndent then
    let (indentStack, items) := popIndents spaces scan.indentStack scan.items
    if indentStack.headD 0 = spaces then some { scan with indentStack, items } else none
  else some scan

/-- The width of the indentation of a line, unless the line is blank or holds a
comment only. -/
def width? (line : List Char) : Option Nat :=
  if (line.dropWhile (· = ' ')).head?.all (· = '#') then none
  else some (line.takeWhile (· = ' ')).length

def indent (scan : Scan) (line : List Char) : Option Scan :=
  match width? line with
  | none => some scan
  | some spaces => scan.indentTo spaces

def shouldSuppressNewline : List TokenKind → Bool
  | [] => true
  | kind :: kinds =>
      match kind with
      | .indent | .dedent | .newline => shouldSuppressNewline kinds
      | kind => Lexer.isContinuation kind

/-- The line break at the end of a line. -/
def breakLine (scan : Scan) : Scan :=
  if 0 < scan.nestingDepth then { scan with lineBlank := true }
  else if shouldSuppressNewline scan.kinds || scan.kinds.head? = some .newline then
    { scan with lineBlank := true }
  else { scan with items := .newline :: scan.items, lineBlank := true }

/-- One line, with its lexemes. -/
def line (scan : Scan) (text : List Char) (lexemes : List Lexeme) : Option Scan :=
  (if scan.nestingDepth = 0 then scan.indent text else some scan).map (lexemes.foldl read ·)

end Scan

namespace Lexer

def scan (lexer : Lexer) : Scan :=
  { items := lexer.items.map LexItem.item
    indentStack := lexer.indentStack
    nestingDepth := lexer.nestingDepth
    lineBlank := lexer.lineBlank }

theorem kinds_scan (lexer : Lexer) : lexer.scan.kinds = lexer.tokens.map (·.kind) := by
  simp only [Scan.kinds, scan, tokens, List.filterMap_map, List.map_filterMap]
  congr 1
  funext item
  cases item <;> rfl

theorem removeNewline_item (items : List LexItem) :
    (removeNewline items).map LexItem.item =
      Scan.removeNewline (items.map LexItem.item) := by
  induction items with
  | nil => rfl
  | cons item items ih =>
      rcases item with ⟨kind, line, column, lexeme⟩ | text
      · cases kind <;> simp [removeNewline, Scan.removeNewline, LexItem.item, ih]
      · simp [removeNewline, Scan.removeNewline, LexItem.item, ih]

end Lexer

/-! ## One item of the lexer -/

theorem drop_takeWhile {p : Char → Bool} (text : List Char) :
    text.drop (text.takeWhile p).length = text.dropWhile p := by
  have whole := List.takeWhile_append_dropWhile (p := p) (l := text)
  calc text.drop (text.takeWhile p).length
      = (text.takeWhile p ++ text.dropWhile p).drop (text.takeWhile p).length := by rw [whole]
    _ = text.dropWhile p := List.drop_left
namespace Lexer

theorem scan_emit (lexer : Lexer) (kind : TokenKind) (lexeme : String) (line column : Nat)
    (plain : kind ≠ .pipeline) (level : nestingAfter lexer.nestingDepth kind = lexer.nestingDepth) :
    (lexer.push { kind, line, column, lexeme }).scan = lexer.scan.read (.token kind lexeme) := by
  simp [scan, push, Scan.read, LexItem.item, plain, level]

@[simp] theorem scan_advanceBy (lexer : Lexer) (count : Nat) :
    (lexer.advanceBy count).scan = lexer.scan := rfl

@[simp] theorem rest_advanceBy (lexer : Lexer) (count : Nat) :
    (lexer.advanceBy count).rest = lexer.rest.drop count := rfl

/-- The kinds that are read from words and literals neither nest nor continue a
line. -/
theorem wordKind_plain (word : String) (depth : Nat) :
    wordKind word ≠ .pipeline ∧ nestingAfter depth (wordKind word) = depth := by
  unfold wordKind keywordLookup
  split <;> exact ⟨by simp, rfl⟩

theorem numberKind_plain {span : List Char} {hasDot : Bool} {kind : TokenKind}
    (known : numberKind span hasDot = some kind) (depth : Nat) :
    kind ≠ .pipeline ∧ nestingAfter depth kind = depth := by
  rw [numberKind] at known
  split at known
  · obtain rfl := Option.some.inj known
    exact ⟨by simp, rfl⟩
  · split at known
    · obtain rfl := Option.some.inj known
      exact ⟨by simp, rfl⟩
    · cases known

theorem emitOperator_spec {text : List Char} {kind : TokenKind} {lexeme : String}
    (reads : operatorAt text = some (kind, lexeme)) (lexer : Lexer) :
    (lexer.emitOperator kind lexeme).rest = lexer.rest.drop lexeme.length ∧
      (lexer.emitOperator kind lexeme).scan = lexer.scan.read (.token kind lexeme) ∧
      (lexer.emitOperator kind lexeme).atLineStart = lexer.atLineStart := by
  cases text with
  | nil => cases reads
  | cons ch rest =>
      simp only [operatorAt] at reads
      split at reads
      all_goals repeat' split at reads
      all_goals cases reads
      all_goals refine ⟨rfl, ?_, rfl⟩
      all_goals try rfl
      -- Only a pipeline takes back the line break before it.
      simp only [scan, Scan.read, if_pos, ← removeNewline_item]
      rfl

theorem readItem_skip {lexer : Lexer} {ch : Char} {rest : List Char}
    (head : lexer.rest = ch :: rest) (skipped : isSkipped ch = true) :
    lexer.readItem = .ok (lexer.advanceBy 1) := by
  have blank : ch = ' ' ∨ ch = '\t' ∨ ch = '\r' := by
    simpa [isSkipped, or_assoc] using skipped
  simp only [readItem, head, if_pos blank]

theorem readItem_newline {lexer : Lexer} {rest : List Char} (head : lexer.rest = '\n' :: rest) :
    lexer.readItem = .ok lexer.handleNewline := by
  simp [readItem, head]

theorem readItem_lexeme {lexer : Lexer} {rest : List Char} {lexeme : Lexeme}
    (visible : lexer.rest.head?.any (fun ch => !isSkipped ch && ch ≠ '\n') = true)
    (found : lexemeAt lexer.rest = some (lexeme, rest)) :
    ∃ next, lexer.readItem = .ok next ∧ next.rest = rest ∧
      next.scan = lexer.scan.read lexeme ∧ next.atLineStart = lexer.atLineStart := by
  cases head : lexer.rest with
  | nil => simp [head] at visible
  | cons ch text =>
      rw [head] at found visible
      have plain : ¬ (ch = ' ' ∨ ch = '\t' ∨ ch = '\r') ∧ ch ≠ '\n' := by
        simpa [isSkipped, and_assoc] using visible
      simp only [readItem, head, if_neg plain.1, if_neg plain.2]
      simp only [lexemeAt] at found
      split at found
      · rename_i hash
        obtain ⟨rfl, rfl⟩ := Prod.mk.inj (Option.some.inj found)
        refine ⟨lexer.skipComment, if_pos hash, ?_, ?_, rfl⟩
        · rw [skipComment, head]
          simp only [advanceBy, head, drop_takeWhile]
        · simp [skipComment, scan, advanceBy, Scan.read, LexItem.item, head]
      rename_i hash
      rw [if_neg hash]
      split at found
      · rename_i quote
        rw [Option.map_eq_some_iff] at found
        obtain ⟨⟨value, after⟩, reads, same⟩ := found
        obtain ⟨rfl, rfl⟩ := Prod.mk.inj same
        obtain ⟨used, rfl, -⟩ := stringBody_cuts reads
        rw [if_pos quote, readString, head, List.drop_one, List.tail_cons, reads]
        refine ⟨_, rfl, ?_, ?_, rfl⟩
        · have consumed : (ch :: (used ++ after)).length - after.length = (ch :: used).length := by
            simp only [List.length_cons, List.length_append]
            omega
          simp only [rest_advanceBy, push, head, consumed]
          rw [← List.cons_append, List.drop_left]
        · exact scan_emit lexer _ _ _ _ (by simp) rfl
      rename_i quote
      rw [if_neg quote]
      split at found
      · rename_i digit
        rw [if_pos digit, readNumber, head]
        cases spans : numberSpan (ch :: text) false with
        | error _ => simp [spans] at found
        | ok result =>
            obtain ⟨span, dotted⟩ := result
            simp only [spans, Option.map_eq_some_iff] at found
            obtain ⟨kind, known, same⟩ := found
            obtain ⟨rfl, rfl⟩ := Prod.mk.inj same
            obtain ⟨plain, level⟩ := numberKind_plain known lexer.nestingDepth
            simp only [known]
            refine ⟨_, rfl, ?_, scan_emit lexer _ _ _ _ plain level, rfl⟩
            simp [push, head]
      rename_i digit
      rw [if_neg digit]
      split at found
      · rename_i word
        obtain ⟨rfl, rfl⟩ := Prod.mk.inj (Option.some.inj found)
        obtain ⟨plain, level⟩ := wordKind_plain
          (String.ofList ((ch :: text).takeWhile isWordChar)) lexer.nestingDepth
        rw [if_pos word]
        refine ⟨_, rfl, ?_, ?_, rfl⟩
        · rw [readIdentifier, head]
          simp only [rest_advanceBy, push, head, drop_takeWhile]
        · rw [readIdentifier, head, scan_advanceBy]
          exact scan_emit lexer _ _ _ _ plain level
      · rename_i word
        rw [Option.map_eq_some_iff] at found
        obtain ⟨⟨kind, spelling⟩, reads, same⟩ := found
        obtain ⟨rfl, rfl⟩ := Prod.mk.inj same
        obtain ⟨rest, scans, start⟩ := emitOperator_spec reads lexer
        simp only [if_neg word, reads]
        exact ⟨_, rfl, by rw [rest, head], scans, start⟩

/-! ## Runs of the lexer -/

/-- Going on from `next` gives what going on from `lexer` gives, each with fuel
enough for the text left. -/
def Continues (lexer next : Lexer) : Prop :=
  ∀ fuel, lexer.rest.length ≤ fuel →
    ∃ left, next.rest.length ≤ left ∧ lexer.loop fuel = next.loop left

theorem Continues.refl (lexer : Lexer) : lexer.Continues lexer :=
  fun fuel enough => ⟨fuel, enough, rfl⟩

theorem Continues.trans {first second third : Lexer} (one : first.Continues second)
    (two : second.Continues third) : first.Continues third := by
  intro fuel enough
  obtain ⟨left, leftEnough, same⟩ := one fuel enough
  obtain ⟨last, lastEnough, again⟩ := two left leftEnough
  exact ⟨last, lastEnough, same.trans again⟩

theorem loop_succ {lexer : Lexer} (nonempty : lexer.rest ≠ []) (fuel : Nat) :
    lexer.loop (fuel + 1) = lexer.step >>= loop fuel := by
  rw [loop, if_neg (by simpa using nonempty)]

theorem continues_step {lexer next : Lexer} (steps : lexer.step = .ok next)
    (shorter : next.rest.length < lexer.rest.length) : lexer.Continues next := by
  intro fuel enough
  obtain ⟨fuel, rfl⟩ : ∃ less, fuel = less + 1 := ⟨fuel - 1, by omega⟩
  refine ⟨fuel, by omega, ?_⟩
  rw [loop_succ (List.length_pos_iff.mp (by omega)), steps]
  rfl

theorem step_inside {lexer : Lexer} (inside : lexer.atLineStart = false) :
    lexer.step = lexer.readItem := by
  simp [step, inside, bind, Except.bind]

/-- The lexemes of a line are read one after the other. -/
theorem continues_lexemes {line : List Char} {lexemes : List Lexeme} (lexes : Lexes line lexemes)
    {tail : List Char} (breaks : Breaks tail) {lexer : Lexer} (rest : lexer.rest = line ++ tail)
    (inside : lexer.atLineStart = false) :
    ∃ next, lexer.Continues next ∧ next.rest = tail ∧ next.atLineStart = false ∧
      next.scan = lexemes.foldl Scan.read lexer.scan := by
  induction lexes generalizing lexer with
  | nil => exact ⟨lexer, .refl lexer, rest, inside, rfl⟩
  | @skip ch text lexemes skipped _ ih =>
      have steps := readItem_skip rest skipped
      rw [← step_inside inside] at steps
      have after : (lexer.advanceBy 1).rest = text ++ tail := by
        rw [rest_advanceBy, rest]
        rfl
      obtain ⟨next, continues, ends, start, scans⟩ := ih after inside
      refine ⟨next, (continues_step steps ?_).trans continues, ends, start, scans⟩
      rw [after, rest]
      simp
  | @lexeme text after lexeme lexemes visible found _ ih =>
      have nonempty : text ≠ [] := by
        rintro rfl
        cases found
      have located := lexemeAt_append found breaks
      rw [← rest] at located
      have head : lexer.rest.head? = text.head? := by
        obtain ⟨ch, more, same⟩ := List.exists_cons_of_ne_nil nonempty
        rw [rest, same]
        rfl
      rw [← head] at visible
      obtain ⟨mid, reads, midRest, midScan, midStart⟩ := readItem_lexeme visible located
      rw [← step_inside inside] at reads
      obtain ⟨next, continues, ends, start, scans⟩ := ih midRest (midStart.trans inside)
      refine ⟨next, (continues_step reads ?_).trans continues, ends, start, ?_⟩
      · rw [midRest, rest, List.length_append, List.length_append]
        have shorter := lexemeAt_length found
        omega
      · rw [scans, midScan]
        rfl

/-! ## Lines -/

theorem shouldSuppressNewline_kinds (tokens : List Token) :
    Scan.shouldSuppressNewline (tokens.map (·.kind)) = shouldSuppressNewline tokens := by
  induction tokens with
  | nil => rfl
  | cons token tokens ih =>
      obtain ⟨kind, line, column, lexeme⟩ := token
      cases kind <;> simp [shouldSuppressNewline, Scan.shouldSuppressNewline, ih]

/-- A line boundary: the indentation of the next line counts outside brackets. -/
def AtLine (lexer : Lexer) : Prop :=
  lexer.atLineStart = decide (lexer.nestingDepth = 0)

theorem handleNewline_spec (lexer : Lexer) :
    lexer.handleNewline.scan = lexer.scan.breakLine ∧
      lexer.handleNewline.rest = lexer.rest.drop 1 ∧ lexer.handleNewline.AtLine := by
  by_cases nested : 0 < lexer.nestingDepth
  · have differs : lexer.nestingDepth ≠ 0 := by omega
    simp [handleNewline, Scan.breakLine, nested, scan, AtLine, differs]
  · have zero : lexer.nestingDepth = 0 := by omega
    have suppress : (Scan.shouldSuppressNewline lexer.scan.kinds ||
        decide (lexer.scan.kinds.head? = some .newline)) =
        (shouldSuppressNewline lexer.tokens || lexer.lastIsNewline || lexer.tokens.isEmpty) := by
      rw [kinds_scan, shouldSuppressNewline_kinds, lastIsNewline]
      cases lexer.tokens with
      | nil => rfl
      | cons token tokens => simp
    rw [handleNewline, if_neg nested, Scan.breakLine, suppress]
    change (_ = if 0 < lexer.nestingDepth then _ else _) ∧ _
    rw [if_neg nested]
    cases shouldSuppressNewline lexer.tokens || lexer.lastIsNewline || lexer.tokens.isEmpty with
    | true => exact ⟨rfl, rfl, (decide_eq_true zero).symm⟩
    | false => exact ⟨rfl, rfl, (decide_eq_true zero).symm⟩

theorem continues_newline {lexer : Lexer} {tail : List Char} (rest : lexer.rest = '\n' :: tail)
    (inside : lexer.atLineStart = false) :
    ∃ next, lexer.Continues next ∧ next.rest = tail ∧ next.AtLine ∧
      next.scan = lexer.scan.breakLine := by
  obtain ⟨scans, after, atLine⟩ := handleNewline_spec lexer
  have steps := readItem_newline rest
  rw [← step_inside inside] at steps
  refine ⟨lexer.handleNewline, continues_step steps ?_, ?_, atLine, scans⟩
  · rw [after, rest]
    simp
  · rw [after, rest]
    rfl

theorem popIndents_item (line spaces : Nat) (stack : List Nat) (items : List LexItem) :
    (popIndents line spaces stack items).1 =
        (Scan.popIndents spaces stack (items.map LexItem.item)).1 ∧
      (popIndents line spaces stack items).2.map LexItem.item =
        (Scan.popIndents spaces stack (items.map LexItem.item)).2 := by
  induction stack generalizing items with
  | nil => exact ⟨rfl, rfl⟩
  | cons top stack ih =>
      cases stack with
      | nil => exact ⟨rfl, rfl⟩
      | cons next stack =>
          rw [popIndents, Scan.popIndents]
          split
          · exact ih _
          · exact ⟨rfl, rfl⟩

/-- A step of the lexer fails exactly when the scan does, and otherwise reaches
the same scan with `rest` left. -/
def Agrees (rest : List Char) : Option Scan → Except Fault Lexer → Prop
  | some scan, .ok next => next.scan = scan ∧ next.rest = rest
  | none, .error _ => True
  | _, _ => False

theorem indentTo_agrees (lexer : Lexer) (spaces : Nat) :
    Agrees lexer.rest (lexer.scan.indentTo spaces) (lexer.indentTo spaces) := by
  have sameStack : lexer.scan.indentStack = lexer.indentStack := rfl
  rw [Scan.indentTo, indentTo, sameStack]
  simp only
  split
  · exact ⟨rfl, rfl⟩
  · split
    · obtain ⟨stack, items⟩ := popIndents_item lexer.line spaces lexer.indentStack lexer.items
      rw [stack]
      change Agrees _ (if (Scan.popIndents spaces lexer.indentStack
        (lexer.items.map LexItem.item)).1.headD 0 = spaces then _ else _) _
      split
      · refine ⟨?_, rfl⟩
        simp only [scan, items]
      · trivial
    · exact ⟨rfl, rfl⟩

theorem span_breaks {p : Char → Bool} (stops : p '\n' = false) {tail : List Char}
    (breaks : Breaks tail) (text : List Char) :
    (text ++ tail).takeWhile p = text.takeWhile p ∧
      (text ++ tail).dropWhile p = text.dropWhile p ++ tail := by
  induction text with
  | nil =>
      cases tail with
      | nil => exact ⟨rfl, rfl⟩
      | cons ch tail =>
          obtain rfl := breaks ch rfl
          simp [stops]
  | cons ch text ih =>
      by_cases inside : p ch = true
      · simp [inside, ih]
      · simp [inside]

theorem handleIndentation_agrees {lexer : Lexer} {line tail : List Char} (breaks : Breaks tail)
    (oneLine : '\n' ∉ line) (rest : lexer.rest = line ++ tail) :
    Agrees (line.dropWhile (· = ' ') ++ tail) (lexer.scan.indent line)
      lexer.handleIndentation := by
  obtain ⟨taken, dropped⟩ := span_breaks (p := (· = ' ')) rfl breaks line
  have after : (lexer.advanceBy (line.takeWhile (· = ' ')).length).rest =
      line.dropWhile (· = ' ') ++ tail := by
    rw [rest_advanceBy, rest, ← taken, drop_takeWhile, dropped]
  have blank : ((line.dropWhile (· = ' ') ++ tail).head?.all fun ch => ch = '\n' || ch = '#') =
      (line.dropWhile (· = ' ')).head?.all (· = '#') := by
    cases found : line.dropWhile (· = ' ') with
    | nil =>
        cases tail with
        | nil => rfl
        | cons ch tail =>
            obtain rfl := breaks ch rfl
            rfl
    | cons ch more =>
        have feed : ch ≠ '\n' := by
          rintro rfl
          apply oneLine
          apply (List.dropWhile_sublist (· = ' ')).mem
          rw [found]
          simp
        simp [feed]
  rw [handleIndentation, rest, taken, after, blank, Scan.indent, Scan.width?]
  by_cases quiet : (line.dropWhile (· = ' ')).head?.all (· = '#') = true
  · rw [if_pos quiet, if_pos quiet]
    exact ⟨rfl, after⟩
  · rw [if_neg quiet, if_neg quiet, ← after]
    exact indentTo_agrees _ _

theorem lexes_dropSpaces {line : List Char} {lexemes : List Lexeme} (lexes : Lexes line lexemes) :
    Lexes (line.dropWhile (· = ' ')) lexemes := by
  induction lexes with
  | nil => exact .nil
  | @skip ch text lexemes skipped lexes ih =>
      by_cases space : ch = ' '
      · rw [List.dropWhile_cons_of_pos (by simpa using space)]
        exact ih
      · rw [List.dropWhile_cons_of_neg (by simpa using space)]
        exact .skip skipped lexes
  | @lexeme text rest lexeme lexemes visible found lexes _ =>
      cases text with
      | nil => cases found
      | cons ch text =>
          have space : ch ≠ ' ' := by
            rintro rfl
            simp [isSkipped] at visible
          rw [List.dropWhile_cons_of_neg (by simpa using space)]
          exact .lexeme visible found lexes

/-- At a line boundary: the lexer goes on to the end of the line in step with the scan. -/
theorem continues_line {line : List Char} {lexemes : List Lexeme} (lexes : Lexes line lexemes)
    {tail : List Char} (oneLine : '\n' ∉ line) {lexer : Lexer}
    (rest : lexer.rest = line ++ '\n' :: tail) (atLine : lexer.AtLine) {result : Scan}
    (scanned : lexer.scan.line line lexemes = some result) :
    ∃ next, lexer.Continues next ∧ next.rest = '\n' :: tail ∧ next.atLineStart = false ∧
      next.scan = result := by
  have breaks : Breaks ('\n' :: tail) := by
    intro ch head
    exact (Option.some.inj head).symm
  by_cases outside : lexer.nestingDepth = 0
  · have start : lexer.atLineStart = true := atLine.trans (decide_eq_true outside)
    have nonempty : lexer.rest ≠ [] := by simp [rest]
    have agrees := handleIndentation_agrees breaks oneLine rest
    rw [Scan.line, if_pos (show lexer.scan.nestingDepth = 0 from outside),
      Option.map_eq_some_iff] at scanned
    obtain ⟨scan, indents, rfl⟩ := scanned
    rw [indents] at agrees
    cases handles : lexer.handleIndentation with
    | error fault => simp [handles, Agrees] at agrees
    | ok mid =>
        rw [handles] at agrees
        obtain ⟨rfl, midRest⟩ := agrees
        let inner := { mid with atLineStart := false }
        have steps : lexer.step = inner.step := by
          simp [step, start, inner, handles, bind, Except.bind, Functor.map, Except.map]
        have innerRest : inner.rest = line.dropWhile (· = ' ') ++ '\n' :: tail := midRest
        have innerNonempty : inner.rest ≠ [] := by simp [innerRest]
        have continues : lexer.Continues inner := by
          intro fuel enough
          have shorter := (List.dropWhile_sublist (l := line) (· = ' ')).length_le
          rw [rest, List.length_append, List.length_cons] at enough
          obtain ⟨fuel, rfl⟩ : ∃ less, fuel = less + 1 := ⟨fuel - 1, by omega⟩
          refine ⟨fuel + 1, ?_, by rw [loop_succ nonempty, loop_succ innerNonempty, steps]⟩
          rw [innerRest, List.length_append, List.length_cons]
          omega
        obtain ⟨next, reads, ends, inside, scans⟩ :=
          continues_lexemes (lexes_dropSpaces lexes) breaks innerRest rfl
        exact ⟨next, continues.trans reads, ends, inside, scans⟩
  · have inside : lexer.atLineStart = false := atLine.trans (decide_eq_false outside)
    obtain ⟨next, reads, ends, after, scans⟩ := continues_lexemes lexes breaks rest inside
    rw [Scan.line, if_neg (show ¬ lexer.scan.nestingDepth = 0 from outside)] at scanned
    exact ⟨next, reads, ends, after, scans.trans (Option.some.inj scanned)⟩

end Lexer

/-! ## Whole sources -/

/-- A line with its lexemes. -/
structure LexedLine where
  text : List Char
  lexemes : List Lexeme
  oneLine : '\n' ∉ text
  lexes : Lexes text lexemes

namespace Scan

def start : Scan :=
  { items := [], indentStack := [0], nestingDepth := 0, lineBlank := true }

/-- Lines that each end in a line break. -/
def run (scan : Scan) : List LexedLine → Option Scan
  | [] => some scan
  | line :: lines => (scan.line line.text line.lexemes).bind fun scan => scan.breakLine.run lines

/-- Close the open blocks and end the stream, in reading order. -/
def finish (scan : Scan) : List Item :=
  scan.items.reverse ++ List.replicate (scan.indentStack.length - 1) .dedent ++
    [.token .eof ""]

end Scan

namespace Lexer

theorem continues_run {lines : List LexedLine} {last : List Char} {lexer : Lexer}
    (rest : lexer.rest = Text.unlines (lines.map (·.text)) ++ last) (atLine : lexer.AtLine)
    {result : Scan} (scanned : lexer.scan.run lines = some result) :
    ∃ next, lexer.Continues next ∧ next.rest = last ∧ next.scan = result := by
  induction lines generalizing lexer with
  | nil => exact ⟨lexer, .refl lexer, rest, Option.some.inj scanned⟩
  | cons line lines ih =>
      have whole : lexer.rest =
          line.text ++ '\n' :: (Text.unlines (lines.map (·.text)) ++ last) := by
        rw [rest]
        simp [Text.unlines]
      rw [Scan.run, Option.bind_eq_some_iff] at scanned
      obtain ⟨scan, read, runs⟩ := scanned
      obtain ⟨mid, continues, midRest, inside, rfl⟩ :=
        continues_line line.lexes line.oneLine whole atLine read
      obtain ⟨next, broken, nextRest, nextLine, nextScan⟩ := continues_newline midRest inside
      rw [← nextScan] at runs
      obtain ⟨final, later, finalRest, finalScan⟩ := ih nextRest nextLine runs
      exact ⟨final, (continues.trans broken).trans later, finalRest, finalScan⟩

theorem finish_item (lexer : Lexer) :
    lexer.finish.map LexItem.item = lexer.scan.finish := by
  simp [finish, Scan.finish, scan, LexItem.item, Item.dedent, Token.eof]

theorem loop_end {lexer : Lexer} (ends : lexer.rest = []) (fuel : Nat) :
    lexer.loop fuel = .ok lexer := by
  cases fuel <;> simp [loop, ends]

end Lexer

/-- What the lexer makes of a source whose lines read as lexemes of their own. -/
theorem lexItems_of_source {text : List Char} {lines : List LexedLine}
    (whole : normalizeLineEndings text = Text.unlines (lines.map (·.text))) {scan : Scan}
    (scanned : Scan.start.run lines = some scan) :
    ∃ items, lexItems text = .ok items ∧ items.map LexItem.item = scan.finish := by
  have begins : (Lexer.new text).rest = Text.unlines (lines.map (·.text)) ++ [] := by
    rw [List.append_nil]
    exact whole
  obtain ⟨lexer, continues, ends, rfl⟩ := Lexer.continues_run begins rfl scanned
  obtain ⟨left, -, same⟩ := continues (normalizeLineEndings text).length (Nat.le_refl _)
  refine ⟨lexer.finish, ?_, lexer.finish_item⟩
  rw [lexItems, same, Lexer.loop_end ends]
  rfl

end Marreta
