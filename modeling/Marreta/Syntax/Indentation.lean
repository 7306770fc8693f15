import Marreta.Syntax.Scan

namespace Marreta

/-! The layout tokens of a source: line breaks, indents and dedents, and where
they can stand in the lexer's output.

Indentation, newline suppression, bracket nesting and the removal of a line break
before a leading `>>` all change the same list of tokens.  `WellLaid` is what they
keep together, and every state the lexer passes through satisfies it. -/

namespace TokenKind

def isLayout : TokenKind → Bool
  | .newline | .indent | .dedent => true
  | _ => false

def isOpening : TokenKind → Bool
  | .leftParen | .leftBracket | .leftBrace => true
  | _ => false

def isClosing : TokenKind → Bool
  | .rightParen | .rightBracket | .rightBrace => true
  | _ => false

end TokenKind

/-! ## What one turn of the lexer reads -/

theorem numberKind_solid {span : List Char} {hasDot : Bool} {kind : TokenKind}
    (known : Lexer.numberKind span hasDot = some kind) :
    kind.isLayout = false ∧ kind ≠ .eof := by
  rw [Lexer.numberKind] at known
  split at known
  · obtain rfl := Option.some.inj known
    exact ⟨rfl, by simp⟩
  · split at known
    · obtain rfl := Option.some.inj known
      exact ⟨rfl, by simp⟩
    · cases known

theorem wordKind_solid (word : String) :
    (Lexer.wordKind word).isLayout = false ∧ Lexer.wordKind word ≠ .eof := by
  unfold Lexer.wordKind keywordLookup
  split <;> exact ⟨rfl, by simp⟩

theorem operatorAt_solid {text : List Char} {kind : TokenKind} {lexeme : String}
    (reads : Lexer.operatorAt text = some (kind, lexeme)) :
    kind.isLayout = false ∧ kind ≠ .eof := by
  cases text with
  | nil => cases reads
  | cons ch rest =>
      simp only [Lexer.operatorAt] at reads
      split at reads
      all_goals repeat' split at reads
      all_goals cases reads
      all_goals exact ⟨rfl, by simp⟩

/-- Layout is never spelled out: the lexemes of a text are other tokens. -/
theorem lexemeAt_solid {text rest : List Char} {kind : TokenKind} {lexeme : String}
    (found : lexemeAt text = some (.token kind lexeme, rest)) :
    kind.isLayout = false ∧ kind ≠ .eof := by
  cases text with
  | nil => cases found
  | cons ch text =>
      simp only [lexemeAt] at found
      split at found
      · cases found
      split at found
      · obtain ⟨body, -, same⟩ := Option.map_eq_some_iff.mp found
        cases same
        exact ⟨rfl, by simp⟩
      split at found
      · split at found
        · cases found
        · obtain ⟨known, numbers, same⟩ := Option.map_eq_some_iff.mp found
          cases same
          exact numberKind_solid numbers
      split at found
      · cases found
        exact wordKind_solid _
      · obtain ⟨operator, reads, same⟩ := Option.map_eq_some_iff.mp found
        cases same
        exact operatorAt_solid reads

namespace Lexer

/-- A text without a lexeme at its head stops the lexer. -/
theorem readItem_of_lexemeAt_eq_none {lexer : Lexer}
    (visible : lexer.rest.head?.any (fun ch => !isSkipped ch && ch ≠ '\n') = true)
    (absent : lexemeAt lexer.rest = none) : ∃ fault, lexer.readItem = .error fault := by
  cases head : lexer.rest with
  | nil => simp [head] at visible
  | cons ch text =>
      rw [head] at absent visible
      have plain : ¬ (ch = ' ' ∨ ch = '\t' ∨ ch = '\r') ∧ ch ≠ '\n' := by
        simpa [isSkipped, and_assoc] using visible
      simp only [readItem, head, if_neg plain.1, if_neg plain.2]
      simp only [lexemeAt] at absent
      split at absent
      · cases absent
      rename_i hash
      rw [if_neg hash]
      split at absent
      · rename_i quote
        rw [Option.map_eq_none_iff] at absent
        rw [if_pos quote, readString, head, List.drop_one, List.tail_cons, absent]
        exact ⟨_, rfl⟩
      rename_i quote
      rw [if_neg quote]
      split at absent
      · rename_i digit
        rw [if_pos digit, readNumber, head]
        cases spans : numberSpan (ch :: text) false with
        | error _ => exact ⟨_, rfl⟩
        | ok result =>
            simp only [spans, Option.map_eq_none_iff] at absent
            simp only [absent]
            exact ⟨_, rfl⟩
      rename_i digit
      rw [if_neg digit]
      split at absent
      · cases absent
      · rename_i word
        rw [Option.map_eq_none_iff] at absent
        rw [if_neg word, absent]
        exact ⟨_, rfl⟩

/-- What one turn can read: a blank, a line break or a lexeme. -/
theorem readItem_cases {lexer next : Lexer} (reads : lexer.readItem = .ok next) :
    (∃ ch rest, lexer.rest = ch :: rest ∧ isSkipped ch = true ∧ next = lexer.advanceBy 1) ∨
      (∃ rest, lexer.rest = '\n' :: rest ∧ next = lexer.handleNewline) ∨
      ∃ lexeme rest, lexer.rest.head?.any (fun ch => !isSkipped ch && ch ≠ '\n') = true ∧
        lexemeAt lexer.rest = some (lexeme, rest) ∧ next.rest = rest ∧
        next.scan = lexer.scan.read lexeme ∧ next.atLineStart = lexer.atLineStart := by
  cases head : lexer.rest with
  | nil => simp [readItem, head] at reads
  | cons ch rest =>
      by_cases skipped : isSkipped ch = true
      · rw [readItem_skip head skipped] at reads
        exact .inl ⟨ch, rest, rfl, skipped, (Except.ok.inj reads).symm⟩
      by_cases feed : ch = '\n'
      · subst feed
        rw [readItem_newline head] at reads
        exact .inr (.inl ⟨rest, rfl, (Except.ok.inj reads).symm⟩)
      have visible : lexer.rest.head?.any (fun ch => !isSkipped ch && ch ≠ '\n') = true := by
        simp [head, skipped, feed]
      cases found : lexemeAt lexer.rest with
      | none =>
          obtain ⟨fault, fails⟩ := readItem_of_lexemeAt_eq_none visible found
          rw [fails] at reads
          cases reads
      | some result =>
          obtain ⟨lexeme, after⟩ := result
          obtain ⟨other, same, ends, scans, start⟩ := readItem_lexeme visible found
          obtain rfl : other = next := by
            rw [same] at reads
            exact Except.ok.inj reads
          rw [head] at visible found
          exact .inr (.inr ⟨lexeme, after, visible, found, ends, scans, start⟩)

end Lexer

/-- The indentation at the head of a text is compared with the open blocks, unless
the line is blank or holds a comment only. -/
def Scan.indentAt (scan : Scan) (text : List Char) : Option Scan :=
  if (text.dropWhile (· = ' ')).head?.all (fun ch => ch = '\n' || ch = '#') then some scan
  else scan.indentTo (text.takeWhile (· = ' ')).length

namespace Lexer

theorem handleIndentation_at (lexer : Lexer) :
    Agrees (lexer.rest.dropWhile (· = ' ')) (lexer.scan.indentAt lexer.rest)
      lexer.handleIndentation := by
  have rest : (lexer.advanceBy (lexer.rest.takeWhile (· = ' ')).length).rest =
      lexer.rest.dropWhile (· = ' ') := drop_takeWhile lexer.rest
  rw [handleIndentation, Scan.indentAt]
  simp only [rest]
  split
  · exact ⟨rfl, rest⟩
  · rw [← rest]
    exact indentTo_agrees _ _

theorem handleIndentation_eq_ok {lexer next : Lexer}
    (handles : lexer.handleIndentation = .ok next) :
    lexer.scan.indentAt lexer.rest = some next.scan ∧
      next.rest = lexer.rest.dropWhile (· = ' ') := by
  have agrees := lexer.handleIndentation_at
  rw [handles] at agrees
  cases indents : lexer.scan.indentAt lexer.rest with
  | none => simp [indents, Agrees] at agrees
  | some scan =>
      rw [indents] at agrees
      obtain ⟨rfl, rest⟩ := agrees
      exact ⟨rfl, rest⟩

/-- A turn of the main loop reads one item, at a line start after its indentation. -/
theorem step_cases {lexer next : Lexer} (steps : lexer.step = .ok next) :
    (lexer.atLineStart = false ∧ lexer.readItem = .ok next) ∨
      (lexer.atLineStart = true ∧ ∃ middle, lexer.handleIndentation = .ok middle ∧
        ({ middle with atLineStart := false } : Lexer).readItem = .ok next) := by
  cases start : lexer.atLineStart with
  | false =>
      rw [step_inside start] at steps
      exact .inl ⟨rfl, steps⟩
  | true =>
      cases handles : lexer.handleIndentation with
      | error fault =>
          simp [step, start, handles, bind, Except.bind, Functor.map, Except.map] at steps
      | ok middle =>
          refine .inr ⟨rfl, middle, rfl, ?_⟩
          simpa [step, start, handles, bind, Except.bind, Functor.map, Except.map] using steps

/-- The states of the lexer on its way through a source: at the start, after the
indentation of a line and after each item. -/
inductive Passes (source : List Char) : Lexer → Prop
  | start : Passes source (new source)
  | indent {lexer next : Lexer} : Passes source lexer → lexer.rest ≠ [] →
      lexer.atLineStart = true → lexer.handleIndentation = .ok next →
        Passes source { next with atLineStart := false }
  | item {lexer next : Lexer} : Passes source lexer → lexer.atLineStart = false →
      lexer.readItem = .ok next → Passes source next

theorem Passes.step {source : List Char} {lexer next : Lexer} (passes : Passes source lexer)
    (nonempty : lexer.rest ≠ []) (steps : lexer.step = .ok next) : Passes source next := by
  rcases step_cases steps with ⟨inside, reads⟩ | ⟨start, middle, handles, reads⟩
  · exact passes.item inside reads
  · exact (passes.indent nonempty start handles).item rfl reads

theorem Passes.loop {source : List Char} {lexer final : Lexer} {fuel : Nat}
    (passes : Passes source lexer) (loops : lexer.loop fuel = .ok final) :
    Passes source final := by
  induction fuel generalizing lexer with
  | zero =>
      rw [Lexer.loop] at loops
      split at loops
      · obtain rfl := Except.ok.inj loops
        exact passes
      · cases loops
  | succ fuel ih =>
      by_cases ends : lexer.rest = []
      · rw [loop_end ends] at loops
        obtain rfl := Except.ok.inj loops
        exact passes
      · rw [loop_succ ends] at loops
        cases steps : lexer.step with
        | error fault => simp [steps, bind, Except.bind] at loops
        | ok next =>
            rw [steps] at loops
            exact ih (passes.step ends steps) loops

end Lexer

/-! ## Tokens, newest first -/

/-- The depth of bracket nesting after the given tokens, newest first. -/
def depthOf : List TokenKind → Nat
  | [] => 0
  | kind :: kinds => Lexer.nestingAfter (depthOf kinds) kind

/-- Tokens, newest first, each of which could follow the ones before it. -/
inductive LaidOut : List TokenKind → Prop
  | nil : LaidOut []
  | cons {kind : TokenKind} {kinds : List TokenKind} : LaidOut kinds → kind ≠ .eof →
      (kind = .newline → kinds ≠ [] ∧ kinds.head? ≠ some .newline) →
      (kind.isLayout = true → depthOf kinds = 0) →
      (kind = .dedent → kinds.count .dedent < kinds.count .indent) →
        LaidOut (kind :: kinds)

namespace LaidOut

theorem suffix {kinds earlier : List TokenKind} (laid : LaidOut kinds)
    (suffix : earlier <:+ kinds) : LaidOut earlier := by
  induction laid with
  | nil =>
      rw [List.suffix_nil.mp suffix]
      exact .nil
  | @cons kind kinds laid eof newline depth dedent ih =>
      rcases List.suffix_cons_iff.mp suffix with rfl | shorter
      · exact .cons laid eof newline depth dedent
      · exact ih shorter

theorem solid {kind : TokenKind} {kinds : List TokenKind} (laid : LaidOut kinds)
    (solid : kind.isLayout = false ∧ kind ≠ .eof) : LaidOut (kind :: kinds) := by
  obtain ⟨plain, eof⟩ := solid
  refine laid.cons eof ?_ ?_ ?_
  · rintro rfl
    cases plain
  · intro layout
    rw [plain] at layout
    cases layout
  · rintro rfl
    cases plain

theorem dedents_le {kinds : List TokenKind} (laid : LaidOut kinds) :
    kinds.count .dedent ≤ kinds.count .indent := by
  induction laid with
  | nil => simp
  | @cons kind kinds _ _ _ _ dedent ih =>
      rw [List.count_cons, List.count_cons]
      by_cases closes : kind = .dedent
      · have fewer := dedent closes
        simp [closes]
        omega
      · simp [closes]
        omega

/-- Dedents up to the number of open blocks, outside brackets. -/
theorem dedents {kinds : List TokenKind} (laid : LaidOut kinds)
    (outside : depthOf kinds = 0) {count : Nat}
    (enough : kinds.count .dedent + count ≤ kinds.count .indent) :
    LaidOut (List.replicate count .dedent ++ kinds) ∧
      depthOf (List.replicate count .dedent ++ kinds) = 0 := by
  induction count with
  | zero => exact ⟨laid, outside⟩
  | succ count ih =>
      obtain ⟨closed, level⟩ := ih (by omega)
      refine ⟨closed.cons (by simp) (by simp) (fun _ => level) fun _ => ?_, level⟩
      simp only [List.count_append, List.count_replicate]
      simp
      omega

end LaidOut

/-! ## The invariant of the lexer -/

/-- Widths of the open blocks, innermost first. -/
structure Nested (indentStack : List Nat) : Prop where
  base : indentStack.getLast? = some 0
  inner : indentStack.Pairwise (· > ·)

theorem Nested.nonempty {stack : List Nat} (nested : Nested stack) : stack ≠ [] := by
  rintro rfl
  cases nested.base

theorem Nested.drop {indentStack : List Nat} (nested : Nested indentStack) {count : Nat}
    (fewer : count < indentStack.length) : Nested (indentStack.drop count) := by
  refine ⟨?_, nested.inner.drop⟩
  rw [List.getLast?_drop, if_neg (by omega)]
  exact nested.base

theorem Nested.push {indentStack : List Nat} (nested : Nested indentStack) {spaces : Nat}
    (deeper : indentStack.headD 0 < spaces) : Nested (spaces :: indentStack) := by
  obtain ⟨base, inner⟩ := nested
  cases indentStack with
  | nil => cases base
  | cons top stack =>
      refine ⟨by simpa using base, List.pairwise_cons.mpr ⟨fun width member => ?_, inner⟩⟩
      have outer : width ≤ top := by
        rcases List.mem_cons.mp member with rfl | member
        · exact Nat.le_refl _
        · exact Nat.le_of_lt (List.rel_of_pairwise_cons inner member)
      change top < spaces at deeper
      omega

namespace Scan

structure WellLaid (scan : Scan) : Prop where
  laid : LaidOut scan.kinds
  depth : depthOf scan.kinds = scan.nestingDepth
  nested : Nested scan.indentStack
  blocks : scan.kinds.count .indent = scan.kinds.count .dedent + (scan.indentStack.length - 1)

theorem wellLaid_start : start.WellLaid :=
  ⟨.nil, rfl, ⟨rfl, List.pairwise_singleton _ _⟩, rfl⟩

/-- Drop the line break before a continuation operator, newest token first. -/
def withoutNewline : List TokenKind → List TokenKind
  | [] => []
  | kind :: kinds =>
      match kind with
      | .indent | .dedent => kind :: withoutNewline kinds
      | .newline => kinds
      | _ => kind :: kinds

theorem kinds_removeNewline (items : List Item) :
    (removeNewline items).filterMap Item.kind? = withoutNewline (items.filterMap Item.kind?) := by
  induction items with
  | nil => rfl
  | cons item items ih =>
      cases item with
      | comment text ownLine => exact ih
      | token kind lexeme =>
          change _ = withoutNewline (kind :: items.filterMap Item.kind?)
          rw [removeNewline.eq_def]
          simp only
          split
          · rw [withoutNewline, ← ih]
            rfl
          · rw [withoutNewline, ← ih]
            rfl
          · rfl
          · rw [withoutNewline]
            · rfl
            all_goals assumption

theorem kinds_read_token (scan : Scan) (kind : TokenKind) (lexeme : String) :
    (scan.read (.token kind lexeme)).kinds =
      kind :: if kind = .pipeline then withoutNewline scan.kinds else scan.kinds := by
  by_cases pipeline : kind = .pipeline
  · have removed := kinds_removeNewline scan.items
    simpa [Scan.kinds, Scan.read, pipeline, Item.kind?] using removed
  · simp [Scan.kinds, Scan.read, pipeline, Item.kind?]

theorem count_withoutNewline {kind : TokenKind} (other : kind ≠ .newline) (kinds : List TokenKind) :
    (withoutNewline kinds).count kind = kinds.count kind := by
  induction kinds with
  | nil => rfl
  | cons first kinds ih =>
      rw [withoutNewline.eq_def]
      simp only
      split
      · rw [List.count_cons, List.count_cons, ih]
      · rw [List.count_cons, List.count_cons, ih]
      · exact (List.count_cons_of_ne other.symm).symm
      · rfl

/-- Taking a line break back keeps the nesting and the blocks. -/
theorem laidOut_withoutNewline {kinds : List TokenKind} (laid : LaidOut kinds) :
    LaidOut (withoutNewline kinds) ∧ depthOf (withoutNewline kinds) = depthOf kinds := by
  induction laid with
  | nil => exact ⟨.nil, rfl⟩
  | @cons kind kinds laid eof newline depth dedent ih =>
      obtain ⟨shorter, level⟩ := ih
      rw [withoutNewline.eq_def]
      simp only
      split
      -- The layout tokens of the operator's own line stay.
      iterate 2
        refine ⟨shorter.cons eof (by simp) (fun layout => level.trans (depth layout)) ?_, level⟩
        rw [count_withoutNewline (by simp), count_withoutNewline (by simp)]
        exact dedent
      · exact ⟨laid, rfl⟩
      · exact ⟨laid.cons eof newline depth dedent, rfl⟩

theorem WellLaid.read {scan : Scan} (well : scan.WellLaid) {lexeme : Lexeme}
    (solid : ∀ kind text, lexeme = .token kind text → kind.isLayout = false ∧ kind ≠ .eof) :
    (scan.read lexeme).WellLaid := by
  cases lexeme with
  | comment text => exact ⟨well.laid, well.depth, well.nested, well.blocks⟩
  | token kind text =>
      have plain := solid kind text rfl
      have earlier : ∃ kinds, (scan.read (.token kind text)).kinds = kind :: kinds ∧
          LaidOut kinds ∧ depthOf kinds = depthOf scan.kinds ∧
          ∀ kind, kind ≠ .newline → kinds.count kind = scan.kinds.count kind := by
        rw [kinds_read_token]
        split
        · obtain ⟨laid, level⟩ := laidOut_withoutNewline well.laid
          exact ⟨_, rfl, laid, level, fun _ other => count_withoutNewline other _⟩
        · exact ⟨_, rfl, well.laid, rfl, fun _ _ => rfl⟩
      obtain ⟨before, same, laid, level, counts⟩ := earlier
      have other : ∀ layout : TokenKind, layout.isLayout = true → kind ≠ layout := by
        rintro layout isLayout rfl
        rw [plain.1] at isLayout
        cases isLayout
      refine ⟨?_, ?_, well.nested, ?_⟩
      · rw [same]
        exact laid.solid plain
      · rw [same, depthOf, level, well.depth]
        rfl
      · rw [same, List.count_cons_of_ne (other _ rfl), List.count_cons_of_ne (other _ rfl),
          counts _ (by simp), counts _ (by simp)]
        exact well.blocks

theorem popIndents_spec (spaces : Nat) {stack : List Nat} (nonempty : stack ≠ [])
    (items : List Item) :
    ∃ count, count < stack.length ∧ popIndents spaces stack items =
      (stack.drop count, List.replicate count .dedent ++ items) := by
  induction stack generalizing items with
  | nil => exact absurd rfl nonempty
  | cons top stack ih =>
      cases stack with
      | nil => exact ⟨0, by simp, rfl⟩
      | cons next stack =>
          rw [popIndents]
          split
          · obtain ⟨count, fewer, same⟩ := ih (by simp) (.dedent :: items)
            refine ⟨count + 1, by simpa using fewer, ?_⟩
            rw [same, List.replicate_succ', List.append_assoc]
            rfl
          · exact ⟨0, by simp, rfl⟩

/-- What a change of indentation puts out: nothing, an indent, or dedents. -/
theorem indentTo_cases {scan next : Scan} {spaces : Nat} (nonempty : scan.indentStack ≠ [])
    (indents : scan.indentTo spaces = some next) :
    next = scan ∧ scan.indentStack.headD 0 = spaces ∨
      scan.indentStack.headD 0 < spaces ∧ next = { scan with
        items := .indent :: scan.items, indentStack := spaces :: scan.indentStack } ∨
      ∃ count, spaces < scan.indentStack.headD 0 ∧ count < scan.indentStack.length ∧
        (scan.indentStack.drop count).headD 0 = spaces ∧ next = { scan with
          items := List.replicate count .dedent ++ scan.items
          indentStack := scan.indentStack.drop count } := by
  rw [indentTo] at indents
  split at indents
  · rename_i deeper
    exact .inr (.inl ⟨deeper, (Option.some.inj indents).symm⟩)
  split at indents
  · rename_i shallower
    obtain ⟨count, fewer, pops⟩ := popIndents_spec spaces nonempty scan.items
    rw [pops] at indents
    simp only at indents
    split at indents
    · rename_i lands
      exact .inr (.inr ⟨count, shallower, fewer, lands, (Option.some.inj indents).symm⟩)
    · cases indents
  · refine .inl ⟨(Option.some.inj indents).symm, ?_⟩
    omega

theorem kinds_dedents (count : Nat) (items : List Item) :
    (List.replicate count Item.dedent ++ items).filterMap Item.kind? =
      List.replicate count .dedent ++ items.filterMap Item.kind? := by
  induction count with
  | zero => rfl
  | succ count ih => simpa [List.replicate_succ, Item.kind?, Item.dedent] using ih

theorem WellLaid.indentTo {scan next : Scan} (well : scan.WellLaid)
    (outside : scan.nestingDepth = 0) {spaces : Nat}
    (indents : scan.indentTo spaces = some next) :
    next.WellLaid ∧ next.nestingDepth = 0 := by
  have level : depthOf scan.kinds = 0 := well.depth.trans outside
  have positive := List.length_pos_iff.mpr well.nested.nonempty
  have blocks := well.blocks
  rcases indentTo_cases well.nested.nonempty indents with
    ⟨rfl, -⟩ | ⟨deeper, rfl⟩ | ⟨count, -, fewer, -, rfl⟩
  · exact ⟨well, outside⟩
  · have kinds : ({ scan with
        items := .indent :: scan.items
        indentStack := spaces :: scan.indentStack } : Scan).kinds = .indent :: scan.kinds := rfl
    refine ⟨⟨?_, ?_, well.nested.push deeper, ?_⟩, outside⟩
    · rw [kinds]
      exact well.laid.cons (by simp) (by simp) (fun _ => level) (by simp)
    · rw [kinds]
      exact well.depth
    · rw [kinds, List.count_cons_self, List.count_cons_of_ne (by simp), List.length_cons]
      omega
  · have kinds : ({ scan with
        items := List.replicate count .dedent ++ scan.items
        indentStack := scan.indentStack.drop count } : Scan).kinds =
          List.replicate count .dedent ++ scan.kinds := kinds_dedents count scan.items
    have enough : scan.kinds.count .dedent + count ≤ scan.kinds.count .indent := by omega
    obtain ⟨laid, zero⟩ := well.laid.dedents level enough
    refine ⟨⟨?_, ?_, well.nested.drop fewer, ?_⟩, outside⟩
    · rw [kinds]
      exact laid
    · rw [kinds, zero]
      exact outside.symm
    · rw [kinds]
      simp only [List.count_append, List.count_replicate, List.length_drop]
      simp
      omega

theorem WellLaid.breakLine {scan : Scan} (well : scan.WellLaid) : scan.breakLine.WellLaid := by
  rw [Scan.breakLine]
  split
  · exact ⟨well.laid, well.depth, well.nested, well.blocks⟩
  split
  · exact ⟨well.laid, well.depth, well.nested, well.blocks⟩
  · rename_i nesting plain
    have outside : depthOf scan.kinds = 0 := by
      rw [well.depth]
      omega
    have follows : shouldSuppressNewline scan.kinds = false ∧
        scan.kinds.head? ≠ some .newline := by
      simpa using plain
    refine ⟨well.laid.cons (by simp) (fun _ => ⟨?_, follows.2⟩) (fun _ => outside) (by simp),
      well.depth, well.nested, ?_⟩
    · intro empty
      rw [empty] at follows
      cases follows.1
    · change (TokenKind.newline :: scan.kinds).count _ = (TokenKind.newline :: scan.kinds).count _ + _
      rw [List.count_cons_of_ne (by simp), List.count_cons_of_ne (by simp)]
      exact well.blocks

end Scan

/-- The indentation of a line is looked at outside brackets only. -/
theorem Lexer.Passes.wellLaid {source : List Char} {lexer : Lexer}
    (passes : Lexer.Passes source lexer) :
    lexer.scan.WellLaid ∧ (lexer.atLineStart = true → lexer.nestingDepth = 0) := by
  induction passes with
  | start => exact ⟨Scan.wellLaid_start, fun _ => rfl⟩
  | @indent lexer next _ _ start handles ih =>
      obtain ⟨well, outside⟩ := ih
      refine ⟨?_, by simp⟩
      change next.scan.WellLaid
      obtain ⟨indents, -⟩ := Lexer.handleIndentation_eq_ok handles
      rw [Scan.indentAt] at indents
      split at indents
      · rw [← Option.some.inj indents]
        exact well
      · exact (well.indentTo (outside start) indents).1
  | @item lexer next _ inside reads ih =>
      obtain ⟨well, -⟩ := ih
      rcases Lexer.readItem_cases reads with
        ⟨ch, rest, -, -, rfl⟩ | ⟨rest, -, rfl⟩ | ⟨lexeme, rest, -, found, -, scans, start⟩
      · refine ⟨well, fun start => ?_⟩
        change lexer.atLineStart = true at start
        rw [inside] at start
        cases start
      · obtain ⟨scans, -, atLine⟩ := Lexer.handleNewline_spec lexer
        refine ⟨?_, fun start => ?_⟩
        · rw [scans]
          exact well.breakLine
        · rw [Lexer.AtLine, start] at atLine
          exact of_decide_eq_true atLine.symm
      · refine ⟨?_, fun starts => ?_⟩
        · rw [scans]
          apply well.read
          rintro kind text rfl
          exact lexemeAt_solid found
        · rw [start, inside] at starts
          cases starts

/-! ## Whole sources -/

/-- Tokens in which the brackets close each other, whatever their shapes. -/
structure Balanced (kinds : List TokenKind) : Prop where
  opened : ∀ before after, kinds = before ++ after →
    before.countP TokenKind.isClosing ≤ before.countP TokenKind.isOpening
  closed : kinds.countP TokenKind.isClosing = kinds.countP TokenKind.isOpening

/-- A token stream, in reading order, whose layout tokens are well formed. -/
structure WellFormedLayout (kinds : List TokenKind) : Prop where
  ends : ∃ body, kinds = body ++ [.eof] ∧ .eof ∉ body
  leads : ∀ before after, kinds = before ++ after →
    before.count .dedent ≤ before.count .indent
  closes : kinds.count .indent = kinds.count .dedent
  apart : ∀ before after, kinds ≠ before ++ .newline :: .newline :: after
  first : kinds.head? ≠ some .newline
  bracketed : ∀ before opening inside closing after,
    kinds = before ++ opening :: (inside ++ closing :: after) → opening.isOpening = true →
    closing.isClosing = true → Balanced inside → ∀ kind ∈ inside, kind.isLayout = false

/-- A token opens a bracket, closes one, or leaves the nesting as it is. -/
theorem bracket_cases (kind : TokenKind) :
    (kind.isOpening = true ∧ kind.isClosing = false ∧
        ∀ depth, Lexer.nestingAfter depth kind = depth + 1) ∨
      (kind.isOpening = false ∧ kind.isClosing = true ∧
        ∀ depth, Lexer.nestingAfter depth kind = depth - 1) ∨
      (kind.isOpening = false ∧ kind.isClosing = false ∧
        ∀ depth, Lexer.nestingAfter depth kind = depth) := by
  cases kind
  case leftParen | leftBracket | leftBrace => exact .inl ⟨rfl, rfl, fun _ => rfl⟩
  case rightParen | rightBracket | rightBrace => exact .inr (.inl ⟨rfl, rfl, fun _ => rfl⟩)
  all_goals exact .inr (.inr ⟨rfl, rfl, fun _ => rfl⟩)

theorem nestingAfter_add {depth : Nat} {kind : TokenKind}
    (inside : kind.isClosing = true → kind.isOpening = false → 0 < depth) :
    Lexer.nestingAfter depth kind + (if kind.isClosing then 1 else 0) =
      depth + (if kind.isOpening then 1 else 0) := by
  rcases bracket_cases kind with ⟨opens, closes, after⟩ | ⟨opens, closes, after⟩ |
    ⟨opens, closes, after⟩
  · simp [opens, closes, after]
  · have positive := inside closes opens
    simp [opens, closes, after]
    omega
  · simp [opens, closes, after]

/-- Behind tokens that do not close more than is open, the nesting depth is what
was open and what they opened. -/
theorem depthOf_add {kinds earlier : List TokenKind}
    (opened : ∀ before after, kinds = before ++ after →
      before.countP TokenKind.isClosing ≤ depthOf earlier + before.countP TokenKind.isOpening) :
    depthOf (kinds.reverse ++ earlier) + kinds.countP TokenKind.isClosing =
      depthOf earlier + kinds.countP TokenKind.isOpening := by
  induction kinds generalizing earlier with
  | nil => rfl
  | cons kind kinds ih =>
      have level : depthOf (kind :: earlier) + (if kind.isClosing then 1 else 0) =
          depthOf earlier + (if kind.isOpening then 1 else 0) := by
        apply nestingAfter_add
        intro closing plain
        have one := opened [kind] kinds rfl
        simp [closing, plain] at one
        omega
      have rest : depthOf (kinds.reverse ++ kind :: earlier) + kinds.countP TokenKind.isClosing =
          depthOf (kind :: earlier) + kinds.countP TokenKind.isOpening := by
        apply ih
        intro before after same
        have longer := opened (kind :: before) after (by rw [same]; rfl)
        rw [List.countP_cons, List.countP_cons] at longer
        omega
      rw [List.reverse_cons, List.append_assoc, List.singleton_append, List.countP_cons,
        List.countP_cons]
      omega

/-- What stands before a token that is no dedent was there before the open blocks
were closed. -/
theorem suffix_of_finished {kind : TokenKind} {kinds all : List TokenKind} {count : Nat}
    (suffix : kind :: kinds <:+ .eof :: (List.replicate count .dedent ++ all))
    (eof : kind ≠ .eof) (dedent : kind ≠ .dedent) : kind :: kinds <:+ all := by
  rcases List.suffix_cons_iff.mp suffix with same | shorter
  · exact absurd (List.cons.inj same).1 eof
  induction count with
  | zero => exact shorter
  | succ count ih =>
      rcases List.suffix_cons_iff.mp shorter with same | shorter
      · exact absurd (List.cons.inj same).1 dedent
      · exact ih (shorter.trans (List.suffix_cons _ _)) shorter

namespace LaidOut

variable {kinds : List TokenKind} {count : Nat}

/-- The tokens of a source in reading order, its open blocks closed. -/
def finished (count : Nat) (kinds : List TokenKind) : List TokenKind :=
  kinds.reverse ++ List.replicate count .dedent ++ [.eof]

theorem reverse_finished (count : Nat) (kinds : List TokenKind) :
    (finished count kinds).reverse = .eof :: (List.replicate count .dedent ++ kinds) := by
  simp [finished]

theorem suffix_of_eq {before after : List TokenKind} (same : finished count kinds = before ++ after) :
    before.reverse <:+ .eof :: (List.replicate count .dedent ++ kinds) := by
  rw [← reverse_finished, same, List.reverse_append]
  exact List.suffix_append _ _

theorem eof_not_mem (laid : LaidOut kinds) : .eof ∉ kinds := by
  induction laid with
  | nil => simp
  | cons _ eof _ _ _ ih => simp [eof.symm, ih]

theorem dedents_le_of_suffix (laid : LaidOut kinds)
    (blocks : kinds.count .indent = kinds.count .dedent + count) {earlier : List TokenKind}
    (suffix : earlier <:+ .eof :: (List.replicate count .dedent ++ kinds)) :
    earlier.count .dedent ≤ earlier.count .indent := by
  have open_ : ∀ fewer ≤ count, ∀ earlier,
      earlier <:+ List.replicate fewer TokenKind.dedent ++ kinds →
      earlier.count .dedent ≤ earlier.count .indent := by
    intro fewer
    induction fewer with
    | zero => exact fun _ earlier suffix => (laid.suffix suffix).dedents_le
    | succ fewer ih =>
        intro le earlier suffix
        rcases List.suffix_cons_iff.mp suffix with rfl | shorter
        · simp [List.count_append, List.count_replicate]
          omega
        · exact ih (by omega) earlier shorter
  rcases List.suffix_cons_iff.mp suffix with rfl | shorter
  · rw [List.count_cons_of_ne (by simp), List.count_cons_of_ne (by simp)]
    exact open_ count (Nat.le_refl _) _ List.suffix_rfl
  · exact open_ count (Nat.le_refl _) earlier shorter

theorem wellFormed (laid : LaidOut kinds)
    (blocks : kinds.count .indent = kinds.count .dedent + count) :
    WellFormedLayout (finished count kinds) := by
  refine ⟨⟨_, rfl, ?_⟩, ?_, ?_, ?_, ?_, ?_⟩
  · simp [laid.eof_not_mem]
  · intro before after same
    have fewer := dedents_le_of_suffix laid blocks (suffix_of_eq same)
    rwa [List.count_reverse, List.count_reverse] at fewer
  · simp [finished, List.count_append, List.count_replicate, blocks]
  · intro before after same
    have regrouped : finished count kinds = (before ++ [.newline, .newline]) ++ after := by
      simpa using same
    have suffix := suffix_of_eq regrouped
    rw [List.reverse_append] at suffix
    cases laid.suffix (suffix_of_finished suffix (by simp) (by simp)) with
    | cons _ _ newline _ _ => exact (newline rfl).2 rfl
  · intro head
    obtain ⟨after, same⟩ := List.head?_eq_some_iff.mp head
    have split : finished count kinds = [.newline] ++ after := same
    have suffix := suffix_of_eq split
    cases laid.suffix (suffix_of_finished suffix (by simp) (by simp)) with
    | cons _ _ newline _ _ => exact (newline rfl).1 rfl
  · intro before opening inside closing after same opens closes balanced kind member
    have regrouped : finished count kinds =
        (before ++ opening :: (inside ++ [closing])) ++ after := by
      simpa using same
    have suffix := suffix_of_eq regrouped
    have reversed : (before ++ opening :: (inside ++ [closing])).reverse =
        closing :: (inside.reverse ++ opening :: before.reverse) := by simp
    rw [reversed] at suffix
    have earlier := laid.suffix (suffix_of_finished suffix (by rintro rfl; cases closes)
      (by rintro rfl; cases closes))
    -- Behind the opening bracket the nesting depth stays positive.
    obtain ⟨front, back, rfl⟩ := List.append_of_mem member
    have part : kind :: (front.reverse ++ opening :: before.reverse) <:+
        closing :: ((front ++ kind :: back).reverse ++ opening :: before.reverse) := by
      refine ⟨closing :: back.reverse, ?_⟩
      simp
    cases earlier.suffix part with
    | cons _ _ _ depth _ =>
        have outer : 0 < depthOf (opening :: before.reverse) := by
          rcases bracket_cases opening with ⟨-, -, after⟩ | ⟨closed, -⟩ | ⟨plain, -⟩
          · rw [depthOf, after]
            omega
          · simp [closed] at opens
          · simp [plain] at opens
        have inner : depthOf (front.reverse ++ opening :: before.reverse) +
            front.countP TokenKind.isClosing =
              depthOf (opening :: before.reverse) + front.countP TokenKind.isOpening := by
          apply depthOf_add
          intro start stop split
          have most := balanced.opened start (stop ++ kind :: back) (by simp [split])
          omega
        have most := balanced.opened front (kind :: back) rfl
        cases layout : kind.isLayout with
        | false => rfl
        | true =>
            have zero := depth layout
            omega

end LaidOut

theorem Lexer.finish_kinds (lexer : Lexer) :
    (lexer.finish.filterMap LexItem.token?).map (·.kind) =
      LaidOut.finished (lexer.indentStack.length - 1) lexer.scan.kinds := by
  rw [kinds_scan, LaidOut.finished, finish, tokens]
  simp [List.filterMap_append, LexItem.token?, Token.eof, List.filterMap_replicate]

theorem wellFormedLayout_of_tokenize {source : List Char} {tokens : List Token}
    (reads : tokenize source = .ok tokens) : WellFormedLayout (tokens.map (·.kind)) := by
  cases loops : (Lexer.new source).loop (normalizeLineEndings source).length with
  | error fault => simp [tokenize, lexItems, loops, Functor.map, Except.map] at reads
  | ok lexer =>
      have same : tokens = lexer.finish.filterMap LexItem.token? := by
        simpa [tokenize, lexItems, loops, Functor.map, Except.map, eq_comm] using reads
      obtain ⟨well, -⟩ := (Lexer.Passes.start.loop loops).wellLaid
      rw [same, lexer.finish_kinds]
      exact well.laid.wellFormed well.blocks

/-- The layout tokens of a source are well formed, and on the way the open blocks
are nested strictly, in the outermost of width zero. -/
theorem layout_wellFormed {source : List Char} {tokens : List Token}
    (reads : tokenize source = .ok tokens) :
    WellFormedLayout (tokens.map (·.kind)) ∧
      ∀ lexer, Lexer.Passes source lexer →
        lexer.indentStack.reverse.head? = some 0 ∧
          lexer.indentStack.reverse.Pairwise (· < ·) := by
  refine ⟨wellFormedLayout_of_tokenize reads, fun lexer passes => ?_⟩
  obtain ⟨well, -⟩ := passes.wellLaid
  rw [List.head?_reverse, List.pairwise_reverse]
  exact ⟨well.nested.base, well.nested.inner⟩

theorem layout_wellFormed_indentedPipeline :
    ∃ tokens, tokenize "x = f(\n1)\n  >> g\n".toList = .ok tokens ∧
      WellFormedLayout (tokens.map (·.kind)) := by
  have reads : tokenize "x = f(\n1)\n  >> g\n".toList = .ok
      [⟨.identifier "x", 1, 1, "x"⟩, ⟨.assign, 1, 3, "="⟩, ⟨.identifier "f", 1, 5, "f"⟩,
        ⟨.leftParen, 1, 6, "("⟩, ⟨.integer 1, 2, 1, "1"⟩, ⟨.rightParen, 2, 2, ")"⟩,
        ⟨.indent, 3, 1, ""⟩, ⟨.pipeline, 3, 3, ">>"⟩, ⟨.identifier "g", 3, 6, "g"⟩,
        ⟨.newline, 3, 7, "\\n"⟩, ⟨.dedent, 4, 1, ""⟩, ⟨.eof, 4, 1, ""⟩] := by
    decide +kernel
  exact ⟨_, reads, (layout_wellFormed reads).1⟩

end Marreta
