import Marreta.Format.Atoms
import Marreta.Format.Formatter
import Mathlib

namespace Marreta

open Foundation

/-! What the formatter reads back from its own lines.

In its output a block of depth `n` is indented by `4 * n` columns, so the stack
of widths is determined by the height of the current block.  `Laid height lines`
says that formatted lines can follow a block of that height; then reading their
texts gives the same lines again, each with its declaration flag taken from the
respaced text. -/

/-! ## The stack of widths -/

/-- The widths of the open blocks in formatted code, the innermost first. -/
def levels : Nat → List Nat
  | 0 => [0]
  | height + 1 => 4 * (height + 1) :: levels height

theorem length_levels (height : Nat) : (levels height).length = height + 1 := by
  induction height with
  | zero => rfl
  | succ height ih => simp [levels, ih]

theorem headD_levels (height : Nat) : (levels height).headD 0 = 4 * height := by
  cases height <;> rfl

theorem mem_levels {depth height : Nat} : 4 * depth ∈ levels height ↔ depth ≤ height := by
  induction height with
  | zero =>
      rw [levels, List.mem_singleton]
      omega
  | succ height ih =>
      rw [levels, List.mem_cons, ih]
      omega

theorem idxOf_levels {depth height : Nat} (within : depth ≤ height) :
    (levels height).idxOf (4 * depth) = height - depth := by
  induction height with
  | zero =>
      obtain rfl := Nat.le_zero.mp within
      rfl
  | succ height ih =>
      rcases Nat.lt_or_eq_of_le within with below | rfl
      · have differs : 4 * (height + 1) ≠ 4 * depth := by omega
        rw [levels, List.idxOf_cons_ne _ differs, ih (by omega)]
        omega
      · rw [levels, List.idxOf_cons_self]
        omega

theorem popWiderThan_levels {depth height : Nat} (within : depth ≤ height) :
    popWiderThan (4 * depth) (levels height) = levels depth := by
  induction height with
  | zero =>
      obtain rfl := Nat.le_zero.mp within
      rfl
  | succ height ih =>
      obtain ⟨next, stack, same⟩ : ∃ next stack, levels height = next :: stack := by
        cases height <;> exact ⟨_, _, rfl⟩
      rcases Nat.lt_or_eq_of_le within with below | rfl
      · rw [levels, same, popWiderThan, if_pos (by omega), ← same, ih (by omega)]
      · rw [levels, same, popWiderThan, if_neg (by omega)]

theorem depthForComment_levels {depth height : Nat} (within : depth ≤ height + 1) :
    depthForComment (4 * depth) (levels height) = depth := by
  rw [depthForComment, headD_levels, length_levels]
  by_cases inside : depth ≤ height
  · rw [if_pos ((mem_levels).mpr inside), idxOf_levels inside]
    omega
  · rw [if_neg (mt (mem_levels).mp inside), if_pos (by omega)]
    omega

theorem stackForCode_levels {depth height : Nat} (within : depth ≤ height + 1) :
    stackForCode (4 * depth) (levels height) = levels depth := by
  rw [stackForCode, headD_levels]
  rcases Nat.lt_trichotomy depth height with below | rfl | above
  · rw [if_neg (by omega), if_pos (by omega), popWiderThan_levels (by omega)]
  · rw [if_neg (by omega), if_neg (by omega)]
  · obtain rfl : depth = height + 1 := by omega
    rw [if_pos (by omega), levels]

theorem depthForComment_le (rawIndent : Nat) (stack : List Nat) :
    depthForComment rawIndent stack ≤ stack.length := by
  unfold depthForComment
  split
  · omega
  · split <;> omega

theorem length_popWiderThan (rawIndent : Nat) {stack : List Nat} (nonempty : stack ≠ []) :
    popWiderThan rawIndent stack ≠ [] ∧
      (popWiderThan rawIndent stack).length ≤ stack.length := by
  fun_induction popWiderThan rawIndent stack with
  | case1 top next stack wider ih =>
      obtain ⟨kept, bounded⟩ := ih (by simp)
      exact ⟨kept, by simp at bounded ⊢; omega⟩
  | case2 => simp
  | case3 stack => exact ⟨nonempty, Nat.le_refl _⟩

theorem length_stackForCode (rawIndent : Nat) {stack : List Nat} (nonempty : stack ≠ []) :
    stackForCode rawIndent stack ≠ [] ∧
      (stackForCode rawIndent stack).length ≤ stack.length + 1 := by
  unfold stackForCode
  split
  · simp
  · split
    · obtain ⟨kept, bounded⟩ := length_popWiderThan rawIndent nonempty
      exact ⟨kept, by omega⟩
    · exact ⟨nonempty, by omega⟩

/-! ## The text of a line -/

/-- The text of a line without its indentation and its end. -/
structure Stripped (text : List Char) : Prop where
  nonempty : text ≠ []
  starts : ∀ ch ∈ text.head?, isBlank ch = false
  ends : ∀ ch ∈ text.getLast?, Text.isWhitespace ch = false
  oneLine : '\n' ∉ text

theorem isWhitespace_of_isBlank {ch : Char} (blank : isBlank ch = true) :
    Text.isWhitespace ch = true := by
  rcases Bool.or_eq_true_iff.mp blank with space | tab
  · rw [of_decide_eq_true space]
    decide
  · rw [of_decide_eq_true tab]
    decide

theorem Stripped.ends_plain {text : List Char} (stripped : Stripped text) :
    ∀ ch ∈ text.getLast?, isBlank ch = false := by
  intro ch last
  by_contra blank
  have white := isWhitespace_of_isBlank (by simpa using blank)
  rw [stripped.ends ch last] at white
  cases white

theorem stripped_normalizeCommentSpacing {text : List Char} (stripped : Stripped text)
    (comment : text.head? = some '#') :
    Stripped (normalizeCommentSpacing text) ∧
      (normalizeCommentSpacing text).head? = some '#' ∧
      normalizeCommentSpacing (normalizeCommentSpacing text) = normalizeCommentSpacing text := by
  cases text with
  | nil => cases comment
  | cons ch text =>
      obtain rfl : ch = '#' := by simpa using comment
      cases text with
      | nil => exact ⟨stripped, rfl, rfl⟩
      | cons next text =>
          by_cases spaced : next ≠ ' ' ∧ next ≠ '#'
          · have same : normalizeCommentSpacing ('#' :: next :: text) =
                '#' :: ' ' :: next :: text := by
              simp [normalizeCommentSpacing, spaced]
            rw [same]
            refine ⟨⟨by simp, by simpa using stripped.starts, ?_, ?_⟩, rfl, ?_⟩
            · simpa [List.getLast?_cons_cons] using stripped.ends
            · simpa using stripped.oneLine
            · simp [normalizeCommentSpacing]
          · have same : normalizeCommentSpacing ('#' :: next :: text) = '#' :: next :: text := by
              rw [normalizeCommentSpacing]
              exact if_neg spaced
            rw [same]
            exact ⟨stripped, rfl, same⟩

section Content

variable (beyondAscii : Char → Bool)

/-- The formatted text of a line, without its indentation. -/
def lineContent (stripped : List Char) : List Char :=
  if stripped.head? = some '#' then normalizeCommentSpacing stripped
  else respaceLine beyondAscii stripped

theorem stripped_lineContent {text : List Char} (stripped : Stripped text) :
    Stripped (lineContent beyondAscii text) ∧
      (lineContent beyondAscii text).head? = text.head? ∧
      lineContent beyondAscii (lineContent beyondAscii text) = lineContent beyondAscii text := by
  by_cases comment : text.head? = some '#'
  · obtain ⟨kept, head, same⟩ := stripped_normalizeCommentSpacing stripped comment
    simp only [lineContent, if_pos comment, if_pos head, same]
    exact ⟨kept, head.trans comment.symm, trivial⟩
  · obtain ⟨head, last⟩ : (respaceLine beyondAscii text).head? = text.head? ∧
        (respaceLine beyondAscii text).getLast? = text.getLast? :=
      respaceLine_ends stripped.starts stripped.ends_plain
    simp only [lineContent, if_neg comment, head, respaceLine_respaceLine]
    refine ⟨⟨?_, ?_, ?_, fun member => ?_⟩, trivial, trivial⟩
    · intro empty
      rw [empty] at head
      exact stripped.nonempty (List.head?_eq_none_iff.mp head.symm)
    · rw [head]
      exact stripped.starts
    · rw [last]
      exact stripped.ends
    · rcases mem_respaceLine member with space | inside
      · cases space
      · exact stripped.oneLine inside

end Content

/-! ## Reading a line -/

/-- What one line of a source reads as. -/
theorem readLine_spec (stack : List Nat) {rawLine : List Char} (oneLine : '\n' ∉ rawLine) :
    readLine stack rawLine = (none, stack) ∨
      ∃ rawIndent stripped, Stripped stripped ∧
        readLine stack rawLine =
          if stripped.head? = some '#' then
            (some { depth := depthForComment rawIndent stack, stripped }, stack)
          else
            (some { depth := depthForCode rawIndent stack, stripped },
              stackForCode rawIndent stack) := by
  rw [readLine]
  split
  · exact .inl rfl
  · rename_i visible
    refine .inr ⟨_, (Text.trimEnd rawLine).dropWhile isBlank, ⟨?_, ?_, ?_, ?_⟩, rfl⟩
    · intro empty
      apply visible
      have blank := List.dropWhile_eq_nil_iff.mp empty
      have white : (Text.trimEnd rawLine).dropWhile Text.isWhitespace = [] :=
        List.dropWhile_eq_nil_iff.mpr fun ch member => isWhitespace_of_isBlank (blank ch member)
      rw [Text.trim, Text.trimStart, white]
      rfl
    · exact head?_dropWhile
    · intro ch last
      apply Text.getLast?_trimEnd ch
      rw [← List.takeWhile_append_dropWhile (p := isBlank) (l := Text.trimEnd rawLine),
        List.getLast?_append, Option.mem_def.mp last]
      rfl
    · intro member
      exact oneLine (Text.mem_of_mem_trimEnd ((List.dropWhile_sublist _).mem member))

theorem readLine_indented (stack : List Nat) (depth : Nat) {stripped : List Char}
    (canonical : Stripped stripped) :
    readLine stack (List.replicate (depth * 4) ' ' ++ stripped) =
      if stripped.head? = some '#' then
        (some { depth := depthForComment (4 * depth) stack, stripped }, stack)
      else
        (some { depth := depthForCode (4 * depth) stack, stripped },
          stackForCode (4 * depth) stack) := by
  obtain ⟨last, found⟩ := Option.isSome_iff_exists.mp
    (List.getLast?_isSome.mpr canonical.nonempty)
  have ends : (List.replicate (depth * 4) ' ' ++ stripped).getLast? = some last := by
    rw [List.getLast?_append, found]
    rfl
  have visible := canonical.ends last found
  have trimmed : Text.trimEnd (List.replicate (depth * 4) ' ' ++ stripped) =
      List.replicate (depth * 4) ' ' ++ stripped := by
    apply Text.trimEnd_eq_self
    intro ch same
    rw [ends, Option.mem_def, Option.some.injEq] at same
    rwa [← same]
  have nonblank : Text.trim (List.replicate (depth * 4) ' ' ++ stripped) ≠ [] := by
    intro empty
    have white := Text.isWhitespace_of_trim_eq_nil empty last (List.mem_of_getLast? ends)
    rw [visible] at white
    cases white
  have spaces : ∀ ch ∈ List.replicate (depth * 4) ' ', isBlank ch = true := by simp [isBlank]
  obtain ⟨taken, dropped⟩ := span_append spaces canonical.starts
  have width : leadingIndentWidth (List.replicate (depth * 4) ' ' ++ stripped) = 4 * depth := by
    rw [leadingIndentWidth, taken]
    simp
    omega
  rw [readLine, trimmed, if_neg (by simpa using nonblank), dropped, width]

/-! ## Reading the formatted lines -/

section Laid

variable (beyondAscii : Char → Bool)

/-- Formatted lines that can follow a block of the given height. -/
inductive Laid : Nat → List FormattedLine → Prop
  | nil {height : Nat} : Laid height []
  | blank {height : Nat} {lines : List FormattedLine} :
      Laid height lines → Laid height (.blank :: lines)
  | line {height depth : Nat} {stripped : List Char} {lines : List FormattedLine} :
      Stripped stripped → depth ≤ height + 1 →
      Laid (if stripped.head? = some '#' then height else depth) lines →
      Laid height (.new beyondAscii depth stripped :: lines)

end Laid

/-- The line as it is read from its own text: only the declaration flag, which
was set from the text before respacing, can change. -/
def FormattedLine.reread (line : FormattedLine) : FormattedLine :=
  { line with
    isTopLevelDeclaration := line.depth = 0 && Marreta.isTopLevelDeclaration line.text }

variable {beyondAscii : Char → Bool}

theorem new_eq (depth : Nat) (stripped : List Char) :
    FormattedLine.new beyondAscii depth stripped =
      { text := List.replicate (depth * 4) ' ' ++ lineContent beyondAscii stripped
        depth
        isBlank := false
        isComment := stripped.head? = some '#'
        isTopLevelDeclaration := depth = 0 && isTopLevelDeclaration stripped } := by
  simp only [FormattedLine.new, lineContent, decide_eq_true_eq]

theorem new_lineContent {depth : Nat} {stripped : List Char} (canonical : Stripped stripped) :
    FormattedLine.new beyondAscii depth (lineContent beyondAscii stripped) =
      (FormattedLine.new beyondAscii depth stripped).reread := by
  obtain ⟨-, head, same⟩ := stripped_lineContent beyondAscii canonical
  rw [new_eq, new_eq, FormattedLine.reread, same, head]
  cases depth <;> simp

theorem laid_readLines {stack : List Nat} (nonempty : stack ≠ []) {rawLines : List (List Char)}
    (plain : ∀ line ∈ rawLines, '\n' ∉ line) :
    Laid beyondAscii (stack.length - 1)
      ((readLines stack rawLines).map (FormattedLine.ofSource beyondAscii)) := by
  induction rawLines generalizing stack with
  | nil => exact .nil
  | cons rawLine rawLines ih =>
      have rest : ∀ line ∈ rawLines, '\n' ∉ line :=
        fun line member => plain line (List.mem_cons_of_mem _ member)
      have positive := List.length_pos_iff.mpr nonempty
      rcases readLine_spec stack (plain rawLine List.mem_cons_self) with
        blank | ⟨rawIndent, stripped, canonical, reads⟩
      · simp only [readLines, blank, List.map_cons]
        exact .blank (ih nonempty rest)
      · by_cases comment : stripped.head? = some '#'
        · rw [if_pos comment] at reads
          simp only [readLines, reads, List.map_cons]
          have bounded := depthForComment_le rawIndent stack
          have within : depthForComment rawIndent stack ≤ stack.length - 1 + 1 := by omega
          refine .line canonical within ?_
          rw [if_pos comment]
          exact ih nonempty rest
        · rw [if_neg comment] at reads
          simp only [readLines, reads, List.map_cons]
          obtain ⟨kept, bounded⟩ := length_stackForCode rawIndent nonempty
          have within : (stackForCode rawIndent stack).length - 1 ≤ stack.length - 1 + 1 := by
            omega
          refine .line canonical within ?_
          rw [if_neg comment]
          exact ih kept rest

theorem Laid.readLines_texts {height : Nat} {lines : List FormattedLine}
    (laid : Laid beyondAscii height lines) :
    (readLines (levels height) (lines.map (·.text))).map (FormattedLine.ofSource beyondAscii) =
      lines.map FormattedLine.reread := by
  induction laid with
  | nil => rfl
  | blank _ ih =>
      rw [List.map_cons, List.map_cons, ← ih]
      rfl
  | @line height depth stripped lines canonical within _ ih =>
      obtain ⟨kept, head, -⟩ := stripped_lineContent beyondAscii canonical
      rw [List.map_cons, List.map_cons, ← new_lineContent canonical, readLines, new_eq,
        readLine_indented _ _ kept, head]
      by_cases comment : stripped.head? = some '#'
      · rw [if_pos comment] at ih
        simp only [if_pos comment, depthForComment_levels within, List.map_cons, ih]
        rfl
      · rw [if_neg comment] at ih
        simp only [if_neg comment, depthForCode, stackForCode_levels within, length_levels,
          List.map_cons, ih]
        rfl

/-! ## Blank lines

The height after a line only depends on the lines that are not blank. -/

theorem isBlank_new (depth : Nat) (stripped : List Char) :
    (FormattedLine.new beyondAscii depth stripped).isBlank = false := rfl

theorem Laid.eq_blank {height : Nat} {lines : List FormattedLine}
    (laid : Laid beyondAscii height lines) :
    ∀ line ∈ lines, line.isBlank = true → line = .blank := by
  induction laid with
  | nil => simp
  | blank _ ih => simpa using ih
  | line _ _ _ ih => simpa [isBlank_new] using ih

theorem Laid.filter {height : Nat} {lines : List FormattedLine}
    (laid : Laid beyondAscii height lines) :
    Laid beyondAscii height (lines.filter (!·.isBlank)) := by
  induction laid with
  | nil => exact .nil
  | blank _ ih => exact ih
  | line canonical within _ ih => exact .line canonical within ih

theorem laid_of_filter {height : Nat} {lines : List FormattedLine}
    (blank : ∀ line ∈ lines, line.isBlank = true → line = .blank)
    (laid : Laid beyondAscii height (lines.filter (!·.isBlank))) :
    Laid beyondAscii height lines := by
  induction lines generalizing height with
  | nil => exact laid
  | cons line lines ih =>
      have rest : ∀ line ∈ lines, line.isBlank = true → line = .blank :=
        fun line member => blank line (List.mem_cons_of_mem _ member)
      by_cases empty : line.isBlank = true
      · rw [List.filter_cons_of_neg (by simp [empty])] at laid
        rw [blank line List.mem_cons_self empty]
        exact .blank (ih rest laid)
      · rw [List.filter_cons_of_pos (by simpa using empty)] at laid
        cases laid with
        | blank _ => exact absurd rfl empty
        | line canonical within laid => exact .line canonical within (ih rest laid)

/-- Lines that differ in blank lines only are laid out alike. -/
theorem Laid.congr {height : Nat} {lines others : List FormattedLine}
    (laid : Laid beyondAscii height lines)
    (blank : ∀ line ∈ others, line.isBlank = true → line = .blank)
    (same : others.filter (!·.isBlank) = lines.filter (!·.isBlank)) :
    Laid beyondAscii height others :=
  laid_of_filter blank (same ▸ laid.filter)

theorem Laid.mem {height : Nat} {lines : List FormattedLine}
    (laid : Laid beyondAscii height lines) {line : FormattedLine} (member : line ∈ lines) :
    line = .blank ∨ ∃ depth stripped, Stripped stripped ∧
      line = .new beyondAscii depth stripped := by
  induction laid with
  | nil => simp at member
  | blank _ ih =>
      rcases List.mem_cons.mp member with rfl | member
      · exact .inl rfl
      · exact ih member
  | line canonical _ _ ih =>
      rcases List.mem_cons.mp member with rfl | member
      · exact .inr ⟨_, _, canonical, rfl⟩
      · exact ih member

end Marreta
