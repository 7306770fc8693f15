import Marreta.Format.Layout

namespace Marreta

open Foundation

/-! Formatting twice.

The second run reads the lines the first one wrote, with the declaration flags
set from the respaced texts, so it can only differ in the blank lines it puts
before declarations.  Which declarations lack one is a matter of the shapes of
the lines alone: `crowded` follows what stands right above each line. -/

/-! ## Shapes of lines -/

inductive LineShape where
  | blank
  | comment (topLevel : Bool)
  | code (declares : Bool)
deriving DecidableEq

/-- What stands right above a line: nothing that asks for a blank line, a line
of code, or a comment group whose first line is at top level right below a line
of code. -/
inductive Above where
  | gap
  | code
  | comment
deriving DecidableEq

namespace Above

def next (above : Above) : LineShape → Above
  | .blank => .gap
  | .code _ => .code
  | .comment topLevel =>
      match above with
      | .code => if topLevel then .comment else .gap
      | above => above

end Above

/-- Whether some declaration lacks the blank line above it or its comments. -/
def crowded (above : Above) : List LineShape → Bool
  | [] => false
  | shape :: shapes =>
      shape = .code true && above ≠ .gap || crowded (above.next shape) shapes

namespace LineShape

/-- A line of a source, where `code true` is a top-level line that is no
declaration as written and becomes one by respacing. -/
def ofSource (beyondAscii : Char → Bool) : Option SourceLine → LineShape
  | none => .blank
  | some line =>
      if line.isComment then .comment (line.depth = 0)
      else .code (line.depth = 0 && !isTopLevelDeclaration line.stripped &&
        isTopLevelDeclaration (respaceLine beyondAscii line.stripped))

/-- A formatted line, where `code true` is a line that `declares` holds of. -/
def ofFormatted (declares : FormattedLine → Bool) (line : FormattedLine) : LineShape :=
  if line.isBlank then .blank
  else if line.isComment then .comment (line.depth = 0)
  else .code (declares line)

end LineShape

/-- Some line is only recognized as a top-level declaration once it has been
respaced, and stands right below code, or below comments that do. -/
def hidesDeclaration (beyondAscii : Char → Bool) (source : List Char) : Bool :=
  crowded .gap ((sourceLines source).map (LineShape.ofSource beyondAscii))

/-! ## Inserted blank lines as lines -/

def insertAfter (before : List FormattedLine) : List FormattedLine → List FormattedLine
  | [] => []
  | line :: rest =>
      let lines := line :: insertAfter (line :: before) rest
      if shouldInsertBlankBefore before line rest then .blank :: lines else lines

theorem spaceAfter_eq (before lines : List FormattedLine) :
    spaceAfter before lines = (insertAfter before lines).map (·.text) := by
  induction lines generalizing before with
  | nil => rfl
  | cons line lines ih =>
      rw [spaceAfter, insertAfter, ih]
      split <;> rfl

theorem filter_insertAfter (before lines : List FormattedLine) :
    (insertAfter before lines).filter (!·.isBlank) = lines.filter (!·.isBlank) := by
  induction lines generalizing before with
  | nil => rfl
  | cons line lines ih =>
      rw [insertAfter]
      split
      · rw [List.filter_cons_of_neg (by simp [FormattedLine.blank]), List.filter_cons, ih,
          List.filter_cons]
      · rw [List.filter_cons, ih, List.filter_cons]

theorem mem_insertAfter {before lines : List FormattedLine} {line : FormattedLine}
    (member : line ∈ insertAfter before lines) : line = .blank ∨ line ∈ lines := by
  induction lines generalizing before with
  | nil => simp [insertAfter] at member
  | cons first lines ih =>
      rw [insertAfter] at member
      have rest : line ∈ first :: insertAfter (first :: before) lines →
          line = .blank ∨ line ∈ first :: lines := by
        intro member
        rcases List.mem_cons.mp member with rfl | later
        · exact .inr List.mem_cons_self
        · exact (ih later).imp id (List.mem_cons_of_mem _)
      split at member
      · rcases List.mem_cons.mp member with rfl | member
        · exact .inl rfl
        · exact rest member
      · exact rest member

/-! ## Spread-out lines -/

/-- No blank line follows another one, or stands first. -/
def Spread (afterBlank : Bool) : List FormattedLine → Prop
  | [] => True
  | line :: rest => (line.isBlank = true → afterBlank = false) ∧ Spread line.isBlank rest

theorem spread_collapseBlankLines (afterBlank : Bool) (lines : List FormattedLine) :
    Spread afterBlank (collapseBlankLines afterBlank lines) := by
  induction lines generalizing afterBlank with
  | nil => trivial
  | cons line lines ih =>
      rw [collapseBlankLines]
      split
      · rename_i dropped
        obtain ⟨-, rfl⟩ := Bool.and_eq_true_iff.mp dropped
        exact ih true
      · rename_i kept
        refine ⟨fun blank => ?_, ih _⟩
        simpa [blank] using kept

theorem Spread.collapse_eq {afterBlank : Bool} {lines : List FormattedLine}
    (spread : Spread afterBlank lines) : collapseBlankLines afterBlank lines = lines := by
  induction lines generalizing afterBlank with
  | nil => rfl
  | cons line lines ih =>
      rw [collapseBlankLines, ih spread.2, if_neg]
      intro both
      obtain ⟨blank, after⟩ := Bool.and_eq_true_iff.mp both
      rw [spread.1 blank] at after
      cases after

theorem Spread.init {afterBlank : Bool} {first last : List FormattedLine}
    (spread : Spread afterBlank (first ++ last)) : Spread afterBlank first := by
  induction first generalizing afterBlank with
  | nil => trivial
  | cons line first ih => exact ⟨spread.1, ih spread.2⟩

theorem Spread.map_reread {afterBlank : Bool} {lines : List FormattedLine}
    (spread : Spread afterBlank lines) : Spread afterBlank (lines.map .reread) := by
  induction lines generalizing afterBlank with
  | nil => trivial
  | cons line lines ih => exact ⟨spread.1, ih spread.2⟩

theorem normalizeBlankLines_append (lines : List FormattedLine) :
    ∃ trailing, collapseBlankLines true lines = normalizeBlankLines lines ++ trailing ∧
      (∀ line ∈ trailing, line.isBlank = true) ∧
      ∀ line ∈ (normalizeBlankLines lines).getLast?, line.isBlank = false := by
  let collapsed := collapseBlankLines true lines
  refine ⟨(collapsed.reverse.takeWhile (·.isBlank)).reverse, ?_, ?_, ?_⟩
  · rw [normalizeBlankLines, ← List.reverse_append, List.takeWhile_append_dropWhile,
      List.reverse_reverse]
  · intro line member
    exact List.mem_takeWhile_imp (List.mem_reverse.mp member)
  · intro line last
    rw [normalizeBlankLines, List.getLast?_reverse] at last
    have stops := List.head?_dropWhile_not (·.isBlank) collapsed.reverse
    rw [Option.mem_def.mp last] at stops
    exact stops

theorem spread_normalizeBlankLines (lines : List FormattedLine) :
    Spread true (normalizeBlankLines lines) := by
  obtain ⟨trailing, same, -⟩ := normalizeBlankLines_append lines
  have spread := spread_collapseBlankLines true lines
  rw [same] at spread
  exact spread.init

theorem Spread.normalize_eq {lines : List FormattedLine} (spread : Spread true lines)
    (ends : ∀ line ∈ lines.getLast?, line.isBlank = false) :
    normalizeBlankLines lines = lines := by
  rw [normalizeBlankLines, spread.collapse_eq]
  rw [← List.head?_reverse] at ends
  cases found : lines.reverse with
  | nil => rw [List.dropWhile_nil, ← found, List.reverse_reverse]
  | cons line rest =>
      have visible := ends line (by rw [found]; rfl)
      rw [List.dropWhile_cons_of_neg (by simp [visible]), ← found, List.reverse_reverse]

theorem filter_collapseBlankLines (afterBlank : Bool) (lines : List FormattedLine) :
    (collapseBlankLines afterBlank lines).filter (!·.isBlank) = lines.filter (!·.isBlank) := by
  induction lines generalizing afterBlank with
  | nil => rfl
  | cons line lines ih =>
      rw [collapseBlankLines]
      split
      · rename_i dropped
        obtain ⟨blank, -⟩ := Bool.and_eq_true_iff.mp dropped
        rw [ih, List.filter_cons_of_neg (by simp [blank])]
      · rw [List.filter_cons, ih, List.filter_cons]

theorem filter_normalizeBlankLines (lines : List FormattedLine) :
    (normalizeBlankLines lines).filter (!·.isBlank) = lines.filter (!·.isBlank) := by
  obtain ⟨trailing, same, blank, -⟩ := normalizeBlankLines_append lines
  have kept := filter_collapseBlankLines true lines
  have none : trailing.filter (!·.isBlank) = [] := by simpa using blank
  rwa [same, List.filter_append, none, List.append_nil] at kept

theorem mem_collapseBlankLines {afterBlank : Bool} {lines : List FormattedLine}
    {line : FormattedLine} (member : line ∈ collapseBlankLines afterBlank lines) :
    line ∈ lines := by
  induction lines generalizing afterBlank with
  | nil => simp [collapseBlankLines] at member
  | cons first lines ih =>
      rw [collapseBlankLines] at member
      split at member
      · exact List.mem_cons_of_mem _ (ih member)
      · rcases List.mem_cons.mp member with rfl | later
        · exact List.mem_cons_self
        · exact List.mem_cons_of_mem _ (ih later)

theorem mem_normalizeBlankLines {lines : List FormattedLine} {line : FormattedLine}
    (member : line ∈ normalizeBlankLines lines) : line ∈ lines := by
  obtain ⟨trailing, same, -⟩ := normalizeBlankLines_append lines
  exact mem_collapseBlankLines (same ▸ List.mem_append_left trailing member)

/-! ## Crowded declarations -/

theorem crowded_append (above : Above) (first last : List LineShape) :
    crowded above (first ++ last) =
      (crowded above first || crowded (first.foldl Above.next above) last) := by
  induction first generalizing above with
  | nil => rfl
  | cons shape first ih =>
      rw [List.cons_append, crowded, crowded, ih, List.foldl_cons, Bool.or_assoc]

theorem crowded_blank {above : Above} {shapes : List LineShape}
    (blank : ∀ shape ∈ shapes, shape = .blank) : crowded above shapes = false := by
  induction shapes generalizing above with
  | nil => rfl
  | cons shape shapes ih =>
      rw [crowded, blank shape List.mem_cons_self,
        ih fun shape member => blank shape (List.mem_cons_of_mem _ member)]
      rfl

section Shapes

variable (declares : FormattedLine → Bool)

theorem ofFormatted_blank {line : FormattedLine} (blank : line.isBlank = true) :
    LineShape.ofFormatted declares line = .blank := by
  rw [LineShape.ofFormatted, if_pos blank]

theorem crowded_collapseBlankLines (afterBlank : Bool) (lines : List FormattedLine)
    {above : Above} (gap : afterBlank = true → above = .gap) :
    crowded above ((collapseBlankLines afterBlank lines).map (.ofFormatted declares)) =
      crowded above (lines.map (.ofFormatted declares)) := by
  induction lines generalizing afterBlank above with
  | nil => rfl
  | cons line lines ih =>
      rw [collapseBlankLines]
      split
      · rename_i dropped
        obtain ⟨blank, rfl⟩ := Bool.and_eq_true_iff.mp dropped
        obtain rfl := gap rfl
        rw [ih true fun _ => rfl, List.map_cons, crowded, ofFormatted_blank declares blank]
        rfl
      · rw [List.map_cons, List.map_cons, crowded, crowded]
        rw [ih line.isBlank]
        intro blank
        rw [ofFormatted_blank declares blank]
        rfl

theorem crowded_normalizeBlankLines (lines : List FormattedLine) :
    crowded .gap ((normalizeBlankLines lines).map (.ofFormatted declares)) =
      crowded .gap (lines.map (.ofFormatted declares)) := by
  obtain ⟨trailing, same, blank, -⟩ := normalizeBlankLines_append lines
  have all : ∀ shape ∈ trailing.map (LineShape.ofFormatted declares), shape = .blank := by
    intro shape member
    obtain ⟨line, inside, rfl⟩ := List.mem_map.mp member
    exact ofFormatted_blank declares (blank line inside)
  rw [← crowded_collapseBlankLines declares true lines fun _ => rfl, same, List.map_append,
    crowded_append, crowded_blank all, Bool.or_false]

end Shapes

/-! ## Inserting blank lines

The lines before the current one, last first, matter through what stands right
above it. -/

structure FormattedLine.Sound (line : FormattedLine) : Prop where
  empty_iff : line.text = [] ↔ line.isBlank = true
  plainBlank : line.isBlank = true → line.isComment = false
  topLevel : line.isTopLevelDeclaration = true → line.depth = 0

/-- The shape of a line, whichever lines are taken for declarations. -/
theorem ofFormatted_cases (line : FormattedLine) :
    (line.isBlank = true ∧ ∀ declares, LineShape.ofFormatted declares line = .blank) ∨
      (line.isBlank = false ∧ line.isComment = true ∧
        ∀ declares, LineShape.ofFormatted declares line = .comment (line.depth = 0)) ∨
      (line.isBlank = false ∧ line.isComment = false ∧
        ∀ declares, LineShape.ofFormatted declares line = .code (declares line)) := by
  by_cases blank : line.isBlank = true <;> by_cases comment : line.isComment = true <;>
    simp [LineShape.ofFormatted, blank, comment]

/-- `above` describes the last line before the current one. -/
def Follows (before : List FormattedLine) : Above → Prop
  | .code => ∃ line ∈ before.head?, line.text ≠ [] ∧ line.isBlank = false ∧
      line.isComment = false
  | .gap | .comment => ∀ line ∈ before.head?,
      line.text = [] ∨ line.isBlank = false ∧ line.isComment = true

theorem follows_next {line : FormattedLine} (sound : line.Sound)
    (declares : FormattedLine → Bool) (before : List FormattedLine) (above : Above) :
    Follows (line :: before) (above.next (.ofFormatted declares line)) := by
  rcases ofFormatted_cases line with
    ⟨blank, shape⟩ | ⟨visible, comment, shape⟩ | ⟨visible, plain, shape⟩
  · simp [shape, Above.next, Follows, sound.empty_iff.mpr blank]
  · by_cases top : line.depth = 0 <;> cases above <;>
      simp [shape, Above.next, Follows, comment, visible, top]
  · simp [shape, Above.next, Follows, visible, plain, sound.empty_iff]

theorem leads_cons {line : FormattedLine} (sound : line.Sound) (rest : List FormattedLine) :
    commentGroupLeadsToTopLevelDeclaration (line :: rest) =
      match LineShape.ofFormatted (·.isTopLevelDeclaration) line with
      | .blank => false
      | .comment _ => commentGroupLeadsToTopLevelDeclaration rest
      | .code declares => declares := by
  rcases ofFormatted_cases line with
    ⟨blank, shape⟩ | ⟨-, comment, shape⟩ | ⟨visible, plain, shape⟩
  · simp [shape, commentGroupLeadsToTopLevelDeclaration, sound.plainBlank blank, blank]
  · simp [shape, commentGroupLeadsToTopLevelDeclaration, comment]
  · simp [shape, commentGroupLeadsToTopLevelDeclaration, plain, visible]

/-- A blank line is only inserted right below code. -/
theorem shouldInsert_eq {before : List FormattedLine} {above : Above}
    (follows : Follows before above) {line : FormattedLine} (sound : line.Sound)
    (after : List FormattedLine) :
    shouldInsertBlankBefore before line after =
      match above, LineShape.ofFormatted (·.isTopLevelDeclaration) line with
      | .code, .comment topLevel =>
          topLevel && commentGroupLeadsToTopLevelDeclaration after
      | .code, .code declares => declares
      | _, _ => false := by
  have quiet : (∀ line ∈ before.head?, line.text = [] ∨
      line.isBlank = false ∧ line.isComment = true) →
      shouldInsertBlankBefore before line after = false := by
    intro quiet
    cases before with
    | nil => simp [shouldInsertBlankBefore]
    | cons last before =>
        rcases quiet last rfl with empty | ⟨visible, comment⟩
        · simp [shouldInsertBlankBefore, empty]
        · simp [shouldInsertBlankBefore, visible, comment]
  cases above with
  | gap => exact quiet follows
  | comment => exact quiet follows
  | code =>
      obtain ⟨last, head, written, nonblank, code⟩ := follows
      cases before with
      | nil => cases head
      | cons _ before =>
          obtain rfl := Option.some.inj head
          rcases ofFormatted_cases line with
            ⟨blank, shape⟩ | ⟨visible, comment, shape⟩ | ⟨visible, plain, shape⟩
          · simp [shape, shouldInsertBlankBefore, blank]
          · by_cases top : line.depth = 0 <;>
              simp [shape, shouldInsertBlankBefore, visible, comment, written, nonblank, code, top,
                commentGroupLeadsToTopLevelDeclaration]
          · have top := sound.topLevel
            by_cases declares : line.isTopLevelDeclaration = true <;>
              simp_all [shouldInsertBlankBefore]

theorem insertAfter_cons (before : List FormattedLine) (line : FormattedLine)
    (rest : List FormattedLine) :
    insertAfter before (line :: rest) =
      if shouldInsertBlankBefore before line rest then
        .blank :: line :: insertAfter (line :: before) rest
      else line :: insertAfter (line :: before) rest := rfl

theorem length_insertAfter (before lines : List FormattedLine) :
    lines.length ≤ (insertAfter before lines).length := by
  induction lines generalizing before with
  | nil => exact Nat.le_refl _
  | cons line lines ih =>
      have rest := ih (line :: before)
      rw [insertAfter_cons]
      split <;> simp only [List.length_cons] <;> omega

/-- A blank line is inserted for each declaration that lacks one; below a
comment group, when the group was reached. -/
theorem length_insertAfter_eq_iff {before lines : List FormattedLine} {above : Above}
    (follows : Follows before above) (sound : ∀ line ∈ lines, line.Sound) :
    ((insertAfter before lines).length = lines.length ∧
        (above = .comment → commentGroupLeadsToTopLevelDeclaration lines = false)) ↔
      crowded above (lines.map (.ofFormatted (·.isTopLevelDeclaration))) = false := by
  induction lines generalizing before above with
  | nil => simp [insertAfter, crowded, commentGroupLeadsToTopLevelDeclaration]
  | cons line lines ih =>
      have first := sound line List.mem_cons_self
      have rest := ih (follows_next first (·.isTopLevelDeclaration) before above)
        fun line member => sound line (List.mem_cons_of_mem _ member)
      have longer := length_insertAfter (line :: before) lines
      rw [insertAfter_cons, List.map_cons, crowded, Bool.or_eq_false_iff, ← rest,
        leads_cons first, shouldInsert_eq follows first]
      generalize LineShape.ofFormatted (·.isTopLevelDeclaration) line = shape
      generalize insertAfter (line :: before) lines = inserted at longer
      cases above <;> rcases shape with _ | (_ | _) | (_ | _) <;>
        cases commentGroupLeadsToTopLevelDeclaration lines <;> simp [Above.next]
      all_goals omega

/-- After the insertion only those lines lack a blank line that the insertion
did not take for declarations. -/
theorem crowded_insertAfter (declares : FormattedLine → Bool) {before lines : List FormattedLine}
    {above : Above} (follows : Follows before above) (sound : ∀ line ∈ lines, line.Sound) :
    crowded (if above = .comment ∧ commentGroupLeadsToTopLevelDeclaration lines = true then .gap
        else above) ((insertAfter before lines).map (.ofFormatted declares)) =
      crowded above (lines.map
        (.ofFormatted fun line => declares line && !line.isTopLevelDeclaration)) := by
  induction lines generalizing before above with
  | nil => simp [insertAfter, crowded]
  | cons line lines ih =>
      have first := sound line List.mem_cons_self
      have rest := ih (follows_next first declares before above)
        fun line member => sound line (List.mem_cons_of_mem _ member)
      rw [insertAfter_cons, List.map_cons, crowded, leads_cons first, shouldInsert_eq follows first]
      have blank : LineShape.ofFormatted declares .blank = .blank := rfl
      generalize insertAfter (line :: before) lines = inserted at rest
      generalize commentGroupLeadsToTopLevelDeclaration lines = leads at rest
      rcases ofFormatted_cases line with
        ⟨-, shape⟩ | ⟨-, -, shape⟩ | ⟨-, -, shape⟩
      · rw [shape] at rest
        cases above <;> simp_all [Above.next, crowded]
      · rw [shape] at rest
        by_cases top : line.depth = 0 <;> cases above <;>
          cases leads <;> simp_all [Above.next, crowded]
      · rw [shape] at rest
        cases found : line.isTopLevelDeclaration <;> cases above <;>
          simp_all [Above.next, crowded]

theorem insertAfter_eq_self {before lines : List FormattedLine}
    (same : (insertAfter before lines).length = lines.length) :
    insertAfter before lines = lines := by
  induction lines generalizing before with
  | nil => rfl
  | cons line lines ih =>
      have longer := length_insertAfter (line :: before) lines
      rw [insertAfter_cons] at same ⊢
      split at same
      · simp only [List.length_cons] at same
        omega
      · rename_i tight
        rw [if_neg tight, ih (by simpa using same)]

theorem getLast?_insertAfter (before lines : List FormattedLine) :
    (insertAfter before lines).getLast? = lines.getLast? := by
  induction lines generalizing before with
  | nil => rfl
  | cons line lines ih =>
      have rest : (line :: insertAfter (line :: before) lines).getLast? =
          (line :: lines).getLast? := by
        rw [List.getLast?_cons, List.getLast?_cons, ih]
      rw [insertAfter_cons]
      split
      · rw [List.getLast?_cons_cons, rest]
      · exact rest

theorem spread_insertAfter {afterBlank : Bool} {before lines : List FormattedLine}
    (spread : Spread afterBlank lines) (sound : ∀ line ∈ lines, line.Sound)
    (above : afterBlank = true → ∀ line ∈ before.head?, line.text = []) :
    Spread afterBlank (insertAfter before lines) := by
  induction lines generalizing afterBlank before with
  | nil => trivial
  | cons line lines ih =>
      have first := sound line List.mem_cons_self
      have rest : Spread line.isBlank (insertAfter (line :: before) lines) := by
        refine ih spread.2 (fun line member => sound line (List.mem_cons_of_mem _ member)) ?_
        intro blank last head
        obtain rfl := Option.some.inj head
        exact first.empty_iff.mpr blank
      rw [insertAfter_cons]
      split
      · rename_i inserted
        have visible : line.isBlank = false := by
          by_contra blank
          simp [shouldInsertBlankBefore, blank] at inserted
        refine ⟨fun _ => ?_, ?_, rest⟩
        · by_contra after
          have empty := above (by simpa using after)
          have quiet : before.head?.all (·.text.isEmpty) = true := by
            cases before with
            | nil => rfl
            | cons last before => simpa using empty
          simp [shouldInsertBlankBefore, quiet] at inserted
        · intro blank
          rw [visible] at blank
          cases blank
      · exact ⟨spread.1, rest⟩

/-! ## Formatting twice -/

section Twice

variable {beyondAscii : Char → Bool}

theorem text_ne_nil_new {depth : Nat} {stripped : List Char} (canonical : Stripped stripped) :
    (FormattedLine.new beyondAscii depth stripped).text ≠ [] := by
  rw [new_eq]
  simp [(stripped_lineContent beyondAscii canonical).1.nonempty]

theorem Laid.sound {height : Nat} {lines : List FormattedLine}
    (laid : Laid beyondAscii height lines) : ∀ line ∈ lines, line.Sound := by
  intro line member
  rcases laid.mem member with rfl | ⟨depth, stripped, canonical, rfl⟩
  · exact ⟨by simp [FormattedLine.blank], fun _ => rfl, by simp [FormattedLine.blank]⟩
  · refine ⟨by simp [text_ne_nil_new canonical, isBlank_new], by simp [isBlank_new], ?_⟩
    rw [new_eq]
    simp +contextual

theorem Laid.text_plain {height : Nat} {lines : List FormattedLine}
    (laid : Laid beyondAscii height lines) :
    ∀ text ∈ lines.map (·.text), '\n' ∉ text ∧ text.getLast? ≠ some '\r' := by
  intro text member
  obtain ⟨line, inside, rfl⟩ := List.mem_map.mp member
  rcases laid.mem inside with rfl | ⟨depth, stripped, canonical, rfl⟩
  · simp [FormattedLine.blank]
  · have kept := (stripped_lineContent beyondAscii canonical).1
    obtain ⟨last, found⟩ := Option.isSome_iff_exists.mp (List.getLast?_isSome.mpr kept.nonempty)
    rw [new_eq]
    refine ⟨by simp [kept.oneLine], ?_⟩
    rw [List.getLast?_append, found]
    intro same
    have visible := kept.ends last found
    obtain rfl : last = '\r' := by simpa using same
    cases visible

/-- The lines that the formatter writes for a source. -/
def writtenLines (beyondAscii : Char → Bool) (source : List Char) : List FormattedLine :=
  insertAfter [] (normalizeBlankLines (formattedLines beyondAscii source))

theorem normalizeSource_eq (source : List Char) :
    normalizeSource beyondAscii source =
      joinLines ((writtenLines beyondAscii source).map (·.text)) := by
  rw [normalizeSource, applyTopLevelSpacing, spaceAfter_eq, writtenLines]

theorem laid_formattedLines (source : List Char) :
    Laid beyondAscii 0 (formattedLines beyondAscii source) :=
  laid_readLines (List.cons_ne_nil 0 []) fun _ => Text.newline_not_mem_lines

theorem laid_normalizeBlankLines (source : List Char) :
    Laid beyondAscii 0 (normalizeBlankLines (formattedLines beyondAscii source)) :=
  (laid_formattedLines source).congr
    (fun line member => (laid_formattedLines source).eq_blank line
      (mem_normalizeBlankLines member))
    (filter_normalizeBlankLines _)

theorem laid_writtenLines (source : List Char) :
    Laid beyondAscii 0 (writtenLines beyondAscii source) := by
  refine (laid_normalizeBlankLines source).congr (fun line member blank => ?_)
    (filter_insertAfter _ _)
  rcases mem_insertAfter member with same | inside
  · exact same
  · exact (laid_normalizeBlankLines source).eq_blank line inside blank

theorem normalizeBlankLines_formattedLines (source : List Char) :
    normalizeBlankLines (formattedLines beyondAscii (normalizeSource beyondAscii source)) =
      (writtenLines beyondAscii source).map .reread := by
  have laid : Laid beyondAscii 0 (writtenLines beyondAscii source) := laid_writtenLines source
  rw [normalizeSource_eq]
  by_cases empty : writtenLines beyondAscii source = []
  · rw [empty]
    rfl
  · have spread : Spread true (writtenLines beyondAscii source) :=
      spread_insertAfter (spread_normalizeBlankLines _)
        (laid_normalizeBlankLines source).sound (by simp)
    have joined : joinLines ((writtenLines beyondAscii source).map (·.text)) =
        Text.unlines ((writtenLines beyondAscii source).map (·.text)) := by
      obtain ⟨first, rest, same⟩ := List.exists_cons_of_ne_nil empty
      rw [same]
      rfl
    rw [joined, formattedLines, sourceLines, Text.lines_unlines laid.text_plain,
      show [0] = levels 0 from rfl, laid.readLines_texts, spread.map_reread.normalize_eq]
    intro line last
    rw [List.getLast?_map, writtenLines, getLast?_insertAfter, Option.mem_def,
      Option.map_eq_some_iff] at last
    obtain ⟨written, found, rfl⟩ := last
    obtain ⟨-, -, -, ends⟩ := normalizeBlankLines_append (formattedLines beyondAscii source)
    exact ends written found

theorem ofFormatted_reread (line : FormattedLine) :
    LineShape.ofFormatted (·.isTopLevelDeclaration) line.reread =
      .ofFormatted (·.reread.isTopLevelDeclaration) line := rfl

theorem ofFormatted_ofSource (line : Option SourceLine) :
    LineShape.ofFormatted
        (fun line => line.reread.isTopLevelDeclaration && !line.isTopLevelDeclaration)
        (.ofSource beyondAscii line) =
      .ofSource beyondAscii line := by
  cases line with
  | none => rfl
  | some line =>
      by_cases comment : line.isComment = true
      · have head : line.stripped.head? = some '#' := of_decide_eq_true comment
        simp [FormattedLine.ofSource, new_eq, LineShape.ofFormatted, LineShape.ofSource, comment,
          head]
      · have head : line.stripped.head? ≠ some '#' := fun same => comment (decide_eq_true same)
        cases found : line.depth <;>
          simp [FormattedLine.ofSource, new_eq, LineShape.ofFormatted, LineShape.ofSource, comment,
            head, FormattedLine.reread, lineContent, found, Bool.and_comm]

theorem crowded_writtenLines (source : List Char) :
    crowded .gap (((writtenLines beyondAscii source).map FormattedLine.reread).map
        (.ofFormatted (·.isTopLevelDeclaration))) = hidesDeclaration beyondAscii source := by
  have follows : Follows [] .gap := by simp [Follows]
  have inserted := crowded_insertAfter (·.reread.isTopLevelDeclaration) follows
    (laid_normalizeBlankLines source : Laid beyondAscii 0 _).sound
  rw [if_neg (by simp), crowded_normalizeBlankLines, formattedLines, List.map_map] at inserted
  rw [List.map_map, hidesDeclaration]
  refine (congrArg _ ?_).trans (inserted.trans (congrArg _ ?_))
  · exact List.map_congr_left fun line _ => ofFormatted_reread line
  · exact List.map_congr_left fun line _ => ofFormatted_ofSource line

theorem joinLines_inj {texts others : List (List Char)} (nonempty : others ≠ [])
    (longer : others.length ≤ texts.length)
    (plain : ∀ text ∈ texts ++ others, '\n' ∉ text ∧ text.getLast? ≠ some '\r')
    (same : joinLines texts = joinLines others) : texts = others := by
  cases texts with
  | nil => exact absurd (List.length_eq_zero_iff.mp (Nat.le_zero.mp longer)) nonempty
  | cons text texts =>
      cases others with
      | nil => exact absurd rfl nonempty
      | cons other others =>
          have read := congrArg Text.lines same
          rw [joinLines, joinLines] at read
          rwa [Text.lines_unlines fun text member => plain text (List.mem_append_left _ member),
            Text.lines_unlines fun text member => plain text (List.mem_append_right _ member)]
            at read
          all_goals simp

theorem normalizeSource_normalizeSource_iff (source : List Char) :
    normalizeSource beyondAscii (normalizeSource beyondAscii source) =
        normalizeSource beyondAscii source ↔
      hidesDeclaration beyondAscii source = false := by
  have laid : Laid beyondAscii 0 (writtenLines beyondAscii source) := laid_writtenLines source
  let lines := (writtenLines beyondAscii source).map FormattedLine.reread
  have sound : ∀ line ∈ lines, line.Sound := by
    intro line member
    obtain ⟨written, inside, rfl⟩ := List.mem_map.mp member
    have kept := laid.sound written inside
    exact ⟨kept.empty_iff, kept.plainBlank, by simp +contextual [FormattedLine.reread]⟩
  have follows : Follows [] .gap := by simp [Follows]
  have texts : lines.map (·.text) = (writtenLines beyondAscii source).map (·.text) := by
    rw [List.map_map]
    rfl
  have again : normalizeSource beyondAscii (normalizeSource beyondAscii source) =
      joinLines ((insertAfter [] lines).map (·.text)) := by
    rw [normalizeSource_eq, writtenLines, normalizeBlankLines_formattedLines]
  rw [again, ← crowded_writtenLines, ← length_insertAfter_eq_iff follows sound,
    normalizeSource_eq, ← texts]
  constructor
  · intro same
    refine ⟨?_, by simp⟩
    by_cases empty : lines = []
    · rw [empty]
      rfl
    have plain : ∀ text ∈ (insertAfter [] lines).map (·.text) ++ lines.map (·.text),
        '\n' ∉ text ∧ text.getLast? ≠ some '\r' := by
      intro text member
      rcases List.mem_append.mp member with inserted | kept
      · obtain ⟨line, inside, rfl⟩ := List.mem_map.mp inserted
        rcases mem_insertAfter inside with rfl | kept
        · simp [FormattedLine.blank]
        · exact laid.text_plain _ (texts ▸ List.mem_map_of_mem kept)
      · exact laid.text_plain _ (texts ▸ kept)
    have lists := joinLines_inj (by simpa using empty)
      (by simpa using length_insertAfter [] lines) plain same
    simpa using congrArg List.length lists
  · rintro ⟨length, -⟩
    rw [insertAfter_eq_self length]

theorem formatSource_eq_ok_iff {source : List Char} {result : FormatResult} :
    formatSource beyondAscii source = .ok result ↔
      compareSources source (normalizeSource beyondAscii source) = .ok true ∧
        result.output = normalizeSource beyondAscii source ∧
        result.changed = decide (normalizeSource beyondAscii source ≠ source) := by
  rw [formatSource]
  rcases compareSources source (normalizeSource beyondAscii source) with fault | equal | equal
  · simp
  · simp
  · rcases result with ⟨changed, output⟩
    simp [eq_comm, and_comm]

theorem compareSources_eq_true_iff {source formatted : List Char} :
    compareSources source formatted = .ok true ↔
      (∃ program, parseSource source = .ok program) ∧
      (∃ program, parseSource formatted = .ok program) ∧
      ∃ kinds, significantTokens source = .ok kinds ∧ significantTokens formatted = .ok kinds := by
  unfold compareSources
  rcases parseSource source with _ | _ <;> rcases significantTokens source with _ | before <;>
    rcases parseSource formatted with _ | _ <;>
    rcases significantTokens formatted with _ | after <;>
    simp [bind, Except.bind, pure, Except.pure]
  exact eq_comm

/-- Formatting the output of the formatter changes nothing exactly when no
declaration was hidden from the first run by the blanks in it. -/
theorem formatSource_idempotent_iff (source : List Char) (result : FormatResult)
    (formats : formatSource beyondAscii source = .ok result) :
    (∃ again, formatSource beyondAscii result.output = .ok again ∧
        again.output = result.output ∧ again.changed = false) ↔
      hidesDeclaration beyondAscii source = false := by
  obtain ⟨compares, output, -⟩ := formatSource_eq_ok_iff.mp formats
  rw [← normalizeSource_normalizeSource_iff, output]
  constructor
  · rintro ⟨again, formatsAgain, same, -⟩
    rw [← (formatSource_eq_ok_iff.mp formatsAgain).2.1, same]
  · intro same
    refine ⟨⟨false, normalizeSource beyondAscii source⟩, ?_, rfl, rfl⟩
    rw [formatSource_eq_ok_iff, same]
    obtain ⟨-, parses, kinds, -, after⟩ := compareSources_eq_true_iff.mp compares
    exact ⟨compareSources_eq_true_iff.mpr ⟨parses, parses, kinds, after, after⟩, rfl, by simp⟩

end Twice

/-- What the formatter makes of two short sources. -/
theorem routes_formatted :
    (formatSource (fun _ => false) "x=1\nroute GET \"/x\"\n  reply 200,x".toList =
        .ok { changed := true
              output := "x = 1\n\nroute GET \"/x\"\n    reply 200, x\n".toList } ∧
      hidesDeclaration (fun _ => false)
        "x=1\nroute GET \"/x\"\n  reply 200,x".toList = false) ∧
      formatSource (fun _ => false) "x = 1\nroute\tGET \"/x\"\n    reply 200, x\n".toList =
        .ok { changed := true
              output := "x = 1\nroute GET \"/x\"\n    reply 200, x\n".toList } ∧
      formatSource (fun _ => false) "x = 1\nroute GET \"/x\"\n    reply 200, x\n".toList =
        .ok { changed := true
              output := "x = 1\n\nroute GET \"/x\"\n    reply 200, x\n".toList } := by
  decide +kernel

theorem formatSource_idempotent_route :
    ∃ again, formatSource (fun _ => false)
        "x = 1\n\nroute GET \"/x\"\n    reply 200, x\n".toList = .ok again ∧
      again.output = "x = 1\n\nroute GET \"/x\"\n    reply 200, x\n".toList ∧
      again.changed = false :=
  (formatSource_idempotent_iff "x=1\nroute GET \"/x\"\n  reply 200,x".toList
    { changed := true
      output := "x = 1\n\nroute GET \"/x\"\n    reply 200, x\n".toList }
    routes_formatted.1.1).mpr routes_formatted.1.2

/-- A tab after `route` hides the declaration from the first run only. -/
theorem tabbedRoute_formats_twice :
    formatSource (fun _ => false) "x = 1\nroute\tGET \"/x\"\n    reply 200, x\n".toList =
        .ok { changed := true
              output := "x = 1\nroute GET \"/x\"\n    reply 200, x\n".toList } ∧
      formatSource (fun _ => false) "x = 1\nroute GET \"/x\"\n    reply 200, x\n".toList =
        .ok { changed := true
              output := "x = 1\n\nroute GET \"/x\"\n    reply 200, x\n".toList } :=
  routes_formatted.2

end Marreta
