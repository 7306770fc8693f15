import Mathlib

namespace Foundation

/-! Text as lists of characters: the whitespace of Unicode and the trimming and
splitting functions built on it. -/

namespace Text

/-- A property of a text's characters is decided along the text, not over all characters. -/
instance (priority := 2000) decidableForallChar (text : List Char) (property : Char → Prop)
    [DecidablePred property] : Decidable (∀ ch ∈ text, property ch) :=
  List.decidableBAll property text

instance (priority := 2000) decidableForallEnd (ch? : Option Char) (property : Char → Prop)
    [DecidablePred property] : Decidable (∀ ch ∈ ch?, property ch) :=
  Option.decidableForallMem ch?

def isWhitespace (ch : Char) : Bool :=
  let code := ch.toNat
  (0x9 ≤ code ∧ code ≤ 0xD) ∨ code = 0x20 ∨ code = 0x85 ∨ code = 0xA0 ∨
    code = 0x1680 ∨ (0x2000 ≤ code ∧ code ≤ 0x200A) ∨ code = 0x2028 ∨
    code = 0x2029 ∨ code = 0x202F ∨ code = 0x205F ∨ code = 0x3000

def trimStart (text : List Char) : List Char :=
  text.dropWhile isWhitespace

def trimEnd (text : List Char) : List Char :=
  (text.reverse.dropWhile isWhitespace).reverse

def trim (text : List Char) : List Char :=
  trimEnd (trimStart text)

/-- The maximal runs of characters that are not whitespace. -/
def words : List Char → List (List Char)
  | [] => []
  | ch :: rest =>
      if isWhitespace ch then words rest
      else
        match rest, words rest with
        | next :: _, word :: more =>
            if isWhitespace next then [ch] :: word :: more
            else (ch :: word) :: more
        | _, more => [ch] :: more

example : words " ab c ".toList = ["ab".toList, ['c']] := by decide

/-- The lines of a text, without their ends: a line feed, with the carriage
return right before it.  An empty line at the very end is no line. -/
def lines : List Char → List (List Char)
  | [] => []
  | '\n' :: rest => [] :: lines rest
  | '\r' :: '\n' :: rest => [] :: lines rest
  | ch :: rest =>
      match lines rest with
      | [] => [[ch]]
      | line :: more => (ch :: line) :: more

/-- The texts with a line feed after each. -/
def unlines (texts : List (List Char)) : List Char :=
  texts.flatMap (· ++ ['\n'])

example : lines "a\r\n\nb\r".toList = ["a".toList, [], "b\r".toList] := by decide

theorem lines_cons {ch : Char} {rest : List Char} (feed : ch ≠ '\n')
    (pair : ch = '\r' → rest.head? ≠ some '\n') :
    lines (ch :: rest) =
      match lines rest with
      | [] => [[ch]]
      | line :: more => (ch :: line) :: more := by
  rw [lines]
  · exact feed
  · rintro after rfl rfl
    exact pair rfl rfl

theorem lines_line {text : List Char} (inside : '\n' ∉ text) (ends : text.getLast? ≠ some '\r')
    (rest : List Char) : lines (text ++ '\n' :: rest) = text :: lines rest := by
  induction text with
  | nil => rfl
  | cons ch text ih =>
      rw [List.cons_append, lines_cons]
      · rw [ih (fun member => inside (List.mem_cons_of_mem _ member)) ?_]
        cases text with
        | nil => simp
        | cons next text => rwa [List.getLast?_cons_cons] at ends
      · rintro rfl
        exact inside List.mem_cons_self
      · rintro rfl head
        cases text with
        | nil => exact ends rfl
        | cons next text =>
            obtain rfl : next = '\n' := by simpa using head
            simp at inside

/-- Lines that hold no line feed and end in no carriage return are read back. -/
theorem lines_unlines {texts : List (List Char)}
    (plain : ∀ text ∈ texts, '\n' ∉ text ∧ text.getLast? ≠ some '\r') :
    lines (unlines texts) = texts := by
  induction texts with
  | nil => rfl
  | cons text texts ih =>
      have first := plain text List.mem_cons_self
      rw [unlines, List.flatMap_cons, List.append_assoc, List.singleton_append,
        lines_line first.1 first.2]
      exact congrArg _ (ih fun text member => plain text (List.mem_cons_of_mem _ member))

theorem newline_not_mem_lines {text line : List Char} (member : line ∈ lines text) :
    '\n' ∉ line := by
  induction text using lines.induct generalizing line with
  | case1 => simp [lines] at member
  | case2 rest ih | case3 rest ih =>
      rw [lines, List.mem_cons] at member
      rcases member with rfl | member
      · simp
      · exact ih member
  | case4 ch rest feed pair empty ih =>
      rw [lines, empty] at member <;> simp_all
      exact fun same => feed same.symm
  | case5 ch rest feed pair first more found ih =>
      rw [lines, found] at member <;> try simp_all
      rcases member with rfl | member
      · simpa using ⟨fun same => feed same.symm, ih.1⟩
      · exact ih.2 line member

theorem mem_of_mem_lines {text line : List Char} (member : line ∈ lines text) :
    ∀ ch ∈ line, ch ∈ text := by
  induction text using lines.induct generalizing line with
  | case1 => simp [lines] at member
  | case2 rest ih | case3 rest ih =>
      rw [lines, List.mem_cons] at member
      rcases member with rfl | member
      · simp
      · intro ch inside
        simp [ih member ch inside]
  | case4 first rest feed pair empty ih =>
      rw [lines, empty] at member <;> simp_all
  | case5 first rest feed pair start more found ih =>
      rw [lines, found, List.mem_cons] at member <;> try assumption
      intro ch inside
      rcases member with rfl | member
      · rcases List.mem_cons.mp inside with rfl | inside
        · exact List.mem_cons_self
        · exact List.mem_cons_of_mem _ (ih (by rw [found]; exact List.mem_cons_self) ch inside)
      · exact List.mem_cons_of_mem _
          (ih (by rw [found]; exact List.mem_cons_of_mem _ member) ch inside)

theorem mem_of_mem_intercalate {ch : Char} {separator : List Char} {texts : List (List Char)}
    (member : ch ∈ separator.intercalate texts) :
    ch ∈ separator ∨ ∃ text ∈ texts, ch ∈ text := by
  induction texts with
  | nil => cases member
  | cons text texts ih =>
      cases texts with
      | nil =>
          rw [List.intercalate_singleton] at member
          exact .inr ⟨text, List.mem_cons_self, member⟩
      | cons next texts =>
          rw [List.intercalate_cons_cons] at member
          rcases List.mem_append.mp member with inside | inside
          · rcases List.mem_append.mp inside with inside | inside
            · exact .inr ⟨text, List.mem_cons_self, inside⟩
            · exact .inl inside
          · rcases ih inside with inside | ⟨other, among, inside⟩
            · exact .inl inside
            · exact .inr ⟨other, List.mem_cons_of_mem _ among, inside⟩

/-! ## Trimming -/

theorem mem_of_mem_trimEnd {text : List Char} {ch : Char} (member : ch ∈ trimEnd text) :
    ch ∈ text := by
  rw [trimEnd, List.mem_reverse] at member
  exact List.mem_reverse.mp (List.dropWhile_sublist _ |>.mem member)

theorem getLast?_trimEnd {text : List Char} :
    ∀ ch ∈ (trimEnd text).getLast?, isWhitespace ch = false := by
  intro ch last
  rw [trimEnd, List.getLast?_reverse] at last
  have stops := List.head?_dropWhile_not isWhitespace text.reverse
  rw [Option.mem_def.mp last] at stops
  exact stops

theorem trimEnd_eq_self {text : List Char}
    (ends : ∀ ch ∈ text.getLast?, isWhitespace ch = false) : trimEnd text = text := by
  rw [← List.head?_reverse] at ends
  unfold trimEnd
  cases found : text.reverse with
  | nil => rw [List.dropWhile_nil, ← found, List.reverse_reverse]
  | cons ch rest =>
      have stops := ends ch (by rw [found]; rfl)
      rw [List.dropWhile_cons_of_neg (by simp [stops]), ← found, List.reverse_reverse]

theorem isWhitespace_of_trim_eq_nil {text : List Char} (empty : trim text = []) :
    ∀ ch ∈ text, isWhitespace ch = true := by
  rw [trim, trimEnd, List.reverse_eq_nil_iff, List.dropWhile_eq_nil_iff] at empty
  cases found : trimStart text with
  | nil => exact List.dropWhile_eq_nil_iff.mp found
  | cons ch rest =>
      have stops := List.head?_dropWhile_not isWhitespace text
      rw [show text.dropWhile isWhitespace = ch :: rest from found] at stops
      have white := empty ch (by rw [found]; simp)
      rw [show isWhitespace ch = false from stops] at white
      cases white

theorem trim_around {before body after : List Char} (white : ∀ ch ∈ before, isWhitespace ch = true)
    (whiteAfter : ∀ ch ∈ after, isWhitespace ch = true)
    (starts : ∀ ch ∈ body.head?, isWhitespace ch = false)
    (ends : ∀ ch ∈ body.getLast?, isWhitespace ch = false) (some : body ≠ []) :
    trim (before ++ (body ++ after)) = body := by
  have start : trimStart (before ++ (body ++ after)) = body ++ after := by
    rw [trimStart, List.dropWhile_append_of_pos white]
    obtain ⟨ch, body, rfl⟩ := List.exists_cons_of_ne_nil some
    have here := starts ch rfl
    rw [List.cons_append, List.dropWhile_cons_of_neg (by simp [here])]
  rw [trim, start]
  have own := trimEnd_eq_self ends
  rw [trimEnd] at own ⊢
  rw [List.reverse_append, List.dropWhile_append_of_pos, own]
  simpa using whiteAfter

/-- The text before the first mark and the text after it. -/
def splitOnceAt (mark : Char) (text : List Char) : Option (List Char × List Char) :=
  match text.dropWhile (· ≠ mark) with
  | [] => none
  | _ :: after => some (text.takeWhile (· ≠ mark), after)

theorem eq_of_splitOnceAt {mark : Char} {text before after : List Char}
    (split : splitOnceAt mark text = some (before, after)) : text = before ++ mark :: after := by
  unfold splitOnceAt at split
  cases found : text.dropWhile (· ≠ mark) with
  | nil =>
      rw [found] at split
      cases split
  | cons first rest =>
      rw [found] at split
      obtain ⟨rfl, rfl⟩ := Prod.mk.inj (Option.some.inj split)
      have stops := List.head?_dropWhile_not (· ≠ mark) text
      rw [found] at stops
      obtain rfl : first = mark := by simpa using stops
      rw [← found, List.takeWhile_append_dropWhile]

theorem not_mem_of_splitOnceAt {mark : Char} {text before after : List Char}
    (split : splitOnceAt mark text = some (before, after)) : mark ∉ before := by
  intro member
  unfold splitOnceAt at split
  cases found : text.dropWhile (· ≠ mark) with
  | nil =>
      rw [found] at split
      cases split
  | cons first rest =>
      rw [found] at split
      obtain ⟨rfl, -⟩ := Prod.mk.inj (Option.some.inj split)
      have passes := List.mem_takeWhile_imp member
      simp at passes

theorem splitOnceAt_around {mark : Char} {before : List Char} (clear : mark ∉ before)
    (after : List Char) : splitOnceAt mark (before ++ mark :: after) = some (before, after) := by
  have passes : ∀ ch ∈ before, decide (ch ≠ mark) = true := by
    intro ch member
    apply decide_eq_true
    intro same
    exact clear (same ▸ member)
  rw [splitOnceAt, List.dropWhile_append_of_pos passes, List.takeWhile_append_of_pos passes,
    List.dropWhile_cons_of_neg (by simp), List.takeWhile_cons_of_neg (by simp), List.append_nil]

theorem splitOnceAt_of_not_mem {mark : Char} {text : List Char} (clear : mark ∉ text) :
    splitOnceAt mark text = none := by
  have passes : ∀ ch ∈ text, decide (ch ≠ mark) = true := by
    intro ch member
    apply decide_eq_true
    intro same
    exact clear (same ▸ member)
  rw [splitOnceAt, List.dropWhile_eq_nil_iff.mpr passes]

/-- A character beyond ASCII is alphanumeric as the Unicode table `beyondAscii`
says. -/
def isAlphanumeric (beyondAscii : Char → Bool) (ch : Char) : Bool :=
  if ch.toNat < 128 then ch.isAlphanum else beyondAscii ch

end Text
end Foundation
