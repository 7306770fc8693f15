import Marreta.Foundation.Table
import Marreta.Foundation.Text

namespace Marreta

open Foundation Text

/-! The environment file of a project: one assignment a line, with comments behind `#`
and values in quotes. -/

namespace Config

abbrev EnvVars := Table (List Char) (List Char)

/-! ## Reading -/

/-- The text between two marks at its ends. -/
def unquote (mark : Char) : List Char → Option (List Char)
  | [] => none
  | first :: rest =>
      if first = mark ∧ rest.getLast? = some mark then some rest.dropLast else none

/-- The comment is cut before the quotes are looked for. -/
def readValue (val : List Char) : List Char :=
  let val := trim (val.takeWhile (· ≠ '#'))
  ((unquote '"' val).or (unquote '\'' val)).getD val

def readLine (line : List Char) : Option (List Char × List Char) :=
  let line := trim line
  if line = [] ∨ line.head? = some '#' then none
  else (splitOnceAt '=' line).map fun (key, val) => (trim key, readValue val)

/-- The variables of a file.  A file that cannot be read has none. -/
def readEnvFilePath : Option (List Char) → EnvVars
  | none => []
  | some content => Table.putAll [] ((lines content).filterMap readLine)

example : readEnvFilePath (some "MARRETA_HOST=\"localhost\" # comment\n".toList) =
    [("MARRETA_HOST".toList, "localhost".toList)] := by decide +kernel

/-! ## Quoted assignments -/

/-- A line `KEY="value"`, with blanks and a comment behind it or without. -/
structure QuotedLine where
  key : List Char
  value : List Char
  comment : Option (List Char × List Char)

namespace QuotedLine

def pair (line : QuotedLine) : List Char × List Char :=
  (line.key, line.value)

/-- The blanks and the comment. -/
def ending (line : QuotedLine) : List Char :=
  line.comment.elim [] fun (blanks, remark) => blanks ++ '#' :: remark

def text (line : QuotedLine) : List Char :=
  line.key ++ '=' :: '"' :: (line.value ++ '"' :: line.ending)

/-- The marks of the format stand only where they have a meaning. -/
structure Plain (line : QuotedLine) : Prop where
  key : ∀ ch ∈ ['=', '#', '"', '\''], ch ∉ line.key
  starts : ∀ ch ∈ line.key.head?, isWhitespace ch = false
  ends : ∀ ch ∈ line.key.getLast?, isWhitespace ch = false
  value : ∀ ch ∈ ['"', '\'', '\n'], ch ∉ line.value
  blanks : ∀ comment ∈ line.comment, ∀ ch ∈ comment.1, isWhitespace ch = true
  ending : '\n' ∉ line.ending ∧ '\r' ∉ line.ending

end QuotedLine

/-- What is behind the value, up to a comment, is blank. -/
theorem blank_before_comment {line : QuotedLine} (plain : line.Plain) :
    ∀ ch ∈ line.ending.takeWhile (· ≠ '#'), isWhitespace ch = true := by
  intro ch member
  rw [QuotedLine.ending] at member
  cases found : line.comment with
  | none =>
      rw [found] at member
      cases member
  | some comment =>
      obtain ⟨blanks, remark⟩ := comment
      rw [found, Option.elim_some] at member
      have white := plain.blanks _ found
      have clear : ∀ ch ∈ blanks, decide (ch ≠ '#') = true := by
        intro ch inside
        apply decide_eq_true
        rintro rfl
        have mark := white '#' inside
        revert mark
        decide
      rw [List.takeWhile_append_of_pos clear, List.takeWhile_cons_of_neg (by simp),
        List.append_nil] at member
      exact white ch member

theorem trimStart_eq_self {text : List Char}
    (starts : ∀ ch ∈ text.head?, isWhitespace ch = false) : trimStart text = text := by
  cases text with
  | nil => rfl
  | cons ch rest =>
      have solid := starts ch rfl
      rw [trimStart, List.dropWhile_cons_of_neg (by simp [solid])]

/-- Trimming stops at a character that is no blank. -/
theorem trimEnd_append {before after : List Char} {mark : Char}
    (solid : isWhitespace mark = false) :
    trimEnd (before ++ mark :: after) = before ++ mark :: trimEnd after := by
  have stops : (mark :: before.reverse).dropWhile isWhitespace = mark :: before.reverse :=
    List.dropWhile_cons_of_neg (by simp [solid])
  have turned : (before ++ mark :: after).reverse = after.reverse ++ mark :: before.reverse := by
    simp
  rw [trimEnd, turned, List.dropWhile_append, stops, trimEnd]
  cases rest : after.reverse.dropWhile isWhitespace with
  | nil => simp
  | cons ch rest => simp

theorem trim_key {line : QuotedLine} (plain : line.Plain) : trim line.key = line.key := by
  rw [trim, trimStart_eq_self plain.starts, trimEnd_eq_self plain.ends]

theorem trim_text {line : QuotedLine} (plain : line.Plain) :
    trim line.text = line.key ++ '=' :: '"' :: (line.value ++ '"' :: trimEnd line.ending) := by
  have starts : ∀ ch ∈ line.text.head?, isWhitespace ch = false := by
    intro ch first
    cases known : line.key with
    | nil =>
        rw [QuotedLine.text, known] at first
        obtain rfl := Option.some.inj first
        decide
    | cons front rest =>
        rw [QuotedLine.text, known] at first
        obtain rfl := Option.some.inj first
        exact plain.starts front (by rw [known]; rfl)
  have shape : line.text = (line.key ++ '=' :: '"' :: line.value) ++ '"' :: line.ending := by
    rw [QuotedLine.text, List.append_assoc]
    rfl
  rw [trim, trimStart_eq_self starts, shape, trimEnd_append (by decide), List.append_assoc]
  rfl

/-- Trimming leaves what is in front of a comment blank. -/
theorem blank_trimEnd {text : List Char}
    (blank : ∀ ch ∈ text.takeWhile (· ≠ '#'), isWhitespace ch = true) :
    ∀ ch ∈ (trimEnd text).takeWhile (· ≠ '#'), isWhitespace ch = true := by
  intro ch member
  apply blank ch
  obtain ⟨cut, rest⟩ : trimEnd text <+: text := by
    rw [trimEnd, ← List.reverse_suffix, List.reverse_reverse]
    exact List.dropWhile_suffix _
  rw [← rest, List.takeWhile_append]
  split
  · exact List.mem_append_left _ ((List.takeWhile_sublist _).mem member)
  · exact member

/-- The value of a line: the text up to a comment, and of that what is in quotes. -/
def readQuoted (value : List Char) : List Char :=
  if '#' ∈ value then '"' :: trimEnd (value.takeWhile (· ≠ '#')) else value

theorem solid_quote (rest : List Char) :
    ∀ ch ∈ ('"' :: rest).head?, isWhitespace ch = false := by
  intro ch first
  obtain rfl := Option.some.inj first
  decide

theorem unquote_quoted (mark : Char) (value : List Char) :
    unquote mark (mark :: (value ++ [mark])) = some value := by
  rw [unquote, if_pos ⟨rfl, List.getLast?_concat⟩, List.dropLast_concat]

theorem takeWhile_of_not_mem {value : List Char} (clear : '#' ∉ value) (rest : List Char) :
    (value ++ rest).takeWhile (· ≠ '#') = value ++ rest.takeWhile (· ≠ '#') := by
  apply List.takeWhile_append_of_pos
  intro ch member
  apply decide_eq_true
  rintro rfl
  exact clear member

theorem takeWhile_of_mem {value : List Char} (marked : '#' ∈ value) (rest : List Char) :
    (value ++ rest).takeWhile (· ≠ '#') = value.takeWhile (· ≠ '#') := by
  rw [List.takeWhile_append, if_neg]
  intro full
  have whole := (List.takeWhile_sublist fun ch : Char => decide (ch ≠ '#')).eq_of_length full
  rw [← whole] at marked
  have passes := List.mem_takeWhile_imp marked
  simp at passes

theorem readValue_quoted {value ending : List Char} (clear : ∀ ch ∈ ['"', '\''], ch ∉ value)
    (blank : ∀ ch ∈ ending.takeWhile (· ≠ '#'), isWhitespace ch = true) :
    readValue ('"' :: (value ++ '"' :: ending)) = readQuoted value := by
  rw [readValue, readQuoted, List.takeWhile_cons_of_pos (by decide)]
  by_cases marked : '#' ∈ value
  · have start : trim ('"' :: value.takeWhile (· ≠ '#')) =
        '"' :: trimEnd (value.takeWhile (· ≠ '#')) := by
      rw [trim, trimStart_eq_self (solid_quote _)]
      exact @trimEnd_append [] _ '"' (by decide)
    have open_ended : unquote '"' ('"' :: trimEnd (value.takeWhile (· ≠ '#'))) = none := by
      rw [unquote, if_neg]
      rintro ⟨-, last⟩
      apply clear '"' (by simp)
      exact (List.takeWhile_sublist _).mem (mem_of_mem_trimEnd (List.mem_of_getLast? last))
    have other : unquote '\'' ('"' :: trimEnd (value.takeWhile (· ≠ '#'))) = none := by
      rw [unquote, if_neg]
      rintro ⟨same, -⟩
      cases same
    rw [takeWhile_of_mem marked, if_pos marked, start]
    simp only [open_ended, other, Option.or_none, Option.getD_none]
  · have quoted : trim ('"' :: (value ++ '"' :: ending.takeWhile (· ≠ '#'))) =
        '"' :: (value ++ ['"']) := by
      have around := @trim_around [] ('"' :: (value ++ ['"'])) _ (by simp) blank
        (solid_quote _) (by
          intro ch last
          rw [← List.cons_append, List.getLast?_concat] at last
          obtain rfl := Option.some.inj last
          decide) (by simp)
      rw [List.nil_append, List.cons_append, List.append_assoc] at around
      exact around
    rw [takeWhile_of_not_mem marked, if_neg marked, List.takeWhile_cons_of_pos (by decide), quoted]
    simp only [unquote_quoted, Option.some_or, Option.getD_some]

theorem readLine_text {line : QuotedLine} (plain : line.Plain) :
    readLine line.text = some (line.key, readQuoted line.value) := by
  have clear : '=' ∉ line.key := plain.key '=' (by simp)
  have front : ∀ rest, ¬ (line.key ++ '=' :: rest = [] ∨
      (line.key ++ '=' :: rest).head? = some '#') := by
    intro rest
    cases known : line.key with
    | nil => simp
    | cons first others =>
        have other : first ≠ '#' := by
          rintro rfl
          exact plain.key '#' (by simp) (by rw [known]; exact List.mem_cons_self)
        simp [other]
  rw [readLine, trim_text plain]
  simp only [if_neg (front _), splitOnceAt_around clear, Option.map_some, trim_key plain]
  rw [readValue_quoted]
  · exact fun ch mark => plain.value ch (by simp at mark ⊢; tauto)
  · exact blank_trimEnd (blank_before_comment plain)

/-! ## Whole files -/

def quotedFile (file : List QuotedLine) : List Char :=
  unlines (file.map QuotedLine.text)

/-- A line is read as one unless its key breaks it. -/
theorem whole_line {line : QuotedLine} (plain : line.Plain) (whole : '\n' ∉ line.key) :
    '\n' ∉ line.text ∧ line.text.getLast? ≠ some '\r' := by
  have shape : line.text = (line.key ++ '=' :: '"' :: line.value) ++ '"' :: line.ending := by
    rw [QuotedLine.text, List.append_assoc]
    rfl
  constructor
  · intro member
    rw [shape] at member
    simp [whole, plain.value '\n' (by simp), plain.ending.1] at member
  · intro last
    rw [shape, List.getLast?_append_cons] at last
    have member := List.mem_of_getLast? last
    rcases List.mem_cons.mp member with same | inside
    · cases same
    · exact plain.ending.2 inside

theorem readEnvFilePath_quotedFile {file : List QuotedLine}
    (plain : ∀ line ∈ file, line.Plain) (distinct : (file.map (·.key)).Nodup)
    (whole : ∀ line ∈ file, '\n' ∉ line.key) :
    readEnvFilePath (some (quotedFile file)) =
      file.map fun line => (line.key, readQuoted line.value) := by
  have split : lines (quotedFile file) = file.map QuotedLine.text := by
    apply lines_unlines
    intro text member
    obtain ⟨line, inside, rfl⟩ := List.mem_map.mp member
    exact whole_line (plain line inside) (whole line inside)
  have read : (file.map QuotedLine.text).filterMap readLine =
      file.map fun line => (line.key, readQuoted line.value) := by
    rw [List.filterMap_map]
    clear split distinct whole
    induction file with
    | nil => rfl
    | cons line file induction =>
        rw [List.forall_mem_cons] at plain
        rw [List.filterMap_cons, Function.comp_apply, readLine_text plain.1, List.map_cons]
        exact congrArg _ (induction plain.2)
  have fresh : (Table.keys ([] ++ file.map fun line => (line.key, readQuoted line.value))).Nodup := by
    rw [List.nil_append, Table.keys, List.map_map]
    exact distinct
  rw [readEnvFilePath, split, read, Table.putAll_of_nodup fresh, List.nil_append]

theorem mem_of_readLine {line key value : List Char} (read : readLine line = some (key, value)) :
    ∀ ch ∈ key, ch ∈ line := by
  intro ch member
  rw [readLine] at read
  split at read
  · cases read
  · obtain ⟨⟨before, after⟩, found, same⟩ := Option.map_eq_some_iff.mp read
    obtain ⟨rfl, -⟩ := Prod.mk.inj same
    have inside : ch ∈ before :=
      (List.dropWhile_sublist _).mem (mem_of_mem_trimEnd member)
    have trimmed : ch ∈ trim line := by
      rw [eq_of_splitOnceAt found]
      exact List.mem_append_left _ inside
    exact (List.dropWhile_sublist _).mem (mem_of_mem_trimEnd trimmed)

theorem newline_not_mem_keys {content : List Char} {key : List Char}
    (member : key ∈ (readEnvFilePath (some content)).keys) : '\n' ∉ key := by
  rw [readEnvFilePath, Table.mem_keys_putAll] at member
  rcases member with member | member
  · obtain ⟨⟨key, value⟩, found, rfl⟩ := List.mem_map.mp member
    obtain ⟨line, inside, read⟩ := List.mem_filterMap.mp found
    exact fun feed => newline_not_mem_lines inside (mem_of_readLine read _ feed)
  · cases member

theorem readQuoted_eq_self_iff {value : List Char} (clear : '"' ∉ value) :
    readQuoted value = value ↔ '#' ∉ value := by
  rw [readQuoted]
  split
  · rename_i marked
    refine iff_of_false (fun same => ?_) (not_not_intro marked)
    rw [← same] at clear
    exact clear List.mem_cons_self
  · rename_i unmarked
    exact iff_of_true rfl unmarked

/-- A file of quoted assignments is read back when no value holds the mark of a comment
and no key breaks its line. -/
theorem reads_back_iff {file : List QuotedLine} (plain : ∀ line ∈ file, line.Plain)
    (distinct : (file.map (·.key)).Nodup) :
    (∀ key, (readEnvFilePath (some (quotedFile file))).find? key =
      Table.find? (file.map QuotedLine.pair) key) ↔
        ∀ line ∈ file, '\n' ∉ line.key ∧ '#' ∉ line.value := by
  have known : ∀ line ∈ file, Table.find? (file.map QuotedLine.pair) line.key = some line.value := by
    intro line member
    apply Table.lookup_of_mem
    · rw [Table.keys, List.map_map]
      exact distinct
    · exact List.mem_map_of_mem member
  constructor
  · intro same
    have whole : ∀ line ∈ file, '\n' ∉ line.key := by
      intro line member
      have named : (Table.find? (readEnvFilePath (some (quotedFile file))) line.key).isSome =
          true := by
        rw [same, known line member]
        rfl
      exact newline_not_mem_keys (Table.lookup_isSome.mp named)
    intro line member
    refine ⟨whole line member, ?_⟩
    rw [← readQuoted_eq_self_iff ((plain line member).value '"' (by simp))]
    have read := same line.key
    rw [known line member, readEnvFilePath_quotedFile plain distinct whole] at read
    have found : Table.find? (file.map fun line => (line.key, readQuoted line.value)) line.key =
        some (readQuoted line.value) := by
      apply Table.lookup_of_mem
      · rw [Table.keys, List.map_map]
        exact distinct
      · exact List.mem_map.mpr ⟨line, member, rfl⟩
    exact Option.some.inj (found.symm.trans read)
  · intro clear key
    rw [readEnvFilePath_quotedFile plain distinct fun line member => (clear line member).1]
    congr 1
    apply List.map_congr_left
    intro line member
    rw [(readQuoted_eq_self_iff ((plain line member).value '"' (by simp))).mpr
      (clear line member).2]
    rfl

end Config

end Marreta
