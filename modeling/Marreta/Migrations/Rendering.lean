import Marreta.Migrations.Planner
import Marreta.Syntax.Lexemes

namespace Marreta.Migrations

open Foundation (Table)
open Foundation.Text (isWhitespace trim trimStart trimEnd lines)

/-! What the replay reads in generated statements.

The names of a program are words, so the SQL that is generated from them has no
literals and no comments, and each part of a statement is found where the renderer
put it. -/

/-! ## Plain text -/

/-- The character starts no literal and no comment and ends no statement. -/
def PlainChar (ch : Char) : Prop :=
  ch ≠ '\'' ∧ ch ≠ '$' ∧ ch ≠ '-' ∧ ch ≠ '/' ∧ ch ≠ ';'

instance (ch : Char) : Decidable (PlainChar ch) :=
  inferInstanceAs (Decidable (_ ∧ _))

def Plain (text : List Char) : Prop :=
  ∀ ch ∈ text, PlainChar ch

instance (text : List Char) : Decidable (Plain text) :=
  inferInstanceAs (Decidable (∀ ch ∈ text, PlainChar ch))

theorem Plain.append {one other : List Char} (first : Plain one) (second : Plain other) :
    Plain (one ++ other) := by
  intro ch member
  rcases List.mem_append.mp member with member | member
  · exact first ch member
  · exact second ch member

theorem skipLiteral?_plain {ch : Char} (plain : PlainChar ch) (rest : List Char) :
    skipLiteral? (ch :: rest) = none := by
  obtain ⟨quote, dollar, -⟩ := plain
  unfold skipLiteral?
  split
  · simp_all
  · simp_all
  · rfl

theorem skipComment?_plain {ch : Char} (plain : PlainChar ch) (rest : List Char) :
    skipComment? (ch :: rest) = none := by
  obtain ⟨-, -, dash, slash, -⟩ := plain
  unfold skipComment?
  split
  · simp_all
  · simp_all
  · rfl

/-- Plain text belongs to the current statement. -/
theorem splitFrom_plain {text : List Char} (plain : Plain text) (fuel : Nat)
    (current rest : List Char) :
    splitFrom (text.length + fuel) current (text ++ rest) =
      splitFrom fuel (current ++ text) rest := by
  induction text generalizing current with
  | nil => simp
  | cons ch text ih =>
      have here := plain ch List.mem_cons_self
      have later : Plain text := fun other member => plain other (List.mem_cons_of_mem _ member)
      have step : (ch :: text).length + fuel = text.length + fuel + 1 := by
        rw [List.length_cons]
        omega
      rw [step, List.cons_append, splitFrom, skipLiteral?_plain here, skipComment?_plain here]
      change (if ch = ';' then _ else _) = _
      rw [if_neg here.2.2.2.2, ih later, List.append_assoc, List.singleton_append]

theorem splitFrom_statement {body : List Char} (plain : Plain body) (fuel : Nat)
    (rest : List Char) :
    splitFrom (body.length + (fuel + 1)) [] (body ++ ';' :: rest) =
      body :: splitFrom fuel [] rest := by
  rw [splitFrom_plain plain, List.nil_append]
  rfl

theorem stripFrom_plain {text : List Char} (plain : Plain text) (fuel : Nat) :
    stripFrom (text.length + 1 + fuel) text = text := by
  induction text with
  | nil => rw [List.length_nil, Nat.zero_add, Nat.add_comm, stripFrom]
  | cons ch text ih =>
      have here := plain ch List.mem_cons_self
      have later : Plain text := fun other member => plain other (List.mem_cons_of_mem _ member)
      have step : (ch :: text).length + 1 + fuel = text.length + 1 + fuel + 1 := by
        rw [List.length_cons]
        omega
      rw [step, stripFrom, skipLiteral?_plain here, skipComment?_plain here]
      simp only [ih later]

theorem stripSqlComments_plain {text : List Char} (plain : Plain text) :
    stripSqlComments text = text :=
  stripFrom_plain plain 0

/-- What follows the first statement of a generated file. -/
def fileTail : List (List Char) → List Char
  | [] => ['\n']
  | body :: bodies => "\n\n".toList ++ body ++ ';' :: fileTail bodies

theorem joinSql_cons (first : List Char) (bodies : List (List Char)) :
    joinSql ((first :: bodies).map (· ++ [';'])) = first ++ ';' :: fileTail bodies := by
  have joined : "\n\n".toList.intercalate ((first :: bodies).map (· ++ [';'])) ++ ['\n'] =
      first ++ ';' :: fileTail bodies := by
    induction bodies generalizing first with
    | nil => simp [List.intercalate, fileTail]
    | cons body bodies ih =>
        have step := ih body
        simp only [List.map_cons, List.intercalate, List.intersperse_cons_cons,
          List.flatten_cons, List.append_assoc] at step ⊢
        rw [step, fileTail]
        simp
  have ends : ("\n\n".toList.intercalate ((first :: bodies).map (· ++ [';']))).getLast? =
      some ';' := by
    clear joined
    induction bodies generalizing first with
    | nil => simp [List.intercalate]
    | cons body bodies ih =>
        have step := ih body
        simp only [List.map_cons, List.intercalate, List.intersperse_cons_cons,
          List.flatten_cons] at step ⊢
        rw [List.getLast?_append, List.getLast?_append, step]
        rfl
  rw [joinSql, if_neg (by rw [ends]; decide), joined]

/-- The statements of a generated file are found, with the line feeds before them. -/
theorem splitFrom_fileTail {bodies : List (List Char)} (plain : ∀ body ∈ bodies, Plain body) :
    splitFrom ((fileTail bodies).length + 1) [] (fileTail bodies) =
      bodies.map ("\n\n".toList ++ ·) ++ [['\n']] := by
  induction bodies with
  | nil => rfl
  | cons body bodies ih =>
      have here : Plain ("\n\n".toList ++ body) :=
        Plain.append (by decide) (plain body List.mem_cons_self)
      have later := ih fun other member => plain other (List.mem_cons_of_mem _ member)
      have length : (fileTail (body :: bodies)).length + 1 =
          ("\n\n".toList ++ body).length + ((fileTail bodies).length + 1 + 1) := by
        rw [fileTail, List.length_append, List.length_cons]
        omega
      rw [length, fileTail, splitFrom_statement here, later]
      rfl

theorem splitSqlStatements_joinSql {first : List Char} {bodies : List (List Char)}
    (plain : ∀ body ∈ first :: bodies, Plain body) :
    splitSqlStatements (joinSql ((first :: bodies).map (· ++ [';']))) =
      first :: (bodies.map ("\n\n".toList ++ ·) ++ [['\n']]) := by
  have later := splitFrom_fileTail fun other member => plain other (List.mem_cons_of_mem _ member)
  rw [joinSql_cons, splitSqlStatements, List.length_append, List.length_cons, Nat.add_assoc,
    splitFrom_statement (plain first List.mem_cons_self), later]

/-! ## Words -/

/-- A name as the lexer reads it. -/
def IsName (name : List Char) : Prop :=
  name ≠ [] ∧ ∀ ch ∈ name, Lexer.isWordChar ch = true

theorem IsName.ne {name : List Char} (is : IsName name) {symbol : Char}
    (other : Lexer.isWordChar symbol = false) : symbol ∉ name := by
  intro member
  rw [is.2 symbol member] at other
  cases other

theorem IsName.plain {name : List Char} (is : IsName name) : Plain name := by
  intro ch member
  have differs : ∀ symbol, Lexer.isWordChar symbol = false → ch ≠ symbol := by
    rintro symbol other rfl
    exact is.ne other member
  exact ⟨differs _ (by decide), differs _ (by decide), differs _ (by decide),
    differs _ (by decide), differs _ (by decide)⟩

theorem IsName.not_isWhitespace {name : List Char} (is : IsName name) :
    ∀ ch ∈ name, isWhitespace ch = false := by
  intro ch member
  by_contra white
  have word := (not_isDigit_of_isWhitespace (by simpa using white)).2.1
  rw [is.2 ch member] at word
  cases word

/-- Letters are not turned into signs. -/
theorem toUpper_ne {ch symbol : Char} (differs : ch ≠ symbol) (early : symbol.toNat < 65) :
    ch.toUpper ≠ symbol := by
  unfold Char.toUpper
  split
  · rename_i lower
    have first : 97 ≤ ch.val.toNat := UInt32.le_iff_toNat_le.mp lower.1
    have last : ch.val.toNat ≤ 122 := UInt32.le_iff_toNat_le.mp lower.2
    have shift : ('A'.val - 'a'.val).toNat = 4294967264 := by decide
    have code : (ch.val + ('A'.val - 'a'.val)).toNat = ch.val.toNat - 32 := by
      rw [UInt32.toNat_add, shift]
      omega
    rintro rfl
    simp only [Char.toNat, code] at early
    omega
  · exact differs

theorem IsName.not_mem_upper {name : List Char} (is : IsName name) {symbol : Char}
    (other : Lexer.isWordChar symbol = false) (early : symbol.toNat < 65) :
    symbol ∉ toAsciiUppercase name := by
  intro member
  obtain ⟨ch, inside, upper⟩ := List.mem_map.mp member
  refine toUpper_ne ?_ early upper
  rintro rfl
  exact is.ne other inside

/-! ## Cutting -/

theorem splitOnce_first {pattern : List Char} {ch : Char} {before : List Char}
    (absent : ch ∉ before) (after : List Char) :
    splitOnce (ch :: pattern) (before ++ (ch :: pattern ++ after)) = some (before, after) := by
  induction before with
  | nil =>
      rw [List.nil_append, List.cons_append, splitOnce, if_pos]
      · simp
      · simp
  | cons first before ih =>
      have differs : ch ≠ first := fun same => absent (same ▸ List.mem_cons_self)
      have rest := ih fun member => absent (List.mem_cons_of_mem _ member)
      rw [List.cons_append, splitOnce, if_neg, rest]
      · rfl
      · simp [List.isPrefixOf, differs]

theorem splitWord_first {separates : Char → Bool} {word : List Char} {symbol : Char}
    (inside : ∀ ch ∈ word, separates ch = false) (separator : separates symbol = true)
    (rest : List Char) : splitWord separates (word ++ symbol :: rest) = some (word, rest) := by
  have stays : ∀ ch ∈ word, (!separates ch) = true := by
    intro ch member
    rw [inside ch member]
    rfl
  rw [splitWord, List.dropWhile_append_of_pos stays, List.takeWhile_append_of_pos stays,
    List.dropWhile_cons_of_neg (by simp [separator]), List.takeWhile_cons_of_neg (by simp [separator]),
    List.append_nil]

theorem stripKeywordCi_append (keyword : String) (rest : List Char) :
    stripKeywordCi (keyword.toList ++ rest) keyword = some rest := by
  have length : keyword.length = keyword.toList.length := rfl
  rw [stripKeywordCi, length, List.take_left, if_pos rfl, List.drop_left]

/-! ## Columns -/

/-- The types that columns are given. -/
def postgresTypes : List String :=
  ["TEXT", "BIGINT", "DOUBLE PRECISION", "NUMERIC", "BOOLEAN", "TIMESTAMPTZ", "DATE", "TIME",
    "JSONB"]

theorem mem_postgresTypes {fieldType : SchemaType} {type : String}
    (found : postgresType fieldType = .ok type) : type ∈ postgresTypes := by
  cases fieldType <;> cases found <;> decide

/-- What follows the name in a column definition. -/
def columnTail (type : String) (primary generated nullable unique : Bool) : List Char :=
  [' '].intercalate
    ([type.toList] ++
      (if primary then ["PRIMARY KEY".toList] else []) ++
      (if generated then ["GENERATED BY DEFAULT AS IDENTITY".toList] else []) ++
      (if nullable then [] else ["NOT NULL".toList]) ++
      (if unique then ["UNIQUE".toList] else []))

/-- The type that a column is given. -/
def columnType (column : PersistentColumn) : String :=
  (postgresType column.fieldType).toOption.getD ""

def tailText (column : PersistentColumn) : List Char :=
  columnTail (columnType column) column.primary column.generated column.nullable column.unique

/-- The definition of a column. -/
def columnText (column : PersistentColumn) : List Char :=
  column.columnName.toList ++ ' ' :: tailText column

theorem renderPostgresColumn_eq {column : PersistentColumn}
    (found : postgresType column.fieldType = .ok (columnType column)) :
    renderPostgresColumn column = .ok (columnText column) := by
  unfold renderPostgresColumn
  rw [found]
  rfl

/-- What matters of the text after a name. -/
def TailReads (tail : List Char) (type : String) (nullable : Bool) : Prop :=
  captureTypeAndNullability tail = (some type, some nullable) ∧
    Plain tail ∧ (∀ ch ∈ tail, ch ≠ '(' ∧ ch ≠ ')' ∧ ch ≠ ',') ∧
    (∀ ch ∈ tail.getLast?, isWhitespace ch = false) ∧ tail ≠ [] ∧
    ¬ "KEY".toList <+: toAsciiUppercase tail

instance (tail : List Char) (type : String) (nullable : Bool) :
    Decidable (TailReads tail type nullable) :=
  inferInstanceAs (Decidable (_ ∧ _))

theorem columnTail_reads :
    ∀ type ∈ postgresTypes, ∀ primary generated nullable unique : Bool,
      TailReads (columnTail type primary generated nullable unique) type
        (nullable && !primary) := by
  decide +kernel

/-- Names that the replay takes for the start of a constraint. -/
def isConstraintName (name : String) : Bool :=
  ["CONSTRAINT", "UNIQUE", "CHECK", "EXCLUDE"].any fun lead =>
    toAsciiUppercase name.toList = lead.toList

/-- Two texts start alike: the first words are the same. -/
theorem prefix_words {one other rest otherRest : List Char} (plain : ' ' ∉ one)
    (otherPlain : ' ' ∉ other) :
    one ++ ' ' :: rest <+: other ++ ' ' :: otherRest ↔ one = other ∧ rest <+: otherRest := by
  induction one generalizing other with
  | nil =>
      cases other with
      | nil => simp [List.cons_prefix_cons]
      | cons ch other =>
          have differs : ' ' ≠ ch := fun same => otherPlain (same ▸ List.mem_cons_self)
          simp [List.cons_prefix_cons, differs]
  | cons ch one ih =>
      cases other with
      | nil =>
          have differs : ch ≠ ' ' := fun same => plain (same ▸ List.mem_cons_self)
          simp [List.cons_prefix_cons, differs]
      | cons otherCh other =>
          have step := @ih other (fun member => plain (List.mem_cons_of_mem _ member))
            (fun member => otherPlain (List.mem_cons_of_mem _ member))
          simp only [List.cons_append, List.cons_prefix_cons, step, List.cons.injEq, and_assoc]

theorem not_prefix_symbol {one other rest : List Char} {symbol : Char} (blank : symbol ≠ ' ')
    (plain : ' ' ∉ one) (absent : symbol ∉ other) :
    ¬ one ++ [symbol] <+: other ++ ' ' :: rest := by
  induction one generalizing other with
  | nil =>
      cases other with
      | nil => simp [List.cons_prefix_cons, blank]
      | cons ch other =>
          have differs : symbol ≠ ch := fun same => absent (same ▸ List.mem_cons_self)
          simp [List.cons_prefix_cons, differs]
  | cons ch one ih =>
      cases other with
      | nil =>
          have differs : ch ≠ ' ' := fun same => plain (same ▸ List.mem_cons_self)
          simp [List.cons_prefix_cons, differs]
      | cons otherCh other =>
          have step := @ih other (fun member => plain (List.mem_cons_of_mem _ member))
            (fun member => absent (List.mem_cons_of_mem _ member))
          simp [List.cons_prefix_cons, step]

section Leads

variable {name tail lead : List Char} (blank : ' ' ∉ name)
include blank

/-- A lead of one word is the name. -/
theorem lead_word (paren : '(' ∉ name) (single : ' ' ∉ lead) :
    (decide (name ++ ' ' :: tail = lead) || (lead ++ [' ']).isPrefixOf (name ++ ' ' :: tail) ||
      (lead ++ ['(']).isPrefixOf (name ++ ' ' :: tail)) = decide (name = lead) := by
  have other : name ++ ' ' :: tail ≠ lead := by
    rintro rfl
    simp at single
  have call : ¬ lead ++ ['('] <+: name ++ ' ' :: tail :=
    not_prefix_symbol (by decide) single paren
  have word : lead ++ [' '] <+: name ++ ' ' :: tail ↔ name = lead := by
    rw [prefix_words single blank, eq_comm]
    simp
  rw [Bool.eq_iff_iff]
  simp only [Bool.or_eq_true, decide_eq_true_eq, List.isPrefixOf_iff_prefix, other, call, word,
    false_or, or_false]

/-- A lead of two words is not, unless the second one follows. -/
theorem lead_words {second : List Char} (single : ' ' ∉ lead) (differs : ¬ second <+: tail) :
    (decide (name ++ ' ' :: tail = lead ++ ' ' :: second) ||
      (lead ++ ' ' :: second ++ [' ']).isPrefixOf (name ++ ' ' :: tail) ||
      (lead ++ ' ' :: second ++ ['(']).isPrefixOf (name ++ ' ' :: tail)) = false := by
  have starts (rest : List Char) : ¬ lead ++ ' ' :: second ++ rest <+: name ++ ' ' :: tail := by
    intro starts
    rw [List.append_assoc, List.cons_append, prefix_words single blank] at starts
    exact differs ((List.prefix_append second rest).trans starts.2)
  have other : name ++ ' ' :: tail ≠ lead ++ ' ' :: second := by
    intro same
    have whole : lead ++ ' ' :: second ++ [] = name ++ ' ' :: tail := by
      rw [List.append_nil, same]
    exact starts [] (whole ▸ List.prefix_rfl)
  rw [Bool.eq_false_iff]
  simp only [ne_eq, Bool.or_eq_true, decide_eq_true_eq, List.isPrefixOf_iff_prefix, other, starts,
    or_self, not_false_eq_true]

end Leads

/-- Only the name of a column can make its definition a constraint. -/
theorem isTableLevelConstraint_column {name : String} {tail : List Char} (is : IsName name.toList)
    (key : ¬ "KEY".toList <+: toAsciiUppercase tail) :
    isTableLevelConstraint (name.toList ++ ' ' :: tail) = isConstraintName name := by
  have blank := @IsName.not_mem_upper _ is ' ' (by decide) (by decide)
  have paren := @IsName.not_mem_upper _ is '(' (by decide) (by decide)
  have upper : toAsciiUppercase (name.toList ++ ' ' :: tail) =
      toAsciiUppercase name.toList ++ ' ' :: toAsciiUppercase tail := by
    simp [toAsciiUppercase]
  have word (lead : List Char) (single : ' ' ∉ lead) :=
    @lead_word _ (toAsciiUppercase tail) lead blank paren single
  have words (lead : List Char) (single : ' ' ∉ lead) :=
    @lead_words _ (toAsciiUppercase tail) lead blank _ single key
  simp only [isTableLevelConstraint, isConstraintName, constraintLeads, upper, List.any_cons,
    List.any_nil]
  rw [word _ (by decide : ' ' ∉ "CONSTRAINT".toList), word _ (by decide : ' ' ∉ "UNIQUE".toList),
    word _ (by decide : ' ' ∉ "CHECK".toList), word _ (by decide : ' ' ∉ "EXCLUDE".toList)]
  rw [show "PRIMARY KEY".toList = "PRIMARY".toList ++ ' ' :: "KEY".toList from rfl,
    show "FOREIGN KEY".toList = "FOREIGN".toList ++ ' ' :: "KEY".toList from rfl,
    words _ (by decide : ' ' ∉ "PRIMARY".toList), words _ (by decide : ' ' ∉ "FOREIGN".toList)]
  rfl

/-! ## Created tables -/

/-- A column that can be rendered. -/
structure RenderedColumn (column : PersistentColumn) : Prop where
  name : IsName column.columnName.toList
  type : postgresType column.fieldType = .ok (columnType column)

/-- A column as the replay reads it. -/
def replayedColumn (column : PersistentColumn) : DatabaseColumn where
  name := column.columnName
  renderedType := (postgresType column.fieldType).toOption
  nullable := some (column.nullable && !column.primary)

namespace RenderedColumn

variable {column : PersistentColumn} (rendered : RenderedColumn column)
include rendered

theorem tail_reads :
    TailReads (tailText column) (columnType column) (column.nullable && !column.primary) :=
  columnTail_reads _ (mem_postgresTypes rendered.type) column.primary column.generated
    column.nullable column.unique

theorem columnOf_eq :
    columnOf column.columnName.toList (tailText column) =
      replayedColumn column := by
  have captured := rendered.tail_reads.1
  simp only [columnOf, captured, replayedColumn, rendered.type, String.ofList_toList]
  rfl

theorem splitWord_text :
    splitWord isWhitespace (columnText column) =
      some (column.columnName.toList, tailText column) :=
  splitWord_first rendered.name.not_isWhitespace (by decide) _

theorem starts : ∀ ch ∈ (columnText column).head?, isWhitespace ch = false := by
  obtain ⟨first, rest, parts⟩ := List.exists_cons_of_ne_nil rendered.name.1
  intro ch head
  rw [columnText, parts] at head
  obtain rfl : first = ch := by simpa using head
  exact rendered.name.not_isWhitespace first (by rw [parts]; exact List.mem_cons_self)

theorem ends : ∀ ch ∈ (columnText column).getLast?,
    isWhitespace ch = false ∧ ch ≠ ',' := by
  obtain ⟨-, -, bare, last, some, -⟩ := rendered.tail_reads
  intro ch found
  have tail : ch ∈ (tailText column).getLast? := by
    rw [columnText, List.getLast?_append, List.getLast?_cons_of_ne_nil some] at found
    obtain ⟨other, same⟩ := Option.ne_none_iff_exists'.mp (mt List.getLast?_eq_none_iff.mp some)
    rw [same] at found ⊢
    exact found
  exact ⟨last ch tail, (bare ch (List.mem_of_getLast? tail)).2.2⟩

theorem bare : ∀ ch ∈ columnText column, ch ≠ '\'' ∧ ch ≠ '(' ∧ ch ≠ ')' ∧ ch ≠ ',' := by
  obtain ⟨-, plain, bare, -⟩ := rendered.tail_reads
  intro ch member
  rw [columnText, List.mem_append, List.mem_cons] at member
  rcases member with member | rfl | member
  · have differs : ∀ symbol, Lexer.isWordChar symbol = false → ch ≠ symbol := by
      rintro symbol other rfl
      exact rendered.name.ne other member
    exact ⟨differs _ (by decide), differs _ (by decide), differs _ (by decide),
      differs _ (by decide)⟩
  · decide
  · exact ⟨(plain ch member).1, bare ch member⟩

theorem plain : Plain (columnText column) := by
  obtain ⟨-, plain, -⟩ := rendered.tail_reads
  refine rendered.name.plain.append fun ch member => ?_
  rcases List.mem_cons.mp member with rfl | member
  · decide
  · exact plain ch member

omit rendered in
theorem ne_nil : columnText column ≠ [] := by
  simp [columnText]

/-- The replay reads back a definition, unless its name looks like a constraint. -/
theorem createdColumn_eq (version : String) {before after : List Char}
    (white : ∀ ch ∈ before, isWhitespace ch = true)
    (whiteAfter : ∀ ch ∈ after, isWhitespace ch = true) :
    createdColumn version (before ++ (columnText column ++ after)) =
      .ok (if isConstraintName column.columnName then none else some (replayedColumn column)) := by
  have trimmed : trim (before ++ (columnText column ++ after)) = columnText column :=
    Foundation.Text.trim_around white whiteAfter rendered.starts
      (fun ch found => (rendered.ends ch found).1)
      ne_nil
  have whole : trim (columnText column) = columnText column := by
    have none : ∀ ch ∈ ([] : List Char), isWhitespace ch = true := by simp
    have alone := Foundation.Text.trim_around none none rendered.starts
      (fun ch found => (rendered.ends ch found).1) ne_nil
    rwa [List.nil_append, List.append_nil] at alone
  have commas : trimCommas (columnText column) = columnText column := by
    obtain ⟨last, found⟩ := Option.ne_none_iff_exists'.mp
      (mt List.getLast?_eq_none_iff.mp ne_nil)
    have differs := (rendered.ends last found).2
    rw [← List.head?_reverse] at found
    obtain ⟨rest, parts⟩ := List.head?_eq_some_iff.mp found
    rw [trimCommas, parts, List.dropWhile_cons_of_neg (by simpa using differs), ← parts,
      List.reverse_reverse]
  have constraint : isTableLevelConstraint (columnText column) =
      isConstraintName column.columnName :=
    isTableLevelConstraint_column rendered.name rendered.tail_reads.2.2.2.2.2
  simp only [createdColumn, trimmed, commas, whole, ne_nil, if_false, constraint,
    rendered.splitWord_text, rendered.columnOf_eq]
  split <;> rfl

end RenderedColumn

/-- Text without quotes, parentheses and commas belongs to the current definition. -/
theorem splitDefsFrom_bare {text : List Char}
    (bare : ∀ ch ∈ text, ch ≠ '\'' ∧ ch ≠ '(' ∧ ch ≠ ')' ∧ ch ≠ ',') (fuel : Nat)
    (current rest : List Char) :
    splitDefsFrom (text.length + fuel) 0 current (text ++ rest) =
      splitDefsFrom fuel 0 (current ++ text) rest := by
  induction text generalizing current with
  | nil => simp
  | cons ch text ih =>
      obtain ⟨quote, opened, closed, comma⟩ := bare ch List.mem_cons_self
      have later := ih fun other member => bare other (List.mem_cons_of_mem _ member)
      have step : (ch :: text).length + fuel = text.length + fuel + 1 := by
        rw [List.length_cons]
        omega
      rw [step, List.cons_append, splitDefsFrom, if_neg quote, if_neg opened, if_neg closed,
        if_neg fun separates => comma separates.1, later, List.append_assoc,
        List.singleton_append]

/-- What follows the first definition in the body of a created table. -/
def defsTail : List (List Char) → List Char
  | [] => ['\n']
  | text :: texts => ',' :: ("\n  ".toList ++ text ++ defsTail texts)

theorem intercalate_defs (first : List Char) (texts : List (List Char)) :
    ",\n  ".toList.intercalate (first :: texts) ++ ['\n'] = first ++ defsTail texts := by
  induction texts generalizing first with
  | nil => simp [List.intercalate, defsTail]
  | cons text texts ih =>
      have step := ih text
      simp only [List.intercalate, List.intersperse_cons_cons, List.flatten_cons,
        List.append_assoc] at step ⊢
      rw [step, defsTail]
      simp

/-- The definitions of such a body, with the whitespace around them. -/
def defChunks (current : List Char) : List (List Char) → List (List Char)
  | [] => [current ++ ['\n']]
  | text :: texts => current :: defChunks ("\n  ".toList ++ text) texts

theorem splitDefsFrom_defsTail {texts : List (List Char)}
    (bare : ∀ text ∈ texts, ∀ ch ∈ text, ch ≠ '\'' ∧ ch ≠ '(' ∧ ch ≠ ')' ∧ ch ≠ ',')
    (current : List Char) :
    splitDefsFrom ((defsTail texts).length + 1) 0 current (defsTail texts) =
      defChunks current texts := by
  induction texts generalizing current with
  | nil =>
      have some : current ++ ['\n'] ≠ [] := by simp
      change (if current ++ ['\n'] = [] then _ else _) = _
      rw [if_neg some, defChunks]
  | cons text texts ih =>
      have later := ih fun other member => bare other (List.mem_cons_of_mem _ member)
      have here : ∀ ch ∈ "\n  ".toList ++ text, ch ≠ '\'' ∧ ch ≠ '(' ∧ ch ≠ ')' ∧ ch ≠ ',' := by
        have indent : ∀ ch ∈ "\n  ".toList, ch ≠ '\'' ∧ ch ≠ '(' ∧ ch ≠ ')' ∧ ch ≠ ',' := by
          decide
        intro ch member
        rcases List.mem_append.mp member with member | member
        · exact indent ch member
        · exact bare text List.mem_cons_self ch member
      have length : (defsTail (text :: texts)).length =
          ("\n  ".toList ++ text).length + ((defsTail texts).length + 1) := by
        rw [defsTail, List.length_cons, List.length_append]
        omega
      rw [length, defsTail, defChunks]
      change current :: splitDefsFrom (("\n  ".toList ++ text).length +
        ((defsTail texts).length + 1)) 0 [] _ = _
      rw [splitDefsFrom_bare here, List.nil_append, later]

/-- The columns of a created table that the replay keeps. -/
def createdTable (tableName : String) (columns : List PersistentColumn) : DatabaseTable :=
  (columns.filter fun column => !isConstraintName column.columnName).foldl
    (fun table column => table.putColumn (replayedColumn column)) (.new tableName)

def Rendered (columns : List PersistentColumn) : Prop :=
  ∀ column ∈ columns, RenderedColumn column

theorem createdColumns_defChunks {columns : List PersistentColumn}
    {first : PersistentColumn} (rendered : Rendered (first :: columns))
    (version : String) (table : DatabaseTable) {before : List Char}
    (white : ∀ ch ∈ before, isWhitespace ch = true) :
    createdColumns version table
        (defChunks (before ++ columnText first) (columns.map columnText)) =
      .ok (((first :: columns).filter fun column => !isConstraintName column.columnName).foldl
          (fun table column => table.putColumn (replayedColumn column)) table) := by
  induction columns generalizing first table before with
  | nil =>
      have feed : ∀ ch ∈ ['\n'], isWhitespace ch = true := by decide
      have here := (rendered first List.mem_cons_self).createdColumn_eq version white feed
      rw [List.map_nil, defChunks, List.append_assoc, createdColumns, here]
      cases known : isConstraintName first.columnName <;> simp [known] <;> rfl
  | cons second columns ih =>
      have none : ∀ ch ∈ ([] : List Char), isWhitespace ch = true := by simp
      have here := (rendered first List.mem_cons_self).createdColumn_eq version white none
      have indent : ∀ ch ∈ "\n  ".toList, isWhitespace ch = true := by decide
      have later (table : DatabaseTable) := @ih second
        (fun column member => rendered column (List.mem_cons_of_mem _ member)) table _ indent
      rw [List.append_nil] at here
      rw [List.map_cons, defChunks, createdColumns, here]
      cases known : isConstraintName first.columnName with
      | true =>
          have skip := later table
          simp only [List.filter_cons, known] at skip ⊢
          exact skip
      | false =>
          have keep := later (table.putColumn (replayedColumn first))
          simp only [List.filter_cons, known] at keep ⊢
          exact keep

end Marreta.Migrations
