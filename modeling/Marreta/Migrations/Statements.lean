import Marreta.Migrations.Rendering
namespace Marreta.Migrations

open Foundation (Table)
open Foundation.Text (isWhitespace trim trimStart trimEnd lines)

/-! Generated statements.

A migration that was generated is replayed as the operations it was generated for.
What a created table keeps depends on the names of its columns. -/

/-! ## Statements -/

/-- The marker is a comment. -/
theorem chunkHasSkipMarker_plain {text : List Char} (plain : Plain text) :
    chunkHasSkipMarker text = false := by
  rw [chunkHasSkipMarker, List.any_eq_false]
  intro line member
  rw [decide_eq_true_eq]
  intro marker
  have dash : '-' ∈ trim line := by
    rw [marker]
    decide
  have inside := Foundation.Text.mem_of_mem_lines member '-'
    ((List.dropWhile_sublist _).mem (Foundation.Text.mem_of_mem_trimEnd dash))
  exact (plain '-' inside).2.2.1 rfl

/-- A text that starts and ends with a part of it. -/
structure Tight (text : List Char) : Prop where
  some : text ≠ []
  starts : ∀ ch ∈ text.head?, isWhitespace ch = false
  ends : ∀ ch ∈ text.getLast?, isWhitespace ch = false

theorem Tight.trim_eq {text before after : List Char} (tight : Tight text)
    (white : ∀ ch ∈ before, isWhitespace ch = true)
    (whiteAfter : ∀ ch ∈ after, isWhitespace ch = true) :
    trim (before ++ (text ++ after)) = text :=
  Foundation.Text.trim_around white whiteAfter tight.starts tight.ends tight.some

theorem stripKeywordCi_other {first : Char} {rest : List Char} {keyword : String}
    (differs : ∀ ch ∈ keyword.toList.head?, first.toUpper ≠ ch.toUpper) (some : keyword ≠ "") :
    stripKeywordCi (first :: rest) keyword = none := by
  have length : keyword.length = keyword.toList.length := rfl
  obtain ⟨lead, more, parts⟩ := List.exists_cons_of_ne_nil
    (fun empty => some (String.toList_eq_nil_iff.mp empty) : keyword.toList ≠ [])
  have other := differs lead (by rw [parts]; rfl)
  rw [stripKeywordCi, if_neg]
  rw [length, parts, List.length_cons, List.take_succ_cons]
  simp [toAsciiUppercase, other]

/-- What is read of a statement without literals and comments. -/
theorem applyStatement_plain {before body : List Char} (migration : LocalMigration)
    (schema : DatabaseSchema) (white : ∀ ch ∈ before, isWhitespace ch = true)
    (plainBefore : Plain before) (plain : Plain body) (tight : Tight body) :
    applyStatement migration schema (before ++ body) =
      match stripKeywordCi body "CREATE TABLE " with
      | some rest => applyCreateTableStmt schema rest migration.version
      | none =>
          match stripKeywordCi body "ALTER TABLE " with
          | some rest => applyAlterTableStmt schema migration body rest
          | none =>
              if isAutoTolerated (toAsciiUppercase body) then .ok schema
              else rejectedDdl migration body := by
  have stripped : trim (stripSqlComments (before ++ body)) = body := by
    have none : ∀ ch ∈ ([] : List Char), isWhitespace ch = true := by simp
    have trimmed := tight.trim_eq white none
    rwa [List.append_nil, ← stripSqlComments_plain (plainBefore.append plain)] at trimmed
  have unmarked := chunkHasSkipMarker_plain (plainBefore.append plain)
  unfold applyStatement
  generalize trim (stripSqlComments (before ++ body)) = statement at stripped ⊢
  subst stripped
  exact (if_neg tight.some).trans (if_neg (by simp [unmarked]))

/-- Whitespace alone is no statement. -/
theorem applyStatement_blank {text : List Char} (migration : LocalMigration)
    (schema : DatabaseSchema) (white : ∀ ch ∈ text, isWhitespace ch = true) (plain : Plain text) :
    applyStatement migration schema text = .ok schema := by
  have nothing : trim (stripSqlComments text) = [] := by
    have start : trimStart text = [] := List.dropWhile_eq_nil_iff.mpr white
    rw [stripSqlComments_plain plain, trim, start]
    rfl
  unfold applyStatement
  simp only [nothing, if_true]

/-- The statement of an operation, without its semicolon. -/
def opText : MigrationOp → List Char
  | .createTable tableName columns =>
      "CREATE TABLE ".toList ++ (tableName.toList ++ (" (\n  ".toList ++
        (",\n  ".toList.intercalate (columns.map columnText) ++ "\n)".toList)))
  | .addColumn tableName column =>
      "ALTER TABLE ".toList ++ (tableName.toList ++ (" ADD COLUMN ".toList ++ columnText column))
  | .addForeignKey tableName key =>
      "ALTER TABLE ".toList ++ (tableName.toList ++ (" ADD CONSTRAINT ".toList ++
        ((foreignKeyConstraintName tableName key.columnName).toList ++ (" FOREIGN KEY (".toList ++
        (key.columnName.toList ++ (") REFERENCES ".toList ++ (key.referencesTable.toList ++
        ("(".toList ++ (key.referencesColumn.toList ++ ")".toList)))))))))

/-- An operation on names, whose columns can be rendered. -/
def RenderedOp : MigrationOp → Prop
  | .createTable tableName columns =>
      IsName tableName.toList ∧ columns ≠ [] ∧ Rendered columns
  | .addColumn tableName column => IsName tableName.toList ∧ RenderedColumn column
  | .addForeignKey tableName key =>
      IsName tableName.toList ∧ IsName key.columnName.toList ∧
        IsName key.referencesTable.toList ∧ IsName key.referencesColumn.toList

theorem renderPostgresOp_eq {op : MigrationOp} (rendered : RenderedOp op) :
    renderPostgresOp op = .ok (opText op ++ [';']) := by
  cases op with
  | createTable tableName columns =>
      have defs : columns.mapM renderPostgresColumn = .ok (columns.map columnText) := by
        have each := rendered.2.2
        clear rendered
        induction columns with
        | nil => rfl
        | cons column columns ih =>
            have here := renderPostgresColumn_eq (each column List.mem_cons_self).type
            have later := ih fun other member => each other (List.mem_cons_of_mem _ member)
            rw [List.mapM_cons, here, later]
            rfl
      have ending : "\n);".toList = "\n)".toList ++ [';'] := rfl
      unfold renderPostgresOp opText
      dsimp only
      rw [defs, ending]
      simp only [List.append_assoc]
      rfl
  | addColumn tableName column =>
      unfold renderPostgresOp opText
      dsimp only
      rw [renderPostgresColumn_eq rendered.2.type]
      simp only [List.append_assoc]
      rfl
  | addForeignKey tableName key =>
      have ending : ");".toList = ")".toList ++ [';'] := rfl
      unfold renderPostgresOp opText
      dsimp only
      rw [ending]
      simp only [List.append_assoc]

theorem isName_foreignKeyConstraintName {tableName columnName : String}
    (table : IsName tableName.toList) (column : IsName columnName.toList) :
    IsName (foreignKeyConstraintName tableName columnName).toList := by
  have lead : ∀ ch ∈ "fk_".toList, Lexer.isWordChar ch = true := by decide
  have mid : ∀ ch ∈ "_".toList, Lexer.isWordChar ch = true := by decide
  simp only [foreignKeyConstraintName, String.toList_append]
  refine ⟨by simp, fun ch member => ?_⟩
  simp only [List.mem_append] at member
  rcases member with ((member | member) | member) | member
  · exact lead ch member
  · exact table.2 ch member
  · exact mid ch member
  · exact column.2 ch member

theorem mem_intersperse {separator part : List Char} {parts : List (List Char)}
    (member : part ∈ parts.intersperse separator) : part ∈ parts ∨ part = separator := by
  induction parts with
  | nil => cases member
  | cons first rest ih =>
      cases rest with
      | nil => exact .inl member
      | cons second rest =>
          rw [List.intersperse_cons_cons, List.mem_cons, List.mem_cons] at member
          rcases member with rfl | rfl | member
          · exact .inl List.mem_cons_self
          · exact .inr rfl
          · exact (ih member).imp_left (List.mem_cons_of_mem _)

theorem plain_opText {op : MigrationOp} (rendered : RenderedOp op) : Plain (opText op) := by
  cases op with
  | createTable tableName columns =>
      obtain ⟨name, some, each⟩ := rendered
      have defs : Plain (",\n  ".toList.intercalate (columns.map columnText)) := by
        intro ch member
        rcases List.mem_flatten.mp member with ⟨part, inside, here⟩
        rcases mem_intersperse inside with inside | rfl
        · obtain ⟨column, known, rfl⟩ := List.mem_map.mp inside
          exact (each column known).plain ch here
        · exact (by decide : Plain ",\n  ".toList) ch here
      exact (by decide : Plain "CREATE TABLE ".toList).append (name.plain.append
        ((by decide : Plain " (\n  ".toList).append (defs.append (by decide))))
  | addColumn tableName column =>
      exact (by decide : Plain "ALTER TABLE ".toList).append (rendered.1.plain.append
        ((by decide : Plain " ADD COLUMN ".toList).append rendered.2.plain))
  | addForeignKey tableName key =>
      obtain ⟨name, column, target, targetColumn⟩ := rendered
      have constraint := (isName_foreignKeyConstraintName name column).plain
      exact (by decide : Plain "ALTER TABLE ".toList).append (name.plain.append
        ((by decide : Plain " ADD CONSTRAINT ".toList).append (constraint.append
        ((by decide : Plain " FOREIGN KEY (".toList).append (column.plain.append
        ((by decide : Plain ") REFERENCES ".toList).append (target.plain.append
        ((by decide : Plain "(".toList).append (targetColumn.plain.append (by decide))))))))))

theorem tight_opText {op : MigrationOp} (rendered : RenderedOp op) : Tight (opText op) := by
  have last {text : List Char} {symbol : Char} (inside : isWhitespace symbol = false) :
      ∀ ch ∈ (text ++ [symbol]).getLast?, isWhitespace ch = false := by
    intro ch found
    rw [List.getLast?_concat] at found
    obtain rfl := Option.some.inj found
    exact inside
  cases op with
  | createTable tableName columns =>
      have parts : opText (.createTable tableName columns) =
          ("CREATE TABLE ".toList ++ (tableName.toList ++ (" (\n  ".toList ++
            (",\n  ".toList.intercalate (columns.map columnText) ++ ['\n'])))) ++ [')'] := by
        unfold opText
        simp only [List.append_assoc]
        rfl
      refine ⟨by rw [parts]; simp, ?_, by rw [parts]; exact last (by decide)⟩
      intro ch found
      obtain rfl : 'C' = ch := Option.some.inj found
      decide
  | addColumn tableName column =>
      refine ⟨by unfold opText; simp, ?_, ?_⟩
      · intro ch found
        obtain rfl : 'A' = ch := Option.some.inj found
        decide
      · intro ch found
        unfold opText at found
        dsimp only at found
        rw [List.getLast?_append_of_ne_nil _ (by simp),
          List.getLast?_append_of_ne_nil _ (by simp),
          List.getLast?_append_of_ne_nil _ RenderedColumn.ne_nil] at found
        exact (rendered.2.ends ch found).1
  | addForeignKey tableName key =>
      have parts : opText (.addForeignKey tableName key) =
          ("ALTER TABLE ".toList ++ (tableName.toList ++ (" ADD CONSTRAINT ".toList ++
            ((foreignKeyConstraintName tableName key.columnName).toList ++
            (" FOREIGN KEY (".toList ++ (key.columnName.toList ++ (") REFERENCES ".toList ++
            (key.referencesTable.toList ++ ("(".toList ++ key.referencesColumn.toList))))))))) ++
            [')'] := by
        unfold opText
        simp only [List.append_assoc]
        rfl
      refine ⟨by rw [parts]; simp, ?_, by rw [parts]; exact last (by decide)⟩
      intro ch found
      obtain rfl : 'A' = ch := Option.some.inj found
      decide

/-- The key as the replay reads it. -/
def replayedKey (tableName : String) (key : PersistentForeignKey) : DatabaseForeignKey where
  name := foreignKeyConstraintName tableName key.columnName
  columnName := key.columnName
  referencesTable := key.referencesTable
  referencesColumn := key.referencesColumn

/-- What an operation does to the replayed tables. -/
def applyOp (schema : DatabaseSchema) : MigrationOp → DatabaseSchema
  | .createTable tableName columns => schema.putTable tableName (createdTable tableName columns)
  | .addColumn tableName column =>
      schema.alterTable tableName (·.putColumn (replayedColumn column))
  | .addForeignKey tableName key =>
      schema.alterTable tableName (·.putForeignKey (replayedKey tableName key))

theorem IsName.tight {name : List Char} (is : IsName name) : Tight name where
  some := is.1
  starts := fun ch found => is.not_isWhitespace ch (List.mem_of_head? found)
  ends := fun ch found => is.not_isWhitespace ch (List.mem_of_getLast? found)

theorem IsName.trim_eq {name before after : List Char} (is : IsName name)
    (white : ∀ ch ∈ before, isWhitespace ch = true)
    (whiteAfter : ∀ ch ∈ after, isWhitespace ch = true) :
    trim (before ++ (name ++ after)) = name :=
  is.tight.trim_eq white whiteAfter

/-- The body of a created table is read definition by definition. -/
theorem splitColumnDefs_defs {first : PersistentColumn} {columns : List PersistentColumn}
    (rendered : Rendered (first :: columns)) :
    splitColumnDefs (",\n  ".toList.intercalate ((first :: columns).map columnText) ++ ['\n']) =
      defChunks (columnText first) (columns.map columnText) := by
  have later : ∀ text ∈ columns.map columnText, ∀ ch ∈ text,
      ch ≠ '\'' ∧ ch ≠ '(' ∧ ch ≠ ')' ∧ ch ≠ ',' := by
    intro text member
    obtain ⟨column, known, rfl⟩ := List.mem_map.mp member
    exact (rendered column (List.mem_cons_of_mem _ known)).bare
  rw [List.map_cons, intercalate_defs, splitColumnDefs, List.length_append, Nat.add_assoc,
    splitDefsFrom_bare (rendered first List.mem_cons_self).bare, List.nil_append,
    splitDefsFrom_defsTail later]

theorem applyCreateTableStmt_rendered {tableName : String} {columns : List PersistentColumn}
    (name : IsName tableName.toList) (some : columns ≠ []) (rendered : Rendered columns)
    (schema : DatabaseSchema) (version : String) :
    applyCreateTableStmt schema
        (tableName.toList ++ (" (\n  ".toList ++
          (",\n  ".toList.intercalate (columns.map columnText) ++ "\n)".toList))) version =
      .ok (schema.putTable tableName (createdTable tableName columns)) := by
  obtain ⟨first, columns, rfl⟩ := List.exists_cons_of_ne_nil some
  have none : ∀ ch ∈ ([] : List Char), isWhitespace ch = true := by simp
  have indent : ∀ ch ∈ "\n  ".toList, isWhitespace ch = true := by decide
  have blank : ∀ ch ∈ [' '], isWhitespace ch = true := by decide
  let defs := ",\n  ".toList.intercalate ((first :: columns).map columnText) ++ ['\n']
  have parts : tableName.toList ++ (" (\n  ".toList ++
      (",\n  ".toList.intercalate ((first :: columns).map columnText) ++ "\n)".toList)) =
      (tableName.toList ++ [' ']) ++ (['('] ++ ("\n  ".toList ++ (defs ++ [')']))) := by
    simp only [defs, List.append_assoc]
    rfl
  have opened : '(' ∉ tableName.toList ++ [' '] := by
    rw [List.mem_append, not_or]
    exact ⟨name.ne (by decide), by decide⟩
  have cut := @splitOnce_first [] '(' _ opened ("\n  ".toList ++ (defs ++ [')']))
  have named : trim (tableName.toList ++ [' ']) = tableName.toList :=
    name.trim_eq none blank
  have closed : Tight (defs ++ [')']) := by
    refine ⟨by simp, ?_, ?_⟩
    · intro ch found
      have starts := (rendered first List.mem_cons_self).starts
      refine starts ch ?_
      simp only [defs, List.map_cons, intercalate_defs, List.append_assoc] at found
      rwa [List.head?_append_of_ne_nil _ RenderedColumn.ne_nil] at found
    · intro ch found
      rw [List.getLast?_concat] at found
      obtain rfl := Option.some.inj found
      decide
  have body : trim ("\n  ".toList ++ (defs ++ [')'])) = defs ++ [')'] := by
    have trimmed := closed.trim_eq indent none
    rwa [List.append_nil] at trimmed
  have created := @createdColumns_defChunks columns first rendered version
    (.new tableName) [] none
  rw [List.nil_append, ← splitColumnDefs_defs rendered] at created
  rw [parts, applyCreateTableStmt, cut]
  simp only [orParseError, bind, Except.bind, named, body, List.getLast?_concat, ne_eq,
    not_true_eq_false, if_false, List.dropLast_concat, String.ofList_toList]
  rw [created]
  rfl

theorem applyAlterTableStmt_addColumn {tableName : String} {column : PersistentColumn}
    (name : IsName tableName.toList) (rendered : RenderedColumn column) (schema : DatabaseSchema)
    (migration : LocalMigration) (statement : List Char) :
    applyAlterTableStmt schema migration statement
        (tableName.toList ++ (" ADD COLUMN ".toList ++ columnText column)) =
      .ok (schema.alterTable tableName (·.putColumn (replayedColumn column))) := by
  have word : ∀ ch ∈ tableName.toList, decide (ch = ' ') = false := by
    rintro ch member
    rw [decide_eq_false_iff_not]
    rintro rfl
    exact name.ne (by decide) member
  have cut : splitWord (· = ' ') (tableName.toList ++ (" ADD COLUMN ".toList ++ columnText column)) =
      some (tableName.toList, "ADD COLUMN ".toList ++ columnText column) :=
    splitWord_first word (by decide) _
  rw [applyAlterTableStmt, cut]
  simp only [orParseError, bind, Except.bind, stripKeywordCi_append, rendered.splitWord_text,
    rendered.columnOf_eq, String.ofList_toList]
  rfl

theorem parseForeignKey_rendered {tableName : String} {key : PersistentForeignKey}
    (name : IsName tableName.toList) (column : IsName key.columnName.toList)
    (target : IsName key.referencesTable.toList)
    (targetColumn : IsName key.referencesColumn.toList) (version : String) :
    parseForeignKey version
        ((foreignKeyConstraintName tableName key.columnName).toList ++ (" FOREIGN KEY (".toList ++
          (key.columnName.toList ++ (") REFERENCES ".toList ++ (key.referencesTable.toList ++
          ("(".toList ++ (key.referencesColumn.toList ++ ")".toList))))))) =
      .ok (replayedKey tableName key) := by
  have constraint := isName_foreignKeyConstraintName name column
  have none : ∀ ch ∈ ([] : List Char), isWhitespace ch = true := by simp
  have blank : ∀ ch ∈ [' '], isWhitespace ch = true := by decide
  let refs := key.referencesTable.toList ++ (['('] ++ (key.referencesColumn.toList ++ [')']))
  let keyText := ['('] ++ (key.columnName.toList ++ ([')'] ++ ([' '] ++ ("REFERENCES ".toList ++ refs))))
  have parts : (foreignKeyConstraintName tableName key.columnName).toList ++
      (" FOREIGN KEY (".toList ++ (key.columnName.toList ++ (") REFERENCES ".toList ++
        (key.referencesTable.toList ++ ("(".toList ++ (key.referencesColumn.toList ++ ")".toList)))))) =
      (foreignKeyConstraintName tableName key.columnName).toList ++
        (" FOREIGN KEY ".toList ++ keyText) := by
    rfl
  have alone {word : List Char} (is : IsName word) : trim word = word := by
    have trimmed := is.trim_eq none none
    rwa [List.append_nil] at trimmed
  have cut : splitOnce " FOREIGN KEY ".toList
      ((foreignKeyConstraintName tableName key.columnName).toList ++
        (" FOREIGN KEY ".toList ++ keyText)) =
      some ((foreignKeyConstraintName tableName key.columnName).toList, keyText) :=
    @splitOnce_first "FOREIGN KEY ".toList ' ' _ (constraint.ne (by decide)) keyText
  have opened : splitOnce ['('] keyText = some ([], _) :=
    @splitOnce_first [] '(' [] (by simp) _
  have closed : splitOnce [')'] keyText =
      some (['('] ++ key.columnName.toList, [' '] ++ ("REFERENCES ".toList ++ refs)) := by
    have absent : ')' ∉ ['('] ++ key.columnName.toList := by
      rw [List.mem_append, not_or]
      exact ⟨by decide, column.ne (by decide)⟩
    have cut := @splitOnce_first [] ')' _ absent ([' '] ++ ("REFERENCES ".toList ++ refs))
    rwa [List.append_assoc] at cut
  have openedRefs : splitOnce ['('] refs = some (key.referencesTable.toList, _) :=
    @splitOnce_first [] '(' _ (target.ne (by decide)) _
  have closedRefs : splitOnce [')'] refs =
      some (key.referencesTable.toList ++ (['('] ++ key.referencesColumn.toList), []) := by
    have absent : ')' ∉ key.referencesTable.toList ++ (['('] ++ key.referencesColumn.toList) := by
      rw [List.mem_append, List.mem_append, not_or, not_or]
      exact ⟨target.ne (by decide), by decide, targetColumn.ne (by decide)⟩
    have cut := @splitOnce_first [] ')' _ absent []
    rwa [List.append_assoc, List.append_assoc, List.append_nil] at cut
  have referring : trim ([' '] ++ ("REFERENCES ".toList ++ refs)) = "REFERENCES ".toList ++ refs := by
    have tight : Tight ("REFERENCES ".toList ++ refs) := by
      refine ⟨by simp, ?_, ?_⟩
      · intro ch found
        obtain rfl : 'R' = ch := Option.some.inj found
        decide
      · intro ch found
        have parts : "REFERENCES ".toList ++ refs = ("REFERENCES ".toList ++
            (key.referencesTable.toList ++ (['('] ++ key.referencesColumn.toList))) ++ [')'] := by
          simp only [refs, List.append_assoc]
        rw [parts, List.getLast?_concat] at found
        obtain rfl := Option.some.inj found
        decide
    have trimmed := tight.trim_eq blank none
    rwa [List.append_nil] at trimmed
  have starts : "REFERENCES ".toList.isPrefixOf ("REFERENCES ".toList ++ refs) = true :=
    List.isPrefixOf_iff_prefix.mpr (List.prefix_append _ _)
  have dropped : ("REFERENCES ".toList ++ refs).drop "REFERENCES ".length = refs :=
    List.drop_left
  have columnCut : (['('] ++ key.columnName.toList).drop 1 = key.columnName.toList := rfl
  have refsCut : (key.referencesTable.toList ++ (['('] ++ key.referencesColumn.toList)).drop
      (key.referencesTable.toList.length + 1) = key.referencesColumn.toList := by
    rw [← List.drop_drop, List.drop_left]
    rfl
  have room : ¬ (['('] ++ key.columnName.toList).length < ([] : List Char).length + 1 := by simp
  have roomRefs : ¬ (key.referencesTable.toList ++ (['('] ++ key.referencesColumn.toList)).length <
      key.referencesTable.toList.length + 1 := by simp
  rw [parts, parseForeignKey, cut]
  simp only [orParseError, bind, Except.bind, opened, closed, if_neg room, referring, starts,
    not_true_eq_false, if_false, dropped, openedRefs, closedRefs, if_neg roomRefs, refsCut,
    alone targetColumn, alone target, alone constraint]
  rw [List.length_nil, Nat.zero_add, columnCut, alone column]
  simp only [String.ofList_toList]
  rfl

theorem applyAlterTableStmt_addConstraint {tableName : String} {definition : List Char}
    {key : DatabaseForeignKey} (name : IsName tableName.toList) {migration : LocalMigration}
    (parsed : parseForeignKey migration.version definition = .ok key) (schema : DatabaseSchema)
    (statement : List Char) :
    applyAlterTableStmt schema migration statement
        (tableName.toList ++ (" ADD CONSTRAINT ".toList ++ definition)) =
      .ok (schema.alterTable tableName (·.putForeignKey key)) := by
  have word : ∀ ch ∈ tableName.toList, decide (ch = ' ') = false := by
    rintro ch member
    rw [decide_eq_false_iff_not]
    rintro rfl
    exact name.ne (by decide) member
  have cut : splitWord (· = ' ') (tableName.toList ++ (" ADD CONSTRAINT ".toList ++ definition)) =
      some (tableName.toList, "ADD CONSTRAINT ".toList ++ definition) :=
    splitWord_first word (by decide) _
  have other : stripKeywordCi ("ADD CONSTRAINT ".toList ++ definition) "ADD COLUMN " = none := by
    rw [stripKeywordCi, List.take_append_of_le_length (by decide), if_neg (by decide)]
  rw [applyAlterTableStmt, cut]
  simp only [orParseError, bind, Except.bind, other, stripKeywordCi_append, parsed,
    String.ofList_toList]
  rfl

/-- A generated statement is replayed as the operation it was generated for. -/
theorem applyStatement_opText {op : MigrationOp} (rendered : RenderedOp op) {before : List Char}
    (white : ∀ ch ∈ before, isWhitespace ch = true) (plainBefore : Plain before)
    (migration : LocalMigration) (schema : DatabaseSchema) :
    applyStatement migration schema (before ++ opText op) = .ok (applyOp schema op) := by
  rw [applyStatement_plain migration schema white plainBefore (plain_opText rendered)
    (tight_opText rendered)]
  have altered (rest : List Char) :
      stripKeywordCi ("ALTER TABLE ".toList ++ rest) "CREATE TABLE " = none := by
    refine @stripKeywordCi_other 'A' ("LTER TABLE ".toList ++ rest) _ ?_ (by decide)
    decide
  cases op with
  | createTable tableName columns =>
      obtain ⟨name, some, each⟩ := rendered
      unfold opText applyOp
      dsimp only
      rw [stripKeywordCi_append]
      exact applyCreateTableStmt_rendered name some each schema migration.version
  | addColumn tableName column =>
      unfold opText applyOp
      dsimp only
      rw [altered, stripKeywordCi_append]
      exact applyAlterTableStmt_addColumn rendered.1 rendered.2 schema migration _
  | addForeignKey tableName key =>
      obtain ⟨name, column, target, targetColumn⟩ := rendered
      have key := parseForeignKey_rendered name column target targetColumn migration.version
      unfold opText applyOp
      dsimp only
      rw [altered, stripKeywordCi_append]
      exact applyAlterTableStmt_addConstraint name key schema _

theorem foldlM_applyStatement {ops : List MigrationOp} (rendered : ∀ op ∈ ops, RenderedOp op)
    (migration : LocalMigration) (schema : DatabaseSchema) :
    (ops.map fun op => "\n\n".toList ++ opText op).foldlM (applyStatement migration) schema =
      .ok (ops.foldl applyOp schema) := by
  induction ops generalizing schema with
  | nil => rfl
  | cons op ops ih =>
      have feeds : ∀ ch ∈ "\n\n".toList, isWhitespace ch = true := by decide
      have here := applyStatement_opText (rendered op List.mem_cons_self) feeds (by decide)
        migration schema
      have later := ih (fun other member => rendered other (List.mem_cons_of_mem _ member))
      rw [List.map_cons, List.foldlM_cons, here]
      exact later (applyOp schema op)

/-- A generated migration is replayed as its operations. -/
theorem applyLocalMigrationToSchema_joinSql {ops : List MigrationOp}
    (rendered : ∀ op ∈ ops, RenderedOp op) {migration : LocalMigration}
    (text : migration.upSql = joinSql (ops.map fun op => opText op ++ [';']))
    (schema : DatabaseSchema) :
    applyLocalMigrationToSchema schema migration = .ok (ops.foldl applyOp schema) := by
  have feed : ∀ ch ∈ ['\n'], isWhitespace ch = true := by decide
  have last (schema : DatabaseSchema) :
      [['\n']].foldlM (applyStatement migration) schema = .ok schema := by
    rw [List.foldlM_cons, applyStatement_blank migration schema feed (by decide)]
    rfl
  unfold applyLocalMigrationToSchema
  rw [text]
  cases ops with
  | nil => exact last schema
  | cons op ops =>
      have bodies : (op :: ops).map (fun op => opText op ++ [';']) =
          ((opText op) :: ops.map opText).map (· ++ [';']) := by
        simp
      have plain : ∀ body ∈ opText op :: ops.map opText, Plain body := by
        intro body member
        rw [← List.map_cons, List.mem_map] at member
        obtain ⟨other, known, rfl⟩ := member
        exact plain_opText (rendered other known)
      have none : ∀ ch ∈ ([] : List Char), isWhitespace ch = true := by simp
      have first := applyStatement_opText (rendered op List.mem_cons_self) none (by decide)
        migration
      have later := @foldlM_applyStatement ops
        fun other member => rendered other (List.mem_cons_of_mem _ member)
      rw [bodies, splitSqlStatements_joinSql plain, List.foldlM_cons]
      rw [List.nil_append] at first
      rw [first, List.map_map]
      change ((ops.map fun op => "\n\n".toList ++ opText op) ++ [['\n']]).foldlM _ _ = _
      rw [List.foldlM_append, later]
      exact last _

theorem renderPostgresUpSql_eq {ops : List MigrationOp} (rendered : ∀ op ∈ ops, RenderedOp op) :
    renderPostgresUpSql ops = .ok (ops.map fun op => opText op ++ [';']) := by
  unfold renderPostgresUpSql
  induction ops with
  | nil => rfl
  | cons op ops ih =>
      have here := renderPostgresOp_eq (rendered op List.mem_cons_self)
      have later := ih fun other member => rendered other (List.mem_cons_of_mem _ member)
      rw [List.mapM_cons, here, later]
      rfl
end Marreta.Migrations
