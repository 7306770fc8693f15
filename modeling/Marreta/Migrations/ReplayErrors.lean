import Marreta.Foundation.Ensures
import Marreta.Foundation.Run
import Marreta.Migrations.Rendering

namespace Marreta.Migrations

open Foundation
open Foundation.Text (isWhitespace trim)

/-! The schema that a replay leaves behind when it fails.  The source changes the
schema in place, so a statement that fails may have changed it already. -/

/-- The schema is kept in every case. -/
abbrev Replaying := Run DatabaseSchema LibraryFault

/-- Make the table of an `ALTER TABLE` if there is none. -/
def DatabaseSchema.alterTableEntry (schema : DatabaseSchema) (name : String) : DatabaseSchema :=
  match schema.table? name with
  | some _ => schema
  | none => schema.putTable name (.new name)

/-- A created table is only put into the schema when it is complete. -/
def runCreateTableStmt (rest : List Char) (version : String) : Replaying Unit := fun schema =>
  match applyCreateTableStmt schema rest version with
  | .ok created => (.ok (), created)
  | .error fault => (.error fault, schema)

/-- The entry is made before the definition is parsed. -/
def runAddConstraint (version tableName : String) (definition : List Char) : Replaying Unit := do
  Run.modify (·.alterTableEntry tableName)
  let key ← Run.ofExcept (parseForeignKey version definition)
  Run.modify (·.alterTable tableName (·.putForeignKey key))

def runAlterTableStmt (migration : LocalMigration) (statement rest : List Char) :
    Replaying Unit :=
  match splitWord (· = ' ') rest with
  | none =>
      Run.ofExcept (parseError migration.version
        ("invalid ALTER TABLE '" ++ String.ofList rest ++ "'"))
  | some (tableName, remainder) =>
      match stripKeywordCi remainder "ADD COLUMN " with
      | some definition =>
          match splitWord isWhitespace definition with
          | none =>
              Run.ofExcept (parseError migration.version
                ("invalid ADD COLUMN '" ++ String.ofList definition ++ "'"))
          | some (name, afterName) =>
              Run.modify
                (·.alterTable (String.ofList tableName) (·.putColumn (columnOf name afterName)))
      | none =>
          match stripKeywordCi remainder "ADD CONSTRAINT " with
          | some definition =>
              runAddConstraint migration.version (String.ofList tableName) definition
          | none => Run.ofExcept (rejectedDdl migration statement)

def runStatement (migration : LocalMigration) (rawStatement : List Char) : Replaying Unit :=
  let statement := trim (stripSqlComments rawStatement)
  if statement = [] then pure ()
  else if chunkHasSkipMarker rawStatement then pure ()
  else
    match stripKeywordCi statement "CREATE TABLE " with
    | some rest => runCreateTableStmt rest migration.version
    | none =>
        match stripKeywordCi statement "ALTER TABLE " with
        | some rest => runAlterTableStmt migration statement rest
        | none =>
            if isAutoTolerated (toAsciiUppercase statement) then pure ()
            else Run.ofExcept (rejectedDdl migration statement)

def runStatements (migration : LocalMigration) : List (List Char) → Replaying Unit
  | [] => pure ()
  | statement :: rest => do
      runStatement migration statement
      runStatements migration rest

def runLocalMigration (migration : LocalMigration) : Replaying Unit :=
  runStatements migration (splitSqlStatements migration.upSql)

/-! ## The schema of a replay that succeeds -/

/-- A run that leaves the schema which a replay returns. -/
def Leaves (run : Replaying Unit) (replay : DatabaseSchema → Replay DatabaseSchema) : Prop :=
  ∀ schema, replay schema = (run schema).1.map fun _ => (run schema).2

theorem alterTable_alterTableEntry (schema : DatabaseSchema) (name : String)
    (change : DatabaseTable → DatabaseTable) :
    (schema.alterTableEntry name).alterTable name change = schema.alterTable name change := by
  unfold DatabaseSchema.alterTableEntry
  cases found : schema.table? name with
  | some table => rfl
  | none =>
      have entered : (schema.putTable name (.new name)).table? name = some (.new name) := by
        rw [DatabaseSchema.table?, DatabaseSchema.putTable, Table.lookup_put, if_pos rfl]
      rw [DatabaseSchema.alterTable, DatabaseSchema.alterTable, entered, found]
      exact congrArg DatabaseSchema.mk (Table.put_put _ _ _ _)

theorem pure_leaves : Leaves (pure ()) .ok :=
  fun _ => rfl

theorem ofExcept_leaves (fault : LibraryFault) :
    Leaves (Run.ofExcept (.error fault)) fun _ => .error fault :=
  fun _ => rfl

theorem modify_leaves (change : DatabaseSchema → DatabaseSchema) :
    Leaves (Run.modify change) (.ok <| change ·) :=
  fun _ => rfl

theorem bind_leaves {first second : Replaying Unit}
    {before after : DatabaseSchema → Replay DatabaseSchema} (head : Leaves first before)
    (tail : Leaves second after) :
    Leaves (first >>= fun _ => second) fun schema => before schema >>= after := by
  intro schema
  beta_reduce
  rw [head schema, Run.bind_run]
  rcases first schema with ⟨fault | value, reached⟩
  · rfl
  · exact tail reached

theorem runCreateTableStmt_leaves (rest : List Char) (version : String) :
    Leaves (runCreateTableStmt rest version) (applyCreateTableStmt · rest version) := by
  intro schema
  unfold runCreateTableStmt
  beta_reduce
  cases applyCreateTableStmt schema rest version <;> rfl

theorem runAddConstraint_eq (version tableName : String) (definition : List Char)
    (schema : DatabaseSchema) :
    runAddConstraint version tableName definition schema =
      match parseForeignKey version definition with
      | .ok key => (.ok (), schema.alterTable tableName (·.putForeignKey key))
      | .error fault => (.error fault, schema.alterTableEntry tableName) := by
  unfold runAddConstraint
  rw [Run.bind_run, Run.modify_run]
  cases parseForeignKey version definition with
  | error fault => rfl
  | ok key =>
      exact congrArg (Except.ok (), ·) (alterTable_alterTableEntry schema tableName _)

theorem runAlterTableStmt_leaves (migration : LocalMigration) (statement rest : List Char) :
    Leaves (runAlterTableStmt migration statement rest)
      (applyAlterTableStmt · migration statement rest) := by
  intro schema
  unfold runAlterTableStmt applyAlterTableStmt
  cases splitWord (· = ' ') rest with
  | none => rfl
  | some parts =>
      obtain ⟨tableName, remainder⟩ := parts
      dsimp only [orParseError]
      simp only [bind, Except.bind]
      cases stripKeywordCi remainder "ADD COLUMN " with
      | some definition =>
          dsimp only
          cases splitWord isWhitespace definition with
          | none => rfl
          | some parts => rfl
      | none =>
          dsimp only
          cases stripKeywordCi remainder "ADD CONSTRAINT " with
          | none => rfl
          | some definition =>
              dsimp only
              rw [runAddConstraint_eq]
              cases parseForeignKey migration.version definition <;> rfl

theorem runStatement_leaves (migration : LocalMigration) (rawStatement : List Char) :
    Leaves (runStatement migration rawStatement) (applyStatement migration · rawStatement) := by
  unfold runStatement applyStatement
  extract_lets statement
  by_cases empty : statement = []
  · simp only [if_pos empty]
    exact pure_leaves
  by_cases marked : chunkHasSkipMarker rawStatement = true
  · simp only [if_neg empty, if_pos marked]
    exact pure_leaves
  simp only [if_neg empty, if_neg marked]
  cases stripKeywordCi statement "CREATE TABLE " with
  | some rest => exact runCreateTableStmt_leaves rest migration.version
  | none =>
      cases stripKeywordCi statement "ALTER TABLE " with
      | some rest => exact runAlterTableStmt_leaves migration statement rest
      | none =>
          dsimp only
          split
          · exact pure_leaves
          · exact ofExcept_leaves _

/-- A replay that succeeds leaves the schema that it returns. -/
theorem runLocalMigration_leaves (migration : LocalMigration) :
    Leaves (runLocalMigration migration) (applyLocalMigrationToSchema · migration) := by
  have run : ∀ statements : List (List Char), Leaves (runStatements migration statements)
      (statements.foldlM (applyStatement migration) ·) := by
    intro statements
    induction statements with
    | nil => exact pure_leaves
    | cons statement statements induction =>
        exact bind_leaves (runStatement_leaves migration statement) induction
  exact run _

/-! ## Parentheses -/

theorem eq_of_splitOnce {mark : Char} {text before after : List Char}
    (split : splitOnce [mark] text = some (before, after)) :
    text = before ++ mark :: after ∧ mark ∉ before := by
  induction text generalizing before with
  | nil => cases split
  | cons ch rest induction =>
      rw [splitOnce] at split
      by_cases here : mark = ch
      · subst here
        rw [if_pos (by simp [List.isPrefixOf])] at split
        obtain ⟨rfl, rfl⟩ := Prod.mk.inj (Option.some.inj split)
        simp
      · rw [if_neg (by simpa [List.isPrefixOf] using here)] at split
        obtain ⟨⟨start, stop⟩, later, same⟩ := Option.map_eq_some_iff.mp split
        obtain ⟨rfl, rfl⟩ := Prod.mk.inj same
        obtain ⟨whole, absent⟩ := induction later
        exact ⟨congrArg (ch :: ·) whole, by simp [here, absent]⟩

theorem not_mem_of_splitOnce {mark : Char} {text : List Char}
    (split : splitOnce [mark] text = none) : mark ∉ text := by
  intro member
  obtain ⟨before, after, rfl, absent⟩ := List.eq_append_cons_of_mem member
  have found := @splitOnce_first [] mark before absent after
  cases split.symm.trans found

/-- A closing parenthesis comes before the first opening one. -/
def ClosesFirst (text : List Char) : Prop :=
  ∃ before after, splitOnce [')'] text = some (before, after) ∧ '(' ∉ before ∧ '(' ∈ after

/-- An opening parenthesis comes before the first closing one. -/
def Opens (text : List Char) : Prop :=
  ∃ before after, splitOnce [')'] text = some (before, after) ∧ '(' ∈ before

/-- What follows `REFERENCES` after the column in parentheses. -/
def References (keyText refs : List Char) : Prop :=
  ∃ before after, splitOnce [')'] keyText = some (before, after) ∧ '(' ∈ before ∧
    trim after = "REFERENCES ".toList ++ refs

/-- The first opening parenthesis is after the first closing one exactly when none
comes before it. -/
theorem closes_iff {text beforeOpen afterOpen beforeClose afterClose : List Char}
    (opening : splitOnce ['('] text = some (beforeOpen, afterOpen))
    (closing : splitOnce [')'] text = some (beforeClose, afterClose)) :
    beforeClose.length < beforeOpen.length + 1 ↔ '(' ∉ beforeClose := by
  obtain ⟨opens, absent⟩ := eq_of_splitOnce opening
  obtain ⟨closes, -⟩ := eq_of_splitOnce closing
  rcases List.append_eq_append_iff.mp (opens.symm.trans closes) with
    ⟨more, longer, rest⟩ | ⟨more, longer, rest⟩
  · cases more with
    | nil => cases rest
    | cons first more =>
        obtain ⟨rfl, -⟩ := List.cons.inj rest
        rw [longer]
        simp
  · rw [longer, List.mem_append, not_or] at absent
    rw [longer, List.length_append]
    exact ⟨fun _ => absent.1, fun _ => by omega⟩

/-! ## Foreign keys -/

theorem orParseError_some {α β : Type} (version detail : String) (value : α)
    (next : α → Replay β) : orParseError version detail (some value) >>= next = next value := rfl

/-- A definition makes the parser panic when a closing parenthesis comes first, around
the column or around the column that is referred to. -/
def KeyPanics (definition : List Char) : Prop :=
  ∃ name keyText, splitOnce " FOREIGN KEY ".toList definition = some (name, keyText) ∧
    (ClosesFirst keyText ∨ ∃ refs, References keyText refs ∧ ClosesFirst refs)

def KeyWellFormed (definition : List Char) : Prop :=
  ∃ name keyText refs, splitOnce " FOREIGN KEY ".toList definition = some (name, keyText) ∧
    References keyText refs ∧ Opens refs

/-- How two parentheses can stand in a text. -/
inductive Parentheses (text : List Char) : Prop
  | unopened (missing : splitOnce ['('] text = none) (never : ¬ ClosesFirst text)
      (closed : ¬ Opens text)
  | unclosed (missing : splitOnce [')'] text = none) (never : ¬ ClosesFirst text)
      (closed : ¬ Opens text)
  | closesFirst (beforeOpen afterOpen beforeClose afterClose : List Char)
      (opening : splitOnce ['('] text = some (beforeOpen, afterOpen))
      (closing : splitOnce [')'] text = some (beforeClose, afterClose))
      (reversed : beforeClose.length < beforeOpen.length + 1)
      (closes : ClosesFirst text) (never : ¬ Opens text)
  | opens (beforeOpen afterOpen beforeClose afterClose : List Char)
      (opening : splitOnce ['('] text = some (beforeOpen, afterOpen))
      (closing : splitOnce [')'] text = some (beforeClose, afterClose))
      (ordered : ¬ beforeClose.length < beforeOpen.length + 1)
      (opens : '(' ∈ beforeClose) (never : ¬ ClosesFirst text)

theorem parentheses (text : List Char) : Parentheses text := by
  cases opening : splitOnce ['('] text with
  | none =>
      have absent := not_mem_of_splitOnce opening
      refine .unopened opening ?_ ?_
      · rintro ⟨before, after, closing, -, member⟩
        obtain ⟨rfl, -⟩ := eq_of_splitOnce closing
        exact absent (by simp [member])
      · rintro ⟨before, after, closing, member⟩
        obtain ⟨rfl, -⟩ := eq_of_splitOnce closing
        exact absent (by simp [member])
  | some opened =>
      obtain ⟨beforeOpen, afterOpen⟩ := opened
      cases closing : splitOnce [')'] text with
      | none =>
          refine .unclosed closing ?_ ?_
          · rintro ⟨before, after, found, -⟩
            cases closing.symm.trans found
          · rintro ⟨before, after, found, -⟩
            cases closing.symm.trans found
      | some closed =>
          obtain ⟨beforeClose, afterClose⟩ := closed
          have reversed := closes_iff opening closing
          by_cases member : '(' ∈ beforeClose
          · refine .opens _ _ _ _ opening closing (fun less => reversed.mp less member) member ?_
            rintro ⟨before, after, found, absent, -⟩
            obtain ⟨rfl, -⟩ := Prod.mk.inj (Option.some.inj (closing.symm.trans found))
            exact absent member
          · obtain ⟨opens, -⟩ := eq_of_splitOnce opening
            obtain ⟨closes, -⟩ := eq_of_splitOnce closing
            have inText : '(' ∈ text := by
              rw [opens]
              simp
            have later : '(' ∈ afterClose := by
              rw [closes] at inText
              simpa [member] using inText
            refine .closesFirst _ _ _ _ opening closing (reversed.mpr member)
              ⟨_, _, closing, member, later⟩ ?_
            rintro ⟨before, after, found, inside⟩
            obtain ⟨rfl, -⟩ := Prod.mk.inj (Option.some.inj (closing.symm.trans found))
            exact member inside

/-- The three ends of a foreign key definition. -/
inductive KeyOutcome (definition : List Char) : Replay DatabaseForeignKey → Prop
  | panics (panics : KeyPanics definition) (never : ¬ KeyWellFormed definition) :
      KeyOutcome definition (.error .panic)
  | fails (never : ¬ KeyPanics definition) (malformed : ¬ KeyWellFormed definition)
      (error : MarretaError) : KeyOutcome definition (.error (.error error))
  | returns (never : ¬ KeyPanics definition) (wellFormed : KeyWellFormed definition)
      (key : DatabaseForeignKey) : KeyOutcome definition (.ok key)

theorem references_iff {keyText before after refs : List Char}
    (closing : splitOnce [')'] keyText = some (before, after)) :
    References keyText refs ↔ '(' ∈ before ∧ trim after = "REFERENCES ".toList ++ refs := by
  constructor
  · rintro ⟨otherBefore, otherAfter, found, inside, follows⟩
    obtain ⟨rfl, rfl⟩ := Prod.mk.inj (Option.some.inj (closing.symm.trans found))
    exact ⟨inside, follows⟩
  · rintro ⟨inside, follows⟩
    exact ⟨before, after, closing, inside, follows⟩

section Definition

variable {definition name keyText : List Char}
  (cut : splitOnce " FOREIGN KEY ".toList definition = some (name, keyText))

include cut

theorem keyPanics_iff : KeyPanics definition ↔
    ClosesFirst keyText ∨ ∃ refs, References keyText refs ∧ ClosesFirst refs := by
  constructor
  · rintro ⟨otherName, otherText, found, panics⟩
    obtain ⟨rfl, rfl⟩ := Prod.mk.inj (Option.some.inj (cut.symm.trans found))
    exact panics
  · intro panics
    exact ⟨name, keyText, cut, panics⟩

theorem keyWellFormed_iff : KeyWellFormed definition ↔
    ∃ refs, References keyText refs ∧ Opens refs := by
  constructor
  · rintro ⟨otherName, otherText, refs, found, wellFormed⟩
    obtain ⟨rfl, rfl⟩ := Prod.mk.inj (Option.some.inj (cut.symm.trans found))
    exact ⟨refs, wellFormed⟩
  · rintro ⟨refs, wellFormed⟩
    exact ⟨name, keyText, refs, cut, wellFormed⟩

/-- A definition without a column in parentheses and `REFERENCES` after it. -/
theorem fails_of_no_references (never : ¬ ClosesFirst keyText)
    (none : ∀ refs, ¬ References keyText refs) (error : MarretaError) :
    KeyOutcome definition (.error (.error error)) := by
  apply KeyOutcome.fails
  · rw [keyPanics_iff cut]
    rintro (closes | ⟨refs, references, -⟩)
    · exact never closes
    · exact none refs references
  · rw [keyWellFormed_iff cut]
    rintro ⟨refs, references, -⟩
    exact none refs references

/-- The reference after a column in parentheses decides how a definition ends. -/
theorem parseReferences_outcome {before after : List Char}
    (closing : splitOnce [')'] keyText = some (before, after)) (inside : '(' ∈ before)
    (never : ¬ ClosesFirst keyText)
    (starts : "REFERENCES ".toList.isPrefixOf (trim after) = true) (version : String)
    (key : List Char → List Char → DatabaseForeignKey) :
    let refs := (trim after).drop "REFERENCES ".length
    KeyOutcome definition (do
      let (beforeRefsOpen, _) ←
        orParseError version "references missing '('" (splitOnce ['('] refs)
      let (beforeRefsClose, _) ←
        orParseError version "references missing ')'" (splitOnce [')'] refs)
      if beforeRefsClose.length < beforeRefsOpen.length + 1 then .error .panic
      else return key beforeRefsOpen beforeRefsClose) := by
  intro refs
  have parts : trim after = "REFERENCES ".toList ++ refs :=
    List.prefix_iff_eq_append.mp (List.isPrefixOf_iff_prefix.mp starts) |>.symm
  have only : ∀ other, References keyText other ↔ other = refs := by
    intro other
    rw [references_iff closing, parts, List.append_cancel_left_eq]
    exact ⟨fun same => same.2.symm, fun same => ⟨inside, same.symm⟩⟩
  have panics : KeyPanics definition ↔ ClosesFirst refs := by
    simp [keyPanics_iff cut, never, only]
  have wellFormed : KeyWellFormed definition ↔ Opens refs := by
    simp [keyWellFormed_iff cut, only]
  cases parentheses refs with
  | unopened missing never closed =>
      rw [missing]
      exact .fails (panics.not.mpr never) (wellFormed.not.mpr closed) _
  | unclosed missing never closed =>
      rw [missing]
      cases splitOnce ['('] refs with
      | none => exact .fails (panics.not.mpr never) (wellFormed.not.mpr closed) _
      | some opened => exact .fails (panics.not.mpr never) (wellFormed.not.mpr closed) _
  | closesFirst beforeOpen afterOpen beforeClose afterClose opening closing reversed closes
      never =>
      have outcome := KeyOutcome.panics (panics.mpr closes) (wellFormed.not.mpr never)
      rw [opening, orParseError_some]
      dsimp only
      rw [closing, orParseError_some]
      dsimp only
      rw [if_pos reversed]
      exact outcome
  | opens beforeOpen afterOpen beforeClose afterClose opening closing ordered inside never =>
      have outcome := KeyOutcome.returns (panics.not.mpr never)
        (wellFormed.mpr ⟨_, _, closing, inside⟩) (key beforeOpen beforeClose)
      rw [opening, orParseError_some]
      dsimp only
      rw [closing, orParseError_some]
      dsimp only
      rw [if_neg ordered]
      exact outcome

end Definition

theorem opens_of_references {keyText refs : List Char} (references : References keyText refs) :
    Opens keyText := by
  obtain ⟨before, after, closing, inside, -⟩ := references
  exact ⟨before, after, closing, inside⟩

theorem parseForeignKey_outcome (version : String) (definition : List Char) :
    KeyOutcome definition (parseForeignKey version definition) := by
  unfold parseForeignKey
  cases cut : splitOnce " FOREIGN KEY ".toList definition with
  | none =>
      apply KeyOutcome.fails
      · rintro ⟨name, keyText, found, -⟩
        cases cut.symm.trans found
      · rintro ⟨name, keyText, refs, found, -⟩
        cases cut.symm.trans found
  | some parts =>
      obtain ⟨name, keyText⟩ := parts
      rw [orParseError_some]
      dsimp only
      cases parentheses keyText with
      | unopened missing never closed =>
          rw [missing]
          exact fails_of_no_references cut never
            (fun refs references => closed (opens_of_references references)) _
      | unclosed missing never closed =>
          have absent : ∀ refs, ¬ References keyText refs :=
            fun refs references => closed (opens_of_references references)
          rw [missing]
          cases splitOnce ['('] keyText with
          | none => exact fails_of_no_references cut never absent _
          | some opened => exact fails_of_no_references cut never absent _
      | closesFirst beforeOpen afterOpen beforeClose afterClose opening closing reversed closes
          never =>
          have outcome : KeyOutcome definition (.error .panic) := by
            apply KeyOutcome.panics
            · exact (keyPanics_iff cut).mpr (.inl closes)
            · rw [keyWellFormed_iff cut]
              rintro ⟨refs, references, -⟩
              exact never (opens_of_references references)
          rw [opening, orParseError_some]
          dsimp only
          rw [closing, orParseError_some]
          dsimp only
          rw [if_pos reversed]
          exact outcome
      | opens beforeOpen afterOpen beforeClose afterClose opening closing ordered inside never =>
          by_cases starts : "REFERENCES ".toList.isPrefixOf (trim afterClose) = true
          · have outcome := parseReferences_outcome cut closing inside never starts version
              fun beforeRefsOpen beforeRefsClose => {
                name := String.ofList (trim name)
                columnName :=
                  String.ofList (trim (beforeClose.drop (beforeOpen.length + 1)))
                referencesTable := String.ofList (trim beforeRefsOpen)
                referencesColumn := String.ofList
                  (trim (beforeRefsClose.drop (beforeRefsOpen.length + 1))) }
            rw [opening, orParseError_some]
            dsimp only
            rw [closing, orParseError_some]
            dsimp only
            rw [if_neg ordered, if_neg (not_not.mpr starts)]
            exact outcome
          · rw [opening, orParseError_some]
            dsimp only
            rw [closing, orParseError_some]
            dsimp only
            rw [if_neg ordered, if_pos starts]
            apply fails_of_no_references cut never
            intro refs references
            obtain ⟨-, follows⟩ := (references_iff closing).mp references
            rw [follows] at starts
            exact starts (by simp)

/-! ## ALTER TABLE -/

/-- What follows `ALTER TABLE` adds a constraint. -/
def AddsConstraint (rest tableName definition : List Char) : Prop :=
  ∃ remainder, splitWord (· = ' ') rest = some (tableName, remainder) ∧
    stripKeywordCi remainder "ADD COLUMN " = none ∧
    stripKeywordCi remainder "ADD CONSTRAINT " = some definition

theorem runAlterTableStmt_of_addsConstraint {rest tableName definition : List Char}
    (adds : AddsConstraint rest tableName definition) (migration : LocalMigration)
    (statement : List Char) :
    runAlterTableStmt migration statement rest =
      runAddConstraint migration.version (String.ofList tableName) definition := by
  obtain ⟨remainder, table, column, constraint⟩ := adds
  simp only [runAlterTableStmt, table, column, constraint]

/-- Any other statement returns, or fails and leaves the schema as it was. -/
theorem runAlterTableStmt_of_not {rest : List Char}
    (other : ∀ tableName definition, ¬ AddsConstraint rest tableName definition)
    (migration : LocalMigration) (statement : List Char) (schema : DatabaseSchema) :
    (runAlterTableStmt migration statement rest schema).1 = .ok () ∨
      ∃ error, runAlterTableStmt migration statement rest schema =
        (.error (.error error), schema) := by
  unfold runAlterTableStmt
  cases table : splitWord (· = ' ') rest with
  | none => exact .inr ⟨_, rfl⟩
  | some parts =>
      obtain ⟨tableName, remainder⟩ := parts
      dsimp only
      cases column : stripKeywordCi remainder "ADD COLUMN " with
      | some definition =>
          dsimp only
          cases splitWord isWhitespace definition with
          | none => exact .inr ⟨_, rfl⟩
          | some parts => exact .inl rfl
      | none =>
          dsimp only
          cases constraint : stripKeywordCi remainder "ADD CONSTRAINT " with
          | some definition => exact absurd ⟨remainder, table, column, constraint⟩ (other _ _)
          | none => exact .inr ⟨_, rfl⟩

theorem alterTableEntry_eq_iff (schema : DatabaseSchema) (name : String) :
    schema.alterTableEntry name = schema ↔ ¬ schema.table? name = none := by
  unfold DatabaseSchema.alterTableEntry
  cases found : schema.table? name with
  | some table => simp
  | none =>
      refine ⟨fun same => ?_, fun contrary => absurd rfl contrary⟩
      have entered : (schema.putTable name (.new name)).table? name = some (.new name) := by
        rw [DatabaseSchema.table?, DatabaseSchema.putTable, Table.lookup_put, if_pos rfl]
      rw [show schema.putTable name (.new name) = schema from same, found] at entered
      cases entered

theorem runAddConstraint_panics_iff (version tableName : String) (definition : List Char)
    (schema : DatabaseSchema) :
    (runAddConstraint version tableName definition schema).1 = .error .panic ↔
      KeyPanics definition := by
  have outcome := parseForeignKey_outcome version definition
  rw [runAddConstraint_eq]
  generalize parseForeignKey version definition = result at outcome
  cases outcome with
  | panics panics never => exact ⟨fun _ => panics, fun _ => rfl⟩
  | fails never malformed error => simp [never]
  | returns never wellFormed key => simp [never]

theorem runAddConstraint_unchanged_iff (version tableName : String) (definition : List Char)
    (schema : DatabaseSchema) :
    (∀ error, (runAddConstraint version tableName definition schema).1 = .error (.error error) →
      (runAddConstraint version tableName definition schema).2 = schema) ↔
    ¬ (¬ KeyPanics definition ∧ ¬ KeyWellFormed definition ∧ schema.table? tableName = none) := by
  have outcome := parseForeignKey_outcome version definition
  rw [runAddConstraint_eq]
  generalize parseForeignKey version definition = result at outcome
  cases outcome with
  | panics panics never =>
      exact ⟨fun _ kept => kept.1 panics, by simp⟩
  | returns never wellFormed key =>
      exact ⟨fun _ kept => kept.2.1 wellFormed, by simp⟩
  | fails never malformed error =>
      have unchanged := alterTableEntry_eq_iff schema tableName
      simp only [never, malformed, not_false_eq_true, true_and, ← unchanged]
      exact ⟨fun kept => kept error rfl, fun same _ _ => same⟩

/-- The statement adds a constraint whose definition makes the parser panic. -/
def AlterPanics (rest : List Char) : Prop :=
  ∃ tableName definition, AddsConstraint rest tableName definition ∧ KeyPanics definition

/-- The statement adds a malformed constraint to a table that the schema does not
have. -/
def LeavesEntry (schema : DatabaseSchema) (rest : List Char) : Prop :=
  ∃ tableName definition, AddsConstraint rest tableName definition ∧
    ¬ KeyPanics definition ∧ ¬ KeyWellFormed definition ∧
    schema.table? (String.ofList tableName) = none

theorem addsConstraint_unique {rest tableName definition otherName other : List Char}
    (first : AddsConstraint rest tableName definition)
    (second : AddsConstraint rest otherName other) :
    otherName = tableName ∧ other = definition := by
  obtain ⟨remainder, table, -, constraint⟩ := first
  obtain ⟨otherRemainder, otherTable, -, otherConstraint⟩ := second
  obtain ⟨rfl, rfl⟩ := Prod.mk.inj (Option.some.inj (table.symm.trans otherTable))
  exact ⟨rfl, Option.some.inj (otherConstraint.symm.trans constraint)⟩

section Alter

variable (migration : LocalMigration) (statement rest : List Char) (schema : DatabaseSchema)

theorem runAlterTableStmt_panics_iff :
    (runAlterTableStmt migration statement rest schema).1 = .error .panic ↔
      AlterPanics rest := by
  by_cases adds : ∃ tableName definition, AddsConstraint rest tableName definition
  · obtain ⟨tableName, definition, adds⟩ := adds
    rw [runAlterTableStmt_of_addsConstraint adds, runAddConstraint_panics_iff]
    constructor
    · intro panics
      exact ⟨tableName, definition, adds, panics⟩
    · rintro ⟨otherName, other, otherAdds, panics⟩
      rw [← (addsConstraint_unique adds otherAdds).2]
      exact panics
  · simp only [not_exists] at adds
    constructor
    · intro panics
      rcases runAlterTableStmt_of_not adds migration statement schema with
        returned | ⟨error, failed⟩
      · rw [returned] at panics
        cases panics
      · rw [failed] at panics
        cases panics
    · rintro ⟨tableName, definition, added, -⟩
      exact absurd added (adds tableName definition)

theorem runAlterTableStmt_unchanged_iff :
    (∀ error, (runAlterTableStmt migration statement rest schema).1 = .error (.error error) →
      (runAlterTableStmt migration statement rest schema).2 = schema) ↔
    ¬ LeavesEntry schema rest := by
  by_cases adds : ∃ tableName definition, AddsConstraint rest tableName definition
  · obtain ⟨tableName, definition, adds⟩ := adds
    rw [runAlterTableStmt_of_addsConstraint adds, runAddConstraint_unchanged_iff, not_iff_not]
    constructor
    · intro left
      exact ⟨tableName, definition, adds, left⟩
    · rintro ⟨otherName, other, otherAdds, left⟩
      obtain ⟨sameName, same⟩ := addsConstraint_unique adds otherAdds
      rw [← same, ← sameName]
      exact left
  · simp only [not_exists] at adds
    constructor
    · rintro - ⟨tableName, definition, added, -⟩
      exact adds tableName definition added
    · intro _ error failed
      rcases runAlterTableStmt_of_not adds migration statement schema with
        returned | ⟨error, kept⟩
      · rw [returned] at failed
        cases failed
      · rw [kept]

end Alter

/-! ## Migrations -/

/-- A statement that is not skipped and alters a table such that the parser panics. -/
def StatementPanics (rawStatement : List Char) : Prop :=
  let statement := trim (stripSqlComments rawStatement)
  ¬ statement = [] ∧ ¬ chunkHasSkipMarker rawStatement = true ∧
    stripKeywordCi statement "CREATE TABLE " = none ∧
    ∃ rest, stripKeywordCi statement "ALTER TABLE " = some rest ∧ AlterPanics rest

theorem orParseError_not_panic {α : Type} (version detail : String) (value : Option α) :
    orParseError version detail value ≠ .error .panic := by
  cases value <;> simp [orParseError, parseError]

theorem createdColumns_not_panic (version : String) (definitions : List (List Char))
    (table : DatabaseTable) : createdColumns version table definitions ≠ .error .panic := by
  induction definitions generalizing table with
  | nil => simp [createdColumns]
  | cons definition rest induction =>
      have never : createdColumn version definition ≠ .error .panic := by
        unfold createdColumn
        extract_lets text
        split
        · simp
        · split
          · simp
          · split <;> simp [parseError]
      rw [createdColumns]
      intro panics
      rcases bind_eq_error.mp panics with failed | ⟨column, -, failed⟩
      · exact never failed
      · cases column with
        | none => exact induction table failed
        | some column => exact induction _ failed

theorem applyCreateTableStmt_not_panic (schema : DatabaseSchema) (rest : List Char)
    (version : String) : applyCreateTableStmt schema rest version ≠ .error .panic := by
  intro panics
  rcases bind_eq_error.mp panics with failed | ⟨⟨before, after⟩, -, failed⟩
  · exact orParseError_not_panic _ _ _ failed
  · dsimp only at failed
    split at failed
    · simp [parseError] at failed
    · rcases bind_eq_error.mp failed with failed | ⟨table, -, failed⟩
      · exact createdColumns_not_panic _ _ _ failed
      · cases failed

theorem runCreateTableStmt_not_panic (rest : List Char) (version : String)
    (schema : DatabaseSchema) :
    ¬ (runCreateTableStmt rest version schema).1 = .error .panic := by
  have never := applyCreateTableStmt_not_panic schema rest version
  unfold runCreateTableStmt
  cases created : applyCreateTableStmt schema rest version with
  | ok after => simp
  | error fault =>
      rw [created] at never
      simpa using never

theorem runStatement_panics_iff (migration : LocalMigration) (rawStatement : List Char)
    (schema : DatabaseSchema) :
    (runStatement migration rawStatement schema).1 = .error .panic ↔
      StatementPanics rawStatement := by
  simp only [runStatement, StatementPanics]
  generalize trim (stripSqlComments rawStatement) = statement
  by_cases empty : statement = []
  · simp [empty]
  by_cases marked : chunkHasSkipMarker rawStatement = true
  · simp [empty, marked]
  rw [if_neg empty, if_neg marked]
  simp only [empty, marked, not_false_eq_true, true_and]
  cases created : stripKeywordCi statement "CREATE TABLE " with
  | some rest =>
      simpa using runCreateTableStmt_not_panic rest migration.version schema
  | none =>
      cases altered : stripKeywordCi statement "ALTER TABLE " with
      | some rest => simpa using runAlterTableStmt_panics_iff migration statement rest schema
      | none =>
          dsimp only
          split
          · simp
          · simp [rejectedDdl, Run.ofExcept]

/-- A migration makes its replay panic when a statement does that is reached. -/
theorem runStatements_panics_iff (migration : LocalMigration) (statements : List (List Char))
    (schema : DatabaseSchema) :
    (runStatements migration statements schema).1 = .error .panic ↔
      ∃ before statement after, statements = before ++ statement :: after ∧
        (runStatements migration before schema).1 = .ok () ∧ StatementPanics statement := by
  induction statements generalizing schema with
  | nil => simp [runStatements]
  | cons first rest induction =>
      have step := runStatement_panics_iff migration first schema
      have later : ∀ before, runStatements migration (first :: before) schema =
          match runStatement migration first schema with
          | (.ok _, reached) => runStatements migration before reached
          | (.error fault, reached) => (.error fault, reached) := by
        intro before
        rw [runStatements, Run.bind_run]
        rcases runStatement migration first schema with ⟨fault | value, reached⟩ <;> rfl
      rw [later rest]
      rcases ran : runStatement migration first schema with ⟨fault | value, reached⟩
      · -- The first statement ends the replay.
        rw [ran] at step
        rw [step]
        constructor
        · intro panics
          exact ⟨[], first, rest, rfl, rfl, panics⟩
        · rintro ⟨before, statement, after, parts, returned, panics⟩
          cases before with
          | nil =>
              obtain ⟨rfl, -⟩ := List.cons.inj parts
              exact panics
          | cons head before =>
              obtain ⟨rfl, -⟩ := List.cons.inj parts
              rw [later before, ran] at returned
              cases returned
      · rw [ran] at step
        dsimp only
        rw [induction reached]
        constructor
        · rintro ⟨before, statement, after, rfl, returned, panics⟩
          refine ⟨first :: before, statement, after, rfl, ?_, panics⟩
          rw [later before, ran]
          exact returned
        · rintro ⟨before, statement, after, parts, returned, panics⟩
          cases before with
          | nil =>
              obtain ⟨rfl, -⟩ := List.cons.inj parts
              cases step.mpr panics
          | cons head before =>
              obtain ⟨rfl, rfl⟩ := List.cons.inj parts
              rw [later before, ran] at returned
              exact ⟨before, statement, after, rfl, returned, panics⟩

/-- A replay panics exactly when a statement is reached that adds a foreign key with a
closing parenthesis first, and `ALTER TABLE` fails with a changed schema exactly when it
adds a malformed constraint to a table that the schema does not have. -/
theorem replaySafe_iff (schema : DatabaseSchema) (migration : LocalMigration) :
    ((runLocalMigration migration schema).1 ≠ .error .panic ↔
      ∀ before statement after,
        splitSqlStatements migration.upSql = before ++ statement :: after →
        (runStatements migration before schema).1 = .ok () → ¬ StatementPanics statement) ∧
    (∀ statement rest : List Char,
      (∀ error, (runAlterTableStmt migration statement rest schema).1 = .error (.error error) →
        (runAlterTableStmt migration statement rest schema).2 = schema) ↔
      ¬ LeavesEntry schema rest) := by
  constructor
  · rw [Ne, runLocalMigration, runStatements_panics_iff]
    simp only [not_exists, not_and]
  · intro statement rest
    exact runAlterTableStmt_unchanged_iff migration statement rest schema

/-- A closing parenthesis before the opening one makes the replay panic, and a
constraint that is not a foreign key leaves an empty table behind. -/
theorem replay_unsafe :
    let migration : LocalMigration :=
      { version := "1", name := "m"
        upSql := "ALTER TABLE t ADD CONSTRAINT c FOREIGN KEY )(;".toList }
    let rest := "t ADD CONSTRAINT c UNIQUE (id)".toList
    let statement := "ALTER TABLE ".toList ++ rest
    (runLocalMigration migration { tables := [] }).1 = .error .panic ∧
      (∃ error, (runAlterTableStmt migration statement rest { tables := [] }).1 =
        .error (.error error)) ∧
      (runAlterTableStmt migration statement rest { tables := [] }).2 =
        { tables := [("t", .new "t")] } := by
  intro migration rest statement
  refine ⟨by decide +kernel, ?_, by decide +kernel⟩
  exact ⟨_, rfl⟩

end Marreta.Migrations
