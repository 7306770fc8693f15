import Marreta.Foundation.Reversal
import Marreta.Migrations.Files

namespace Marreta.Migrations

open Foundation

/-! The commands that apply migrations and roll them back.

The database keeps one row of each applied migration beside the content that the
scripts change.  Each script runs in a transaction together with the change of its row. -/

/-! ## The database -/

/-- An error of the database, with its code. -/
structure PgError where
  code : Option String
  message : String
deriving DecidableEq

def translatePgError (error : PgError) (table op : String) : MarretaError :=
  let operation := "db." ++ table ++ "." ++ op
  if error.code = some "23505" then .uniqueConstraintViolation error.message operation
  else .dbError error.message operation

/-- A database with contents `σ`. -/
structure MigrationDatabase (σ : Type) where
  execute : List Char → σ → Except PgError σ
  duplicateVersion : AppliedMigration → PgError
  /-- The order of the versions under `ORDER BY version`. -/
  precedes : String → String → Bool
  trans : ∀ first second third, precedes first second → precedes second third →
    precedes first third
  total : ∀ first second, precedes first second || precedes second first
  antisymm : ∀ first second, precedes first second → precedes second first → first = second

def MigrationFiles.record (migration : MigrationFiles) : AppliedMigration where
  version := migration.version
  name := migration.name
  checksum := migration.checksum

/-- The name of the up script. -/
def MigrationFiles.filename (migration : MigrationFiles) : List Char :=
  migrationFilename migration.version.toList migration.name.toList upEnding

/-- A project and its database.  Of the applied migrations, in the order in which they
were applied, the database has the rows. -/
structure Project (σ : Type) where
  /-- What is discovered in the directory. -/
  locals : List MigrationFiles
  applied : List MigrationFiles
  content : σ
deriving DecidableEq

/-! ## The commands -/

/-- Why a command ends the process. -/
inductive CommandFailure where
  | runtime (context detail : String)
  | startup (error : MarretaError)
deriving DecidableEq

structure MigrationStatusReport where
  applied : List String
  pending : List String
  changed : List String
  missingLocal : List String

def namesInState (inventory : List MigrationListEntry) (state : MigrationState) : List String :=
  ((inventory.filter (·.state = state)).map fun entry =>
    entry.version ++ "_" ++ entry.name).insertionSort (· ≤ ·)

def compareMigrationState (locals : List MigrationFiles) (applied : List AppliedMigration) :
    MigrationStatusReport :=
  let inventory := buildMigrationInventory locals applied
  { applied := namesInState inventory .applied
    pending := namesInState inventory .pending
    changed := namesInState inventory .changed
    missingLocal := namesInState inventory .missingLocal }

section Commands

variable {σ : Type} (db : MigrationDatabase σ)

def listAppliedMigrations (project : Project σ) : List AppliedMigration :=
  (project.applied.map MigrationFiles.record).insertionSort fun first second =>
    db.precedes first.version second.version

def applyMigration (migration : MigrationFiles) (project : Project σ) :
    Except MarretaError (Project σ) := do
  let content ← (db.execute migration.upSql project.content).mapError fun error =>
    translatePgError error "_marreta_migrations" "apply_sql"
  if project.applied.any (·.version = migration.version) then
    .error (translatePgError (db.duplicateVersion migration.record) "_marreta_migrations" "record")
  else return { project with applied := project.applied ++ [migration], content }

def rollbackMigration (migration : MigrationFiles) (project : Project σ) :
    Except MarretaError (Project σ) := do
  let downSql ← migration.downSql.elim
    (.error (.ioError ("migration '" ++ migration.version ++ "_" ++ migration.name ++
      "' has no down.sql file"))) .ok
  let content ← (db.execute downSql project.content).mapError fun error =>
    translatePgError error "_marreta_migrations" "rollback_sql"
  return { project with
    applied := project.applied.filter (·.version ≠ migration.version), content }

/-- Apply migrations until one fails. -/
def applyMigrations : List MigrationFiles → Project σ → Except CommandFailure Unit × Project σ
  | [], project => (.ok (), project)
  | migration :: rest, project =>
      match applyMigration db migration project with
      | .ok next => applyMigrations rest next
      | .error error => (.error (.startup error), project)

def runMigrateApply (project : Project σ) : Except CommandFailure Unit × Project σ :=
  let applied := listAppliedMigrations db project
  let report := compareMigrationState project.locals applied
  if !report.changed.isEmpty || !report.missingLocal.isEmpty then
    (.error (.runtime "migration state is inconsistent"
      "resolve changed/missing_local entries before apply"), project)
  else
    let pending := project.locals.filter fun migration =>
      !applied.any (·.version = migration.version)
    applyMigrations db pending project

def runMigrateRollback (project : Project σ) : Except CommandFailure Unit × Project σ :=
  match (listAppliedMigrations db project).getLast? with
  | none => (.ok (), project)
  | some lastApplied =>
      match project.locals.find? (·.version = lastApplied.version) with
      | none =>
          (.error (.runtime "cannot rollback migration"
            (lastApplied.version ++ "_" ++ lastApplied.name ++
              " is applied but the local migration files are missing")), project)
      | some migration =>
          if migration.checksum ≠ lastApplied.checksum then
            (.error (.runtime "cannot rollback migration"
              (migration.version ++ "_" ++ migration.name ++
                " local checksum differs from the applied record")), project)
          else
            match rollbackMigration db migration project with
            | .ok next => (.ok (), next)
            | .error error => (.error (.startup error), project)

/-- The files of a migration come into the directory, next to those that are there. -/
def addMigration (migration : MigrationFiles) (project : Project σ) : Project σ :=
  if project.locals.any (·.filename = migration.filename) then project
  else { project with
    locals := project.locals.orderedInsert (fun first second => first.filename ≤ second.filename)
      migration }

inductive Command where
  | add (migration : MigrationFiles)
  | apply
  | rollback

def Command.run (project : Project σ) : Command → Except CommandFailure Unit × Project σ
  | .add migration => (.ok (), addMigration migration project)
  | .apply => runMigrateApply db project
  | .rollback => runMigrateRollback db project

end Commands

/-! ## Applying -/

section Applying

variable {σ : Type} {db : MigrationDatabase σ}

/-- What the up script of a migration does to a content. -/
def upStep (db : MigrationDatabase σ) (migration : MigrationFiles) (content : σ) : Option σ :=
  (db.execute migration.upSql content).toOption

/-- The content after some migrations in order. -/
def effect (db : MigrationDatabase σ) (migrations : List MigrationFiles) (content : σ) : Option σ :=
  executeAll (upStep db) migrations content

/-- The versions of the migrations are different. -/
def Distinct (migrations : List MigrationFiles) : Prop :=
  (migrations.map (·.version)).Nodup

theorem Distinct.nodup {migrations : List MigrationFiles} (distinct : Distinct migrations) :
    migrations.Nodup :=
  distinct.of_map _

theorem Distinct.eq {migrations : List MigrationFiles} (distinct : Distinct migrations)
    {first second : MigrationFiles} (member : first ∈ migrations) (other : second ∈ migrations)
    (same : first.version = second.version) : first = second :=
  List.inj_on_of_nodup_map distinct member other same

theorem distinct_append_singleton {migrations : List MigrationFiles} {migration : MigrationFiles} :
    Distinct (migrations ++ [migration]) ↔
      Distinct migrations ∧ ∀ other ∈ migrations, other.version ≠ migration.version := by
  rw [Distinct, List.map_append, List.map_singleton, List.nodup_append]
  simp [Distinct]

theorem applyMigration_eq_ok {migration : MigrationFiles} {project next : Project σ} :
    applyMigration db migration project = .ok next ↔
      (∀ other ∈ project.applied, other.version ≠ migration.version) ∧
        ∃ content, upStep db migration project.content = some content ∧
          next = { project with applied := project.applied ++ [migration], content } := by
  cases ran : db.execute migration.upSql project.content with
  | error error =>
      simp [applyMigration, upStep, ran, Except.mapError, Bind.bind, Except.bind, Except.toOption]
  | ok content =>
      simp only [applyMigration, upStep, ran, Except.mapError, Bind.bind, Except.bind,
        Except.toOption, Option.some.injEq, exists_eq_left']
      split
      · rename_i recorded
        obtain ⟨other, member, same⟩ := List.any_eq_true.mp recorded
        constructor
        · intro fails
          cases fails
        · rintro ⟨fresh, -⟩
          exact absurd (of_decide_eq_true same) (fresh other member)
      · rename_i fresh
        have differs : ∀ other ∈ project.applied, other.version ≠ migration.version := by
          intro other member same
          exact fresh (List.any_eq_true.mpr ⟨other, member, decide_eq_true same⟩)
        constructor
        · intro done
          exact ⟨differs, (Except.ok.inj done).symm⟩
        · rintro ⟨-, rfl⟩
          rfl

/-- Of the migrations a first part is applied, and all of them if the command does not
fail. -/
theorem applyMigrations_spec (db : MigrationDatabase σ) (pending : List MigrationFiles)
    (project : Project σ) :
    ∃ done content, done <+: pending ∧
      (applyMigrations db pending project).2 =
        { project with applied := project.applied ++ done, content } ∧
      effect db done project.content = some content ∧
      (Distinct project.applied → Distinct (project.applied ++ done)) ∧
      ((applyMigrations db pending project).1 = .ok () → done = pending) := by
  induction pending generalizing project with
  | nil =>
      refine ⟨[], project.content, List.nil_prefix, ?_, rfl, ?_, fun _ => rfl⟩
      · rw [applyMigrations, List.append_nil]
      · rw [List.append_nil]
        exact id
  | cons migration rest induction =>
      cases applied : applyMigration db migration project with
      | error error =>
          refine ⟨[], project.content, List.nil_prefix, ?_, rfl, ?_, ?_⟩
          · rw [applyMigrations, applied, List.append_nil]
          · rw [List.append_nil]
            exact id
          · intro succeeds
            rw [applyMigrations, applied] at succeeds
            cases succeeds
      | ok next =>
          obtain ⟨fresh, between, ran, rfl⟩ := (applyMigration_eq_ok).mp applied
          obtain ⟨done, content, first, reached, effects, distinct, whole⟩ := induction
            { project with applied := project.applied ++ [migration], content := between }
          refine ⟨migration :: done, content, List.cons_prefix_cons.mpr ⟨rfl, first⟩, ?_, ?_, ?_, ?_⟩
          · rw [applyMigrations, applied]
            dsimp only
            rw [reached, List.append_cons project.applied migration done]
          · rw [effect, executeAll_cons, ran]
            exact effects
          · intro before
            rw [List.append_cons]
            exact distinct ((distinct_append_singleton).mpr ⟨before, fresh⟩)
          · intro succeeds
            rw [applyMigrations, applied] at succeeds
            rw [whole succeeds]

/-- Migrations with new versions whose scripts run are all applied. -/
theorem applyMigrations_ok {pending : List MigrationFiles} {project : Project σ}
    (distinct : Distinct (project.applied ++ pending)) {content : σ}
    (runs : effect db pending project.content = some content) :
    (applyMigrations db pending project).1 = .ok () := by
  induction pending generalizing project with
  | nil => rfl
  | cons migration rest induction =>
      rw [List.append_cons] at distinct
      rw [effect, executeAll_cons] at runs
      obtain ⟨between, ran, runs⟩ := Option.bind_eq_some_iff.mp runs
      have first : Distinct (project.applied ++ [migration]) := by
        rw [Distinct, List.map_append] at distinct
        exact distinct.of_append_left
      have applied := (applyMigration_eq_ok).mpr
        ⟨((distinct_append_singleton).mp first).2, between, ran, rfl⟩
      rw [applyMigrations, applied]
      exact induction distinct runs

end Applying

/-! ## Reached projects -/

section Reached

variable {σ : Type} (db : MigrationDatabase σ)

/-- What holds in every run: applied migrations come from files that are still there,
and the rows have different versions. -/
structure Recorded (project : Project σ) : Prop where
  stored : ∀ migration ∈ project.applied, migration ∈ project.locals
  distinct : Distinct project.applied

variable {db} {project : Project σ}

theorem recorded_add (recorded : Recorded project) (migration : MigrationFiles) :
    Recorded (addMigration migration project) := by
  unfold addMigration
  split
  · exact recorded
  · constructor
    · intro other member
      exact (List.mem_orderedInsert _).mpr (.inr (recorded.stored other member))
    · exact recorded.distinct

/-- The files without a row of their version. -/
def pendingFiles (project : Project σ) : List MigrationFiles :=
  project.locals.filter fun migration => !project.applied.any (·.version = migration.version)

theorem mem_listAppliedMigrations {row : AppliedMigration} :
    row ∈ listAppliedMigrations db project ↔
      ∃ migration ∈ project.applied, migration.record = row := by
  rw [listAppliedMigrations, List.mem_insertionSort, List.mem_map]

theorem pending_eq :
    (project.locals.filter fun migration =>
      !(listAppliedMigrations db project).any (·.version = migration.version)) =
      pendingFiles project := by
  apply List.filter_congr
  intro migration _
  rw [listAppliedMigrations, (List.perm_insertionSort _ _).any_eq, List.any_map]
  rfl

/-- The command either refuses or applies the pending files. -/
theorem runMigrateApply_cases (db : MigrationDatabase σ) (project : Project σ) :
    (∃ failure, runMigrateApply db project = (.error failure, project)) ∨
      runMigrateApply db project = applyMigrations db (pendingFiles project) project := by
  unfold runMigrateApply
  dsimp only
  split
  · exact .inl ⟨_, rfl⟩
  · rw [pending_eq]
    exact .inr rfl

theorem recorded_apply (recorded : Recorded project) :
    Recorded (runMigrateApply db project).2 := by
  rcases runMigrateApply_cases db project with ⟨failure, refused⟩ | applies
  · rw [refused]
    exact recorded
  · obtain ⟨done, content, first, reached, -, distinct, -⟩ :=
      applyMigrations_spec db (pendingFiles project) project
    rw [applies, reached]
    constructor
    · intro migration member
      rcases List.mem_append.mp member with old | new
      · exact recorded.stored migration old
      · exact List.mem_of_mem_filter (first.subset new)
    · exact distinct recorded.distinct

theorem rollbackMigration_eq_ok {migration : MigrationFiles} {next : Project σ} :
    rollbackMigration db migration project = .ok next ↔
      ∃ downSql content, migration.downSql = some downSql ∧
        db.execute downSql project.content = .ok content ∧
        next = { project with
          applied := project.applied.filter (·.version ≠ migration.version), content } := by
  cases downs : migration.downSql with
  | none => simp [rollbackMigration, downs, Bind.bind, Except.bind]
  | some downSql =>
      cases ran : db.execute downSql project.content with
      | error error =>
          simp [rollbackMigration, downs, ran, Except.mapError, Bind.bind, Except.bind]
      | ok content =>
          simp [rollbackMigration, downs, ran, Except.mapError, Bind.bind, Except.bind, Pure.pure,
            Except.pure, eq_comm]

/-- The command leaves the project or deletes one row. -/
theorem runMigrateRollback_cases (db : MigrationDatabase σ) (project : Project σ) :
    (runMigrateRollback db project).2 = project ∨
      ∃ migration ∈ project.locals, ∃ downSql content, migration.downSql = some downSql ∧
        db.execute downSql project.content = .ok content ∧
        (runMigrateRollback db project).2 = { project with
          applied := project.applied.filter (·.version ≠ migration.version), content } := by
  unfold runMigrateRollback
  split
  · exact .inl rfl
  · split
    · exact .inl rfl
    · rename_i migration found
      split
      · exact .inl rfl
      · split
        · rename_i next rolled
          obtain ⟨downSql, content, downs, ran, rfl⟩ := (rollbackMigration_eq_ok).mp rolled
          exact .inr ⟨migration, List.mem_of_find?_eq_some found, downSql, content, downs, ran, rfl⟩
        · exact .inl rfl

theorem recorded_rollback (recorded : Recorded project) :
    Recorded (runMigrateRollback db project).2 := by
  rcases runMigrateRollback_cases db project with same | ⟨_, _, _, _, _, _, reached⟩
  · rw [same]
    exact recorded
  · rw [reached]
    constructor
    · intro other member
      exact recorded.stored other (List.mem_of_mem_filter member)
    · exact recorded.distinct.sublist (List.filter_sublist.map _)

theorem recorded_run (recorded : Recorded project) (command : Command) :
    Recorded (command.run db project).2 := by
  cases command with
  | add migration => exact recorded_add recorded migration
  | apply => exact recorded_apply recorded
  | rollback => exact recorded_rollback recorded

end Reached

/-! ## Orderly commands -/

section Orderly

variable {σ : Type} {db : MigrationDatabase σ} {project : Project σ}

theorem namesInState_eq_nil {inventory : List MigrationListEntry} {state : MigrationState}
    (none : ∀ entry ∈ inventory, entry.state ≠ state) : namesInState inventory state = [] := by
  have empty : inventory.filter (·.state = state) = [] := by
    rw [List.filter_eq_nil_iff]
    intro entry member same
    exact none entry member (of_decide_eq_true same)
  rw [namesInState, empty]
  rfl

/-- With one file for each version, a recorded version has the file it was applied
from. -/
theorem state_of_mem_inventory (recorded : Recorded project) (distinct : Distinct project.locals)
    {entry : MigrationListEntry}
    (member : entry ∈ buildMigrationInventory project.locals (listAppliedMigrations db project)) :
    entry.state = .applied ∨ entry.state = .pending := by
  obtain ⟨version, -, built⟩ := List.mem_filterMap.mp member
  cases record : (byVersion (·.version) (listAppliedMigrations db project)).lookup version with
  | none =>
      rw [record] at built
      cases files : (byVersion (·.version) project.locals).lookup version with
      | none =>
          rw [files] at built
          cases built
      | some migration =>
          rw [files] at built
          exact .inr (congrArg _ (Option.some.inj built).symm)
  | some row =>
      rw [record] at built
      obtain ⟨listed, named⟩ := version_of_lookup record
      obtain ⟨migration, applied, rfl⟩ := (mem_listAppliedMigrations).mp listed
      have stored := recorded.stored migration applied
      cases found : (byVersion (·.version) project.locals).lookup version with
      | none =>
          have present : version ∈ (project.locals.map (·.version)) := by
            rw [← named]
            exact List.mem_map_of_mem stored
          have isSome := (byVersion_isSome (·.version) project.locals version).mpr present
          rw [found] at isSome
          cases isSome
      | some files =>
          obtain ⟨inside, sameVersion⟩ := version_of_lookup found
          obtain rfl := distinct.eq inside stored (sameVersion.trans named.symm)
          have same : files.checksum = files.record.checksum := rfl
          rw [found, inventoryEntry, if_pos same] at built
          exact .inl (congrArg _ (Option.some.inj built).symm)

theorem runMigrateApply_eq (recorded : Recorded project) (distinct : Distinct project.locals) :
    runMigrateApply db project = applyMigrations db (pendingFiles project) project := by
  have changed : namesInState (buildMigrationInventory project.locals
      (listAppliedMigrations db project)) .changed = [] := by
    apply namesInState_eq_nil
    intro entry member same
    rcases state_of_mem_inventory recorded distinct member with state | state
    · cases state.symm.trans same
    · cases state.symm.trans same
  have missing : namesInState (buildMigrationInventory project.locals
      (listAppliedMigrations db project)) .missingLocal = [] := by
    apply namesInState_eq_nil
    intro entry member same
    rcases state_of_mem_inventory recorded distinct member with state | state
    · cases state.symm.trans same
    · cases state.symm.trans same
  unfold runMigrateApply
  simp only [compareMigrationState, changed, missing, List.isEmpty_nil, Bool.not_true,
    Bool.or_self, Bool.false_eq_true, if_false]
  rw [pending_eq]

/-- The pending files are those that are not applied. -/
theorem pendingFiles_eq (recorded : Recorded project) (distinct : Distinct project.locals) :
    pendingFiles project = project.locals.filter (· ∉ project.applied) := by
  apply List.filter_congr
  intro migration stored
  rw [Bool.eq_iff_iff, Bool.not_eq_true', List.any_eq_false, decide_eq_true_iff]
  constructor
  · intro fresh member
    exact fresh migration member (decide_eq_true rfl)
  · intro absent other member same
    have equal := distinct.eq (recorded.stored other member) stored (of_decide_eq_true same)
    exact absent (equal ▸ member)

theorem distinct_applied_pending (recorded : Recorded project) (distinct : Distinct project.locals) :
    Distinct (project.applied ++ pendingFiles project) := by
  rw [Distinct, List.map_append, List.nodup_append]
  refine ⟨recorded.distinct, distinct.sublist (List.filter_sublist.map _), ?_⟩
  intro version old other new same
  obtain ⟨migration, applied, rfl⟩ := List.mem_map.mp old
  obtain ⟨pending, member, rfl⟩ := List.mem_map.mp new
  obtain ⟨-, fresh⟩ := List.mem_filter.mp member
  rw [Bool.not_eq_true', List.any_eq_false] at fresh
  exact fresh migration applied (decide_eq_true same)

/-- The row that the database lists last is the one of the highest version. -/
theorem getLast?_listAppliedMigrations (recorded : Recorded project) {last : MigrationFiles}
    (applied : last ∈ project.applied)
    (highest : ∀ other ∈ project.applied, db.precedes other.version last.version) :
    (listAppliedMigrations db project).getLast? = some last.record := by
  have sorted : (listAppliedMigrations db project).Pairwise fun first second =>
      db.precedes first.version second.version := by
    have total : Std.Total fun first second : AppliedMigration =>
        db.precedes first.version second.version := by
      constructor
      intro first second
      exact (Bool.or_eq_true ..).mp (db.total first.version second.version)
    have trans : IsTrans AppliedMigration fun first second =>
        db.precedes first.version second.version := by
      constructor
      intro first second third
      exact db.trans _ _ _
    exact List.pairwise_insertionSort _ _
  have listed : last.record ∈ listAppliedMigrations db project :=
    (mem_listAppliedMigrations).mpr ⟨last, applied, rfl⟩
  cases rows : (listAppliedMigrations db project).getLast? with
  | none =>
      rw [List.getLast?_eq_none_iff.mp rows] at listed
      cases listed
  | some row =>
      obtain ⟨before, parts⟩ := List.getLast?_eq_some_iff.mp rows
      have member : row ∈ listAppliedMigrations db project := by rw [parts]; simp
      obtain ⟨other, otherApplied, rfl⟩ := (mem_listAppliedMigrations).mp member
      have below : db.precedes last.version other.version := by
        rw [parts] at sorted listed
        rcases List.mem_append.mp listed with earlier | same
        · exact (List.pairwise_append.mp sorted).2.2 _ earlier _ (List.mem_singleton_self _)
        · rw [show last.version = other.version from
            congrArg AppliedMigration.version (List.mem_singleton.mp same)]
          exact (Bool.or_self _).symm.trans (db.total other.version other.version)
      have same := db.antisymm _ _ (highest other otherApplied) below
      rw [recorded.distinct.eq otherApplied applied same]

/-- Where the last applied migration has the highest version and no other file has it,
its down script is run and its row deleted. -/
theorem runMigrateRollback_eq (recorded : Recorded project) {before : List MigrationFiles}
    {last : MigrationFiles} (parts : project.applied = before ++ [last])
    (highest : ∀ other ∈ project.applied, db.precedes other.version last.version)
    (single : ∀ other ∈ project.locals, other.version = last.version → other = last) :
    runMigrateRollback db project =
      match rollbackMigration db last project with
      | .ok next => (.ok (), next)
      | .error error => (.error (.startup error), project) := by
  have applied : last ∈ project.applied := by rw [parts]; simp
  have found : project.locals.find? (·.version = last.record.version) = some last := by
    cases search : project.locals.find? (·.version = last.record.version) with
    | none =>
        have absent := List.find?_eq_none.mp search last (recorded.stored last applied)
        exact absurd (decide_eq_true rfl) absent
    | some other =>
        have holds := List.find?_some search
        have same : other.version = last.version := of_decide_eq_true holds
        rw [single other (List.mem_of_find?_eq_some search) same]
  have same : ¬ last.checksum ≠ last.record.checksum := not_not_intro rfl
  rw [runMigrateRollback, getLast?_listAppliedMigrations recorded applied highest]
  simp only [found, if_neg same]

theorem filter_version_eq (recorded : Recorded project) {before : List MigrationFiles}
    {last : MigrationFiles} (parts : project.applied = before ++ [last]) :
    project.applied.filter (·.version ≠ last.version) = before := by
  have distinct := recorded.distinct
  rw [parts] at distinct ⊢
  have others := ((distinct_append_singleton).mp distinct).2
  rw [List.filter_append, List.filter_eq_self.mpr]
  · simp
  · intro other member
    exact decide_eq_true (others other member)

end Orderly

/-! ## Runs -/

section Runs

variable {σ : Type} (db : MigrationDatabase σ) (start : σ)

/-- The down script takes back what the up script does to a content. -/
def Undoes (migration : MigrationFiles) (before : σ) : Prop :=
  ∀ downSql ∈ migration.downSql, ∀ after,
    db.execute migration.upSql before = .ok after → db.execute downSql after = .ok before

/-- Migrations are applied when all files have different versions, and rolled back when
the last applied migration has the highest version of them, no other file has its version,
and its down script undoes its up script. -/
def Orderly (project : Project σ) : Command → Prop
  | .add _ => True
  | .apply => Distinct project.locals
  | .rollback => ∀ last ∈ project.applied.getLast?,
      (∀ other ∈ project.applied, db.precedes other.version last.version) ∧
      (∀ other ∈ project.locals, other.version = last.version → other = last) ∧
      ∀ before, effect db project.applied.dropLast start = some before → Undoes db last before

/-- The projects of runs from an empty directory whose commands are all orderly. -/
inductive OrderlyRun : Project σ → Prop where
  | start : OrderlyRun ⟨[], [], start⟩
  | step (project : Project σ) (command : Command) :
      OrderlyRun project → Orderly db start project command →
      OrderlyRun (command.run db project).2

/-- What the commands promise: the files that are not applied are applied in order if
their scripts run, after which each file is applied once, and the migration that was
applied last is rolled back unless it has no down script. -/
def Performs (project : Project σ) : Command → Prop
  | .add _ => True
  | .apply =>
      let pending := project.locals.filter (· ∉ project.applied)
      let (result, after) := runMigrateApply db project
      (result = .ok () ↔ ∃ content, effect db pending project.content = some content) ∧
        (result = .ok () → after.applied = project.applied ++ pending ∧
          ∀ migration ∈ after.locals, after.applied.count migration = 1)
  | .rollback =>
      let (result, after) := runMigrateRollback db project
      ∀ last ∈ project.applied.getLast?,
        (last.downSql = none → after = project) ∧
        (last.downSql.isSome = true →
          result = .ok () ∧ after.applied = project.applied.dropLast)

variable {db start} {project : Project σ}

theorem performs_apply (recorded : Recorded project) (distinct : Distinct project.locals) :
    Performs db project .apply := by
  have whole := distinct_applied_pending recorded distinct
  have recordedAfter : Recorded (runMigrateApply db project).2 := recorded_apply recorded
  unfold Performs
  dsimp only
  rw [runMigrateApply_eq recorded distinct] at recordedAfter ⊢
  rw [← pendingFiles_eq recorded distinct]
  obtain ⟨done, content, -, reached, effects, -, complete⟩ :=
    applyMigrations_spec db (pendingFiles project) project
  constructor
  · constructor
    · intro succeeds
      rw [← complete succeeds]
      exact ⟨content, effects⟩
    · rintro ⟨_, runs⟩
      exact applyMigrations_ok whole runs
  · intro succeeds
    rw [complete succeeds] at reached
    rw [reached] at recordedAfter ⊢
    refine ⟨rfl, ?_⟩
    intro migration stored
    apply List.count_eq_one_of_mem recordedAfter.distinct.nodup
    by_cases applied : migration ∈ project.applied
    · exact List.mem_append_left _ applied
    · apply List.mem_append_right
      rw [pendingFiles_eq recorded distinct]
      exact List.mem_filter.mpr ⟨stored, decide_eq_true applied⟩

/-- The content stays the effect of the applied migrations. -/
theorem effect_apply (consistent : effect db project.applied start = some project.content) :
    effect db (runMigrateApply db project).2.applied start =
      some (runMigrateApply db project).2.content := by
  rcases runMigrateApply_cases db project with ⟨failure, refused⟩ | applies
  · rw [refused]
    exact consistent
  · obtain ⟨done, content, -, reached, effects, -, -⟩ :=
      applyMigrations_spec db (pendingFiles project) project
    rw [applies, reached]
    dsimp only
    rw [effect, executeAll_append]
    rw [effect] at consistent
    rw [consistent]
    exact effects

/-- An orderly rollback deletes the row of the last migration and takes its effect back. -/
theorem rollback_last (recorded : Recorded project)
    (consistent : effect db project.applied start = some project.content)
    (orderly : Orderly db start project .rollback) {last : MigrationFiles}
    (applied : project.applied.getLast? = some last) :
    (last.downSql = none → (runMigrateRollback db project).2 = project) ∧
    (last.downSql.isSome = true → (runMigrateRollback db project).1 = .ok () ∧
      (runMigrateRollback db project).2.applied = project.applied.dropLast ∧
      effect db project.applied.dropLast start =
        some (runMigrateRollback db project).2.content) := by
  obtain ⟨highest, single, undoes⟩ := orderly last applied
  obtain ⟨earlier, parts⟩ := List.getLast?_eq_some_iff.mp applied
  have dropped : project.applied.dropLast = earlier := by rw [parts, List.dropLast_concat]
  rw [runMigrateRollback_eq recorded parts highest single]
  constructor
  · intro absent
    rw [rollbackMigration, absent]
    rfl
  · intro present
    obtain ⟨downSql, downs⟩ := Option.isSome_iff_exists.mp present
    rw [parts, effect, executeAll_append] at consistent
    obtain ⟨before, effects, consistent⟩ := Option.bind_eq_some_iff.mp consistent
    rw [executeAll_cons] at consistent
    obtain ⟨after, ran, same⟩ := Option.bind_eq_some_iff.mp consistent
    obtain rfl := Option.some.inj same
    have up : db.execute last.upSql before = .ok project.content := eq_ok_of_toOption ran
    have back := undoes before (dropped ▸ effects) downSql downs project.content up
    have rolled := (rollbackMigration_eq_ok).mpr ⟨downSql, before, downs, back, rfl⟩
    rw [rolled, dropped]
    exact ⟨rfl, filter_version_eq recorded parts, effects⟩

theorem runMigrateRollback_nil (none : project.applied = []) :
    runMigrateRollback db project = (.ok (), project) := by
  rw [runMigrateRollback, listAppliedMigrations, none]
  rfl

theorem effect_run (recorded : Recorded project)
    (consistent : effect db project.applied start = some project.content) {command : Command}
    (orderly : Orderly db start project command) :
    effect db (command.run db project).2.applied start =
      some (command.run db project).2.content := by
  cases command with
  | add migration =>
      change effect db (addMigration migration project).applied start =
        some (addMigration migration project).content
      unfold addMigration
      split
      · exact consistent
      · exact consistent
  | apply => exact effect_apply consistent
  | rollback =>
      change effect db (runMigrateRollback db project).2.applied start =
        some (runMigrateRollback db project).2.content
      cases applied : project.applied.getLast? with
      | none =>
          rw [runMigrateRollback_nil (List.getLast?_eq_none_iff.mp applied)]
          exact consistent
      | some last =>
          obtain ⟨stays, deletes⟩ := rollback_last recorded consistent orderly applied
          cases downs : last.downSql with
          | none =>
              rw [stays downs]
              exact consistent
          | some downSql =>
              obtain ⟨-, reached, effects⟩ := deletes (by rw [downs]; rfl)
              rw [reached]
              exact effects

theorem performs_of_orderly (recorded : Recorded project)
    (consistent : effect db project.applied start = some project.content) {command : Command}
    (orderly : Orderly db start project command) : Performs db project command := by
  cases command with
  | add migration => exact trivial
  | apply => exact performs_apply recorded orderly
  | rollback =>
      intro last applied
      obtain ⟨stays, deletes⟩ := rollback_last recorded consistent orderly applied
      refine ⟨stays, ?_⟩
      intro present
      obtain ⟨succeeds, reached, -⟩ := deletes present
      exact ⟨succeeds, reached⟩

/-- In runs whose commands are all orderly the content of the database is the effect of
the applied migrations in the order in which they were applied, and every orderly command
does what it promises. -/
theorem orderlyRun_performs (db : MigrationDatabase σ) (start : σ) {project : Project σ}
    (run : OrderlyRun db start project) :
    effect db project.applied start = some project.content ∧
      ∀ command, Orderly db start project command → Performs db project command := by
  have holds : Recorded project ∧ effect db project.applied start = some project.content := by
    induction run with
    | start =>
        constructor
        · constructor
          · intro migration member
            cases member
          · exact List.nodup_nil
        · rfl
    | step before command _ orderly induction =>
        obtain ⟨recorded, consistent⟩ := induction
        exact ⟨recorded_run recorded command, effect_run recorded consistent orderly⟩
  obtain ⟨recorded, consistent⟩ := holds
  constructor
  · exact consistent
  · intro command orderly
    exact performs_of_orderly recorded consistent orderly

end Runs

/-! ## A late migration -/

/-- Contents are lists of tables: `+name` creates one and `-name` drops it. -/
def tableDatabase : MigrationDatabase (List (List Char)) where
  execute
    | '+' :: name, content =>
        if content.contains name then .error ⟨some "42P07", "relation already exists"⟩
        else .ok (content ++ [name])
    | '-' :: name, content =>
        if content.contains name then .ok (content.filter (· ≠ name))
        else .error ⟨some "42P01", "relation does not exist"⟩
    | _, _ => .error ⟨some "42601", "syntax error"⟩
  duplicateVersion _ := ⟨some "23505", "duplicate key value violates unique constraint"⟩
  precedes first second := decide (first ≤ second)
  trans _ _ _ := by simpa using le_trans
  total first second := by simpa using le_total first second
  antisymm _ _ := by simpa using le_antisymm

def tableMigration (version name : String) : MigrationFiles where
  version := version
  name := name
  upSql := '+' :: name.toList
  downSql := some ('-' :: name.toList)
  checksum := version ++ name

def orders : MigrationFiles :=
  tableMigration "20260102_000000" "orders"

def runCommands {σ : Type} (db : MigrationDatabase σ) (project : Project σ)
    (commands : List Command) : Project σ :=
  commands.foldl (fun project command => (command.run db project).2) project

theorem orderlyRun_performs_orders :
    let project := runCommands tableDatabase ⟨[], [], []⟩ [.add orders, .apply]
    effect tableDatabase project.applied [] = some project.content ∧
      Performs tableDatabase project .rollback := by
  intro project
  have reached : project = ⟨[orders], [orders], ["orders".toList]⟩ := by
    decide +kernel
  have run : OrderlyRun tableDatabase [] project := by
    apply OrderlyRun.step _ .apply
    · exact OrderlyRun.step _ (.add orders) .start trivial
    · unfold Orderly Distinct
      decide +kernel
  obtain ⟨consistent, performs⟩ := orderlyRun_performs tableDatabase [] run
  refine ⟨consistent, performs .rollback ?_⟩
  rw [reached]
  rintro last ⟨⟩
  refine ⟨by decide +kernel, by decide +kernel, ?_⟩
  rintro before ⟨⟩ downSql ⟨⟩ after ran
  rw [← Except.ok.inj ran]
  decide +kernel

/-- A migration that comes in with a lower version is applied last, and the other one is
rolled back. -/
theorem late_migration_stays :
    let customers := tableMigration "20260101_000000" "customers"
    let project := runCommands tableDatabase ⟨[], [], []⟩
      [.add orders, .apply, .add customers, .apply]
    project.applied = [orders, customers] ∧
      (runMigrateRollback tableDatabase project).1 = .ok () ∧
      (runMigrateRollback tableDatabase project).2.applied = [customers] := by
  decide +kernel

end Marreta.Migrations
