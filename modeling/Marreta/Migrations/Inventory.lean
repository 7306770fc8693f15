import Marreta.Migrations.Replay
import Mathlib

namespace Marreta.Migrations

open Foundation (Table)

/-! The state of a project's migrations: the local files against what the database
has recorded.  A recorded migration is recognised by the checksum of its scripts. -/

/-! ## Checksums -/

/-- The texts of the two files of a migration. -/
structure Scripts where
  upSql : List Char
  downSql : Option (List Char)
deriving DecidableEq

/-- The line between the scripts, without the line break before it. -/
def downLine : List Char :=
  "-- marreta:down --\n".toList

def downSeparator : List Char :=
  '\n' :: downLine

/-- What is hashed of the scripts. -/
def Scripts.message (scripts : Scripts) : List Char :=
  scripts.upSql ++ downSeparator ++ scripts.downSql.getD []

/-- The checksum, under a hash function from bytes to hexadecimal text. -/
def migrationChecksum (sha256 : ByteArray → String) (scripts : Scripts) : String :=
  sha256 (String.ofList scripts.message).toByteArray

/-! ## The inventory -/

/-- A migration as it is read from its files. -/
structure MigrationFiles extends LocalMigration where
  downSql : Option (List Char)
  checksum : String
deriving DecidableEq

def MigrationFiles.scripts (files : MigrationFiles) : Scripts where
  upSql := files.upSql
  downSql := files.downSql

/-- A row of the table in which the database records migrations. -/
structure AppliedMigration where
  version : String
  name : String
  checksum : String
deriving DecidableEq

inductive MigrationState where
  | applied | pending | changed | missingLocal
deriving DecidableEq

structure MigrationListEntry where
  version : String
  name : String
  state : MigrationState
deriving DecidableEq

/-- The last migration of each version. -/
def byVersion {α : Type} (version : α → String) (migrations : List α) : Table String α :=
  Table.putAll [] (migrations.map fun migration => (version migration, migration))

def inventoryEntry (version : String) :
    Option MigrationFiles → Option AppliedMigration → Option MigrationListEntry
  | some files, some record =>
      some { version, name := files.name
             state := if files.checksum = record.checksum then .applied else .changed }
  | some files, none => some { version, name := files.name, state := .pending }
  | none, some record => some { version, name := record.name, state := .missingLocal }
  | none, none => none

def buildMigrationInventory (locals : List MigrationFiles) (applied : List AppliedMigration) :
    List MigrationListEntry :=
  let localByVersion := byVersion (·.version) locals
  let appliedByVersion := byVersion (·.version) applied
  let versions := (locals.map (·.version) ++ applied.map (·.version)).eraseDups.insertionSort
    (· ≤ ·)
  versions.filterMap fun version =>
    inventoryEntry version (localByVersion.lookup version) (appliedByVersion.lookup version)

/-! ## Ambiguous messages -/

/-- One up script starts like the other followed by the separator, and what follows
in it is found again at the start of the other down script, before another separator.
The line break at the end of the first script may be the first of the separator. -/
def Shifted (shorter longer : Scripts) : Prop :=
  ∃ middle, longer.upSql ++ ['\n'] = shorter.upSql ++ downSeparator ++ middle ∧
    shorter.downSql.getD [] = middle ++ downLine ++ longer.downSql.getD []

/-- Different scripts with the same message. -/
def Confusable (first second : Scripts) : Prop :=
  (first.upSql = second.upSql ∧
    (first.downSql = none ∧ second.downSql = some [] ∨
      first.downSql = some [] ∧ second.downSql = none)) ∨
  Shifted first second ∨ Shifted second first

/-- The separator has no line break inside. -/
theorem eq_of_prefix_downSeparator {text rest : List Char} (long : text ≠ [])
    (cut : downSeparator = text ++ ['\n'] ++ rest) :
    text ++ ['\n'] = downSeparator ∧ rest = [] := by
  cases text with
  | nil => exact absurd rfl long
  | cons ch text =>
      have tail : "-- marreta:down --".toList ++ ['\n'] = text ++ '\n' :: rest := by
        have whole : downLine = text ++ ['\n'] ++ rest := (List.cons.inj cut).2
        rw [List.append_assoc] at whole
        exact whole
      have inside : '\n' ∉ "-- marreta:down --".toList := by decide
      have ended : rest = [] := by
        rcases List.append_eq_append_iff.mp tail with ⟨more, -, shorter⟩ | ⟨more, longer, shorter⟩
        · have length := congrArg List.length shorter
          simp only [List.length_append, List.length_cons, List.length_nil] at length
          exact List.eq_nil_of_length_eq_zero (by omega)
        · cases more with
          | nil => exact (List.cons.inj shorter).2
          | cons first more =>
              obtain ⟨rfl, -⟩ := List.cons.inj shorter
              exact absurd (by rw [longer]; simp) inside
      rw [ended] at cut ⊢
      exact ⟨by rw [cut, List.append_nil], rfl⟩

/-- A longer up script with the same message is a shifted one. -/
theorem shifted_of_message {first second : Scripts} {more : List Char} (proper : more ≠ [])
    (longer : second.upSql = first.upSql ++ more) (same : first.message = second.message) :
    Shifted first second := by
  have rest : downSeparator ++ first.downSql.getD [] =
      (more ++ ['\n']) ++ (downLine ++ second.downSql.getD []) := by
    rw [Scripts.message, Scripts.message, longer] at same
    simpa [downSeparator] using same
  rcases List.append_eq_append_iff.mp rest with ⟨middle, before, after⟩ | ⟨middle, before, after⟩
  · refine ⟨middle, ?_, ?_⟩
    · rw [longer, List.append_assoc, before, List.append_assoc]
    · rw [after, List.append_assoc]
  · obtain ⟨separator, rfl⟩ := eq_of_prefix_downSeparator proper before
    refine ⟨[], ?_, ?_⟩
    · rw [longer, List.append_assoc, separator, List.append_nil]
    · rw [List.nil_append]
      exact after.symm

theorem message_of_shifted {first second : Scripts} (shifted : Shifted first second) :
    first.message = second.message := by
  obtain ⟨middle, upSame, downSame⟩ := shifted
  have whole : second.message = (second.upSql ++ ['\n']) ++ (downLine ++ second.downSql.getD []) := by
    simp [Scripts.message, downSeparator]
  rw [whole, upSame, Scripts.message, downSame]
  simp [List.append_assoc]

theorem ne_of_shifted {first second : Scripts} (shifted : Shifted first second) :
    first ≠ second := by
  obtain ⟨middle, upSame, -⟩ := shifted
  intro same
  have length := congrArg List.length upSame
  rw [same] at length
  have separator : downSeparator.length = 20 := rfl
  simp only [List.length_append, separator, List.length_singleton] at length
  omega

/-- An absent script is hashed like an empty one. -/
theorem downs_of_getD {first second : Option (List Char)} (same : first.getD [] = second.getD [])
    (differs : first ≠ second) :
    first = none ∧ second = some [] ∨ first = some [] ∧ second = none := by
  cases first with
  | none =>
      cases second with
      | none => exact absurd rfl differs
      | some text => exact .inl ⟨rfl, congrArg some same.symm⟩
  | some text =>
      cases second with
      | none => exact .inr ⟨congrArg some same, rfl⟩
      | some other => exact absurd (congrArg some same) differs

theorem confusable_iff (first second : Scripts) :
    Confusable first second ↔ first.message = second.message ∧ first ≠ second := by
  constructor
  · rintro (⟨upSame, downs⟩ | shifted | shifted)
    · have downSame : first.downSql.getD [] = second.downSql.getD [] := by
        rcases downs with ⟨none, some⟩ | ⟨some, none⟩
        · rw [none, some]; rfl
        · rw [none, some]; rfl
      refine ⟨by rw [Scripts.message, upSame, downSame, Scripts.message], ?_⟩
      intro same
      rw [same] at downs
      rcases downs with ⟨none, some⟩ | ⟨some, none⟩
      · cases none.symm.trans some
      · cases none.symm.trans some
    · exact ⟨message_of_shifted shifted, ne_of_shifted shifted⟩
    · exact ⟨(message_of_shifted shifted).symm, (ne_of_shifted shifted).symm⟩
  · rintro ⟨same, differs⟩
    have split : first.upSql ++ (downSeparator ++ first.downSql.getD []) =
        second.upSql ++ (downSeparator ++ second.downSql.getD []) := by
      rw [← List.append_assoc, ← List.append_assoc]
      exact same
    by_cases upSame : first.upSql = second.upSql
    · have downSame : first.downSql.getD [] = second.downSql.getD [] := by
        rw [upSame] at split
        exact List.append_cancel_left (List.append_cancel_left split)
      refine .inl ⟨upSame, downs_of_getD downSame ?_⟩
      intro downs
      cases first
      cases second
      cases upSame
      cases downs
      exact differs rfl
    · rcases List.append_eq_append_iff.mp split with ⟨more, longer, -⟩ | ⟨more, longer, -⟩
      · have proper : more ≠ [] := by
          intro none
          rw [none, List.append_nil] at longer
          exact upSame longer.symm
        exact .inr (.inl (shifted_of_message proper longer same))
      · have proper : more ≠ [] := by
          intro none
          rw [none, List.append_nil] at longer
          exact upSame longer
        exact .inr (.inr (shifted_of_message proper longer same.symm))

theorem migrationChecksum_eq_iff {sha256 : ByteArray → String}
    (injective : Function.Injective sha256) (first second : Scripts) :
    migrationChecksum sha256 first = migrationChecksum sha256 second ↔
      first.message = second.message := by
  constructor
  · intro same
    have texts : String.ofList first.message = String.ofList second.message :=
      String.toByteArray_inj.mp (injective same)
    exact String.ofList_injective texts
  · intro same
    rw [migrationChecksum, same, migrationChecksum]

/-! ## Versions that are reported as applied -/

theorem version_of_lookup {α : Type} {version : α → String} {migrations : List α} {key : String}
    {migration : α} (found : (byVersion version migrations).lookup key = some migration) :
    migration ∈ migrations ∧ version migration = key := by
  rcases Table.lookup_putAll found with member | ⟨-, empty⟩
  · obtain ⟨other, inside, same⟩ := List.mem_map.mp member
    obtain ⟨rfl, rfl⟩ := Prod.mk.inj same
    exact ⟨inside, rfl⟩
  · cases empty

theorem byVersion_isSome {α : Type} (version : α → String) (migrations : List α) (key : String) :
    ((byVersion version migrations).lookup key).isSome = true ↔
      key ∈ migrations.map version := by
  rw [byVersion, Table.lookup_putAll_isSome]
  simp [Table.keys]

theorem version_of_inventoryEntry {version : String} {files : Option MigrationFiles}
    {record : Option AppliedMigration} {entry : MigrationListEntry}
    (built : inventoryEntry version files record = some entry) : entry.version = version := by
  cases files with
  | none =>
      cases record with
      | none => cases built
      | some record => exact congrArg _ (Option.some.inj built).symm
  | some files =>
      cases record with
      | none => exact congrArg _ (Option.some.inj built).symm
      | some record => exact congrArg _ (Option.some.inj built).symm

/-- A version with files and a record is reported as applied when the checksums
agree. -/
theorem applied_iff {locals : List MigrationFiles} {applied : List AppliedMigration}
    {version : String} {files : MigrationFiles} {record : AppliedMigration}
    (stored : (byVersion (·.version) locals).lookup version = some files)
    (recorded : (byVersion (·.version) applied).lookup version = some record) :
    (∃ name, ⟨version, name, .applied⟩ ∈ buildMigrationInventory locals applied) ↔
      files.checksum = record.checksum := by
  constructor
  · rintro ⟨name, member⟩
    obtain ⟨other, -, built⟩ := List.mem_filterMap.mp member
    obtain rfl : version = other := version_of_inventoryEntry built
    rw [stored, recorded] at built
    by_contra differs
    rw [inventoryEntry, if_neg differs] at built
    cases congrArg MigrationListEntry.state (Option.some.inj built)
  · intro same
    obtain ⟨member, named⟩ := version_of_lookup stored
    have listed : version ∈ (locals.map (·.version) ++ applied.map (·.version)).eraseDups := by
      rw [List.mem_eraseDups, List.mem_append, ← named]
      exact .inl (List.mem_map_of_mem member)
    refine ⟨files.name, List.mem_filterMap.mpr ⟨version, (List.mem_insertionSort _).mpr listed, ?_⟩⟩
    rw [stored, recorded, inventoryEntry, if_pos same]

/-- Under an injective hash, two pairs of scripts are told apart by their checksums
exactly when they are not confusable, and so is a version that is reported as applied
from one whose scripts were changed. -/
theorem checksumDetects_iff (sha256 : ByteArray → String)
    (injective : Function.Injective sha256) :
    (∀ first second : Scripts,
      (migrationChecksum sha256 first = migrationChecksum sha256 second ↔
        first.upSql = second.upSql ∧ first.downSql = second.downSql) ↔
      ¬ Confusable first second) ∧
    (∀ (locals : List MigrationFiles) (applied : List AppliedMigration) (version : String)
        (files : MigrationFiles) (record : AppliedMigration) (scripts : Scripts),
      (byVersion (·.version) locals).lookup version = some files →
      (byVersion (·.version) applied).lookup version = some record →
      files.checksum = migrationChecksum sha256 files.scripts →
      record.checksum = migrationChecksum sha256 scripts →
      (((∃ name, ⟨version, name, .applied⟩ ∈ buildMigrationInventory locals applied) →
          files.upSql = scripts.upSql ∧ files.downSql = scripts.downSql) ↔
        ¬ Confusable files.scripts scripts)) := by
  have equal : ∀ first second : Scripts, first = second ↔
      first.upSql = second.upSql ∧ first.downSql = second.downSql := by
    intro first second
    cases first
    cases second
    simp
  constructor
  · intro first second
    rw [migrationChecksum_eq_iff injective, confusable_iff, ← equal]
    constructor
    · rintro exact ⟨same, differs⟩
      exact differs (exact.mp same)
    · intro distinct
      constructor
      · intro same
        by_contra differs
        exact distinct ⟨same, differs⟩
      · intro same
        rw [same]
  · intro locals applied version files record scripts stored recorded sealedFiles sealedRecord
    have equalFiles := equal files.scripts scripts
    rw [applied_iff stored recorded, sealedFiles, sealedRecord,
      migrationChecksum_eq_iff injective, confusable_iff]
    change (_ → files.scripts.upSql = _ ∧ files.scripts.downSql = _) ↔ _
    rw [← equalFiles, not_and, not_not]

/-- A hash without collisions: every byte as a character. -/
def byteText (bytes : ByteArray) : String :=
  String.ofList (bytes.data.toList.map Char.ofUInt8)

theorem byteText_injective : Function.Injective byteText := by
  intro first second same
  have char : Function.Injective Char.ofUInt8 := by
    intro byte other same
    exact UInt8.toUInt32_inj.mp (congrArg Char.val same)
  have lists := List.map_injective_iff.mpr char (String.ofList_injective same)
  exact ByteArray.ext (Array.toList_inj.mp lists)

/-- A change of an up script is found, and the version is not reported as applied. -/
theorem checksumDetects_change :
    let before : Scripts := ⟨"A;\n".toList, some "B;\n".toList⟩
    let after : Scripts := ⟨"C;\n".toList, some "B;\n".toList⟩
    ¬ migrationChecksum byteText after = migrationChecksum byteText before ∧
      ¬ ∃ name, ⟨"1", name, .applied⟩ ∈ buildMigrationInventory
        [{ version := "1", name := "a", upSql := after.upSql, downSql := after.downSql
           checksum := migrationChecksum byteText after }]
        [{ version := "1", name := "a", checksum := migrationChecksum byteText before }] := by
  intro before after
  have distinct : ¬ Confusable after before := by
    rw [confusable_iff]
    decide
  have detects := checksumDetects_iff byteText byteText_injective
  constructor
  · intro same
    exact absurd ((detects.1 after before).mpr distinct |>.mp same).1 (by decide)
  · intro reported
    have kept := (detects.2 _ _ "1" { version := "1", name := "a", upSql := after.upSql
                                      downSql := after.downSql
                                      checksum := migrationChecksum byteText after }
      _ before rfl rfl rfl rfl).mpr distinct reported
    exact absurd kept.1 (by decide)

/-- An empty down script may be added or deleted, and the start of a down script may be
moved to the up script. -/
theorem scripts_confused :
    let absent : Scripts := ⟨"A;\n".toList, none⟩
    let empty : Scripts := ⟨"A;\n".toList, some []⟩
    let before : Scripts := ⟨"A;".toList, some "B;\n-- marreta:down --\nC;".toList⟩
    let after : Scripts := ⟨"A;\n-- marreta:down --\nB;".toList, some "C;".toList⟩
    (∀ sha256, migrationChecksum sha256 absent = migrationChecksum sha256 empty) ∧
      absent.downSql ≠ empty.downSql ∧
      (∀ sha256, migrationChecksum sha256 before = migrationChecksum sha256 after) ∧
      before.upSql ≠ after.upSql :=
  ⟨fun _ => rfl, by decide, fun _ => rfl, by decide⟩

end Marreta.Migrations
