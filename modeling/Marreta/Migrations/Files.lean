import Marreta.Foundation.Ensures
import Marreta.Migrations.Inventory
import Marreta.Migrations.Planner
import Mathlib

namespace Marreta.Migrations

open Foundation (Table bind_eq_ok eq_map_of_mapM mapM_of_ok ok_of_mapM turn_of_mapM)
open Foundation.Text (splitOnceAt splitOnceAt_around eq_of_splitOnceAt not_mem_of_splitOnceAt)

/-! The files of migrations.

A migration is two files whose names hold its version and its name:
`20260101_120000_create_orders.up.sql` and the same with `.down.sql`. -/

/-! ## Names -/

def isSeparator (ch : Char) : Bool :=
  ch = '_'

/-- One character of a name: the text so far, and whether a separator came last. -/
def sanitizeChar (state : List Char × Bool) (ch : Char) : List Char × Bool :=
  let normalized := if ch.isAlphanum then ch.toLower else '_'
  if isSeparator normalized then
    (if !state.2 && !state.1.isEmpty then state.1 ++ ['_'] else state.1, true)
  else (state.1 ++ [normalized], false)

def trimSeparators (text : List Char) : List Char :=
  ((text.dropWhile isSeparator).reverse.dropWhile isSeparator).reverse

def sanitizeMigrationName (name : List Char) : List Char :=
  trimSeparators (name.foldl sanitizeChar ([], false)).1

def byteSize (text : List Char) : Nat :=
  (String.ofList text).utf8ByteSize

/-- The version and the name in a file name. -/
def migrationParts (filename ending : List Char) : Option (List Char × List Char) := do
  let stem ← filename.dropSuffix? ending
  let (date, rest) ← splitOnceAt '_' stem
  let (time, name) ← splitOnceAt '_' rest
  guard (byteSize date = 8 ∧ byteSize time = 6 ∧ name ≠ [])
  return (date ++ '_' :: time, name)

def parseMigrationFilename (filename ending : List Char) :
    Except MarretaError (List Char × List Char) :=
  match migrationParts filename ending with
  | some parts => .ok parts
  | none => .error (.ioError ("invalid migration filename '" ++ String.ofList filename ++ "'"))

def upEnding : List Char :=
  ".up.sql".toList

def downEnding : List Char :=
  ".down.sql".toList

def migrationFilename (version name ending : List Char) : List Char :=
  version ++ '_' :: name ++ ending

/-! ## The directory -/

/-- The names of the files with their texts, or why they cannot be read.  A directory
that is not there is one without files. -/
abbrev Directory := Table (List Char) (Except String (List Char))

/-- The path of the migrations and of a file in it, as they are shown. -/
structure DirectoryPath where
  display : String
  join : List Char → String

def readText (path : DirectoryPath) (filename : List Char)
    (content : Except String (List Char)) : Except MarretaError (List Char) :=
  content.mapError fun error =>
    .ioError ("could not read migration '" ++ path.join filename ++ "': " ++ error)

section Reading

variable (sha256 : ByteArray → String) (path : DirectoryPath) (directory : Directory)

/-- The migration of a name with the ending of up scripts. -/
def readMigration (filename : List Char) : Except MarretaError MigrationFiles := do
  let (version, name) ← parseMigrationFilename filename upEnding
  let downFilename := migrationFilename version name downEnding
  let upSql ← readText path filename
    ((directory.find? filename).getD (.error "No such file or directory"))
  let downSql ← (directory.find? downFilename).mapM (readText path downFilename)
  return {
    version := String.ofList version
    name := String.ofList name
    upSql
    downSql
    checksum := migrationChecksum sha256 { upSql, downSql }
  }

def upFilenames : List (List Char) :=
  directory.keys.filter upEnding.isSuffixOf

def discoverLocalMigrations : Except MarretaError (List MigrationFiles) :=
  ((upFilenames directory).insertionSort (· ≤ ·)).mapM (readMigration sha256 path directory)

end Reading

/-- A moment of the clock.  The year has four digits. -/
structure UtcTime where
  year : Fin 10000
  month : Fin 100
  day : Fin 100
  hour : Fin 100
  minute : Fin 100
  second : Fin 100

def twoDigits (number : Nat) : List Char :=
  [Nat.digitChar (number / 10), Nat.digitChar (number % 10)]

/-- The moment as `%Y%m%d_%H%M%S`. -/
def UtcTime.format (now : UtcTime) : List Char :=
  twoDigits (now.year / 100) ++ twoDigits (now.year % 100) ++ twoDigits now.month ++
    twoDigits now.day ++ '_' :: (twoDigits now.hour ++ twoDigits now.minute ++
    twoDigits now.second)

/-- Why the file system refuses to make the directory, or to write a file. -/
structure DiskErrors where
  create : Option String
  write : List Char → List Char → Option String

def refuseIf (message : String) : Option String → Except MarretaError Unit
  | some error => .error (.ioError (message ++ ": " ++ error))
  | none => .ok ()

def migrationVersionExists (directory : Directory) (version : List Char) : Bool :=
  directory.keys.any (version ++ ['_']).isPrefixOf

/-- The migration as it is returned by the function that writes it. -/
def writtenMigration (sha256 : ByteArray → String) (version name upContent downContent : List Char) :
    MigrationFiles where
  version := String.ofList version
  name := String.ofList name
  upSql := upContent
  downSql := some downContent
  checksum := migrationChecksum sha256 { upSql := upContent, downSql := some downContent }

def Directory.write (directory : Directory) (version name upContent downContent : List Char) :
    Directory :=
  Table.put (Table.put directory (migrationFilename version name upEnding) (.ok upContent))
    (migrationFilename version name downEnding) (.ok downContent)

/-- The migration that was written, and the directory with its files. -/
def writeMigrationFiles (sha256 : ByteArray → String) (path : DirectoryPath)
    (disk : DiskErrors) (now : UtcTime) (directory : Directory) (name : List Char)
    (upSql downSql : List (List Char)) : Except MarretaError (MigrationFiles × Directory) := do
  refuseIf ("could not create migrations directory '" ++ path.display ++ "'") disk.create
  let version := now.format
  if migrationVersionExists directory version then
    .error (.ioError ("a migration with version '" ++ String.ofList version ++
      "' already exists (two 'generate' runs in the same second); " ++
      "retry in a moment so the timestamp advances"))
  else
    let sanitizedName := sanitizeMigrationName name
    let upFilename := migrationFilename version sanitizedName upEnding
    let downFilename := migrationFilename version sanitizedName downEnding
    let upContent := joinSql upSql
    let downContent := joinSql downSql
    refuseIf ("could not write migration '" ++ path.join upFilename ++ "'")
      (disk.write upFilename upContent)
    refuseIf ("could not write migration '" ++ path.join downFilename ++ "'")
      (disk.write downFilename downContent)
    return (writtenMigration sha256 version sanitizedName upContent downContent,
      directory.write version sanitizedName upContent downContent)

/-! ## Sanitised names -/

theorem toLower_ne_separator {ch : Char} (alphanumeric : ch.isAlphanum = true) :
    ch.toLower ≠ '_' := by
  intro same
  unfold Char.toLower at same
  split at same
  · rename_i upper
    have code := congrArg (fun ch : Char => ch.val.toNat) same
    simp only [UInt32.le_iff_toNat_le, ge_iff_le] at upper
    simp at code upper
    omega
  · subst same
    revert alphanumeric
    decide

/-- The text has something other than separators. -/
def Named (text : List Char) : Prop :=
  ∃ ch ∈ text, isSeparator ch = false

theorem named_append_separator (text : List Char) : Named (text ++ ['_']) ↔ Named text := by
  simp [Named, isSeparator]

theorem named_sanitizeChar (state : List Char × Bool) (ch : Char) :
    Named (sanitizeChar state ch).1 ↔ Named state.1 ∨ ch.isAlphanum = true := by
  by_cases alphanumeric : ch.isAlphanum = true
  · have plain : isSeparator ch.toLower = false := by
      simp [isSeparator, toLower_ne_separator alphanumeric]
    simp [sanitizeChar, alphanumeric, plain, Named]
  · have separator : isSeparator '_' = true := rfl
    simp only [sanitizeChar, alphanumeric, Bool.false_eq_true, if_false, separator, if_true,
      or_false]
    split
    · exact named_append_separator state.1
    · exact Iff.rfl

theorem named_sanitizeChars (name : List Char) (state : List Char × Bool) :
    Named (name.foldl sanitizeChar state).1 ↔
      Named state.1 ∨ ∃ ch ∈ name, ch.isAlphanum = true := by
  induction name generalizing state with
  | nil => simp
  | cons ch name induction =>
      rw [List.foldl_cons, induction, named_sanitizeChar, List.exists_mem_cons_iff, or_assoc]

theorem trimSeparators_ne_nil (text : List Char) : trimSeparators text ≠ [] ↔ Named text := by
  rw [trimSeparators, ne_eq, List.reverse_eq_nil_iff, List.dropWhile_eq_nil_iff]
  constructor
  · intro other
    simp only [List.mem_reverse, not_forall] at other
    obtain ⟨ch, member, plain⟩ := other
    exact ⟨ch, (List.dropWhile_sublist _).mem member, Bool.eq_false_iff.mpr plain⟩
  · rintro ⟨ch, member, plain⟩ separators
    cases found : text.dropWhile isSeparator with
    | nil =>
        have separator := List.dropWhile_eq_nil_iff.mp found ch member
        rw [plain] at separator
        cases separator
    | cons first rest =>
        have stops := List.head?_dropWhile_not isSeparator text
        have separator := separators first (by rw [found]; simp)
        rw [found] at stops
        rw [show isSeparator first = false from stops] at separator
        cases separator

theorem sanitizeMigrationName_ne_nil (name : List Char) :
    sanitizeMigrationName name ≠ [] ↔ ∃ ch ∈ name, ch.isAlphanum = true := by
  rw [sanitizeMigrationName, trimSeparators_ne_nil, named_sanitizeChars]
  simp [Named]

/-! ## Versions in file names -/

def IsVersion (version : List Char) : Prop :=
  ∃ date time, '_' ∉ date ∧ '_' ∉ time ∧ byteSize date = 8 ∧ byteSize time = 6 ∧
    version = date ++ '_' :: time

theorem version_of_same {first second afterFirst afterSecond : List Char}
    (isFirst : IsVersion first) (isSecond : IsVersion second)
    (same : first ++ '_' :: afterFirst = second ++ '_' :: afterSecond) :
    first = second ∧ afterFirst = afterSecond := by
  obtain ⟨date, time, clearDate, clearTime, -, -, rfl⟩ := isFirst
  obtain ⟨otherDate, otherTime, clearOtherDate, clearOtherTime, -, -, rfl⟩ := isSecond
  simp only [List.append_assoc, List.cons_append] at same
  have dates := congrArg (splitOnceAt '_') same
  rw [splitOnceAt_around clearDate, splitOnceAt_around clearOtherDate] at dates
  obtain ⟨rfl, rest⟩ := Prod.mk.inj (Option.some.inj dates)
  have times := congrArg (splitOnceAt '_') rest
  rw [splitOnceAt_around clearTime, splitOnceAt_around clearOtherTime] at times
  obtain ⟨rfl, after⟩ := Prod.mk.inj (Option.some.inj times)
  exact ⟨rfl, after⟩

theorem migrationParts_filename {version : List Char} (isVersion : IsVersion version)
    (name ending : List Char) :
    migrationParts (migrationFilename version name ending) ending =
      if name = [] then none else some (version, name) := by
  obtain ⟨date, time, clearDate, clearTime, dateSize, timeSize, rfl⟩ := isVersion
  have stem : (migrationFilename (date ++ '_' :: time) name ending).dropSuffix? ending =
      some (date ++ '_' :: (time ++ '_' :: name)) := by
    rw [List.dropSuffix?_eq_some_iff]
    exact ⟨ending, by simp [migrationFilename], BEq.rfl⟩
  rw [migrationParts, stem]
  simp only [Option.bind_eq_bind, Option.bind_some, splitOnceAt_around clearDate,
    splitOnceAt_around clearTime, dateSize, timeSize, true_and]
  by_cases empty : name = []
  · rw [if_pos empty, guard, if_neg (not_not_intro empty)]
    rfl
  · rw [if_neg empty, guard, if_pos empty]
    rfl

theorem eq_of_migrationParts {filename ending version name : List Char}
    (parts : migrationParts filename ending = some (version, name)) :
    IsVersion version ∧ filename = migrationFilename version name ending := by
  simp only [migrationParts, Option.bind_eq_bind, Option.bind_eq_some_iff] at parts
  obtain ⟨stem, dropped, ⟨date, rest⟩, first, ⟨time, last⟩, second, ⟨⟩, guarded, result⟩ := parts
  obtain ⟨rfl, rfl⟩ := Prod.mk.inj (Option.some.inj result)
  obtain ⟨dateSize, timeSize, -⟩ := (Option.guard_eq_some' ..).mp guarded
  obtain ⟨other, rfl, same⟩ := List.dropSuffix?_eq_some_iff.mp dropped
  obtain rfl := eq_of_beq same
  constructor
  · exact ⟨date, time, not_mem_of_splitOnceAt first, not_mem_of_splitOnceAt second, dateSize,
      timeSize, rfl⟩
  · have cut : rest = time ++ '_' :: last := eq_of_splitOnceAt second
    rw [eq_of_splitOnceAt first, cut]
    simp [migrationFilename]

theorem byteSize_append (first second : List Char) :
    byteSize (first ++ second) = byteSize first + byteSize second := by
  rw [byteSize, String.ofList_append, String.utf8ByteSize_append, byteSize, byteSize]

theorem twoDigits_plain (number : Fin 100) :
    '_' ∉ twoDigits number ∧ byteSize (twoDigits number) = 2 := by
  revert number
  decide +kernel

theorem format_isVersion (now : UtcTime) : IsVersion now.format := by
  have century := twoDigits_plain ⟨now.year / 100, by omega⟩
  have year := twoDigits_plain ⟨now.year % 100, by omega⟩
  have month := twoDigits_plain now.month
  have day := twoDigits_plain now.day
  have hour := twoDigits_plain now.hour
  have minute := twoDigits_plain now.minute
  have second := twoDigits_plain now.second
  refine ⟨_, _, ?_, ?_, ?_, ?_, rfl⟩
  · simp [century.1, year.1, month.1, day.1]
  · simp [hour.1, minute.1, second.1]
  · simp only [byteSize_append, century.2, year.2, month.2, day.2]
  · simp only [byteSize_append, hour.2, minute.2, second.2]

theorem byteSize_cons (ch : Char) (text : List Char) :
    byteSize (ch :: text) = ch.utf8Size + byteSize text := by
  rw [byteSize, String.ofList_cons, String.utf8ByteSize_append, String.utf8ByteSize_singleton,
    byteSize]

theorem byteSize_version {version : List Char} (isVersion : IsVersion version) :
    byteSize version = 15 := by
  obtain ⟨date, time, -, -, dateSize, timeSize, rfl⟩ := isVersion
  rw [byteSize_append, byteSize_cons, dateSize, timeSize]
  rfl

/-- Texts of one size that differ decide the order of what they begin. -/
theorem append_lt_of_lt {first second : List Char} (sizes : byteSize first = byteSize second)
    (less : List.Lex (· < ·) first second) (afterFirst afterSecond : List Char) :
    List.Lex (· < ·) (first ++ afterFirst) (second ++ afterSecond) := by
  induction less with
  | nil =>
      rename_i ch text
      have positive := ch.utf8Size_pos
      rw [byteSize_cons] at sizes
      change 0 = _ at sizes
      omega
  | cons less induction =>
      rw [byteSize_cons, byteSize_cons] at sizes
      exact .cons (induction (by omega))
  | rel less => exact .rel less

theorem version_le_of_filename_le {first second afterFirst afterSecond : List Char}
    (isFirst : IsVersion first) (isSecond : IsVersion second)
    (ordered : first ++ afterFirst ≤ second ++ afterSecond) : first ≤ second := by
  apply le_of_not_gt
  intro less
  have sizes : byteSize second = byteSize first := by
    rw [byteSize_version isFirst, byteSize_version isSecond]
  exact absurd ordered (not_le_of_gt (append_lt_of_lt sizes less afterSecond afterFirst))

/-! ## Reading a file -/

section Reading

variable {sha256 : ByteArray → String} {path : DirectoryPath} {directory : Directory}

theorem filename_of_readMigration {filename : List Char} {migration : MigrationFiles}
    (reads : readMigration sha256 path directory filename = .ok migration) :
    ∃ version name, IsVersion version ∧ filename = migrationFilename version name upEnding ∧
      name ≠ [] ∧ migration.version = String.ofList version := by
  obtain ⟨⟨version, name⟩, parsed, reads⟩ := bind_eq_ok.mp reads
  obtain ⟨upSql, -, reads⟩ := bind_eq_ok.mp reads
  obtain ⟨downSql, -, reads⟩ := bind_eq_ok.mp reads
  obtain rfl := Except.ok.inj reads
  cases parts : migrationParts filename upEnding with
  | none =>
      rw [parseMigrationFilename, parts] at parsed
      cases parsed
  | some found =>
      rw [parseMigrationFilename, parts] at parsed
      obtain rfl := Except.ok.inj parsed
      obtain ⟨isVersion, rfl⟩ := eq_of_migrationParts parts
      rw [migrationParts_filename isVersion] at parts
      refine ⟨version, name, isVersion, rfl, ?_, rfl⟩
      intro empty
      rw [if_pos empty] at parts
      cases parts

theorem parseMigrationFilename_filename {version name : List Char} (isVersion : IsVersion version)
    (named : name ≠ []) (ending : List Char) :
    parseMigrationFilename (migrationFilename version name ending) ending = .ok (version, name) := by
  rw [parseMigrationFilename, migrationParts_filename isVersion, if_neg named]

/-- A migration depends on its own two files. -/
theorem readMigration_congr {later : Directory} {version name : List Char}
    (isVersion : IsVersion version) (named : name ≠ [])
    (same : ∀ ending, later.find? (migrationFilename version name ending) =
      directory.find? (migrationFilename version name ending)) :
    readMigration sha256 path later (migrationFilename version name upEnding) =
      readMigration sha256 path directory (migrationFilename version name upEnding) := by
  rw [readMigration, readMigration, parseMigrationFilename_filename isVersion named]
  simp only [Bind.bind, Except.bind, same]

end Reading

/-! ## Writing -/

theorem written_eq {sha256 : ByteArray → String} {path : DirectoryPath} {disk : DiskErrors}
    {now : UtcTime} {directory later : Directory} {name : List Char}
    {upSql downSql : List (List Char)} {migration : MigrationFiles}
    (writes : writeMigrationFiles sha256 path disk now directory name upSql downSql =
      .ok (migration, later)) :
    migrationVersionExists directory now.format = false ∧
      migration = writtenMigration sha256 now.format (sanitizeMigrationName name)
        (joinSql upSql) (joinSql downSql) ∧
      later = directory.write now.format (sanitizeMigrationName name)
        (joinSql upSql) (joinSql downSql) := by
  obtain ⟨⟨⟩, -, writes⟩ := bind_eq_ok.mp writes
  dsimp only at writes
  split at writes
  · cases writes
  · rename_i fresh
    obtain ⟨⟨⟩, -, writes⟩ := bind_eq_ok.mp writes
    obtain ⟨⟨⟩, -, writes⟩ := bind_eq_ok.mp writes
    obtain ⟨rfl, rfl⟩ := Prod.mk.inj (Except.ok.inj writes)
    exact ⟨Bool.eq_false_iff.mpr fresh, rfl, rfl⟩

/-- No file of the directory has the version. -/
theorem not_mem_of_fresh {directory : Directory} {version : List Char}
    (fresh : migrationVersionExists directory version = false) (rest : List Char) :
    version ++ '_' :: rest ∉ Table.keys directory := by
  intro member
  rw [migrationVersionExists, List.any_eq_false] at fresh
  apply fresh _ member
  rw [List.isPrefixOf_iff_prefix]
  exact ⟨rest, by simp⟩

theorem migrationFilename_eq (version name ending : List Char) :
    migrationFilename version name ending = version ++ '_' :: (name ++ ending) := by
  simp [migrationFilename]

theorem upFilename_ne_downFilename (version name : List Char) :
    migrationFilename version name upEnding ≠ migrationFilename version name downEnding := by
  intro same
  have endings := List.append_cancel_left same
  revert endings
  decide

section Write

variable {directory : Directory} {version name upContent downContent : List Char}

theorem find?_write_up :
    (directory.write version name upContent downContent).find?
      (migrationFilename version name upEnding) = some (.ok upContent) := by
  rw [Directory.write, Table.find?_put, if_neg (upFilename_ne_downFilename version name),
    Table.find?_put, if_pos rfl]

theorem find?_write_down :
    (directory.write version name upContent downContent).find?
      (migrationFilename version name downEnding) = some (.ok downContent) := by
  rw [Directory.write, Table.find?_put, if_pos rfl]

theorem find?_write_other {other rest : List Char} (isVersion : IsVersion version)
    (isOther : IsVersion other) (differs : other ≠ version) :
    (directory.write version name upContent downContent).find? (other ++ '_' :: rest) =
      directory.find? (other ++ '_' :: rest) := by
  have apart (ending : List Char) :
      other ++ '_' :: rest ≠ migrationFilename version name ending := by
    intro same
    rw [migrationFilename_eq] at same
    exact differs (version_of_same isOther isVersion same).1
  rw [Directory.write, Table.find?_put, if_neg (apart downEnding), Table.find?_put,
    if_neg (apart upEnding)]

theorem keys_put_of_not_mem {table : Directory} {key : List Char}
    (absent : key ∉ Table.keys table) (value : Except String (List Char)) :
    Table.keys (Table.put table key value) = Table.keys table ++ [key] := by
  rw [Table.put_of_not_mem absent]
  simp [Table.keys]

theorem upFilenames_write (fresh : migrationVersionExists directory version = false) :
    upFilenames (directory.write version name upContent downContent) =
      upFilenames directory ++ [migrationFilename version name upEnding] := by
  have absentUp := not_mem_of_fresh fresh (name ++ upEnding)
  have absentDown := not_mem_of_fresh fresh (name ++ downEnding)
  rw [← migrationFilename_eq] at absentUp absentDown
  have keysUp := keys_put_of_not_mem absentUp (.ok upContent)
  have stillAbsent : migrationFilename version name downEnding ∉
      Table.keys (Table.put directory (migrationFilename version name upEnding)
        (.ok upContent)) := by
    rw [keysUp]
    simp [absentDown, (upFilename_ne_downFilename version name).symm]
  have up : upEnding.isSuffixOf (migrationFilename version name upEnding) = true := by
    rw [List.isSuffixOf_iff_suffix]
    exact List.suffix_append _ _
  have down : upEnding.isSuffixOf (migrationFilename version name downEnding) = false := by
    rw [Bool.eq_false_iff, ne_eq, List.isSuffixOf_iff_suffix]
    intro ends
    have reversed := List.reverse_prefix.mpr ends
    rw [migrationFilename, List.reverse_append] at reversed
    have short : upEnding.reverse <+: downEnding.reverse :=
      List.prefix_of_prefix_length_le reversed (List.prefix_append _ _) (by decide)
    revert short
    decide
  rw [upFilenames, Directory.write, keys_put_of_not_mem stillAbsent, keysUp]
  simp [upFilenames, up, down]

end Write

/-! ## Written migrations are read back -/

section ReadsBack

variable {sha256 : ByteArray → String} {path : DirectoryPath} {directory : Directory}
  {version name upContent downContent : List Char}

theorem readMigration_written (isVersion : IsVersion version) (named : name ≠ []) :
    readMigration sha256 path (directory.write version name upContent downContent)
        (migrationFilename version name upEnding) =
      .ok (writtenMigration sha256 version name upContent downContent) := by
  rw [readMigration, parseMigrationFilename_filename isVersion named]
  simp only [Bind.bind, Except.bind, find?_write_up, find?_write_down]
  rfl

/-- The other migrations are read as before. -/
theorem readMigration_other (isVersion : IsVersion version)
    (fresh : migrationVersionExists directory version = false) {filename : List Char}
    (member : filename ∈ upFilenames directory) {migration : MigrationFiles}
    (reads : readMigration sha256 path directory filename = .ok migration) :
    readMigration sha256 path (directory.write version name upContent downContent) filename =
        .ok migration ∧
      migration.version ≠ String.ofList version := by
  obtain ⟨other, otherName, isOther, rfl, named, shown⟩ := filename_of_readMigration reads
  have differs : other ≠ version := by
    rintro rfl
    rw [migrationFilename_eq] at member
    exact not_mem_of_fresh fresh _ (List.mem_of_mem_filter member)
  constructor
  · rw [← reads]
    apply readMigration_congr isOther named
    intro ending
    rw [migrationFilename_eq]
    exact find?_write_other isVersion isOther differs
  · rw [shown]
    intro same
    exact differs (String.ofList_injective same)

/-- The order of the file names is one of the versions. -/
theorem version_le_of_reads {first second : List Char} {migration later : MigrationFiles}
    (reads : readMigration sha256 path directory first = .ok migration)
    (readsLater : readMigration sha256 path directory second = .ok later)
    (ordered : first ≤ second) : migration.version ≤ later.version := by
  obtain ⟨version, name, isVersion, rfl, -, shown⟩ := filename_of_readMigration reads
  obtain ⟨other, otherName, isOther, rfl, -, otherShown⟩ := filename_of_readMigration readsLater
  rw [migrationFilename, migrationFilename, List.append_assoc, List.append_assoc] at ordered
  rw [shown, otherShown, String.le_iff_toList_le, String.toList_ofList, String.toList_ofList]
  exact version_le_of_filename_le isVersion isOther ordered

/-- Discovered migrations are in the order of their versions. -/
theorem pairwise_version {migrations : List MigrationFiles}
    (discovered : discoverLocalMigrations sha256 path directory = .ok migrations) :
    migrations.Pairwise (·.version ≤ ·.version) := by
  have sorted : ((upFilenames directory).insertionSort (· ≤ ·)).Pairwise (· ≤ ·) :=
    List.pairwise_insertionSort (· ≤ ·) _
  rw [discoverLocalMigrations] at discovered
  generalize (upFilenames directory).insertionSort (· ≤ ·) = filenames at sorted discovered
  induction filenames generalizing migrations with
  | nil =>
      obtain rfl := Except.ok.inj discovered
      exact List.Pairwise.nil
  | cons filename filenames induction =>
      obtain ⟨below, sorted⟩ := List.pairwise_cons.mp sorted
      rw [List.mapM_cons] at discovered
      obtain ⟨migration, reads, discovered⟩ := bind_eq_ok.mp discovered
      obtain ⟨rest, readsRest, discovered⟩ := bind_eq_ok.mp discovered
      obtain rfl := Except.ok.inj discovered
      refine List.pairwise_cons.mpr ⟨?_, induction sorted readsRest⟩
      intro later member
      obtain ⟨other, inside, readsLater⟩ := turn_of_mapM readsRest member
      exact version_le_of_reads reads readsLater (below other inside)

/-- A file whose name has no migration name is not read. -/
theorem not_read_of_nameless (isVersion : IsVersion version) {filename : List Char}
    {migration : MigrationFiles} (nameless : filename = migrationFilename version [] upEnding) :
    readMigration sha256 path directory filename ≠ .ok migration := by
  intro reads
  obtain ⟨other, otherName, isOther, same, named, -⟩ := filename_of_readMigration reads
  have parts := migrationParts_filename isOther otherName upEnding
  rw [if_neg named, ← same, nameless, migrationParts_filename isVersion, if_pos rfl] at parts
  cases parts

/-- The migrations of the directory with one more, read in the new order. -/
theorem discover_write (isVersion : IsVersion version) (named : name ≠ [])
    (fresh : migrationVersionExists directory version = false) {previous : List MigrationFiles}
    (discovered : discoverLocalMigrations sha256 path directory = .ok previous) :
    ∃ migrations, discoverLocalMigrations sha256 path
        (directory.write version name upContent downContent) = .ok migrations ∧
      migrations.Perm (previous ++ [writtenMigration sha256 version name upContent downContent]) := by
  let written := writtenMigration sha256 version name upContent downContent
  let later := directory.write version name upContent downContent
  let migrationOf (filename : List Char) : MigrationFiles :=
    (readMigration sha256 path later filename).toOption.getD written
  have readsUp : readMigration sha256 path later (migrationFilename version name upEnding) =
      .ok written := readMigration_written isVersion named
  have ofUp : migrationOf (migrationFilename version name upEnding) = written := by
    simp only [migrationOf, readsUp]
    rfl
  have reads : ∀ filename ∈ upFilenames directory,
      readMigration sha256 path directory filename = .ok (migrationOf filename) ∧
        readMigration sha256 path later filename = .ok (migrationOf filename) := by
    intro filename member
    obtain ⟨migration, returned⟩ := ok_of_mapM discovered
      ((List.perm_insertionSort (· ≤ ·) _).mem_iff.mpr member)
    have still : readMigration sha256 path later filename = .ok migration :=
      (readMigration_other isVersion fresh member returned).1
    have same : migrationOf filename = migration := by
      simp only [migrationOf, later, still]
      rfl
    rw [same]
    exact ⟨returned, still⟩
  have before : previous = ((upFilenames directory).insertionSort (· ≤ ·)).map migrationOf := by
    have runs : discoverLocalMigrations sha256 path directory = .ok
        (((upFilenames directory).insertionSort (· ≤ ·)).map migrationOf) := by
      apply mapM_of_ok
      intro filename member
      exact (reads filename ((List.perm_insertionSort (· ≤ ·) _).mem_iff.mp member)).1
    exact Except.ok.inj (discovered.symm.trans runs)
  have filenames : upFilenames later = upFilenames directory ++
      [migrationFilename version name upEnding] := upFilenames_write fresh
  refine ⟨((upFilenames later).insertionSort (· ≤ ·)).map migrationOf, ?_, ?_⟩
  · apply mapM_of_ok
    intro filename member
    have inside := (List.perm_insertionSort (· ≤ ·) _).mem_iff.mp member
    rw [filenames, List.mem_append, List.mem_singleton] at inside
    rcases inside with old | rfl
    · exact (reads filename old).2
    · rw [ofUp]
      exact readsUp
  · have sorted : (((upFilenames later).insertionSort (· ≤ ·)).map migrationOf).Perm
        ((upFilenames later).map migrationOf) :=
      (List.perm_insertionSort (· ≤ ·) _).map migrationOf
    have own : ((upFilenames directory).map migrationOf).Perm previous := by
      rw [before]
      exact ((List.perm_insertionSort (· ≤ ·) _).map migrationOf).symm
    rw [filenames, List.map_append, List.map_singleton, ofUp] at sorted
    rw [filenames]
    exact sorted.trans (own.append_right _)

/-- Versions that were there are not the one that is written. -/
theorem version_not_mem (isVersion : IsVersion version)
    (fresh : migrationVersionExists directory version = false) {previous : List MigrationFiles}
    (discovered : discoverLocalMigrations sha256 path directory = .ok previous) :
    String.ofList version ∉ previous.map (·.version) := by
  intro member
  obtain ⟨migration, inside, same⟩ := List.mem_map.mp member
  obtain ⟨filename, listed, reads⟩ := turn_of_mapM discovered inside
  have stored := (List.perm_insertionSort (· ≤ ·) _).mem_iff.mp listed
  exact (@readMigration_other _ _ _ _ [] [] [] isVersion fresh _ stored _ reads).2 same

end ReadsBack

/-- A written migration is read back, next to the migrations that were there and in the
order of versions that are all different, exactly if its name has a letter or a digit
and the versions were all different before. -/
theorem readsBack_iff (sha256 : ByteArray → String) (path : DirectoryPath) (disk : DiskErrors)
    (now : UtcTime) (directory : Directory) (name : List Char) (upSql downSql : List (List Char))
    {previous : List MigrationFiles} {migration : MigrationFiles} {later : Directory}
    (discovered : discoverLocalMigrations sha256 path directory = .ok previous)
    (written : writeMigrationFiles sha256 path disk now directory name upSql downSql =
      .ok (migration, later)) :
    (∃ migrations, discoverLocalMigrations sha256 path later = .ok migrations ∧
      migrations.Perm (previous ++ [migration]) ∧
      migrations.Pairwise (·.version ≤ ·.version) ∧
      (migrations.map (·.version)).Nodup) ↔
      (∃ ch ∈ name, ch.isAlphanum = true) ∧ (previous.map (·.version)).Nodup := by
  obtain ⟨fresh, rfl, rfl⟩ := written_eq written
  have isVersion := format_isVersion now
  rw [← sanitizeMigrationName_ne_nil]
  constructor
  · rintro ⟨migrations, reads, same, -, distinct⟩
    constructor
    · intro nameless
      rw [nameless] at reads
      have listed : migrationFilename now.format [] upEnding ∈ upFilenames
          (directory.write now.format [] (joinSql upSql) (joinSql downSql)) := by
        rw [upFilenames_write fresh]
        simp
      obtain ⟨result, returned⟩ := ok_of_mapM reads
        ((List.perm_insertionSort (· ≤ ·) _).mem_iff.mpr listed)
      exact not_read_of_nameless isVersion rfl returned
    · have whole := (same.map (·.version)).nodup_iff.mp distinct
      rw [List.map_append] at whole
      exact whole.of_append_left
  · rintro ⟨named, distinct⟩
    obtain ⟨migrations, reads, same⟩ := @discover_write sha256 path directory now.format
      (sanitizeMigrationName name) (joinSql upSql) (joinSql downSql) isVersion named fresh
      previous discovered
    refine ⟨migrations, reads, same, pairwise_version reads, ?_⟩
    rw [(same.map (·.version)).nodup_iff, List.map_append, List.map_singleton]
    apply List.Nodup.append distinct (List.nodup_singleton _)
    intro version old new
    rw [List.mem_singleton.mp new] at old
    exact version_not_mem isVersion fresh discovered old

def shownPath : DirectoryPath where
  display := "migrations"
  join filename := "migrations/" ++ String.ofList filename

def newYear : UtcTime where
  year := 2026
  month := 1
  day := 1
  hour := 0
  minute := 0
  second := 0

theorem readsBack_orders : ∃ migrations,
    discoverLocalMigrations (fun _ => "") shownPath
      (Directory.write [] newYear.format "create_orders".toList "SELECT 1;
".toList
        "SELECT 2;
".toList) = .ok migrations ∧
    migrations.Perm ([] ++ [writtenMigration (fun _ => "") newYear.format
      "create_orders".toList "SELECT 1;
".toList "SELECT 2;
".toList]) ∧
    migrations.Pairwise (·.version ≤ ·.version) ∧ (migrations.map (·.version)).Nodup := by
  apply (readsBack_iff (fun _ => "") shownPath ⟨none, fun _ _ => none⟩ newYear []
    "Create orders!".toList ["SELECT 1;".toList] ["SELECT 2;".toList] rfl rfl).mpr
  constructor
  · exact ⟨'C', by decide, by decide⟩
  · exact List.nodup_nil

/-- The files of a name without letters and digits stop every later command. -/
theorem nameless_not_read_back : ∃ migration later,
    discoverLocalMigrations (fun _ => "") shownPath [] = .ok [] ∧
    writeMigrationFiles (fun _ => "") shownPath ⟨none, fun _ _ => none⟩ newYear []
      "!!!".toList ["SELECT 1;".toList] [] = .ok (migration, later) ∧
    discoverLocalMigrations (fun _ => "") shownPath later =
      .error (.ioError "invalid migration filename '20260101_000000_.up.sql'") := by
  refine ⟨_, _, rfl, rfl, ?_⟩
  rfl

end Marreta.Migrations
