import Marreta.Config.EnvFile

namespace Marreta

open Foundation Text

/-! Feature flags: switches that the variables with a common prefix turn on and off.

The variables of the process are merged over the ones of the file, key by key, and then
visited in the order of a hash map. -/

namespace Config

/-! ## Names -/

def featureEnvPrefix : List Char := "MARRETA_FEATURE_".toList

def featureEnvNameHelp : List Char :=
  ("after MARRETA_FEATURE_, use uppercase letters, digits, and single underscores; " ++
    "start with a letter; " ++
    "do not use double underscores or trailing underscores").toList

def isFeatureChar (ch : Char) : Bool :=
  ch.isLower || ch.isDigit

def isValidFeatureName (name : List Char) : Bool :=
  match name.splitOn '_' with
  | [] => false
  | first :: parts =>
      (first.head?.any Char.isLower && first.all isFeatureChar) &&
        parts.all fun part => !part.isEmpty && part.all isFeatureChar

def normalizeEnvFeatureName (envKey : List Char) : Option (List Char) :=
  if featureEnvPrefix <+: envKey then
    some ((envKey.drop featureEnvPrefix.length).map Char.toLower)
  else none

def envKeyForFeatureName (name : List Char) : List Char :=
  featureEnvPrefix ++ name.map Char.toUpper

/-- The switch that a text stands for, if for one. -/
def parseFeatureBool (raw : List Char) : Option Bool :=
  let word := (trim raw).map Char.toLower
  if word ∈ ["true".toList, "1".toList, "yes".toList, "on".toList, "enabled".toList] then
    some true
  else if word ∈ ["false".toList, "0".toList, "no".toList, "off".toList, "disabled".toList] then
    some false
  else none

/-! ## Loading -/

abbrev FeatureFlags := Table (List Char) Bool

def FeatureFlags.enabled (flags : FeatureFlags) (name : List Char) : Bool :=
  (Table.find? flags name).getD false

/-- What one variable does to the flags and the errors found so far. -/
def loadFeatureFlag (loaded : FeatureFlags × List (List Char))
    (entry : List Char × List Char) : FeatureFlags × List (List Char) :=
  let (flags, errors) := loaded
  let (key, value) := entry
  match normalizeEnvFeatureName key with
  | none => (flags, errors)
  | some name =>
      if isValidFeatureName name then
        match parseFeatureBool value with
        | some enabled => (Table.put flags name enabled, errors)
        | none =>
            (flags, errors ++
              [key ++ " has invalid boolean value '".toList ++ value ++ "'".toList])
      else
        (flags, errors ++ ["invalid ".toList ++ key ++ ": ".toList ++ featureEnvNameHelp])

/-- The flags of some variables, given in the order in which they are visited. -/
def loadFeatureFlags (vars : List (List Char × List Char)) :
    FeatureFlags × List (List Char) :=
  vars.foldl loadFeatureFlag ([], [])

/-- The variables of a file, overridden by the ones of the process. -/
def mergedVars (content : Option (List Char)) (process : EnvVars) : EnvVars :=
  (readEnvFilePath content).putAll process

/-! ## What the variables say -/

/-- The value of the variable of a flag: the one of the process before the one of the
file. -/
def flagVariable (content : Option (List Char)) (process : EnvVars) (name : List Char) :
    Option (List Char) :=
  (process.find? (envKeyForFeatureName name)).or
    ((readEnvFilePath content).find? (envKeyForFeatureName name))

/-- A flag is off when its variable is missing.  A variable without a meaning turns
nothing on. -/
def configuredFlag (content : Option (List Char)) (process : EnvVars) (name : List Char) : Bool :=
  ((flagVariable content process name).bind parseFeatureBool).getD false

/-- The switch that a variable gives a flag. -/
def givenBy (name : List Char) (entry : List Char × List Char) : Option Bool :=
  if normalizeEnvFeatureName entry.1 = some name then parseFeatureBool entry.2 else none

theorem loadFeatureFlag_enabled (loaded : FeatureFlags × List (List Char))
    (entry : List Char × List Char) {name : List Char} (valid : isValidFeatureName name = true) :
    (loadFeatureFlag loaded entry).1.enabled name =
      (givenBy name entry).getD (loaded.1.enabled name) := by
  obtain ⟨flags, errors⟩ := loaded
  obtain ⟨key, value⟩ := entry
  simp only [loadFeatureFlag, givenBy]
  cases named : normalizeEnvFeatureName key with
  | none => rfl
  | some folded =>
      by_cases same : folded = name
      · subst same
        simp only [valid, if_true]
        cases parseFeatureBool value with
        | none => rfl
        | some flag =>
            rw [FeatureFlags.enabled, Table.find?_put, if_pos rfl]
            rfl
      · rw [if_neg (fun other => same (Option.some.inj other))]
        dsimp only
        split
        · split
          · rw [FeatureFlags.enabled, Table.find?_put, if_neg (Ne.symm same)]
            rfl
          · rfl
        · rfl

/-- The last variable that gives a flag decides. -/
theorem enabled_foldl (vars : List (List Char × List Char)) {name : List Char}
    (valid : isValidFeatureName name = true) (loaded : FeatureFlags × List (List Char)) :
    (vars.foldl loadFeatureFlag loaded).1.enabled name =
      ((vars.filterMap (givenBy name)).getLast?).getD (loaded.1.enabled name) := by
  induction vars generalizing loaded with
  | nil => rfl
  | cons entry vars induction =>
      rw [List.foldl_cons, induction, loadFeatureFlag_enabled _ _ valid, List.filterMap_cons]
      cases givenBy name entry with
      | none => rfl
      | some flag =>
          dsimp only
          rw [List.getLast?_cons, Option.getD_some, Option.getD_some]

theorem enabled_loadFeatureFlags (vars : List (List Char × List Char)) {name : List Char}
    (valid : isValidFeatureName name = true) :
    (loadFeatureFlags vars).1.enabled name =
      ((vars.filterMap (givenBy name)).getLast?).getD false :=
  enabled_foldl vars valid ([], [])

theorem isFeatureChar_of_mem_split {name : List Char} (valid : isValidFeatureName name = true) :
    ∀ part ∈ name.splitOn '_', ∀ ch ∈ part, isFeatureChar ch = true := by
  rw [isValidFeatureName] at valid
  split at valid
  · cases valid
  · rename_i first parts split
    rw [Bool.and_eq_true, Bool.and_eq_true, List.all_eq_true, List.all_eq_true] at valid
    intro part member
    rw [split] at member
    rcases List.mem_cons.mp member with rfl | member
    · exact valid.1.2
    · have known := valid.2 part member
      rw [Bool.and_eq_true, List.all_eq_true] at known
      exact known.2

theorem isFeatureChar_of_mem {name : List Char} (valid : isValidFeatureName name = true) :
    ∀ ch ∈ name, ch = '_' ∨ isFeatureChar ch = true := by
  intro ch member
  rw [← @List.intercalate_splitOn _ name _ _ '_'] at member
  rcases mem_of_mem_intercalate member with separator | ⟨part, among, inside⟩
  · exact .inl (List.mem_singleton.mp separator)
  · exact .inr (isFeatureChar_of_mem_split valid part among ch inside)

theorem toLower_toUpper {ch : Char} (plain : ch = '_' ∨ isFeatureChar ch = true) :
    ch.toUpper.toLower = ch := by
  have table : ∀ code < 128, Char.ofNat code = '_' ∨ isFeatureChar (Char.ofNat code) = true →
      (Char.ofNat code).toUpper.toLower = Char.ofNat code := by decide
  have small : ch.toNat < 128 := by
    rcases plain with rfl | feature
    · decide
    · rw [isFeatureChar, Bool.or_eq_true, Char.isLower, Char.isDigit, Bool.and_eq_true,
        Bool.and_eq_true, decide_eq_true_iff, decide_eq_true_iff, decide_eq_true_iff,
        decide_eq_true_iff] at feature
      rcases feature with letter | digit
      · exact Nat.lt_of_le_of_lt (UInt32.le_iff_toNat_le.mp letter.2) (by decide)
      · exact Nat.lt_of_le_of_lt (UInt32.le_iff_toNat_le.mp digit.2) (by decide)
  have known := table ch.toNat small
  rw [Char.ofNat_toNat] at known
  exact known plain

theorem normalize_envKeyForFeatureName {name : List Char} (valid : isValidFeatureName name = true) :
    normalizeEnvFeatureName (envKeyForFeatureName name) = some name := by
  have folded : (name.map Char.toUpper).map Char.toLower = name := by
    rw [List.map_map]
    conv => rhs; rw [← List.map_id name]
    apply List.map_congr_left
    intro ch member
    exact toLower_toUpper (isFeatureChar_of_mem valid ch member)
  rw [normalizeEnvFeatureName, envKeyForFeatureName, if_pos (List.prefix_append _ _),
    List.drop_left, folded]

/-! ## Both sources -/

theorem find?_mergedVars (content : Option (List Char)) {process : EnvVars}
    (distinct : process.keys.Nodup) (key : List Char) :
    (mergedVars content process).find? key =
      (process.find? key).or ((readEnvFilePath content).find? key) := by
  cases found : process.find? key with
  | none =>
      have absent : key ∉ process.keys := by
        rw [← Table.lookup_isSome]
        change ¬ (process.find? key).isSome = true
        rw [found]
        exact Bool.false_ne_true
      exact Table.lookup_putAll_of_not_mem absent
  | some value =>
      apply Table.lookup_putAll_of_mem (Table.mem_of_lookup found)
      intro other member
      have same := Table.lookup_of_mem distinct member
      exact Option.some.inj (same.symm.trans found)

/-- The variable of a flag is among the merged ones, and gives what is configured. -/
theorem mem_mergedVars {content : Option (List Char)} {process : EnvVars}
    (distinct : process.keys.Nodup) {name value : List Char}
    (found : flagVariable content process name = some value) :
    (envKeyForFeatureName name, value) ∈ mergedVars content process := by
  apply Table.mem_of_lookup
  rw [flagVariable, ← find?_mergedVars content distinct] at found
  exact found

/-- A flag is what its own variable says, in whatever order the variables are visited,
when no variable under another spelling of its name says otherwise. -/
theorem flag_faithful_iff (content : Option (List Char)) {process : EnvVars}
    (distinct : process.keys.Nodup) {name : List Char} (valid : isValidFeatureName name = true) :
    (∀ order, order.Perm (mergedVars content process) →
      (loadFeatureFlags order).1.enabled name = configuredFlag content process name) ↔
      ∀ entry ∈ mergedVars content process, ∀ flag ∈ givenBy name entry,
        flag = configuredFlag content process name := by
  constructor
  · intro same entry member flag given
    -- the variable is visited last
    have order : ((mergedVars content process).erase entry ++ [entry]).Perm
        (mergedVars content process) := by
      apply List.Perm.trans List.perm_append_comm
      exact (List.perm_cons_erase member).symm
    rw [← same _ order, enabled_loadFeatureFlags _ valid, List.filterMap_append]
    simp [Option.mem_def.mp given]
  · intro agree order among
    rw [enabled_loadFeatureFlags _ valid]
    cases last : (order.filterMap (givenBy name)).getLast? with
    | some flag =>
        obtain ⟨entry, member, given⟩ := List.mem_filterMap.mp (List.mem_of_getLast? last)
        exact agree entry (among.mem_iff.mp member) flag given
    | none =>
        have empty := List.getLast?_eq_none_iff.mp last
        rw [List.filterMap_eq_nil_iff] at empty
        rw [Option.getD_none, configuredFlag]
        cases found : flagVariable content process name with
        | none => rfl
        | some value =>
            have member := among.mem_iff.mpr (mem_mergedVars distinct found)
            have silent := empty _ member
            rw [givenBy, if_pos (normalize_envKeyForFeatureName valid)] at silent
            rw [Option.bind_some, silent]
            rfl

/-- What a file says is read back, and flags follow their variables, just when no mark of
a comment stands in a value and no other spelling of a flag disagrees. -/
theorem environment_faithful_iff {file : List QuotedLine} (plain : ∀ line ∈ file, line.Plain)
    (keys : (file.map (·.key)).Nodup) (content : Option (List Char)) {process : EnvVars}
    (names : process.keys.Nodup) {name : List Char} (valid : isValidFeatureName name = true) :
    ((∀ key, (readEnvFilePath (some (quotedFile file))).find? key =
        Table.find? (file.map QuotedLine.pair) key) ↔
      ∀ line ∈ file, '\n' ∉ line.key ∧ '#' ∉ line.value) ∧
    ((∀ order, order.Perm (mergedVars content process) →
        (loadFeatureFlags order).1.enabled name = configuredFlag content process name) ↔
      ∀ entry ∈ mergedVars content process, ∀ flag ∈ givenBy name entry,
        flag = configuredFlag content process name) :=
  ⟨reads_back_iff plain keys, flag_faithful_iff content names valid⟩

/-- A secret with the mark of a comment. -/
def markedLine : QuotedLine where
  key := "SECRET".toList
  value := "a#b".toList
  comment := none

theorem markedLine_plain : markedLine.Plain where
  key := by decide
  starts := by decide
  ends := by decide
  value := by decide
  blanks := nofun
  ending := by decide

theorem environment_faithful_beta :
    ((∀ key, (readEnvFilePath (some (quotedFile [markedLine]))).find? key =
        Table.find? ([markedLine].map QuotedLine.pair) key) ↔
      ∀ line ∈ [markedLine], '\n' ∉ line.key ∧ '#' ∉ line.value) ∧
    ((∀ order, order.Perm (mergedVars none [("MARRETA_FEATURE_BETA".toList, "on".toList)]) →
        (loadFeatureFlags order).1.enabled "beta".toList =
          configuredFlag none [("MARRETA_FEATURE_BETA".toList, "on".toList)] "beta".toList) ↔
      ∀ entry ∈ mergedVars none [("MARRETA_FEATURE_BETA".toList, "on".toList)],
        ∀ flag ∈ givenBy "beta".toList entry,
          flag = configuredFlag none [("MARRETA_FEATURE_BETA".toList, "on".toList)]
            "beta".toList) := by
  apply environment_faithful_iff
  · intro line member
    obtain rfl := List.mem_singleton.mp member
    exact markedLine_plain
  · decide
  · decide
  · decide

/-- A flag under two spellings: off for the process, on in the file. -/
def spelledFile : List Char := "MARRETA_FEATURE_Beta=true\n".toList

def spelledProcess : EnvVars := [("MARRETA_FEATURE_BETA".toList, "false".toList)]

/-- A secret is cut, and the order of visits decides a flag. -/
theorem environment_unfaithful :
    (markedLine.Plain ∧ (readEnvFilePath (some (quotedFile [markedLine]))).find? "SECRET".toList =
      some "\"a".toList ∧ markedLine.value ≠ "\"a".toList) ∧
    (∃ order, order.Perm (mergedVars (some spelledFile) spelledProcess) ∧
      (loadFeatureFlags order).1.enabled "beta".toList = true) ∧
    (∃ order, order.Perm (mergedVars (some spelledFile) spelledProcess) ∧
      (loadFeatureFlags order).1.enabled "beta".toList = false) ∧
    configuredFlag (some spelledFile) spelledProcess "beta".toList = false := by
  have cut : (readEnvFilePath (some (quotedFile [markedLine]))).find? "SECRET".toList =
      some "\"a".toList := by decide +kernel
  refine ⟨⟨markedLine_plain, cut, by decide⟩, ?_, ?_, by decide +kernel⟩
  · exact ⟨_, List.reverse_perm _, by decide +kernel⟩
  · exact ⟨_, List.Perm.refl _, by decide +kernel⟩

end Config

end Marreta
