import Marreta.Foundation.Table
import Marreta.Runtime.Environment

namespace Marreta

open Foundation

/-! What names stand for in an environment. -/

namespace ValueMap

theorem get?_insert (entries : ValueMap) (key name : String) (value : Value) :
    (entries.insert key value).get? name = if name = key then some value else entries.get? name := by
  induction entries with
  | nil =>
      unfold insert get?
      rw [Table.lookup_cons]
  | cons entry rest ih =>
      obtain ⟨first, old⟩ := entry
      unfold get? at ih ⊢
      rw [insert]
      by_cases here : first = key
      · rw [if_pos here, Table.lookup_cons, Table.lookup_cons]
        subst here
        by_cases same : name = first
        · simp [same]
        · simp [same]
      · rw [if_neg here, Table.lookup_cons, ih, Table.lookup_cons]
        by_cases same : name = first
        · subst same
          simp [here]
        · simp [same]

/-- A key that is there keeps its place. -/
theorem keys_insert {entries : ValueMap} {key : String} {old : Value}
    (found : entries.get? key = some old) (value : Value) :
    (entries.insert key value).map Prod.fst = entries.map Prod.fst := by
  induction entries with
  | nil => cases found
  | cons entry rest ih =>
      obtain ⟨first, before⟩ := entry
      rw [insert]
      split
      · rfl
      · rename_i differs
        unfold get? at found ih
        rw [Table.lookup_cons, if_neg fun same => differs same.symm] at found
        rw [List.map_cons, List.map_cons, ih found]

theorem insert_self {entries : ValueMap} {key : String} {value : Value}
    (found : entries.get? key = some value) : entries.insert key value = entries := by
  induction entries with
  | nil => cases found
  | cons entry rest ih =>
      obtain ⟨first, before⟩ := entry
      unfold get? at found ih
      rw [Table.lookup_cons] at found
      rw [insert]
      split
      · rename_i same
        rw [if_pos same.symm] at found
        have equal : before = value := Option.some.inj found
        rw [equal]
      · rename_i differs
        rw [if_neg fun same => differs same.symm] at found
        rw [ih found]

end ValueMap

/-- Writing entries one after another: the last one of a name counts. -/
def ValueMap.insertAll (entries : ValueMap) (added : List (String × Value)) : ValueMap :=
  added.foldl (fun entries entry => entries.insert entry.1 entry.2) entries

namespace ValueMap

theorem get?_insertAll (entries : ValueMap) (added : List (String × Value)) (name : String) :
    (entries.insertAll added).get? name = (added.reverse.lookup name).or (entries.get? name) := by
  induction added generalizing entries with
  | nil => rfl
  | cons entry rest ih =>
      rw [insertAll, List.foldl_cons, ← insertAll, ih, get?_insert, List.reverse_cons,
        List.lookup_append, Table.lookup_cons, Option.or_assoc]
      by_cases same : name = entry.1
      · simp [same]
      · simp [same]

/-- Without repeated names the order does not matter. -/
theorem lookup_reverse {entries : ValueMap} (distinct : (Table.keys entries).Nodup)
    (name : String) : List.lookup name entries.reverse = entries.get? name := by
  cases found : entries.get? name with
  | some value =>
      apply Table.lookup_of_mem
      · rw [Table.keys, List.map_reverse]
        exact List.pairwise_reverse.mpr (distinct.imp Ne.symm)
      · exact List.mem_reverse.mpr (Table.mem_of_lookup found)
  | none =>
      by_contra present
      obtain ⟨value, same⟩ := Option.ne_none_iff_exists'.mp present
      have member := List.mem_reverse.mp (Table.mem_of_lookup same)
      have there := Table.lookup_of_mem distinct member
      rw [get?] at found
      simp [found] at there

end ValueMap

namespace Environment

/-! ## Lookups -/

theorem get_eq (env : Environment) (name : String) :
    env.get name = (lookupScopes env.scopes name).or (env.base.get? name) := by
  unfold get
  cases lookupScopes env.scopes name <;> rfl

theorem lookupScopes_cons (scope : ValueMap) (scopes : List ValueMap) (name : String) :
    lookupScopes (scope :: scopes) name = (scope.get? name).or (lookupScopes scopes name) := by
  rw [lookupScopes, List.findSome?_cons, ← lookupScopes]
  cases scope.get? name <;> rfl

theorem lookupScopes_append (inner outer : List ValueMap) (name : String) :
    lookupScopes (inner ++ outer) name =
      (lookupScopes inner name).or (lookupScopes outer name) := by
  unfold lookupScopes
  rw [List.findSome?_append]

theorem get_set (env : Environment) (name other : String) (value : Value) :
    (env.set name value).get other = if other = name then some value else env.get other := by
  simp only [get, set, scopes, lookupScopes, List.findSome?_cons, ValueMap.get?_insert]
  by_cases same : other = name
  · simp [same]
  · simp [same]

/-! ## Assignments -/

theorem updateScopes_none {name : String} {value : Value} {scopes : List ValueMap} :
    updateScopes name value scopes = none ↔ lookupScopes scopes name = none := by
  induction scopes with
  | nil => simp [updateScopes, lookupScopes]
  | cons scope scopes ih =>
      rw [updateScopes, lookupScopes_cons]
      cases found : scope.get? name with
      | some old => simp
      | none => simp [ih]

/-- An assignment that reaches a scope changes one name. -/
theorem lookup_updateScopes {name : String} {value : Value} {scopes updated : List ValueMap}
    {height : Nat} (done : updateScopes name value scopes = some (updated, height)) :
    updated.length = scopes.length ∧
      ∀ other, lookupScopes updated other =
        if other = name then some value else lookupScopes scopes other := by
  induction scopes generalizing updated height with
  | nil => simp [updateScopes] at done
  | cons scope scopes ih =>
      rw [updateScopes] at done
      split at done
      · obtain ⟨rfl, rfl⟩ := Prod.mk.inj (Option.some.inj done)
        refine ⟨rfl, fun other => ?_⟩
        rw [lookupScopes_cons, lookupScopes_cons, ValueMap.get?_insert]
        by_cases same : other = name
        · simp [same]
        · simp [same]
      · rename_i unbound
        obtain ⟨⟨inner, innerHeight⟩, innerDone, same⟩ := Option.map_eq_some_iff.mp done
        obtain ⟨rfl, rfl⟩ := Prod.mk.inj same
        obtain ⟨length, lookups⟩ := ih innerDone
        refine ⟨by simp [length], fun other => ?_⟩
        rw [lookupScopes_cons, lookupScopes_cons, lookups]
        by_cases same : other = name
        · have absent : scope.get? name = none := by simpa using unbound
          simp [same, absent]
        · simp [same]

theorem updateScopes_append (name : String) (value : Value) (inner outer : List ValueMap) :
    updateScopes name value (inner ++ outer) =
      match updateScopes name value inner with
      | some (updated, height) => some (updated ++ outer, height + outer.length)
      | none => (updateScopes name value outer).map fun (updated, height) =>
          (inner ++ updated, height) := by
  induction inner with
  | nil =>
      rw [List.nil_append]
      cases updateScopes name value outer <;> simp [updateScopes]
  | cons scope inner ih =>
      rw [List.cons_append, updateScopes, updateScopes]
      by_cases bound : (scope.get? name).isSome
      · simp [bound]
      · rw [if_neg bound, if_neg bound, ih]
        cases updateScopes name value inner with
        | some updated => rfl
        | none => cases updateScopes name value outer <;> rfl

/-! ## Local variables -/

/-- The entries of a scope that a collection does not have yet. -/
def collectScope (seen scope : ValueMap) : ValueMap :=
  scope.foldl (fun seen entry => if (seen.get? entry.1).isSome then seen else seen ++ [entry]) seen

theorem localVariables_eq (env : Environment) :
    env.localVariables = env.scopes.foldl collectScope [] := rfl

theorem get?_collectScope (seen scope : ValueMap) (name : String) :
    (collectScope seen scope).get? name = (seen.get? name).or (scope.get? name) := by
  induction scope generalizing seen with
  | nil => simp [collectScope, ValueMap.get?]
  | cons entry scope ih =>
      rw [collectScope, List.foldl_cons, ← collectScope, ih]
      have head : ValueMap.get? (entry :: scope) name =
          if name = entry.1 then some entry.2 else ValueMap.get? scope name :=
        Table.lookup_cons name entry scope
      rw [head]
      by_cases present : (seen.get? entry.1).isSome
      · rw [if_pos present]
        by_cases same : name = entry.1
        · obtain ⟨value, found⟩ := Option.isSome_iff_exists.mp present
          simp [same, found]
        · simp [same]
      · have absent : seen.get? entry.1 = none := by simpa using present
        have added : (seen ++ [entry]).get? name =
            (seen.get? name).or (if name = entry.1 then some entry.2 else none) := by
          rw [ValueMap.get?, List.lookup_append, Table.lookup_cons]
          rfl
        rw [if_neg present, added]
        by_cases same : name = entry.1
        · simp [same, absent]
        · simp [same]

theorem nodup_collectScope {seen scope : ValueMap} (distinct : (Table.keys seen).Nodup) :
    (Table.keys (collectScope seen scope)).Nodup := by
  induction scope generalizing seen with
  | nil => exact distinct
  | cons entry scope ih =>
      rw [collectScope, List.foldl_cons, ← collectScope]
      apply ih
      split
      · exact distinct
      · rename_i absent
        rw [Table.keys, List.map_append, List.nodup_append]
        refine ⟨distinct, by simp, ?_⟩
        rintro key inside _ single rfl
        obtain rfl := List.mem_singleton.mp single
        exact absent (Table.lookup_isSome.mpr inside)

/-- The local variables are those of the scopes. -/
theorem get?_localVariables (env : Environment) (name : String) :
    env.localVariables.get? name = lookupScopes env.scopes name := by
  have run : ∀ (scopes : List ValueMap) (seen : ValueMap),
      (scopes.foldl collectScope seen).get? name =
        (seen.get? name).or (lookupScopes scopes name) := by
    intro scopes
    induction scopes with
    | nil => simp [lookupScopes]
    | cons scope scopes ih =>
        intro seen
        rw [List.foldl_cons, ih, get?_collectScope, lookupScopes_cons, Option.or_assoc]
  rw [localVariables_eq, run]
  rfl

theorem nodup_localVariables (env : Environment) : (Table.keys env.localVariables).Nodup := by
  have run : ∀ (scopes : List ValueMap) (seen : ValueMap), (Table.keys seen).Nodup →
      (Table.keys (scopes.foldl collectScope seen)).Nodup := by
    intro scopes
    induction scopes with
    | nil => exact fun _ distinct => distinct
    | cons scope scopes ih => exact fun _ distinct => ih _ (nodup_collectScope distinct)
  exact run env.scopes [] List.nodup_nil

/-! ## Bodies with a scope of their own -/

theorem setAll_eq (env : Environment) (bindings : List (String × Value)) :
    env.setAll bindings = { env with scope := env.scope.insertAll bindings } := by
  induction bindings generalizing env with
  | nil => rfl
  | cons binding rest ih =>
      rw [setAll, List.foldl_cons, ← setAll, ih]
      rfl

theorem scopes_enter (env : Environment) (bindings : List (String × Value)) :
    (env.pushScope.setAll bindings).scopes = ValueMap.insertAll [] bindings :: env.scopes := by
  rw [setAll_eq]
  rfl

theorem base_enter (env : Environment) (bindings : List (String × Value)) :
    (env.pushScope.setAll bindings).base = env.base := by
  rw [setAll_eq]
  rfl

/-- A scope with the local variables of another environment. -/
theorem get?_insertAll_localVariables (env : Environment) (name : String) :
    (ValueMap.insertAll [] env.localVariables).get? name = lookupScopes env.scopes name := by
  rw [ValueMap.get?_insertAll, ValueMap.lookup_reverse env.nodup_localVariables,
    get?_localVariables]
  cases lookupScopes env.scopes name <;> rfl

end Environment
end Marreta
