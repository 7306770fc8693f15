import Mathlib

namespace Foundation

/-! Tables: lists of entries in which the first entry of a key counts. -/

abbrev Table (κ α : Type) := List (κ × α)

namespace Table

variable {κ α : Type} [DecidableEq κ]

/-- Replace the entry of a key in place, or append one. -/
def put (table : Table κ α) (key : κ) (value : α) : Table κ α :=
  match table with
  | [] => [(key, value)]
  | (name, old) :: rest =>
      if name = key then (name, value) :: rest
      else (name, old) :: put rest key value

def putAll (table : Table κ α) (entries : List (κ × α)) : Table κ α :=
  entries.foldl (fun table entry => table.put entry.1 entry.2) table

def keys (table : Table κ α) : List κ :=
  table.map Prod.fst

omit [DecidableEq κ] in
theorem mem_keys_cons {key : κ} {entry : κ × α} {rest : Table κ α} :
    key ∈ keys (entry :: rest) ↔ key = entry.1 ∨ key ∈ keys rest :=
  List.mem_cons

/-! ## Lookup -/

theorem lookup_cons (key : κ) (entry : κ × α) (rest : Table κ α) :
    List.lookup key (entry :: rest) = if key = entry.1 then some entry.2 else rest.lookup key := by
  obtain ⟨name, value⟩ := entry
  by_cases same : key = name
  · simp [same]
  · have differs : (key == name) = false := by simp [same]
    rw [List.lookup_cons, differs, if_neg same]

theorem lookup_put (table : Table κ α) (key name : κ) (value : α) :
    (table.put key value).lookup name = if name = key then some value else table.lookup name := by
  induction table with
  | nil => rw [put, lookup_cons]
  | cons entry rest ih =>
      obtain ⟨first, old⟩ := entry
      rw [put]
      by_cases here : first = key
      · subst here
        rw [if_pos rfl, lookup_cons, lookup_cons]
        by_cases same : name = first
        · simp [same]
        · simp [same]
      · rw [if_neg here, lookup_cons, ih, lookup_cons]
        by_cases same : name = first
        · subst same
          simp [here]
        · simp [same]

/-- The lookup of a key, for types whose equality test is not the decision. -/
def find? (table : Table κ α) (key : κ) : Option α :=
  table.lookup key

theorem find?_put (table : Table κ α) (key name : κ) (value : α) :
    (table.put key value).find? name = if name = key then some value else table.find? name :=
  lookup_put table key name value

theorem mem_of_lookup {table : Table κ α} {key : κ} {value : α}
    (found : table.lookup key = some value) : (key, value) ∈ table := by
  induction table with
  | nil => cases found
  | cons entry rest ih =>
      rw [lookup_cons] at found
      split at found
      · rename_i same
        obtain rfl := Option.some.inj found
        rw [same]
        exact List.mem_cons_self
      · exact List.mem_cons_of_mem _ (ih found)

theorem lookup_isSome {table : Table κ α} {key : κ} :
    (table.lookup key).isSome = true ↔ key ∈ table.keys := by
  induction table with
  | nil => simp [keys]
  | cons entry rest ih =>
      rw [lookup_cons, mem_keys_cons, ← ih]
      split
      · rename_i same
        simp [same]
      · rename_i differs
        simp [differs]

/-! ## Several entries at once -/

theorem putAll_append (table : Table κ α) (first second : List (κ × α)) :
    table.putAll (first ++ second) = (table.putAll first).putAll second :=
  List.foldl_append

theorem putAll_cons (table : Table κ α) (entry : κ × α) (rest : List (κ × α)) :
    table.putAll (entry :: rest) = (table.put entry.1 entry.2).putAll rest := rfl

theorem put_of_not_mem {table : Table κ α} {key : κ} (absent : key ∉ keys table) (value : α) :
    table.put key value = table ++ [(key, value)] := by
  induction table with
  | nil => rfl
  | cons entry rest ih =>
      rw [mem_keys_cons, not_or] at absent
      rw [put, if_neg fun same => absent.1 same.symm, ih absent.2, List.cons_append]

theorem put_put (table : Table κ α) (key : κ) (first second : α) :
    (table.put key first).put key second = table.put key second := by
  induction table with
  | nil => simp [put]
  | cons entry rest ih =>
      by_cases same : entry.1 = key
      · simp [put, same]
      · simp [put, same, ih]

theorem put_of_lookup {table : Table κ α} {key : κ} {value : α}
    (found : table.lookup key = some value) : table.put key value = table := by
  induction table with
  | nil => cases found
  | cons entry rest ih =>
      obtain ⟨name, old⟩ := entry
      rw [lookup_cons] at found
      rw [put]
      by_cases same : name = key
      · rw [if_pos same.symm] at found
        obtain rfl : old = value := Option.some.inj found
        rw [if_pos same]
      · rw [if_neg (Ne.symm same)] at found
        rw [if_neg same, ih found]

theorem mem_put {table : Table κ α} {key : κ} {value : α} {entry : κ × α}
    (member : entry ∈ table.put key value) : entry = (key, value) ∨ entry ∈ table := by
  induction table with
  | nil => exact .inl (List.mem_singleton.mp member)
  | cons first rest ih =>
      rw [put] at member
      split at member
      · rename_i same
        rcases List.mem_cons.mp member with rfl | member
        · exact .inl (by rw [same])
        · exact .inr (List.mem_cons_of_mem _ member)
      · rcases List.mem_cons.mp member with rfl | member
        · exact .inr List.mem_cons_self
        · exact (ih member).imp_right (List.mem_cons_of_mem _)

/-- Removing a key that was put into a table without it. -/
theorem filter_put {table : Table κ α} {key : κ} (absent : key ∉ keys table) (value : α) :
    (table.put key value).filter (fun entry => entry.1 ≠ key) = table := by
  rw [put_of_not_mem absent, List.filter_append]
  have others : table.filter (fun entry => entry.1 ≠ key) = table := by
    rw [List.filter_eq_self]
    intro entry member
    rw [decide_eq_true_eq]
    rintro rfl
    exact absent (List.mem_map_of_mem member)
  rw [others]
  simp

/-- New entries with distinct keys are added at the end. -/
theorem putAll_of_nodup {table entries : Table κ α}
    (distinct : (keys (table ++ entries)).Nodup) : table.putAll entries = table ++ entries := by
  induction entries generalizing table with
  | nil => rw [List.append_nil]; rfl
  | cons entry rest ih =>
      have absent : entry.1 ∉ keys table := by
        rw [keys, List.map_append, List.map_cons] at distinct
        exact fun member => (List.nodup_append.mp distinct).2.2 _ member _ List.mem_cons_self rfl
      rw [putAll_cons, put_of_not_mem absent, ih (by simpa using distinct)]
      simp

theorem lookup_putAll_of_not_mem {table : Table κ α} {entries : List (κ × α)} {key : κ}
    (absent : key ∉ keys entries) : (table.putAll entries).lookup key = table.lookup key := by
  induction entries generalizing table with
  | nil => rfl
  | cons entry rest ih =>
      rw [mem_keys_cons, not_or] at absent
      rw [putAll_cons, ih absent.2, lookup_put, if_neg absent.1]

/-- What is found under a key is one of the new entries or was there before. -/
theorem lookup_putAll {table : Table κ α} {entries : List (κ × α)} {key : κ} {value : α}
    (found : (table.putAll entries).lookup key = some value) :
    (key, value) ∈ entries ∨ key ∉ keys entries ∧ table.lookup key = some value := by
  induction entries generalizing table with
  | nil => exact .inr ⟨by simp [keys], found⟩
  | cons entry rest ih =>
      rw [putAll_cons] at found
      rcases ih found with member | ⟨absent, before⟩
      · exact .inl (List.mem_cons_of_mem _ member)
      · rw [lookup_put] at before
        split at before
        · rename_i same
          obtain rfl := Option.some.inj before
          rw [same]
          exact .inl List.mem_cons_self
        · rename_i differs
          refine .inr ⟨?_, before⟩
          rw [mem_keys_cons, not_or]
          exact ⟨differs, absent⟩

theorem lookup_putAll_isSome {table : Table κ α} {entries : List (κ × α)} {key : κ} :
    ((table.putAll entries).lookup key).isSome = true ↔
      key ∈ keys entries ∨ (table.lookup key).isSome = true := by
  induction entries generalizing table with
  | nil => simp [putAll, keys]
  | cons entry rest ih =>
      rw [putAll_cons, ih, lookup_put, mem_keys_cons]
      by_cases same : key = entry.1
      · simp [same]
      · simp [same]

/-- The last entry of a key counts. -/
theorem lookup_putAll_nil (entries : List (κ × α)) (key : κ) :
    List.lookup key (putAll [] entries) = entries.reverse.lookup key := by
  induction entries using List.reverseRecOn with
  | nil => rfl
  | append_singleton entries entry ih =>
      rw [putAll_append, List.reverse_append, List.reverse_singleton, List.singleton_append,
        lookup_cons, ← ih]
      exact lookup_put _ _ _ _

theorem lookup_putAll_eq (table : Table κ α) (entries : List (κ × α)) (key : κ) :
    (table.putAll entries).lookup key =
      (List.lookup key (putAll [] entries)).or (table.lookup key) := by
  induction entries using List.reverseRecOn with
  | nil => rfl
  | append_singleton entries entry ih =>
      rw [putAll_append, putAll_append]
      change ((table.putAll entries).put entry.1 entry.2).lookup key =
        (List.lookup key ((putAll [] entries).put entry.1 entry.2)).or _
      rw [lookup_put, lookup_put, ih]
      split <;> rfl

/-- Entries of one key that agree are found. -/
theorem lookup_putAll_of_mem {table : Table κ α} {entries : List (κ × α)} {key : κ} {value : α}
    (member : (key, value) ∈ entries)
    (agree : ∀ other, (key, other) ∈ entries → other = value) :
    (table.putAll entries).lookup key = some value := by
  have named : key ∈ keys entries := List.mem_map.mpr ⟨_, member, rfl⟩
  obtain ⟨found, same⟩ := Option.isSome_iff_exists.mp ((lookup_putAll_isSome).mpr (.inl named) :
    ((table.putAll entries).lookup key).isSome = true)
  rcases lookup_putAll same with other | ⟨absent, -⟩
  · rw [same, agree found other]
  · exact absurd named absent

/-- The entries of a table are new ones or were there before. -/
theorem mem_putAll {table : Table κ α} {entries : List (κ × α)} {entry : κ × α}
    (member : entry ∈ table.putAll entries) : entry ∈ entries ∨ entry ∈ table := by
  induction entries generalizing table with
  | nil => exact .inr member
  | cons first rest ih =>
      rw [putAll_cons] at member
      rcases ih member with later | before
      · exact .inl (List.mem_cons_of_mem _ later)
      · rcases mem_put before with rfl | before
        · exact .inl List.mem_cons_self
        · exact .inr before

theorem mem_keys_putAll {table : Table κ α} {entries : List (κ × α)} {key : κ} :
    key ∈ keys (table.putAll entries) ↔ key ∈ keys entries ∨ key ∈ keys table := by
  rw [← lookup_isSome, lookup_putAll_isSome, lookup_isSome]

theorem nodup_keys_putAll {table : Table κ α} {entries : List (κ × α)}
    (distinct : table.keys.Nodup) : (table.putAll entries).keys.Nodup := by
  induction entries generalizing table with
  | nil => exact distinct
  | cons entry rest ih => exact ih (nodup_keys_put distinct)
where
  nodup_keys_put {table : Table κ α} {key : κ} {value : α} (distinct : table.keys.Nodup) :
      (table.put key value).keys.Nodup := by
    induction table with
    | nil => simp [put, keys]
    | cons first rest ih =>
        obtain ⟨fresh, others⟩ := List.nodup_cons.mp distinct
        rw [put]
        split
        · exact distinct
        · rename_i differs
          refine List.nodup_cons.mpr ⟨fun member => ?_, ih others⟩
          have inside : first.1 ∈ keys (put rest key value) := member
          rw [← lookup_isSome, lookup_put, if_neg differs, lookup_isSome] at inside
          exact fresh inside

/-- A table can be made of the entries first. -/
theorem lookup_putAll_putAll (table : Table κ α) (entries : List (κ × α)) (key : κ) :
    (table.putAll (putAll [] entries)).lookup key = (table.putAll entries).lookup key := by
  have again : putAll [] (putAll [] entries) = putAll [] entries :=
    putAll_of_nodup (nodup_keys_putAll List.nodup_nil)
  rw [lookup_putAll_eq table, again, ← lookup_putAll_eq]

theorem lookup_putAll_congr {table other : Table κ α}
    (same : ∀ key, table.lookup key = other.lookup key) (entries : List (κ × α)) (key : κ) :
    (table.putAll entries).lookup key = (other.putAll entries).lookup key := by
  rw [lookup_putAll_eq table, lookup_putAll_eq other, same]

theorem lookup_of_mem {table : Table κ α} {key : κ} {value : α} (distinct : table.keys.Nodup)
    (member : (key, value) ∈ table) : table.lookup key = some value := by
  induction table with
  | nil => cases member
  | cons entry rest ih =>
      obtain ⟨fresh, others⟩ := List.nodup_cons.mp distinct
      rw [lookup_cons]
      rcases List.mem_cons.mp member with rfl | member
      · simp
      · have differs : key ≠ entry.1 := by
          rintro rfl
          exact fresh (List.mem_map.mpr ⟨_, member, rfl⟩)
        rw [if_neg differs, ih others member]

/-! ## Tables made from tables -/

theorem lookup_map {β : Type} (table : Table κ α) (change : α → β) (key : κ) :
    (table.map fun entry => (entry.1, change entry.2)).lookup key =
      (table.lookup key).map change := by
  induction table with
  | nil => rfl
  | cons entry rest ih =>
      rw [List.map_cons, lookup_cons, lookup_cons, ih]
      split <;> rfl

theorem lookup_filter {table : Table κ α} {keep : κ × α → Bool} {key : κ} {value : α}
    (found : table.lookup key = some value) (kept : keep (key, value) = true) :
    (table.filter keep).lookup key = some value := by
  induction table with
  | nil => cases found
  | cons entry rest ih =>
      rw [lookup_cons] at found
      split at found
      · rename_i same
        obtain rfl := Option.some.inj found
        rw [List.filter_cons_of_pos (by rw [same] at kept; exact kept), lookup_cons, if_pos same]
      · rename_i differs
        rw [List.filter_cons]
        split
        · rw [lookup_cons, if_neg differs, ih found]
        · exact ih found

end Table
end Foundation
