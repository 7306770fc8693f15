import Marreta.Foundation.Text
import Marreta.OpenApi.Document

namespace Marreta

open Foundation

/-! The operation ids of the document.

Routes with one natural id are told apart by numbers.  A number can make an id that is the
natural id of another route. -/

namespace OpenApi

/-! ## Numbers -/

theorem toList_repeatedId (id : String) (count : Nat) :
    (repeatedId id count).toList = id.toList ++ '_' :: Nat.toDigits 10 count := by
  rw [repeatedId, String.toList_append, String.toList_append, Nat.toString_eq_repr,
    Nat.toList_repr, List.append_assoc]
  rfl

theorem underscore_not_mem_toDigits (count : Nat) : '_' ∉ Nat.toDigits 10 count := by
  intro member
  have digit := Nat.isDigit_of_mem_toDigits (by decide) (by decide) member
  exact absurd digit (by decide)

/-- The number behind the last underscore and the id before it can be read off. -/
theorem labels_repeatedId : Labels repeatedId := by
  intro id other count number same
  have lists : id.toList ++ '_' :: Nat.toDigits 10 count =
      other.toList ++ '_' :: Nat.toDigits 10 number := by
    rw [← toList_repeatedId, ← toList_repeatedId, same]
  have flipped : (Nat.toDigits 10 count).reverse ++ '_' :: id.toList.reverse =
      (Nat.toDigits 10 number).reverse ++ '_' :: other.toList.reverse := by
    simpa using congrArg List.reverse lists
  have clear (count : Nat) : '_' ∉ (Nat.toDigits 10 count).reverse :=
    fun member => underscore_not_mem_toDigits count (List.mem_reverse.mp member)
  have parts := congrArg (Text.splitOnceAt '_') flipped
  rw [Text.splitOnceAt_around (clear count), Text.splitOnceAt_around (clear number),
    Option.some.injEq, Prod.mk.injEq] at parts
  constructor
  · apply String.toList_injective
    exact List.reverse_injective parts.2
  · have digits : Nat.toDigits 10 count = Nat.toDigits 10 number :=
      List.reverse_injective parts.1
    have read := congrArg (fun digits => Nat.ofDigitChars 10 digits 0) digits
    simpa using read

/-! ## The operations of the paths -/

/-- The place of a route whose operation stays. -/
def Documented (routes before : List RouteDefinition) (route : RouteDefinition) : Prop :=
  ∃ after, routes = before ++ route :: after ∧
    ∀ later ∈ after, operationKey later ≠ operationKey route

/-- The id of a route behind others. -/
def idAfter (before : List RouteDefinition) (route : RouteDefinition) : String :=
  numbered repeatedId (naturalId route) (useOf naturalId before route)

section Paths

variable {componentNames : List String}

/-- The number of uses of each id. -/
def Counts (seen : Table String Nat) (before : List RouteDefinition) : Prop :=
  ∀ id, (seen.lookup id).getD 0 = (before.map naturalId).count id

theorem counts_nil : Counts [] [] := fun _ => rfl

theorem operationId_of_counts {seen : Table String Nat} {before : List RouteDefinition}
    (counts : Counts seen before) (route : RouteDefinition) :
    (operationId route seen).1 = idAfter before route ∧
      Counts (operationId route seen).2 (before ++ [route]) := by
  constructor
  · rw [operationId, idAfter, useOf, counts]
  · intro id
    rw [operationId, Table.lookup_put, List.map_append, List.count_append, List.map_singleton,
      List.count_singleton, ← counts id]
    split
    · rename_i same
      rw [same, if_pos (beq_self_eq_true _)]
      rfl
    · rename_i other
      rw [if_neg fun same => other (eq_of_beq same).symm]
      rfl

theorem lookup_buildPaths_from {routes before : List RouteDefinition} {seen : Table String Nat}
    (counts : Counts seen before) {paths : Table OperationKey Operation} {key : OperationKey}
    {operation : Operation} :
    (buildPaths componentNames routes seen paths).lookup key = some operation ↔
      (∃ between route, Documented routes between route ∧ operationKey route = key ∧
        operation =
          buildOperation componentNames route (idAfter (before ++ between) route)) ∨
      ((∀ route ∈ routes, operationKey route ≠ key) ∧ paths.lookup key = some operation) := by
  induction routes generalizing before seen paths with
  | nil =>
      rw [buildPaths]
      constructor
      · exact fun found => .inr ⟨nofun, found⟩
      · rintro (⟨between, route, ⟨after, eq, -⟩, -⟩ | ⟨-, found⟩)
        · cases between <;> cases eq
        · exact found
  | cons route routes induction =>
      obtain ⟨id, next⟩ := operationId_of_counts counts route
      rw [buildPaths]
      change (buildPaths componentNames routes (operationId route seen).2
        (Table.put paths (operationKey route)
          (buildOperation componentNames route (operationId route seen).1))).lookup key = _ ↔ _
      rw [induction next, Table.lookup_put, id]
      constructor
      · rintro (⟨between, later, ⟨after, rfl, last⟩, key, rfl⟩ | ⟨others, found⟩)
        · exact .inl ⟨route :: between, later, ⟨after, rfl, last⟩, key, by simp⟩
        · split at found
          · rename_i same
            obtain rfl := Option.some.inj found
            refine .inl ⟨[], route, ⟨routes, rfl, ?_⟩, same.symm, by simp⟩
            rw [← same]
            exact others
          · rename_i other
            exact .inr ⟨List.forall_mem_cons.mpr ⟨Ne.symm other, others⟩, found⟩
      · rintro (⟨between, later, ⟨after, eq, last⟩, rfl, rfl⟩ | ⟨others, found⟩)
        · cases between with
          | nil =>
              obtain ⟨rfl, rfl⟩ := List.cons.inj eq
              refine .inr ⟨last, ?_⟩
              rw [if_pos rfl, List.append_nil]
          | cons first between =>
              obtain ⟨rfl, rfl⟩ := List.cons.inj eq
              exact .inl ⟨between, later, ⟨after, rfl, last⟩, rfl, by simp⟩
        · obtain ⟨other, others⟩ := List.forall_mem_cons.mp others
          exact .inr ⟨others, by rw [if_neg (Ne.symm other), found]⟩

/-- The operation of a path and a verb is that of the last route with them. -/
theorem lookup_buildPaths {routes : List RouteDefinition} {key : OperationKey}
    {operation : Operation} :
    (buildPaths componentNames routes [] []).lookup key = some operation ↔
      ∃ before route, Documented routes before route ∧ operationKey route = key ∧
        operation = buildOperation componentNames route (idAfter before route) := by
  rw [lookup_buildPaths_from counts_nil]
  constructor
  · rintro (documented | ⟨-, found⟩)
    · exact documented
    · cases found
  · exact .inl

end Paths

/-! ## Different ids -/

/-- The operations have different ids. -/
def DistinctIds (document : Document) : Prop :=
  ∀ key other operation operation', document.paths.lookup key = some operation →
    document.paths.lookup other = some operation' →
    operation.operationId = operation'.operationId → key = other

/-- No operation has a natural id of its own that is the id of a further use of another. -/
def NumbersFree (routes : List RouteDefinition) : Prop :=
  ∀ before route before' route', Documented routes before route →
    Documented routes before' route' → naturalId route ∉ before.map naturalId →
    naturalId route' ∈ before'.map naturalId →
    naturalId route ≠ repeatedId (naturalId route') (useOf naturalId before' route')

theorem key_of_idAfter {routes before before' : List RouteDefinition}
    {route route' : RouteDefinition} (free : NumbersFree routes)
    (documented : Documented routes before route) (documented' : Documented routes before' route')
    (same : idAfter before route = idAfter before' route') :
    operationKey route = operationKey route' := by
  rcases eq_of_numbered_eq labels_repeatedId same with
    ⟨sameName, sameUse⟩ | ⟨first, later, clash⟩ | ⟨first, later, clash⟩
  · obtain ⟨after, eq, -⟩ := documented
    obtain ⟨after', eq', -⟩ := documented'
    rw [(place_of_use (eq.symm.trans eq') sameName sameUse).2.1]
  · exact absurd clash (free _ _ _ _ documented documented' (useOf_eq_one_iff.mp first)
      (by_contra fun fresh => later (useOf_eq_one_iff.mpr fresh)))
  · exact absurd clash (free _ _ _ _ documented' documented (useOf_eq_one_iff.mp first)
      (by_contra fun fresh => later (useOf_eq_one_iff.mpr fresh)))

/-- A natural id that is the number of another is used twice. -/
theorem idAfter_eq_of_clash {before before' : List RouteDefinition} {route route' : RouteDefinition}
    (first : naturalId route ∉ before.map naturalId)
    (later : naturalId route' ∈ before'.map naturalId)
    (clash : naturalId route = repeatedId (naturalId route') (useOf naturalId before' route')) :
    idAfter before route = idAfter before' route' := by
  have further : useOf naturalId before' route' ≠ 1 :=
    fun one => useOf_eq_one_iff.mp one later
  rw [idAfter, useOf_eq_one_iff.mpr first, numbered_one, clash, idAfter, numbered_of_ne further]

/-- A path and a verb have one last route. -/
theorem place_of_key {routes before before' : List RouteDefinition} {route route' : RouteDefinition}
    (documented : Documented routes before route) (documented' : Documented routes before' route')
    (same : operationKey route = operationKey route') : before = before' ∧ route = route' := by
  obtain ⟨after, eq, last⟩ := documented
  obtain ⟨after', eq', last'⟩ := documented'
  rcases eq_or_before (eq.symm.trans eq') with ⟨before, route, -⟩ | ⟨between, -, rfl⟩ |
    ⟨between, -, rfl⟩
  · exact ⟨before, route⟩
  · exact absurd same.symm (last route' (List.mem_append_right _ List.mem_cons_self))
  · exact absurd same (last' route (List.mem_append_right _ List.mem_cons_self))

theorem distinctIds_iff {runtime : ProjectRuntime} {routes : List RouteDefinition}
    {schemas : Schemas} :
    DistinctIds (buildDocument runtime routes schemas) ↔ NumbersFree routes := by
  constructor
  · intro distinct before route before' route' documented documented' first later clash
    have key := distinct _ _ _ _ ((lookup_buildPaths).mpr ⟨_, _, documented, rfl, rfl⟩)
      ((lookup_buildPaths).mpr ⟨_, _, documented', rfl, rfl⟩)
      (idAfter_eq_of_clash first later clash)
    obtain ⟨rfl, rfl⟩ := place_of_key documented documented' key
    exact first later
  · intro free key other operation operation' found found' same
    obtain ⟨before, route, documented, rfl, rfl⟩ := (lookup_buildPaths).mp found
    obtain ⟨before', route', documented', rfl, rfl⟩ := (lookup_buildPaths).mp found'
    exact key_of_idAfter free documented documented' same

end OpenApi
end Marreta
