import Marreta.Project.Loader
import Marreta.Runtime.Names
import Marreta.Schema.Conformance

namespace Marreta

open Foundation

/-! The validator is sound, complete and idempotent on registries without value
cycles and long chains, as long as no duration overflows. -/

/-! ## Links between schemas -/

/-- A schema refers to another one that is part of its values. -/
def EmbedLink (schemas : Schemas) (name next : String) : Prop :=
  ∃ schema target, schemas.lookup name = some schema ∧ next ∈ schema.references ∧
    schemas.lookup next = some target ∧ target.dbTable = none

/-- A chain of references of the given length. -/
inductive EmbedChain (schemas : Schemas) : Nat → String → String → Prop
  | refl (name : String) : EmbedChain schemas 0 name name
  | tail {length : Nat} {first name next : String} (before : EmbedChain schemas length first name)
      (link : EmbedLink schemas name next) : EmbedChain schemas (length + 1) first next

/-- The registries that the loader lets pass, without chains that are deeper than
the validator goes. -/
structure Registry (schemas : Schemas) : Prop where
  distinct : (Table.keys schemas).Nodup
  acyclic : schemas.references.findDisallowedCycle schemas.persistentNames = none
  short : ∀ length first last, EmbedChain schemas length first last → length ≤ maxDepth

/-- The schemas that a schema leads to, and itself, name each of their fields once. -/
def FieldsDistinct (schemas : Schemas) (root : String) : Prop :=
  ∀ length last schema, EmbedChain schemas length root last →
    schemas.lookup last = some schema → (schema.fields.map (·.name)).Nodup

/-- What the validator needs of the schemas that a payload can lead to: no chain of
them is deeper than it goes, and each names its fields once. -/
structure Below (schemas : Schemas) (root : String) : Prop where
  short : ∀ length last, EmbedChain schemas length root last → length ≤ maxDepth
  fields : FieldsDistinct schemas root

/-- The check of the type meets a schema again, or stops in an embedded one. -/
def StopsIn (schemas : Schemas) (stops : List String → SchemaDefinition → Value → Prop)
    (onPath : List String) : SchemaType → Value → Prop
  | .reference name, value =>
      ∃ schema, schemas.lookup name = some schema ∧ schema.dbTable = none ∧
        (name ∈ onPath ∨ stops (onPath ++ [name]) schema value)
  | .typedList element, .list items => ∃ item ∈ items, StopsIn schemas stops onPath element item
  | _, _ => False

/-- The check stops at the value whatever else is in it: it embeds more schemas in one another
than may still follow, or one of them again. -/
def Stops (schemas : Schemas) : (remaining : Nat) → List String → SchemaDefinition → Value → Prop
  | 0, _, _, _ => True
  | remaining + 1, onPath, schema, .map entries =>
      ∃ field ∈ schema.fields, ∃ value, ValueMap.get? entries field.name = some value ∧
        value ≠ .null ∧ StopsIn schemas (Stops schemas remaining) onPath field.fieldType value
  | _, _, _, _ => False

/-- The embedded schemas of the value form a chain that the validator goes through. -/
def WithinDepth (schemas : Schemas) (schema : SchemaDefinition) (value : Value) : Prop :=
  ¬ Stops schemas (maxDepth + 1) [] schema value

theorem Registry.below {schemas : Schemas} {root : String} (registry : Registry schemas)
    (fields : FieldsDistinct schemas root) : Below schemas root where
  short length last := registry.short length root last
  fields := fields

namespace Validator

variable {formats : ValueFormats} {schemas : Schemas}

/-! ## Field types -/

/-- What the check of a type must do. -/
def DecidesType (formats : ValueFormats) (schemas : Schemas) (nested : Nested) (type : SchemaType)
    (value : Value) (path : String) (onPath : List String) : Prop :=
  Decides (Fits schemas (Encodes formats) type value) (Overflows formats schemas type value)
    (fun result => Fits schemas HasType type result ∧ (value ≠ .null → result ≠ .null))
    (fun result => coerceFieldType formats schemas nested type result path onPath = .ok result)
    (coerceFieldType formats schemas nested type value path onPath)

/-- What the check of a schema must do. -/
def DecidesSchema (formats : ValueFormats) (schemas : Schemas) (nested : Nested)
    (schema : SchemaDefinition) (value : Value) (path : String) (onPath : List String) : Prop :=
  Decides (FitsSchema schemas (Encodes formats) schema value)
    (SchemaOverflows formats schemas schema value)
    (fun result => FitsSchema schemas HasType schema result ∧ (value ≠ .null → result ≠ .null) ∧
      KeepsUndeclared schema value result)
    (fun result => nested result schema path onPath = .ok result)
    (nested value schema path onPath)

theorem hasType_ne_null {type : SchemaType} {value : Value} (typed : HasType type value) :
    value ≠ .null := by
  rintro rfl
  cases type <;> simp [HasType, isDirect] at typed

theorem coerceFieldType_scalar (nested : Nested) {type : SchemaType}
    (single : type.isNested = false) (value : Value) (path : String) (onPath : List String) :
    coerceFieldType formats schemas nested type value path onPath =
      coerceScalar formats value type path := by
  cases type <;> first | rfl | simp [SchemaType.isNested] at single

theorem decidesType_scalar (nested : Nested) {type : SchemaType} (single : type.isNested = false)
    (value : Value) (path : String) (onPath : List String) :
    DecidesType formats schemas nested type value path onPath := by
  have fits : Fits schemas (Encodes formats) type value ↔ Encodes formats type value := by
    constructor
    · intro holds
      cases holds with
      | scalar _ leaf => exact leaf
      | relation | embedded | list => simp [SchemaType.isNested] at single
    · exact .scalar single
  have overflows : Overflows formats schemas type value ↔
      type = .durationType ∧ durationMillis value = some Int64.minValue := by
    constructor
    · intro holds
      cases holds with
      | duration least => exact ⟨rfl, least⟩
      | embedded | list => simp [SchemaType.isNested] at single
    · rintro ⟨rfl, least⟩
      exact .duration least
  unfold DecidesType
  simp only [coerceFieldType_scalar nested single, fits, overflows]
  have scalar := @decides_scalar formats type single value path
  unfold DecidesScalar at scalar
  generalize coerceScalar formats value type path = result at scalar
  cases scalar with
  | accepted conforming safe typed stays =>
      exact .accepted conforming safe ⟨.scalar single typed, fun _ => hasType_ne_null typed⟩ stays
  | panicked spills => exact .panicked spills
  | refused violates safe answer => exact .refused violates safe answer

theorem overflows_null (type : SchemaType) : ¬ Overflows formats schemas type .null := by
  intro spills
  cases spills with
  | duration least => simp [durationMillis] at least
  | embedded _ _ inside => cases inside

theorem decidesType_reference {nested : Nested} {name : String} {onPath : List String}
    (fresh : ∀ schema, schemas.lookup name = some schema → schema.dbTable = none → name ∉ onPath)
    (value : Value) (path : String)
    (inner : ∀ schema, schemas.lookup name = some schema → schema.dbTable = none →
      DecidesSchema formats schemas nested schema value path (onPath ++ [name])) :
    DecidesType formats schemas nested (.reference name) value path onPath := by
  unfold DecidesType
  simp only [coerceFieldType, coerceReference]
  cases found : schemas.lookup name with
  | none =>
      have violates : ¬ Fits schemas (Encodes formats) (.reference name) value := by
        intro holds
        cases holds with
        | scalar single => simp [SchemaType.isNested] at single
        | relation known | embedded known => simp [found] at known
      have safe : ¬ Overflows formats schemas (.reference name) value := by
        intro spills
        cases spills with
        | embedded known => simp [found] at known
      simp only
      split <;> exact decides_error422 violates safe _
  | some schema =>
      simp only
      by_cases stored : schema.dbTable.isSome = true
      · simp only [stored, if_true]
        refine .accepted (.relation found stored) ?_ ⟨.relation found stored, id⟩ trivial
        intro spills
        cases spills with
        | embedded known plain =>
            rw [found, Option.some.injEq] at known
            subst known
            simp [plain] at stored
      · have plain : schema.dbTable = none := by simpa using stored
        have absent := fresh schema found plain
        simp only [plain, Option.isSome_none, Bool.false_eq_true, if_false, absent]
        have decides := inner schema found plain
        unfold DecidesSchema at decides
        have inside : Overflows formats schemas (.reference name) value →
            SchemaOverflows formats schemas schema value := by
          intro spills
          cases spills with
          | embedded known _ inside =>
              rw [found, Option.some.injEq] at known
              subst known
              exact inside
        generalize nested value schema path (onPath ++ [name]) = result at decides
        cases decides with
        | accepted conforming safe typed stays =>
            exact .accepted (.embedded found plain conforming) (fun spills => safe (inside spills))
              ⟨.embedded found plain typed.1, typed.2.1⟩ stays
        | panicked spills => exact .panicked (.embedded found plain spills)
        | refused violates safe answer =>
            refine .refused ?_ (fun spills => safe (inside spills)) answer
            intro holds
            cases holds with
            | scalar single => simp [SchemaType.isNested] at single
            | relation known isStored =>
                rw [found, Option.some.injEq] at known
                subst known
                exact stored isStored
            | embedded known _ fits =>
                rw [found, Option.some.injEq] at known
                subst known
                exact violates fits

/-! ## Lists -/

/-- Going through the values one meets a bad one while everything is fine. -/
def Meets {α : Type} (fine bad : α → Prop) (values : List α) : Prop :=
  ∃ before value after, values = before ++ value :: after ∧ (∀ earlier ∈ before, fine earlier) ∧
    bad value

theorem meets_nil {α : Type} {fine bad : α → Prop} : ¬ Meets fine bad [] := by
  rintro ⟨before, value, after, parts, -⟩
  simp at parts

theorem meets_cons {α : Type} {fine bad : α → Prop} {value : α} {values : List α} :
    Meets fine bad (value :: values) ↔ bad value ∨ fine value ∧ Meets fine bad values := by
  constructor
  · rintro ⟨before, other, after, parts, earlier, spills⟩
    cases before with
    | nil =>
        rw [List.nil_append, List.cons.injEq] at parts
        exact .inl (parts.1 ▸ spills)
    | cons first before =>
        rw [List.cons_append, List.cons.injEq] at parts
        rw [List.forall_mem_cons, ← parts.1] at earlier
        exact .inr ⟨earlier.1, before, other, after, parts.2, earlier.2, spills⟩
  · rintro (spills | ⟨first, before, other, after, parts, earlier, spills⟩)
    · exact ⟨[], value, values, rfl, by simp, spills⟩
    · refine ⟨value :: before, other, after, by rw [parts]; rfl, ?_, spills⟩
      exact List.forall_mem_cons.mpr ⟨first, earlier⟩

theorem meets_map {α β : Type} {fine bad : β → Prop} (view : α → β) (values : List α) :
    Meets fine bad (values.map view) ↔
      Meets (fun value => fine (view value)) (fun value => bad (view value)) values := by
  induction values with
  | nil => exact iff_of_false meets_nil meets_nil
  | cons value values ih => rw [List.map_cons, meets_cons, meets_cons, ih]

/-- The items of a list with their places, checked one after another. -/
theorem mapM_decides {check : Value × Nat → Except LibraryFault Value}
    {conforms overflows : Value → Prop} {typed : Value → Prop}
    (items : List (Value × Nat))
    (each : ∀ item ∈ items, Decides (conforms item.1) (overflows item.1) typed
      (fun result => check (result, item.2) = .ok result) (check item)) :
    (∃ results, items.mapM check = .ok results ∧ (∀ item ∈ items, conforms item.1) ∧
      ¬ Meets (fun item => conforms item.1) (fun item => overflows item.1) items ∧
      (∀ result ∈ results, typed result) ∧ results.length = items.length ∧
      (results.zip (items.map Prod.snd)).mapM check = .ok results) ∨
    (items.mapM check = .error .panic ∧
      Meets (fun item => conforms item.1) (fun item => overflows item.1) items) ∨
    ∃ fault, items.mapM check = .error fault ∧ Is422 fault ∧
      ¬ Meets (fun item => conforms item.1) (fun item => overflows item.1) items ∧
      ∃ item ∈ items, ¬ conforms item.1 := by
  induction items with
  | nil => exact .inl ⟨[], rfl, by simp, meets_nil, by simp, rfl, rfl⟩
  | cons item items ih =>
      have first := each item List.mem_cons_self
      rw [List.mapM_cons]
      generalize done : check item = result at first
      cases first with
      | accepted conforming safe fits stays =>
          rename_i result
          simp only [bind, Except.bind]
          rcases ih fun other member => each other (List.mem_cons_of_mem _ member) with
            ⟨results, ok, all, none, typedAll, lengths, again⟩ | ⟨panics, spills⟩ |
            ⟨fault, fails, answer, none, other, member, violates⟩
          · refine .inl ⟨result :: results, by rw [ok]; rfl, ?_, ?_, ?_, by simp [lengths], ?_⟩
            · exact List.forall_mem_cons.mpr ⟨conforming, all⟩
            · rw [meets_cons]
              exact not_or.mpr ⟨safe, fun later => none later.2⟩
            · exact List.forall_mem_cons.mpr ⟨fits, typedAll⟩
            · rw [List.map_cons, List.zip_cons_cons, List.mapM_cons, stays]
              simp [bind, Except.bind, again, pure, Except.pure]
          · exact .inr (.inl ⟨by rw [panics], (meets_cons).mpr (.inr ⟨conforming, spills⟩)⟩)
          · refine .inr (.inr ⟨fault, by rw [fails], answer, ?_, other,
              List.mem_cons_of_mem _ member, violates⟩)
            rw [meets_cons]
            exact not_or.mpr ⟨safe, fun later => none later.2⟩
      | panicked spills => exact .inr (.inl ⟨rfl, (meets_cons).mpr (.inl spills)⟩)
      | refused violates safe answer =>
          refine .inr (.inr ⟨_, rfl, answer, ?_, item, List.mem_cons_self, violates⟩)
          rw [meets_cons]
          exact not_or.mpr ⟨safe, fun later => violates later.1⟩

theorem decidesType_list {nested : Nested} {element : SchemaType} {onPath : List String}
    {value : Value} (each : ∀ items, value = .list items → ∀ item ∈ items, ∀ path,
      DecidesType formats schemas nested element item path onPath) (path : String) :
    DecidesType formats schemas nested (.typedList element) value path onPath := by
  unfold DecidesType
  cases value with
  | list items =>
      let check : Value × Nat → Except LibraryFault Value := fun pair =>
        coerceFieldType formats schemas nested element pair.1
          (path ++ "[" ++ toString pair.2 ++ "]") onPath
      have unfolds : ∀ items, coerceFieldType formats schemas nested (.typedList element)
          (.list items) path onPath = (items.zipIdx.mapM check >>= fun coerced =>
            .ok (.list coerced)) := fun _ => rfl
      have members : ∀ item ∈ items, ∃ index, (item, index) ∈ items.zipIdx := by
        intro item member
        obtain ⟨index, bound, same⟩ := List.getElem_of_mem member
        exact ⟨index, List.mk_mem_zipIdx_iff_getElem?.mpr (by simp [← same])⟩
      have back : ∀ pair ∈ items.zipIdx, pair.1 ∈ items := fun pair member =>
        List.fst_mem_of_mem_zipIdx member
      have meets : Overflows formats schemas (.typedList element) (.list items) ↔
          Meets (fun pair => Fits schemas (Encodes formats) element pair.1)
            (fun pair => Overflows formats schemas element pair.1) items.zipIdx := by
        rw [← meets_map Prod.fst, List.zipIdx_map_fst]
        constructor
        · intro spills
          cases spills with
          | list parts earlier inside => exact ⟨_, _, _, parts, earlier, inside⟩
        · rintro ⟨before, item, after, parts, earlier, inside⟩
          exact .list parts earlier inside
      rw [unfolds]
      rcases @mapM_decides check (Fits schemas (Encodes formats) element)
          (Overflows formats schemas element) (Fits schemas HasType element) items.zipIdx
          (fun pair member => by
            have decides :=
              each items rfl pair.1 (back pair member) (path ++ "[" ++ toString pair.2 ++ "]")
            unfold DecidesType at decides
            change Decides _ _ _ _ (check pair) at decides
            generalize check pair = result at decides
            cases decides with
            | accepted conforming safe typed stays =>
                exact .accepted conforming safe typed.1 stays
            | panicked spills => exact .panicked spills
            | refused violates safe answer => exact .refused violates safe answer) with
        ⟨results, ok, all, none, typed, lengths, again⟩ | ⟨panics, spills⟩ |
        ⟨fault, fails, answer, none, pair, member, violates⟩
      · rw [ok]
        refine .accepted ?_ ?_ ⟨.list typed, by simp⟩ ?_
        · refine .list fun item member => ?_
          obtain ⟨index, inside⟩ := members item member
          exact all (item, index) inside
        · exact fun spills => none (meets.mp spills)
        · have places : results.zipIdx = results.zip (items.zipIdx.map Prod.snd) := by
            rw [List.length_zipIdx] at lengths
            rw [List.zipIdx_eq_zip_range', List.zipIdx_map_snd, lengths]
          rw [unfolds, places, again]
          rfl
      · rw [panics]
        exact .panicked (meets.mpr spills)
      · rw [fails]
        refine .refused ?_ (fun spills => none (meets.mp spills)) answer
        intro holds
        cases holds with
        | scalar single => simp [SchemaType.isNested] at single
        | list fits => exact violates (fits pair.1 (back pair member))
  | _ =>
      apply decides_error422
      · intro holds
        cases holds with
        | scalar single => simp [SchemaType.isNested] at single
      · intro spills
        cases spills

/-! ## Objects -/

/-- A field of an object holds a duration that is too long. -/
def FieldOverflows (formats : ValueFormats) (schemas : Schemas) (entries : ValueMap)
    (field : SchemaField) : Prop :=
  ∃ value, entries.get? field.name = some value ∧
    Overflows formats schemas field.fieldType value

/-- The field holds a value of its type that the check leaves as it is. -/
def Settled (formats : ValueFormats) (schemas : Schemas) (nested : Nested) (pathPrefix : String)
    (onPath : List String) (entries : ValueMap) (field : SchemaField) : Prop :=
  FitsField schemas HasType entries field ∧
    ∀ value, entries.get? field.name = some value → value ≠ .null →
      coerceFieldType formats schemas nested field.fieldType value
        (fieldPath pathPrefix field.name) onPath = .ok value

theorem Settled.of_get? {nested : Nested} {pathPrefix : String} {onPath : List String}
    {entries other : ValueMap} {field : SchemaField}
    (settled : Settled formats schemas nested pathPrefix onPath entries field)
    (same : other.get? field.name = entries.get? field.name) :
    Settled formats schemas nested pathPrefix onPath other field := by
  unfold Settled FitsField at settled ⊢
  rwa [same]

theorem Settled.again {nested : Nested} {pathPrefix : String} {onPath : List String}
    {entries : ValueMap} {field : SchemaField}
    (settled : Settled formats schemas nested pathPrefix onPath entries field) :
    coerceField formats schemas nested entries pathPrefix onPath entries field = .ok entries := by
  obtain ⟨⟨required, -⟩, stays⟩ := settled
  unfold coerceField
  simp only
  split
  · rename_i absent
    split
    · rfl
    · rename_i needed
      obtain ⟨value, found, -⟩ := required (by simpa using needed)
      simp [absent] at found
  · rename_i empty
    split
    · rw [ValueMap.insert_self empty]
    · rename_i needed
      obtain ⟨value, found, filled⟩ := required (by simpa using needed)
      rw [empty, Option.some.injEq] at found
      exact absurd found.symm filled
  · rename_i value filled found
    rw [stays value found filled]
    change Except.ok (entries.insert field.name value) = _
    rw [ValueMap.insert_self found]

section Fields

variable {nested : Nested} {pathPrefix : String} {onPath : List String} {entries : ValueMap}

/-- What one field does to the object. -/
theorem coerceField_cases {field : SchemaField}
    (each : ∀ value, entries.get? field.name = some value → value ≠ .null →
      DecidesType formats schemas nested field.fieldType value (fieldPath pathPrefix field.name)
        onPath)
    {out : ValueMap} (same : out.get? field.name = entries.get? field.name) :
    (∃ next, coerceField formats schemas nested entries pathPrefix onPath out field = .ok next ∧
      next.map Prod.fst = out.map Prod.fst ∧
      (∀ key, field.name ≠ key → next.get? key = out.get? key) ∧
      FitsField schemas (Encodes formats) entries field ∧
      ¬ FieldOverflows formats schemas entries field ∧
      Settled formats schemas nested pathPrefix onPath next field) ∨
    (coerceField formats schemas nested entries pathPrefix onPath out field = .error .panic ∧
      FieldOverflows formats schemas entries field) ∨
    ∃ fault, coerceField formats schemas nested entries pathPrefix onPath out field =
      .error fault ∧ Is422 fault ∧ ¬ FieldOverflows formats schemas entries field ∧
      ¬ FitsField schemas (Encodes formats) entries field := by
  have safe : (∀ value, entries.get? field.name = some value → value = .null) →
      ¬ FieldOverflows formats schemas entries field := by
    rintro empty ⟨value, found, spills⟩
    rw [empty value found] at spills
    exact overflows_null _ spills
  unfold coerceField
  simp only
  split
  · rename_i absent
    split
    · rename_i optional
      refine .inl ⟨out, rfl, rfl, fun _ _ => rfl, ⟨by simp [optional], by simp [absent]⟩,
        safe (by simp [absent]), ⟨by simp [optional], ?_⟩, ?_⟩
      · simp [same, absent]
      · simp [same, absent]
    · rename_i needed
      refine .inr (.inr ⟨_, rfl, ⟨_, rfl⟩, safe (by simp [absent]), fun fits => ?_⟩)
      obtain ⟨value, found, -⟩ := fits.1 (by simpa using needed)
      simp [absent] at found
  · rename_i empty
    have filled : ∀ value, entries.get? field.name = some value → value = .null := by
      intro value found
      rw [empty, Option.some.injEq] at found
      exact found.symm
    split
    · rename_i optional
      have unchanged : out.insert field.name .null = out :=
        ValueMap.insert_self (same.trans empty)
      rw [unchanged]
      refine .inl ⟨out, rfl, rfl, fun _ _ => rfl, ⟨by simp [optional], ?_⟩, safe filled,
        ⟨by simp [optional], ?_⟩, ?_⟩
      · exact fun value found some => absurd (filled value found) some
      · exact fun value found some => absurd (filled value (same ▸ found)) some
      · exact fun value found some => absurd (filled value (same ▸ found)) some
    · rename_i needed
      refine .inr (.inr ⟨_, rfl, ⟨_, rfl⟩, safe filled, fun fits => ?_⟩)
      obtain ⟨value, found, nonNull⟩ := fits.1 (by simpa using needed)
      exact nonNull (filled value found)
  · rename_i value filled found
    have decides := each value found filled
    unfold DecidesType at decides
    generalize coerceFieldType formats schemas nested field.fieldType value
      (fieldPath pathPrefix field.name) onPath = result at decides
    have only : ∀ other, entries.get? field.name = some other → other = value := by
      intro other here
      rw [found, Option.some.injEq] at here
      exact here.symm
    cases decides with
    | accepted conforming unharmed typed stays =>
        rename_i result
        have nonNull : result ≠ .null := typed.2 filled
        have reads : (out.insert field.name result).get? field.name = some result := by
          rw [ValueMap.get?_insert, if_pos rfl]
        refine .inl ⟨out.insert field.name result, rfl, ?_, ?_, ⟨?_, ?_⟩, ?_, ⟨⟨?_, ?_⟩, ?_⟩⟩
        · exact ValueMap.keys_insert (same.trans found) result
        · intro key differs
          rw [ValueMap.get?_insert, if_neg differs.symm]
        · exact fun _ => ⟨value, found, filled⟩
        · intro other here _
          rw [only other here]
          exact conforming
        · rintro ⟨other, here, spills⟩
          rw [only other here] at spills
          exact unharmed spills
        · exact fun _ => ⟨result, reads, nonNull⟩
        · intro other here _
          rw [reads, Option.some.injEq] at here
          rw [← here]
          exact typed.1
        · intro other here _
          rw [reads, Option.some.injEq] at here
          rw [← here]
          exact stays
    | panicked spills => exact .inr (.inl ⟨rfl, value, found, spills⟩)
    | refused violates unharmed answer =>
        refine .inr (.inr ⟨_, rfl, answer, ?_, fun fits => violates (fits.2 value found filled)⟩)
        rintro ⟨other, here, spills⟩
        rw [only other here] at spills
        exact unharmed spills

/-- What all fields do to the object, one after another. -/
theorem foldlM_coerceField {fields : List SchemaField} (distinct : (fields.map (·.name)).Nodup)
    (each : ∀ field ∈ fields, ∀ value, entries.get? field.name = some value → value ≠ .null →
      DecidesType formats schemas nested field.fieldType value (fieldPath pathPrefix field.name)
        onPath)
    {out : ValueMap} (same : ∀ field ∈ fields, out.get? field.name = entries.get? field.name) :
    (∃ after, fields.foldlM (coerceField formats schemas nested entries pathPrefix onPath) out =
        .ok after ∧
      after.map Prod.fst = out.map Prod.fst ∧
      (∀ key, (∀ field ∈ fields, field.name ≠ key) → after.get? key = out.get? key) ∧
      (∀ field ∈ fields, FitsField schemas (Encodes formats) entries field) ∧
      ¬ Meets (FitsField schemas (Encodes formats) entries)
        (FieldOverflows formats schemas entries) fields ∧
      ∀ field ∈ fields, Settled formats schemas nested pathPrefix onPath after field) ∨
    (fields.foldlM (coerceField formats schemas nested entries pathPrefix onPath) out =
        .error .panic ∧
      Meets (FitsField schemas (Encodes formats) entries)
        (FieldOverflows formats schemas entries) fields) ∨
    ∃ fault, fields.foldlM (coerceField formats schemas nested entries pathPrefix onPath) out =
        .error fault ∧ Is422 fault ∧
      ¬ Meets (FitsField schemas (Encodes formats) entries)
        (FieldOverflows formats schemas entries) fields ∧
      ∃ field ∈ fields, ¬ FitsField schemas (Encodes formats) entries field := by
  induction fields generalizing out with
  | nil => exact .inl ⟨out, rfl, rfl, fun _ _ => rfl, by simp, meets_nil, by simp⟩
  | cons field fields ih =>
      rw [List.map_cons, List.nodup_cons] at distinct
      have others : ∀ other ∈ fields, field.name ≠ other.name := fun other member equal =>
        distinct.1 (equal ▸ List.mem_map.mpr ⟨other, member, rfl⟩)
      rw [List.foldlM_cons]
      rcases coerceField_cases (each field List.mem_cons_self)
          (same field List.mem_cons_self) with
        ⟨next, ok, keys, rest, fits, safe, settled⟩ | ⟨panics, spills⟩ |
        ⟨fault, fails, answer, safe, violates⟩
      · rw [ok]
        have sameNext : ∀ other ∈ fields, next.get? other.name = entries.get? other.name := by
          intro other member
          rw [rest _ (others other member), same other (List.mem_cons_of_mem _ member)]
        rcases ih distinct.2 (fun other member => each other (List.mem_cons_of_mem _ member))
            sameNext with
          ⟨after, done, afterKeys, afterRest, afterFits, afterSafe, afterSettled⟩ |
          ⟨panics, spills⟩ | ⟨fault, fails, answer, none, other, member, violates⟩
        · refine .inl ⟨after, done, afterKeys.trans keys, ?_, ?_, ?_, ?_⟩
          · intro key undeclared
            rw [List.forall_mem_cons] at undeclared
            rw [afterRest key undeclared.2, rest key undeclared.1]
          · exact List.forall_mem_cons.mpr ⟨fits, afterFits⟩
          · rw [meets_cons]
            exact not_or.mpr ⟨safe, fun later => afterSafe later.2⟩
          · refine List.forall_mem_cons.mpr ⟨settled.of_get? ?_, afterSettled⟩
            exact afterRest _ fun other member => (others other member).symm
        · exact .inr (.inl ⟨panics, (meets_cons).mpr (.inr ⟨fits, spills⟩)⟩)
        · refine .inr (.inr ⟨fault, fails, answer, ?_, other, List.mem_cons_of_mem _ member,
            violates⟩)
          rw [meets_cons]
          exact not_or.mpr ⟨safe, fun later => none later.2⟩
      · rw [panics]
        exact .inr (.inl ⟨rfl, (meets_cons).mpr (.inl spills)⟩)
      · rw [fails]
        refine .inr (.inr ⟨fault, rfl, answer, ?_, field, List.mem_cons_self, violates⟩)
        rw [meets_cons]
        exact not_or.mpr ⟨safe, fun later => violates later.1⟩

end Fields

theorem foldlM_settled {nested : Nested} {pathPrefix : String} {onPath : List String}
    {entries : ValueMap} {fields : List SchemaField}
    (all : ∀ field ∈ fields, Settled formats schemas nested pathPrefix onPath entries field) :
    fields.foldlM (coerceField formats schemas nested entries pathPrefix onPath) entries =
      .ok entries := by
  induction fields with
  | nil => rfl
  | cons field fields ih =>
      rw [List.forall_mem_cons] at all
      rw [List.foldlM_cons, all.1.again]
      exact ih all.2

theorem decidesSchema_map {remaining : Nat} {schema : SchemaDefinition} {onPath : List String}
    (distinct : (schema.fields.map (·.name)).Nodup) (pathPrefix : String) {entries : ValueMap}
    (each : ∀ field ∈ schema.fields, ∀ value, entries.get? field.name = some value →
      value ≠ .null → DecidesType formats schemas (coerceRecursive formats schemas remaining)
        field.fieldType value (fieldPath pathPrefix field.name) onPath) :
    DecidesSchema formats schemas (coerceRecursive formats schemas (remaining + 1)) schema
      (.map entries) pathPrefix onPath := by
  have unfolds : ∀ entries, coerceRecursive formats schemas (remaining + 1) (.map entries) schema
      pathPrefix onPath =
        (schema.fields.foldlM (coerceField formats schemas (coerceRecursive formats schemas remaining)
          entries pathPrefix onPath) entries >>= fun out => .ok (.map out)) := fun _ => rfl
  have meets : SchemaOverflows formats schemas schema (.map entries) ↔
      Meets (FitsField schemas (Encodes formats) entries) (FieldOverflows formats schemas entries)
        schema.fields := by
    constructor
    · intro spills
      cases spills with
      | object parts earlier found inside => exact ⟨_, _, _, parts, earlier, _, found, inside⟩
    · rintro ⟨before, field, after, parts, earlier, value, found, inside⟩
      exact .object parts earlier found inside
  unfold DecidesSchema
  rw [unfolds]
  rcases foldlM_coerceField distinct each (fun _ _ => rfl : ∀ field ∈ schema.fields,
      entries.get? field.name = entries.get? field.name) with
    ⟨after, done, keys, rest, fits, safe, settled⟩ | ⟨panics, spills⟩ |
    ⟨fault, fails, answer, safe, field, member, violates⟩
  · rw [done]
    refine .accepted (fitsSchema_map.mpr fits) ?_ ⟨?_, by simp, keys, rest⟩ ?_
    · exact fun spills => safe (meets.mp spills)
    · exact fitsSchema_map.mpr fun field member => (settled field member).1
    · rw [unfolds, foldlM_settled settled]
      rfl
  · rw [panics]
    exact .panicked (meets.mpr spills)
  · rw [fails]
    exact .refused (fun holds => violates (fitsSchema_map.mp holds field member))
      (fun spills => safe (meets.mp spills)) answer

theorem decidesSchema_other {remaining : Nat} {schema : SchemaDefinition} {onPath : List String}
    (pathPrefix : String) {value : Value} (notMap : ∀ entries, value ≠ .map entries) :
    DecidesSchema formats schemas (coerceRecursive formats schemas (remaining + 1)) schema
      value pathPrefix onPath := by
  have empty : coerceRecursive formats schemas (remaining + 1) .null schema pathPrefix onPath =
      coerceNull formats schema pathPrefix := rfl
  unfold DecidesSchema
  cases value with
  | map entries => exact absurd rfl (notMap entries)
  | null =>
      rw [empty]
      generalize ends : coerceNull formats schema pathPrefix = result
      unfold coerceNull at ends
      split at ends
      · rename_i field missing
        subst ends
        apply decides_error422
        · intro holds
          cases holds with
          | null optional =>
              have needed := List.find?_some missing
              simp [optional field (List.mem_of_find?_eq_some missing)] at needed
        · intro spills
          cases spills
      · rename_i none
        have optional : ∀ field ∈ schema.fields, field.optional = true := by
          intro field member
          simpa using List.find?_eq_none.mp none field member
        have stays : coerceNull formats schema pathPrefix = .ok .null := by
          unfold coerceNull
          rw [none]
        subst ends
        exact .accepted (.null optional) (fun spills => by cases spills) ⟨.null optional, id, rfl⟩
          (empty.trans stays)
  | _ =>
      apply decides_error422
      · intro holds
        cases holds
      · intro spills
        cases spills

/-! ## The whole value -/

theorem decidesType {remaining : Nat} {onPath : List String} {type : SchemaType}
    (inner : ∀ name ∈ type.references, ∀ schema, schemas.lookup name = some schema →
      schema.dbTable = none → ∀ value path,
        ¬ Stops schemas remaining (onPath ++ [name]) schema value →
          DecidesSchema formats schemas (coerceRecursive formats schemas remaining) schema value path
            (onPath ++ [name]))
    {value : Value} (goes : ¬ StopsIn schemas (Stops schemas remaining) onPath type value)
    (path : String) :
    DecidesType formats schemas (coerceRecursive formats schemas remaining) type value path
      onPath := by
  induction type generalizing value path with
  | reference name =>
      apply decidesType_reference
      · exact fun schema found plain visited => goes ⟨schema, found, plain, .inl visited⟩
      · intro schema found plain
        exact inner name List.mem_cons_self schema found plain value path fun stops =>
          goes ⟨schema, found, plain, .inr stops⟩
  | typedList element ih =>
      apply decidesType_list
      rintro items rfl item member path
      exact ih inner (fun stops => goes ⟨item, member, stops⟩) path
  | _ =>
      apply decidesType_scalar
      rfl

theorem mem_references {schema : SchemaDefinition} {field : SchemaField}
    (member : field ∈ schema.fields) {name : String} (refers : name ∈ field.fieldType.references) :
    name ∈ schema.references :=
  List.mem_flatMap.mpr ⟨field, member, refers⟩

/-- The check of a schema, at the end of a chain of references that leads to it. -/
theorem decidesSchema {root : String} (fields : FieldsDistinct schemas root)
    {remaining length : Nat} {name : String} {schema : SchemaDefinition}
    (found : schemas.lookup name = some schema) (chain : EmbedChain schemas length root name)
    {onPath : List String} {value : Value} (goes : ¬ Stops schemas remaining onPath schema value)
    (pathPrefix : String) :
    DecidesSchema formats schemas (coerceRecursive formats schemas remaining) schema value
      pathPrefix onPath := by
  induction remaining generalizing length name schema onPath value pathPrefix with
  | zero => exact absurd trivial goes
  | succ remaining ih =>
      cases value with
      | map entries =>
          apply decidesSchema_map (fields length name schema chain found)
          intro field member value here filled
          apply decidesType
          · intro next refers target known plain value path goes
            have link : EmbedLink schemas name next :=
              ⟨schema, target, found, mem_references member refers, known, plain⟩
            exact ih known (.tail chain link) goes path
          · exact fun stops => goes ⟨field, member, value, here, filled, stops⟩
      | _ => exact decidesSchema_other pathPrefix (by simp)

/-! ## Depth -/

theorem chain_trans {first last : Nat} {root name next : String}
    (before : EmbedChain schemas first root name) (after : EmbedChain schemas last name next) :
    EmbedChain schemas (first + last) root next := by
  induction after with
  | refl => exact before
  | tail _ link ih => exact .tail (ih before) link

theorem chain_of_reaches {name next : String}
    (reaches : Relation.ReflTransGen (EmbedLink schemas) name next) :
    ∃ length, EmbedChain schemas length name next := by
  induction reaches with
  | refl => exact ⟨0, .refl name⟩
  | tail _ link ih =>
      obtain ⟨length, chain⟩ := ih
      exact ⟨length + 1, .tail chain link⟩

/-- A cycle would make chains of any length. -/
theorem not_mem_of_link {root : String} (below : Below schemas root) {length : Nat}
    {name next : String} (chain : EmbedChain schemas length root name)
    (link : EmbedLink schemas name next)
    (back : Relation.ReflTransGen (EmbedLink schemas) next name) : False := by
  obtain ⟨around, back⟩ := chain_of_reaches back
  have rounds : ∀ count, ∃ long, count ≤ long ∧ EmbedChain schemas long root name := by
    intro count
    induction count with
    | zero => exact ⟨length, Nat.zero_le _, chain⟩
    | succ count ih =>
        obtain ⟨long, enough, chain⟩ := ih
        exact ⟨long + 1 + around, by omega, chain_trans (.tail chain link) back⟩
  obtain ⟨long, enough, chain⟩ := rounds (maxDepth + 1)
  have short := below.short long name chain
  omega

theorem not_stopsIn {remaining : Nat} {onPath : List String} {type : SchemaType}
    (inner : ∀ name ∈ type.references, ∀ schema, schemas.lookup name = some schema →
      schema.dbTable = none → name ∉ onPath ∧
        ∀ value, ¬ Stops schemas remaining (onPath ++ [name]) schema value) (value : Value) :
    ¬ StopsIn schemas (Stops schemas remaining) onPath type value := by
  intro stops
  induction type generalizing value with
  | reference name =>
      obtain ⟨schema, found, plain, visited | stops⟩ := stops
      · exact (inner name List.mem_cons_self schema found plain).1 visited
      · exact (inner name List.mem_cons_self schema found plain).2 value stops
  | typedList element ih =>
      cases value with
      | list items =>
          obtain ⟨item, -, stops⟩ := stops
          exact ih inner item stops
      | _ => cases stops
  | _ => cases value <;> cases stops

/-- Where the chains of schemas are short, no value stops the validator. -/
theorem not_stops_of_below {root : String} (below : Below schemas root)
    {remaining length : Nat} {name : String} {schema : SchemaDefinition}
    (found : schemas.lookup name = some schema) (chain : EmbedChain schemas length root name)
    (deep : length + remaining = maxDepth + 1) {onPath : List String}
    (path : ∀ other ∈ onPath, Relation.ReflTransGen (EmbedLink schemas) other name)
    (value : Value) : ¬ Stops schemas remaining onPath schema value := by
  induction remaining generalizing length name schema onPath value with
  | zero =>
      have short := below.short length name chain
      omega
  | succ remaining ih =>
      intro stops
      cases value with
      | map entries =>
          obtain ⟨field, member, value, -, -, stops⟩ := stops
          refine not_stopsIn (fun next refers target known plain => ?_) value stops
          have link : EmbedLink schemas name next :=
            ⟨schema, target, found, mem_references member refers, known, plain⟩
          constructor
          · exact fun visited => not_mem_of_link below chain link (path next visited)
          · apply ih known (.tail chain link) (by omega)
            intro other visited
            rcases List.mem_append.mp visited with visited | single
            · exact (path other visited).tail link
            · rw [List.mem_singleton.mp single]
      | _ => cases stops

end Validator

/-- The check of a payload that does not stop it, against a schema. -/
theorem coercePayload_decides (formats : ValueFormats) {schemas : Schemas} {name : String}
    (fields : FieldsDistinct schemas name) {schema : SchemaDefinition}
    (found : schemas.lookup name = some schema) {payload : Value}
    (within : WithinDepth schemas schema payload) :
    Decides (Conforms formats schemas schema payload) (SchemaOverflows formats schemas schema payload)
      (fun result => FitsSchema schemas HasType schema result ∧
        (payload ≠ .null → result ≠ .null) ∧ KeepsUndeclared schema payload result)
      (fun result => coercePayload formats result schema schemas = .ok result)
      (coercePayload formats payload schema schemas) :=
  Validator.decidesSchema fields found (.refl name) within ""

theorem Below.withinDepth {schemas : Schemas} {name : String} (below : Below schemas name)
    {schema : SchemaDefinition} (found : schemas.lookup name = some schema) (payload : Value) :
    WithinDepth schemas schema payload :=
  Validator.not_stops_of_below below found (.refl name) (Nat.zero_add _) (by simp) payload

/-- The check of a payload against a schema, whatever else the registry holds. -/
theorem coercePayload_decides_below (formats : ValueFormats) {schemas : Schemas} {name : String}
    (below : Below schemas name) {schema : SchemaDefinition}
    (found : schemas.lookup name = some schema) (payload : Value) :
    Decides (Conforms formats schemas schema payload) (SchemaOverflows formats schemas schema payload)
      (fun result => FitsSchema schemas HasType schema result ∧
        (payload ≠ .null → result ≠ .null) ∧ KeepsUndeclared schema payload result)
      (fun result => coercePayload formats result schema schemas = .ok result)
      (coercePayload formats payload schema schemas) :=
  coercePayload_decides formats below.fields found (below.withinDepth found payload)

/-- The validator does what it promises on a payload exactly when it meets no
duration that is too long. -/
theorem payloadChecked_iff (formats : ValueFormats) {schemas : Schemas}
    {name : String} (registry : Registry schemas) (fields : FieldsDistinct schemas name)
    {schema : SchemaDefinition} (found : schemas.lookup name = some schema) (payload : Value) :
    PayloadChecked formats schemas schema payload ↔
      ¬ SchemaOverflows formats schemas schema payload := by
  have decides := coercePayload_decides_below formats (registry.below fields) found payload
  generalize ends : coercePayload formats payload schema schemas = outcome at decides
  cases decides with
  | accepted conforming safe typed stays =>
      rename_i result
      have only : ∀ other, coercePayload formats payload schema schemas = .ok other →
          other = result := by
        intro other same
        rw [ends, Except.ok.injEq] at same
        exact same.symm
      refine iff_of_true ⟨?_, ?_, ?_, ?_, ?_⟩ safe
      · exact iff_of_true ⟨result, ends⟩ conforming
      · intro other same
        rw [only other same]
        exact typed.2.2
      · intro other same
        rw [only other same]
        exact typed.1
      · intro other same
        rw [only other same]
        exact stays
      · intro fault same
        rw [ends] at same
        cases same
  | panicked spills =>
      refine iff_of_false (fun checked => ?_) (not_not_intro spills)
      obtain ⟨body, same⟩ := checked.refuses .panic ends
      cases same
  | refused violates safe answer =>
      have never : ∀ result, coercePayload formats payload schema schemas ≠ .ok result := by
        intro result same
        rw [ends] at same
        cases same
      refine iff_of_true ⟨?_, ?_, ?_, ?_, ?_⟩ safe
      · refine iff_of_false ?_ violates
        rintro ⟨result, same⟩
        exact never result same
      · exact fun result same => absurd same (never result)
      · exact fun result same => absurd same (never result)
      · exact fun result same => absurd same (never result)
      · intro fault same
        rw [ends, Except.error.injEq] at same
        rw [← same]
        exact answer

/-! ## A registry with two schemas -/

/-- No text is read as a decimal or as a time. -/
def bareFormats : ValueFormats where
  parseDecimal _ := none
  parseInstant _ := none
  parseDate _ := none
  parseTime _ := none
  jsonString text := "\"" ++ text ++ "\""

def deviceSchema : SchemaDefinition where
  dbTable := none
  fields := [⟨"name", .stringType, false⟩]

def sessionSchema : SchemaDefinition where
  dbTable := none
  fields := [⟨"ttl", .durationType, false⟩, ⟨"device", .reference "Device", true⟩]

def sessionSchemas : Schemas := [("Session", sessionSchema), ("Device", deviceSchema)]

theorem sessionSchemas_link {name next : String} (link : EmbedLink sessionSchemas name next) :
    name = "Session" ∧ next = "Device" := by
  obtain ⟨schema, target, found, refers, -, -⟩ := link
  have entry := Table.mem_of_lookup found
  simp only [sessionSchemas, List.mem_cons, Prod.mk.injEq, List.not_mem_nil, or_false] at entry
  rcases entry with ⟨rfl, rfl⟩ | ⟨rfl, rfl⟩
  · exact ⟨rfl, by simpa [SchemaDefinition.references, sessionSchema, SchemaType.references]
      using refers⟩
  · simp [SchemaDefinition.references, deviceSchema, SchemaType.references] at refers

theorem sessionSchemas_chain {length : Nat} {first last : String}
    (chain : EmbedChain sessionSchemas length first last) : length ≤ 1 := by
  cases chain with
  | refl => exact Nat.zero_le 1
  | tail before link =>
      cases before with
      | refl => exact le_refl 1
      | tail _ earlier =>
          have last := (sessionSchemas_link earlier).2
          rw [(sessionSchemas_link link).1] at last
          simp at last

theorem sessionSchemas_registry : Registry sessionSchemas where
  distinct := by decide
  acyclic := by decide +kernel
  short _ _ _ chain := (sessionSchemas_chain chain).trans (by decide)

theorem sessionSchemas_fieldsDistinct : FieldsDistinct sessionSchemas "Session" := by
  intro _ last schema _ found
  have distinct : ∀ entry ∈ sessionSchemas, (entry.2.fields.map (·.name)).Nodup := by decide
  exact distinct _ (Table.mem_of_lookup found)

def sessionPayload (millis : Int64) : Value :=
  .map [("ttl", .integer millis), ("device", .map [("name", .string "phone")])]

theorem sessionPayload_checked :
    PayloadChecked bareFormats sessionSchemas sessionSchema (sessionPayload 1500) := by
  apply (@payloadChecked_iff bareFormats _ "Session" sessionSchemas_registry
    sessionSchemas_fieldsDistinct _ rfl _).mpr
  intro spills
  cases spills with
  | @object _ _ _ _ field _ parts _ found inside =>
      have member : field ∈ sessionSchema.fields := by
        rw [parts]
        simp
      simp only [sessionSchema, List.mem_cons, List.not_mem_nil, or_false] at member
      rcases member with rfl | rfl
      · cases inside with
        | duration least =>
            cases found
            revert least
            decide
      · cases inside with
        | embedded known _ deeper =>
            cases known
            cases found
            cases deeper with
            | @object _ _ _ _ field _ parts _ _ inside =>
                have member : field ∈ deviceSchema.fields := by
                  rw [parts]
                  simp
                rw [List.mem_singleton.mp member] at inside
                cases inside

/-- The least number of milliseconds of an integer is no duration. -/
theorem sessionPayload_aborts :
    Registry sessionSchemas ∧ FieldsDistinct sessionSchemas "Session" ∧
      sessionSchemas.lookup "Session" = some sessionSchema ∧
      coercePayload bareFormats (sessionPayload Int64.minValue) sessionSchema sessionSchemas =
        .error .panic ∧
      ¬ PayloadChecked bareFormats sessionSchemas sessionSchema
        (sessionPayload Int64.minValue) := by
  have aborts : coercePayload bareFormats (sessionPayload Int64.minValue) sessionSchema
      sessionSchemas = .error .panic := by
    rfl
  refine ⟨sessionSchemas_registry, sessionSchemas_fieldsDistinct, rfl, aborts, ?_⟩
  intro checked
  obtain ⟨body, same⟩ := checked.refuses .panic aborts
  cases same

end Marreta
