import Marreta.Runtime.Evaluate
import Marreta.Runtime.Names

namespace Marreta

open Foundation

/-! Two runs side by side.

Two interpreters run the same actions on environments that differ in what lies
below the scopes of the running body.  As long as the run only reads names that
stand for the same values in both, and only assigns names that both resolve alike,
it ends alike. -/

/-! ## Environments -/

/-- What two environments have in common.  The scopes above `height` are the same.
The scopes of the first one above `floor` belong to the running body, and what they
bind has the same value in both.  Other names that are not `hidden` stand for the
same values, and names that are not `loose` are bound in scopes of both or of
neither. -/
structure Ground where
  floor : Nat
  height : Nat
  hidden : String → Prop
  loose : String → Prop

open Environment (lookupScopes updateScopes)

/-- The lower scopes of two environments: those of the body and the rest of the
first, and all of the second. -/
structure Level (ground : Ground) (own rest : List ValueMap) (base : ValueMap)
    (low : List ValueMap) (otherBase : ValueMap) : Prop where
  own_ne_nil : own ≠ []
  low_ne_nil : low ≠ []
  floor : rest.length = ground.floor
  height : (own ++ rest).length = ground.height
  reads : ∀ name, (ground.hidden name → (lookupScopes own name).isSome = true) →
    (lookupScopes (own ++ rest) name).or (base.get? name) =
      (lookupScopes low name).or (otherBase.get? name)
  binds : ∀ name, (ground.loose name → (lookupScopes own name).isSome = true) →
    (lookupScopes (own ++ rest) name).isSome = (lookupScopes low name).isSome

def Alike (ground : Ground) (one other : Environment) : Prop :=
  ∃ inner own rest low, one.scopes = inner ++ (own ++ rest) ∧ other.scopes = inner ++ low ∧
    Level ground own rest one.base low other.base

namespace Environment

/-- The scopes above a height. -/
def above (env : Environment) (height : Nat) : List ValueMap :=
  env.scopes.take (env.depth - height)

theorem above_eq {env : Environment} {inner low : List ValueMap}
    (parts : env.scopes = inner ++ low) : env.above low.length = inner := by
  simp [above, depth, parts]

theorem scopes_set (env : Environment) (name : String) (value : Value) :
    (env.set name value).scopes = env.scope.insert name value :: env.outer := rfl

theorem scopes_popScope (env : Environment) :
    env.popScope.scopes = if env.outer = [] then env.scopes else env.outer := by
  unfold popScope
  cases outer : env.outer <;> simp [scopes, outer]

/-- What an assignment makes of the scopes. -/
theorem scopes_update (env : Environment) (name : String) (value : Value) :
    (env.update name value).scopes =
      match updateScopes name value env.scopes with
      | some (updated, _) => updated
      | none => (env.set name value).scopes := by
  unfold update
  rcases found : updateScopes name value env.scopes with _ | ⟨_ | ⟨scope, outer⟩, height⟩
  · rfl
  · have length := (lookup_updateScopes found).1
    simp [scopes] at length
  · rfl

theorem base_update (env : Environment) (name : String) (value : Value) :
    (env.update name value).base = env.base := by
  unfold update
  rcases updateScopes name value env.scopes with _ | ⟨_ | ⟨scope, outer⟩, height⟩ <;> rfl

theorem lookup_set (env : Environment) (name : String) (value : Value) (other : String) :
    lookupScopes (env.set name value).scopes other =
      if other = name then some value else lookupScopes env.scopes other := by
  rw [scopes_set, scopes, lookupScopes_cons, lookupScopes_cons, ValueMap.get?_insert]
  by_cases same : other = name
  · simp [same]
  · simp [same]

theorem lookup_update (env : Environment) (name : String) (value : Value) (other : String) :
    lookupScopes (env.update name value).scopes other =
      if other = name then some value else lookupScopes env.scopes other := by
  rw [scopes_update]
  cases found : updateScopes name value env.scopes with
  | none => exact lookup_set env name value other
  | some reached => exact (lookup_updateScopes found).2 other

theorem lookup_or_get (env : Environment) (name : String) :
    (lookupScopes env.scopes name).or (env.get name) = env.get name := by
  rw [get_eq]
  cases lookupScopes env.scopes name <;> rfl

theorem depth_set (env : Environment) (name : String) (value : Value) :
    (env.set name value).depth = env.depth := rfl

theorem depth_update (env : Environment) (name : String) (value : Value) :
    (env.update name value).depth = env.depth := by
  rw [depth, scopes_update]
  cases found : updateScopes name value env.scopes with
  | some reached => exact (lookup_updateScopes found).1
  | none => rfl

end Environment

/-- The running body has bound the name itself. -/
def Ground.Own (ground : Ground) (env : Environment) (name : String) : Prop :=
  (lookupScopes (env.above ground.floor) name).isSome = true

/-- Names the run may read. -/
def Ground.MayRead (ground : Ground) (env : Environment) (name : String) : Prop :=
  ground.hidden name → ground.Own env name

/-- Names the run may assign.  Outside nested bodies, these are all: what is
assigned there is found again. -/
def Ground.MayAssign (ground : Ground) (env : Environment) (name : String) : Prop :=
  ground.loose name → ground.Own env name ∨ env.depth = ground.height

/-- One name is written in the lower scopes of an environment. -/
structure Wrote (name : String) (value : Value) (own rest next nextRest : List ValueMap) :
    Prop where
  length : next.length = own.length
  restLength : nextRest.length = rest.length
  keeps : ∀ other, other ≠ name → lookupScopes next other = lookupScopes own other
  lookup : ∀ other, lookupScopes (next ++ nextRest) other =
    if other = name then some value else lookupScopes (own ++ rest) other

namespace Wrote

variable {name : String} {value : Value} {own rest : List ValueMap}

theorem of_head (scope : ValueMap) (name : String) (value : Value) (own rest : List ValueMap) :
    Wrote name value (scope :: own) rest (scope.insert name value :: own) rest where
  length := rfl
  restLength := rfl
  keeps other differs := by
    rw [Environment.lookupScopes_cons, Environment.lookupScopes_cons, ValueMap.get?_insert,
      if_neg differs]
  lookup other := by
    rw [List.cons_append, List.cons_append, Environment.lookupScopes_cons,
      Environment.lookupScopes_cons, ValueMap.get?_insert]
    by_cases same : other = name
    · simp [same]
    · simp [same]

theorem of_updateScopes {updated : List ValueMap} {height : Nat}
    (done : updateScopes name value (own ++ rest) = some (updated, height)) :
    ∃ next nextRest, updated = next ++ nextRest ∧ Wrote name value own rest next nextRest := by
  have written := Environment.lookup_updateScopes done
  rw [Environment.updateScopes_append] at done
  cases found : updateScopes name value own with
  | some reached =>
      rw [found] at done
      obtain ⟨rfl, rfl⟩ := Prod.mk.inj (Option.some.inj done)
      obtain ⟨length, lookups⟩ := Environment.lookup_updateScopes found
      exact ⟨reached.1, rest, rfl, length, rfl, fun other differs => by simp [lookups, differs],
        written.2⟩
  | none =>
      rw [found] at done
      obtain ⟨reached, innerDone, same⟩ := Option.map_eq_some_iff.mp done
      obtain ⟨rfl, rfl⟩ := Prod.mk.inj same
      exact ⟨own, reached.1, rfl, rfl, (Environment.lookup_updateScopes innerDone).1,
        fun other differs => rfl, written.2⟩

theorem of_update {env : Environment} (parts : env.scopes = own ++ rest) (some : own ≠ [])
    (name : String) (value : Value) :
    ∃ next nextRest, (env.update name value).scopes = next ++ nextRest ∧
      Wrote name value own rest next nextRest := by
  rw [Environment.scopes_update, parts]
  cases found : updateScopes name value (own ++ rest) with
  | some reached => exact of_updateScopes found
  | none =>
      obtain ⟨scope, own, rfl⟩ := List.exists_cons_of_ne_nil some
      rw [Environment.scopes, List.cons_append, List.cons.injEq] at parts
      refine ⟨_, rest, ?_, of_head scope name value own rest⟩
      simp only [Environment.scopes_set, parts.1, parts.2, List.cons_append]

end Wrote

/-- The same name is given the same value on both sides. -/
theorem Level.write {ground : Ground} {own rest low next nextRest otherNext : List ValueMap}
    {base otherBase : ValueMap} {name : String} {value : Value}
    (level : Level ground own rest base low otherBase)
    (wrote : Wrote name value own rest next nextRest) (otherLength : otherNext.length = low.length)
    (otherLookup : ∀ other, lookupScopes otherNext other =
      if other = name then some value else lookupScopes low other) :
    Level ground next nextRest base otherNext otherBase where
  own_ne_nil := by
    have some := level.own_ne_nil
    rwa [← List.length_pos_iff, ← wrote.length, List.length_pos_iff] at some
  low_ne_nil := by
    have some := level.low_ne_nil
    rwa [← List.length_pos_iff, ← otherLength, List.length_pos_iff] at some
  floor := wrote.restLength.trans level.floor
  height := by
    rw [← level.height, List.length_append, List.length_append, wrote.length, wrote.restLength]
  reads other visible := by
    rw [wrote.lookup, otherLookup]
    by_cases same : other = name
    · simp [same]
    · rw [wrote.keeps other same] at visible
      simpa [same] using level.reads other visible
  binds other firm := by
    rw [wrote.lookup, otherLookup]
    by_cases same : other = name
    · simp [same]
    · rw [wrote.keeps other same] at firm
      simpa [same] using level.binds other firm

namespace Alike

variable {ground : Ground} {one other : Environment}

theorem get (alike : Alike ground one other) {name : String}
    (may : ground.MayRead one name) : one.get name = other.get name := by
  obtain ⟨inner, own, rest, low, parts, otherParts, level⟩ := alike
  have above := Environment.above_eq (parts.trans (List.append_assoc _ _ _).symm)
  rw [level.floor] at above
  rw [Ground.MayRead, Ground.Own, above, Environment.lookupScopes_append] at may
  rw [Environment.get_eq, Environment.get_eq, parts, otherParts,
    Environment.lookupScopes_append inner (own ++ rest), Environment.lookupScopes_append inner low,
    Option.or_assoc, Option.or_assoc]
  cases found : lookupScopes inner name with
  | some value => rfl
  | none =>
      rw [found, Option.none_or] at may
      exact level.reads name may

theorem set (alike : Alike ground one other) (name : String) (value : Value) :
    Alike ground (one.set name value) (other.set name value) := by
  obtain ⟨inner, own, rest, low, parts, otherParts, level⟩ := alike
  cases inner with
  | cons scope inner =>
      rw [Environment.scopes, List.cons_append, List.cons.injEq] at parts otherParts
      refine ⟨scope.insert name value :: inner, own, rest, low, ?_, ?_, level⟩
      · rw [Environment.scopes_set, parts.1, parts.2, List.cons_append]
      · rw [Environment.scopes_set, otherParts.1, otherParts.2, List.cons_append]
  | nil =>
      rw [List.nil_append] at parts otherParts
      obtain ⟨scope, own, rfl⟩ := List.exists_cons_of_ne_nil level.own_ne_nil
      rw [Environment.scopes, List.cons_append, List.cons.injEq] at parts
      refine ⟨[], scope.insert name value :: own, rest, (other.set name value).scopes, ?_, rfl, ?_⟩
      · rw [Environment.scopes_set, parts.1, parts.2]
        rfl
      · subst otherParts
        exact level.write (.of_head scope name value own rest) (other.depth_set name value)
          (other.lookup_set name value)

theorem enter (alike : Alike ground one other) (bindings : List (String × Value)) :
    Alike ground (one.pushScope.setAll bindings) (other.pushScope.setAll bindings) := by
  obtain ⟨inner, own, rest, low, parts, otherParts, level⟩ := alike
  refine ⟨ValueMap.insertAll [] bindings :: inner, own, rest, low, ?_, ?_, ?_⟩
  · rw [Environment.scopes_enter, parts, List.cons_append]
  · rw [Environment.scopes_enter, otherParts, List.cons_append]
  · rwa [Environment.base_enter, Environment.base_enter]

theorem abandon (alike : Alike ground one other) : Alike ground one.abandon other.abandon :=
  alike

/-- A scope of the run is removed. -/
theorem popScope (alike : Alike ground one other) (tall : ground.height < one.depth) :
    Alike ground one.popScope other.popScope := by
  obtain ⟨inner, own, rest, low, parts, otherParts, level⟩ := alike
  cases inner with
  | nil =>
      rw [Environment.depth, parts, List.nil_append, level.height] at tall
      exact absurd tall (lt_irrefl _)
  | cons scope inner =>
      rw [Environment.scopes, List.cons_append, List.cons.injEq] at parts otherParts
      have more : one.outer ≠ [] := by simp [parts.2, level.own_ne_nil]
      have otherMore : other.outer ≠ [] := by simp [otherParts.2, level.low_ne_nil]
      refine ⟨inner, own, rest, low, ?_, ?_, ?_⟩
      · rw [Environment.scopes_popScope, if_neg more, parts.2]
      · rw [Environment.scopes_popScope, if_neg otherMore, otherParts.2]
      · rwa [base_popScope, base_popScope]
where
  base_popScope (env : Environment) : env.popScope.base = env.base := by
    unfold Environment.popScope
    cases env.outer <;> rfl

/-- Only scopes and base count. -/
theorem congr {one' other' : Environment} (alike : Alike ground one other)
    (scopes : one'.scopes = one.scopes) (base : one'.base = one.base)
    (otherScopes : other'.scopes = other.scopes) (otherBase : other'.base = other.base) :
    Alike ground one' other' := by
  obtain ⟨inner, own, rest, low, parts, otherParts, level⟩ := alike
  refine ⟨inner, own, rest, low, scopes.trans parts, otherScopes.trans otherParts, ?_⟩
  rwa [base, otherBase]

/-- More names may be set aside. -/
theorem mono {wider : Ground} (alike : Alike ground one other)
    (floor : wider.floor = ground.floor) (height : wider.height = ground.height)
    (hidden : ∀ name, ground.hidden name → wider.hidden name)
    (loose : ∀ name, ground.loose name → wider.loose name) : Alike wider one other := by
  obtain ⟨inner, own, rest, low, parts, otherParts, level⟩ := alike
  refine ⟨inner, own, rest, low, parts, otherParts, level.own_ne_nil, level.low_ne_nil,
    level.floor.trans floor.symm, level.height.trans height.symm, ?_, ?_⟩
  · intro name visible
    exact level.reads name fun is => visible (hidden name is)
  · intro name firm
    exact level.binds name fun is => firm (loose name is)

/-- An assignment outside nested bodies. -/
theorem update_flat (alike : Alike ground one other) (flat : one.depth = ground.height)
    (name : String) (value : Value) :
    Alike ground (one.update name value) (other.update name value) := by
  obtain ⟨inner, own, rest, low, parts, otherParts, level⟩ := alike
  have outside : inner = [] := by
    rw [Environment.depth, parts, List.length_append, level.height] at flat
    exact List.length_eq_zero_iff.mp (by omega)
  subst outside
  rw [List.nil_append] at parts otherParts
  obtain ⟨next, nextRest, updated, wrote⟩ := Wrote.of_update parts level.own_ne_nil name value
  refine ⟨[], next, nextRest, (other.update name value).scopes, updated, rfl, ?_⟩
  rw [Environment.base_update, Environment.base_update]
  subst otherParts
  exact level.write wrote (other.depth_update name value) (other.lookup_update name value)

theorem update (alike : Alike ground one other) {name : String}
    (may : ground.MayAssign one name) (value : Value) :
    Alike ground (one.update name value) (other.update name value) := by
  by_cases flat : one.depth = ground.height
  · exact alike.update_flat flat name value
  obtain ⟨inner, own, rest, low, parts, otherParts, level⟩ := id alike
  have above := Environment.above_eq (parts.trans (List.append_assoc _ _ _).symm)
  rw [level.floor] at above
  rw [Ground.MayAssign, or_iff_left flat, Ground.Own, above, Environment.lookupScopes_append] at may
  have scopesOne := one.scopes_update name value
  have scopesOther := other.scopes_update name value
  rw [parts, Environment.updateScopes_append] at scopesOne
  rw [otherParts, Environment.updateScopes_append] at scopesOther
  cases found : updateScopes name value inner with
  | some reached =>
      -- A nested body has the name.
      rw [found] at scopesOne scopesOther
      refine ⟨reached.1, own, rest, low, scopesOne, scopesOther, ?_⟩
      rwa [Environment.base_update, Environment.base_update]
  | none =>
      rw [found] at scopesOne scopesOther
      rw [Environment.updateScopes_none.mp found, Option.none_or] at may
      have bound := level.binds name may
      cases lower : updateScopes name value (own ++ rest) with
      | none =>
          rw [Environment.updateScopes_none.mp lower, Option.isSome_none, eq_comm,
            Option.isSome_eq_false_iff, Option.isNone_iff_eq_none] at bound
          rw [lower] at scopesOne
          rw [Environment.updateScopes_none.mpr bound] at scopesOther
          exact (alike.set name value).congr scopesOne (one.base_update name value)
            scopesOther (other.base_update name value)
      | some reached =>
          cases otherLower : updateScopes name value low with
          | none =>
              rw [Environment.updateScopes_none.mp otherLower, Option.isSome_none,
                Option.isSome_eq_false_iff, Option.isNone_iff_eq_none] at bound
              rw [Environment.updateScopes_none.mpr bound] at lower
              cases lower
          | some otherReached =>
              rw [lower] at scopesOne
              rw [otherLower] at scopesOther
              obtain ⟨next, nextRest, parted, wrote⟩ := Wrote.of_updateScopes lower
              obtain ⟨otherLength, otherLookup⟩ := Environment.lookup_updateScopes otherLower
              refine ⟨inner, next, nextRest, otherReached.1, ?_, scopesOther, ?_⟩
              · rw [← parted]
                exact scopesOne
              · rw [Environment.base_update, Environment.base_update]
                exact level.write wrote otherLength otherLookup

/-- A scope of both has the name, or of neither. -/
theorem bound_eq (alike : Alike ground one other) {name : String}
    (firm : ground.loose name → ground.Own one name) :
    (lookupScopes one.scopes name).isSome = (lookupScopes other.scopes name).isSome := by
  obtain ⟨inner, own, rest, low, parts, otherParts, level⟩ := alike
  have above := Environment.above_eq (parts.trans (List.append_assoc _ _ _).symm)
  rw [level.floor] at above
  rw [Ground.Own, above, Environment.lookupScopes_append] at firm
  rw [parts, otherParts, Environment.lookupScopes_append inner (own ++ rest),
    Environment.lookupScopes_append inner low]
  cases found : lookupScopes inner name with
  | some value => rfl
  | none =>
      rw [found, Option.none_or] at firm
      exact level.binds name firm

theorem lookup_eq (alike : Alike ground one other) {name : String}
    (may : ground.MayRead one name) (firm : ground.loose name → ground.Own one name) :
    lookupScopes one.scopes name = lookupScopes other.scopes name := by
  have reads := alike.get may
  have bound := alike.bound_eq firm
  rw [Environment.get_eq, Environment.get_eq] at reads
  cases found : lookupScopes one.scopes name <;>
    cases otherFound : lookupScopes other.scopes name <;> simp_all

end Alike

theorem Ground.Own.isSome {ground : Ground} {env : Environment} {name : String}
    (own : ground.Own env name) : (lookupScopes env.scopes name).isSome = true := by
  rw [← List.take_append_drop (env.depth - ground.floor) env.scopes,
    Environment.lookupScopes_append]
  rw [Own, Environment.above] at own
  simp [own]

/-! ## Tasks of other modules -/

/-- The environments of a module in two projects: the same, when the projects are
`shared`, or at least with the same meaning for each name. -/
def SameModule (shared : Prop) (base base' : Environment) : Prop :=
  (∀ name, base.get name = base'.get name) ∧ (shared → base = base')

/-- What a task of another module has in common in both runs.  The scopes of the
caller are copied between its own scope and those of the module, so a name counts
as hidden when the copies differ on it. -/
def Ground.descend (shared : Prop) (ground : Ground) (env base : Environment) : Ground where
  floor := base.depth + 1
  height := base.depth + 2
  hidden name := ¬ ground.Own env name ∧
    (ground.hidden name ∨ ground.loose name ∧ env.get name ≠ base.get name)
  loose name := ¬ ground.Own env name ∧
    (ground.hidden name ∨ ground.loose name ∨ ¬ shared ∧ (base.get name).isSome = true)

namespace Alike

variable {shared : Prop} {ground : Ground} {one other base base' : Environment}

/-- Below the parameters, a task of another module finds the same values. -/
theorem copied_reads (alike : Alike ground one other) (related : SameModule shared base base')
    {name : String} (visible : ¬ (ground.descend shared one base).hidden name) :
    (lookupScopes one.scopes name).or (base.get name) =
      (lookupScopes other.scopes name).or (base'.get name) := by
  rw [← related.1 name]
  by_cases own : ground.Own one name
  · rw [alike.lookup_eq (fun _ => own) (fun _ => own)]
  · rw [Ground.descend, not_and] at visible
    obtain ⟨shown, firm⟩ := not_or.mp (visible own)
    by_cases loose : ground.loose name
    · have same : one.get name = base.get name := by
        by_contra differs
        exact firm ⟨loose, differs⟩
      have may : ground.MayRead one name := fun hidden => absurd hidden shown
      rw [← same, one.lookup_or_get, alike.get may, other.lookup_or_get]
    · rw [alike.lookup_eq (fun hidden => absurd hidden shown) (fun is => absurd is loose)]

theorem copied_binds (alike : Alike ground one other) (related : SameModule shared base base')
    {name : String} (firm : ¬ (ground.descend shared one base).loose name) :
    ((lookupScopes one.scopes name).or (lookupScopes base.scopes name)).isSome =
      ((lookupScopes other.scopes name).or (lookupScopes base'.scopes name)).isSome := by
  by_cases own : ground.Own one name
  · have bound := own.isSome
    have otherBound := alike.bound_eq fun _ => own
    rw [bound, eq_comm] at otherBound
    simp [bound, otherBound]
  · rw [Ground.descend, not_and] at firm
    obtain ⟨shown, tight⟩ := not_or.mp (firm own)
    obtain ⟨tight, known⟩ := not_or.mp tight
    have bound := alike.bound_eq fun loose => absurd loose tight
    have below : (lookupScopes base.scopes name).isSome = (lookupScopes base'.scopes name).isSome := by
      by_cases twin : shared
      · rw [related.2 twin]
      · have absent : base.get name = none := by simpa [twin] using known
        have otherAbsent := related.1 name
        rw [absent, eq_comm] at otherAbsent
        rw [Environment.get_eq, Option.or_eq_none_iff] at absent otherAbsent
        rw [absent.1, otherAbsent.1]
    simp [Option.isSome_or, bound, below]

/-- The environments of a task of another module. -/
theorem fork (alike : Alike ground one other) (related : SameModule shared base base')
    (bindings : List (String × Value)) :
    Alike (ground.descend shared one base)
      ((base.pushScope.setAll one.localVariables).pushScope.setAll bindings)
      ((base'.pushScope.setAll other.localVariables).pushScope.setAll bindings) := by
  refine ⟨[], [ValueMap.insertAll [] bindings],
    ValueMap.insertAll [] one.localVariables :: base.scopes,
    ValueMap.insertAll [] bindings :: ValueMap.insertAll [] other.localVariables :: base'.scopes,
    ?_, ?_, ?_⟩
  · rw [Environment.scopes_enter, Environment.scopes_enter]
    rfl
  · rw [Environment.scopes_enter, Environment.scopes_enter]
    rfl
  rw [Environment.base_enter, Environment.base_enter, Environment.base_enter,
    Environment.base_enter]
  refine ⟨by simp, by simp, rfl, rfl, fun name visible => ?_, fun name firm => ?_⟩
  · simp only [List.cons_append, List.nil_append, Environment.lookupScopes_cons,
      Environment.get?_insertAll_localVariables, Option.or_assoc]
    cases found : (ValueMap.insertAll [] bindings).get? name with
    | some value => rfl
    | none =>
        rw [Environment.lookupScopes_cons, found] at visible
        rw [Option.none_or, Option.none_or, ← Environment.get_eq, ← Environment.get_eq]
        exact alike.copied_reads related fun hidden => by simpa [lookupScopes] using visible hidden
  · simp only [List.cons_append, List.nil_append, Environment.lookupScopes_cons,
      Environment.get?_insertAll_localVariables]
    cases found : (ValueMap.insertAll [] bindings).get? name with
    | some value => rfl
    | none =>
        rw [Environment.lookupScopes_cons, found] at firm
        rw [Option.none_or, Option.none_or]
        exact alike.copied_binds related fun loose => by simpa [lookupScopes] using firm loose

end Alike

/-! ## Interpreters -/

/-- The interpreters differ in their environments only, and these are alike. -/
def Agree (ground : Ground) (one other : Interpreter) : Prop :=
  other = { one with env := other.env } ∧ Alike ground one.env other.env

/-- The ends of two runs that started with this many scopes. -/
def EndsAlike {α : Type} (ground : Ground) (depth : Nat)
    (one other : Except Fault α × Interpreter) : Prop :=
  one.1 = other.1 ∧ Agree ground one.2 other.2 ∧ depth ≤ one.2.env.depth

/-- What is computed of a state depends on the values of these names, and on
nothing else of its environment. -/
def DependsOn {β : Type*} (names : List String) (part : Interpreter → β) : Prop :=
  ∀ one other : Interpreter, other = { one with env := other.env } →
    (∀ name ∈ names, one.env.get name = other.env.get name) → part one = part other

/-- What is read of a state is a matter of names the run may read. -/
def Ground.Readable {β : Type*} (ground : Ground) (part : Interpreter → β)
    (state : Interpreter) : Prop :=
  ∃ names, DependsOn names part ∧ ∀ name ∈ names, ground.MayRead state.env name

theorem Ground.Readable.eq {β : Type*} {ground : Ground} {part : Interpreter → β}
    {one other : Interpreter} (readable : ground.Readable part one)
    (agree : Agree ground one other) : part one = part other := by
  obtain ⟨names, depends, may⟩ := readable
  exact depends one other agree.1 fun name member => agree.2.get (may name member)

namespace Action

/-- The part of the state that an action only reads. -/
def read? : {α : Type} → Action α → Option (Interpreter → α)
  | _, .reads part => some part
  | _, _ => none

section

variable (shared : Prop) (host : Host) (calls : Call → Run Interpreter Fault Value)
  (visits : Ground → Call → Interpreter → Prop)

/-- Every name that the run of the action reads or assigns is one it may.  What
follows a read counts as what is read. -/
def Along : {α : Type} → Action α → Ground → Interpreter → Prop
  | _, .bind first next, ground, state =>
      (match first.read? with
        | some part => ground.Readable (fun state => next (part state)) state
        | none => Along first ground state) ∧
      match run host calls first state with
      | (.ok value, after) => Along (next value) ground after
      | (.error _, _) => True
  | _, .reads part, ground, state => ground.Readable part state
  | _, .assign name _, ground, state => ground.MayAssign state.env name
  | _, .attempt body, ground, state | _, .branch body, ground, state => Along body ground state
  | _, .element bindings body, ground, state => Along body ground (state.enterScope bindings)
  | _, .rescue frames error body, ground, state =>
      Along body ground (state.enterRescue frames error)
  | _, .task entry body, ground, state => Along body ground (state.enterTask entry)
  | _, .fork owner base entry body, ground, state =>
      -- Without a project there are no other modules.
      ∃ env, base = some env ∧
        Along body (ground.descend shared state.env env) (state.enterFork owner env entry)
  | _, .isolated body, ground, state | _, .spawned body, ground, state =>
      Along body ground state.enterBranch
  | _, .transaction body, ground, state => Along body ground state.enterTransaction
  | _, .call target, ground, state => visits ground target state
  | _, _, _, _ => True

end

/-- Actions that are the same but for the environments of other modules. -/
inductive Matches (shared : Prop) :
    {α : Type} → Action α → Action α → Prop
  | pure {α : Type} (value : α) : Matches shared (.pure value) (.pure value)
  | bind {α β : Type} {first first' : Action α} {next next' : α → Action β}
      (head : Matches shared first first') (tail : ∀ value, Matches shared (next value) (next' value)) :
      Matches shared (.bind first next) (.bind first' next')
  | raise {α : Type} (error : MarretaError) : Matches shared (.raise error : Action α) (.raise error)
  | abort {α : Type} (cause : Abort) : Matches shared (.abort cause : Action α) (.abort cause)
  | stop {α : Type} (signal : StopSignal) : Matches shared (.stop signal : Action α) (.stop signal)
  | reads {α : Type} (part : Interpreter → α) : Matches shared (.reads part) (.reads part)
  | moveTo (line column : Nat) : Matches shared (.moveTo line column) (.moveTo line column)
  | assign (name : String) (value : Value) : Matches shared (.assign name value) (.assign name value)
  | define (name : String) (value : Value) : Matches shared (.define name value) (.define name value)
  | ask (request : Request) : Matches shared (.ask request) (.ask request)
  | db (op : DbOp) : Matches shared (.db op) (.db op)
  | attempt {α : Type} {body body' : Action α} (inside : Matches shared body body') :
      Matches shared (.attempt body) (.attempt body')
  | branch {α : Type} {body body' : Action α} (inside : Matches shared body body') :
      Matches shared (.branch body) (.branch body')
  | element {α : Type} {body body' : Action α} (bindings : List (String × Value))
      (inside : Matches shared body body') :
      Matches shared (.element bindings body) (.element bindings body')
  | rescue {α : Type} {body body' : Action α} (frames : Nat) (error : Value)
      (inside : Matches shared body body') :
      Matches shared (.rescue frames error body) (.rescue frames error body')
  | task {α : Type} {body body' : Action α} (entry : TaskEntry)
      (inside : Matches shared body body') : Matches shared (.task entry body) (.task entry body')
  | fork {α : Type} {body body' : Action α} (owner : String) {base base' : Option Environment}
      (related : ∀ env, base = some env → ∃ env', base' = some env' ∧ SameModule shared env env')
      (entry : TaskEntry) (inside : Matches shared body body') :
      Matches shared (.fork owner base entry body) (.fork owner base' entry body')
  | isolated {α : Type} {body body' : Action α} (inside : Matches shared body body') :
      Matches shared (.isolated body) (.isolated body')
  | spawned {α : Type} {body body' : Action α} (inside : Matches shared body body') :
      Matches shared (.spawned body) (.spawned body')
  | transaction {body body' : Action Unit} (inside : Matches shared body body') :
      Matches shared (.transaction body) (.transaction body')
  | call (target : Call) : Matches shared (.call target) (.call target)

theorem Matches.refl {shared : Prop} {α : Type} (action : Action α) : Matches shared action action := by
  induction action with
  | pure value => exact .pure value
  | bind first next head tail => exact .bind head tail
  | raise error => exact .raise error
  | abort cause => exact .abort cause
  | stop signal => exact .stop signal
  | reads part => exact .reads part
  | moveTo line column => exact .moveTo line column
  | assign name value => exact .assign name value
  | define name value => exact .define name value
  | ask request => exact .ask request
  | db op => exact .db op
  | attempt body inside => exact .attempt inside
  | branch body inside => exact .branch inside
  | element bindings body inside => exact .element bindings inside
  | rescue frames error body inside => exact .rescue frames error inside
  | task entry body inside => exact .task entry inside
  | fork owner base entry body inside =>
      exact .fork owner (fun env found => ⟨env, found, fun _ => rfl, fun _ => rfl⟩) entry inside
  | isolated body inside => exact .isolated inside
  | spawned body inside => exact .spawned inside
  | transaction body inside => exact .transaction inside
  | call target => exact .call target

theorem read?_eq_some {α : Type} {action : Action α} {part : Interpreter → α}
    (found : action.read? = some part) : action = .reads part := by
  cases action with
  | reads other => exact congrArg Action.reads (Option.some.inj found)
  | _ => cases found

end Action

/-! ## Runs -/

theorem Agree.exists_env {ground : Ground} {one other : Interpreter}
    (agree : Agree ground one other) :
    ∃ env, other = { one with env } ∧ Alike ground one.env env :=
  ⟨other.env, agree⟩

theorem Agree.of_alike {ground : Ground} (state : Interpreter) {one other : Environment}
    (alike : Alike ground one other) :
    Agree ground { state with env := one } { state with env := other } :=
  ⟨rfl, alike⟩

theorem Alike.tall {ground : Ground} {one other : Environment} (alike : Alike ground one other) :
    ground.height ≤ one.depth := by
  obtain ⟨inner, own, rest, low, parts, -, level⟩ := alike
  rw [Environment.depth, parts, List.length_append, level.height]
  exact Nat.le_add_left _ _

theorem Environment.depth_enter (env : Environment) (bindings : List (String × Value)) :
    (env.pushScope.setAll bindings).depth = env.depth + 1 := by
  rw [depth, scopes_enter]
  rfl

theorem Environment.le_depth_popScope {env : Environment} {depth : Nat}
    (deep : depth + 1 ≤ env.depth) : depth ≤ env.popScope.depth := by
  rw [Environment.depth, scopes_popScope]
  simp only [Environment.depth, scopes, List.length_cons] at deep
  split
  · simp only [scopes, List.length_cons]
    omega
  · omega

/-- A scope that both runs were given is removed. -/
theorem Agree.leaveScope {ground : Ground} {one other : Interpreter} {depth : Nat}
    (agree : Agree ground one other) (tall : ground.height ≤ depth)
    (deep : depth + 1 ≤ one.env.depth) :
    Agree ground one.leaveScope other.leaveScope ∧ depth ≤ one.leaveScope.env.depth := by
  obtain ⟨env, rfl, alike⟩ := agree.exists_env
  exact ⟨⟨rfl, alike.popScope (by omega)⟩, Environment.le_depth_popScope deep⟩

namespace EndsAlike

variable {α : Type} {ground : Ground} {depth : Nat}

theorem attempt {body body' : Run Interpreter Fault α} {one other : Interpreter}
    (ends : EndsAlike ground depth (body one) (body' other)) :
    EndsAlike ground depth (Run.attempt body one) (Run.attempt body' other) := by
  unfold Run.attempt
  rcases ran : body one with ⟨result, after⟩
  rcases ran' : body' other with ⟨result', after'⟩
  rw [ran, ran'] at ends
  obtain ⟨results, agree, deep⟩ := ends
  obtain rfl : result = result' := results
  rcases result with (error | cause | _) | value <;> exact ⟨rfl, agree, deep⟩

theorem copy {body body' : Run Interpreter Fault α} {one other : Interpreter}
    (agree : Agree ground one other)
    (ends : EndsAlike ground depth (body one.enterBranch) (body' other.enterBranch)) :
    EndsAlike ground one.env.depth (Action.runCopy body one) (Action.runCopy body' other) := by
  obtain ⟨env, rfl, alike⟩ := agree.exists_env
  obtain ⟨results, ⟨same, -⟩, -⟩ := ends
  unfold Action.runCopy
  simp only
  split
  · exact ⟨rfl, ⟨rfl, alike⟩, le_refl _⟩
  · refine ⟨results, ⟨?_, alike⟩, le_refl _⟩
    simp only [Interpreter.leaveBranch]
    rw [same]

theorem join {body body' : Run Interpreter Fault α} {one other : Interpreter}
    (ends : EndsAlike ground depth (body one) (body' other)) :
    EndsAlike ground depth (Action.joinThread body one) (Action.joinThread body' other) := by
  unfold Action.joinThread
  rcases ran : body one with ⟨result, after⟩
  rcases ran' : body' other with ⟨result', after'⟩
  rw [ran, ran'] at ends
  obtain ⟨results, agree, deep⟩ := ends
  obtain rfl : result = result' := results
  rcases result with (error | cause | _) | value <;> exact ⟨rfl, agree, deep⟩

theorem finish {host : Host} {project : Option ProjectRuntime}
    {outcome outcome' : Except Fault Unit × Interpreter}
    (ends : EndsAlike ground depth outcome outcome') :
    EndsAlike ground depth (Action.finishTransaction host outcome)
      (Action.finishTransaction { host with project } outcome') := by
  obtain ⟨result, after⟩ := outcome
  obtain ⟨result', after'⟩ := outcome'
  obtain ⟨results, agree, deep⟩ := ends
  obtain rfl : result = result' := results
  obtain ⟨env, rfl, alike⟩ := agree.exists_env
  rcases result with (error | cause | _) | value
  · rcases Option.eq_none_or_eq_some after.activeTx with held | ⟨id, held⟩
    · have ended (host : Host) (env : Environment) :
          Action.finishTransaction host (.error (.error error), { after with env }) =
            (.error (.panic .emptyHolder), { after with env }) := by
        simp only [Action.finishTransaction, held]
      exact ended host after.env ▸ ended _ env ▸ ⟨rfl, ⟨rfl, alike⟩, deep⟩
    · simp only [Action.finishTransaction, held]
      exact ⟨rfl, ⟨rfl, alike⟩, deep⟩
  · exact ⟨rfl, ⟨rfl, alike⟩, deep⟩
  · exact ⟨rfl, ⟨rfl, alike⟩, deep⟩
  · rcases Option.eq_none_or_eq_some after.activeTx with held | ⟨id, held⟩
    · have ended (host : Host) (env : Environment) :
          Action.finishTransaction host (.ok value, { after with env }) =
            (.error (.panic .emptyHolder), { after with env }) := by
        simp only [Action.finishTransaction, held]
      exact ended host after.env ▸ ended _ env ▸ ⟨rfl, ⟨rfl, alike⟩, deep⟩
    · simp only [Action.finishTransaction, held]
      cases host.commit after.log <;> exact ⟨rfl, ⟨rfl, alike⟩, deep⟩

theorem transaction {host : Host} {project : Option ProjectRuntime}
    {body body' : Run Interpreter Fault Unit} {one other : Interpreter}
    (agree : Agree ground one other)
    (ends : EndsAlike ground one.env.depth (body one.enterTransaction)
      (body' other.enterTransaction)) :
    EndsAlike ground one.env.depth (Action.runTransaction host body one)
      (Action.runTransaction { host with project } body' other) := by
  obtain ⟨env, rfl, alike⟩ := agree.exists_env
  unfold Action.runTransaction
  simp only
  split
  · exact ⟨rfl, ⟨rfl, alike⟩, le_refl _⟩
  · split
    · exact ⟨rfl, ⟨rfl, alike⟩, le_refl _⟩
    · cases host.begin one.log with
      | error error => exact ⟨rfl, ⟨rfl, alike⟩, le_refl _⟩
      | ok _ => exact ends.finish

/-- The scope of an element stays when its body failed. -/
theorem element {outcome outcome' : Except Fault α × Interpreter}
    (ends : EndsAlike ground (depth + 1) outcome outcome') (tall : ground.height ≤ depth) :
    EndsAlike ground depth
      (outcome.1,
        if Action.isReturn outcome.1 then outcome.2.leaveScope else outcome.2.abandonScope)
      (outcome'.1,
        if Action.isReturn outcome'.1 then outcome'.2.leaveScope
        else outcome'.2.abandonScope) := by
  obtain ⟨results, agree, deep⟩ := ends
  rw [← results]
  refine ⟨rfl, ?_⟩
  split
  · exact agree.leaveScope tall deep
  · obtain ⟨env, same, alike⟩ := agree.exists_env
    rw [same]
    exact ⟨⟨rfl, alike.abandon⟩, Nat.le_of_succ_le deep⟩

theorem task {outcome outcome' : Except Fault α × Interpreter} {one other : Interpreter}
    (ends : EndsAlike ground (depth + 1) outcome outcome') (tall : ground.height ≤ depth)
    (agree : Agree ground one other) :
    EndsAlike ground depth (outcome.1, outcome.2.leaveTask one (Action.isReturn outcome.1))
      (outcome'.1, outcome'.2.leaveTask other (Action.isReturn outcome'.1)) := by
  obtain ⟨results, agreeAfter, deep⟩ := ends
  obtain ⟨⟨-, left⟩, kept⟩ := agreeAfter.leaveScope tall deep
  obtain ⟨env, same, -⟩ := agreeAfter.exists_env
  obtain ⟨env', rfl, -⟩ := agree.exists_env
  refine ⟨results, ⟨?_, left⟩, kept⟩
  rw [same, results]
  rfl

theorem fork {outcome outcome' : Except Fault α × Interpreter} {one other : Interpreter}
    {inside : Ground} (ends : EndsAlike inside depth outcome outcome')
    (agree : Agree ground one other) :
    EndsAlike ground one.env.depth
      (outcome.1, one.leaveFork outcome.2 (Action.isFailure outcome.1))
      (outcome'.1, other.leaveFork outcome'.2 (Action.isFailure outcome'.1)) := by
  obtain ⟨results, agreeAfter, -⟩ := ends
  obtain ⟨env, same, -⟩ := agreeAfter.exists_env
  obtain ⟨env', rfl, alike⟩ := agree.exists_env
  refine ⟨results, ⟨?_, alike⟩, le_refl _⟩
  rw [same, results]
  rfl

end EndsAlike

section

variable {shared : Prop} {host : Host} {project : Option ProjectRuntime}
  {calls calls' : Call → Run Interpreter Fault Value}
  {visits : Ground → Call → Interpreter → Prop}

/-- Actions that match end alike, when the names they use may be used. -/
theorem run_alike
    (callsAlike : ∀ ground target one other, Agree ground one other →
      visits ground target one →
        EndsAlike ground one.env.depth (calls target one) (calls' target other))
    {α : Type} {action action' : Action α} (same : action.Matches shared action')
    (ground : Ground) (one other : Interpreter) (agree : Agree ground one other)
    (along : Action.Along shared host calls visits action ground one) :
    EndsAlike ground one.env.depth (Action.run host calls action one)
      (Action.run { host with project } calls' action' other) := by
  induction same generalizing ground one other with
  | pure value => exact ⟨rfl, agree, le_refl _⟩
  | raise error => exact ⟨rfl, agree, le_refl _⟩
  | abort cause => exact ⟨rfl, agree, le_refl _⟩
  | stop | moveTo | ask =>
      obtain ⟨env, rfl, alike⟩ := agree.exists_env
      exact ⟨rfl, ⟨rfl, alike⟩, le_refl _⟩
  | reads part => exact ⟨congrArg Except.ok (along.eq agree), agree, le_refl _⟩
  | assign name value =>
      obtain ⟨env, rfl, alike⟩ := agree.exists_env
      exact ⟨rfl, ⟨rfl, alike.update along value⟩,
        (Environment.depth_update one.env name value).ge⟩
  | define name value =>
      obtain ⟨env, rfl, alike⟩ := agree.exists_env
      exact ⟨rfl, ⟨rfl, alike.set name value⟩, le_refl _⟩
  | db op =>
      obtain ⟨env, rfl, alike⟩ := agree.exists_env
      simp only [Action.run, Action.runDb, Interpreter.channel]
      cases Channel.sends _ op with
      | error error => exact ⟨rfl, ⟨rfl, alike⟩, le_refl _⟩
      | ok _ =>
          simp only
          cases host.answerDb one.log _ op with
          | ok reply => exact ⟨rfl, ⟨rfl, alike⟩, le_refl _⟩
          | error error => exact ⟨rfl, ⟨rfl, alike⟩, le_refl _⟩
  | @bind _ _ first first' next next' head tail headAlike tailAlike =>
      rw [Action.Along] at along
      obtain ⟨firstAlong, nextAlong⟩ := along
      cases read : first.read? with
      | some part =>
          -- What was read may differ, but what follows does not.
          obtain rfl := Action.read?_eq_some read
          cases head
          have equal : next (part one) = next (part other) := firstAlong.eq agree
          change Action.Along shared host calls visits (next (part one)) ground one at nextAlong
          change EndsAlike _ _ (Action.run host calls (next (part one)) one)
            (Action.run { host with project } calls' (next' (part other)) other)
          rw [equal] at nextAlong ⊢
          exact tailAlike (part other) ground one other agree nextAlong
      | none =>
          rw [read] at firstAlong
          obtain ⟨results, agreeAfter, deep⟩ := headAlike ground one other agree firstAlong
          simp only [Action.run, Run.bind_run]
          rcases ran : Action.run host calls first one with ⟨result, after⟩
          rcases ran' : Action.run { host with project } calls' first' other with
            ⟨result', after'⟩
          rw [ran, ran'] at results agreeAfter
          rw [ran] at deep nextAlong
          obtain rfl : result = result' := results
          cases result with
          | error fault => exact ⟨rfl, agreeAfter, deep⟩
          | ok value =>
              obtain ⟨results, agreeEnd, deeper⟩ :=
                tailAlike value ground after after' agreeAfter nextAlong
              exact ⟨results, agreeEnd, le_trans deep deeper⟩
  | attempt inside bodyAlike => exact (bodyAlike ground one other agree along).attempt
  | branch inside bodyAlike =>
      obtain ⟨results, ⟨same, -⟩, -⟩ := bodyAlike ground one other agree along
      exact ⟨results, ⟨by simp only [Action.run]; rw [same], agree.2⟩, le_refl _⟩
  | element bindings inside bodyAlike =>
      obtain ⟨env, rfl, alike⟩ := agree.exists_env
      have entered : Agree ground (one.enterScope bindings)
          (Interpreter.enterScope { one with env } bindings) := ⟨rfl, alike.enter bindings⟩
      have body := bodyAlike ground _ _ entered along
      rw [show (one.enterScope bindings).env.depth = one.env.depth + 1 from
        Environment.depth_enter _ _] at body
      simp only [Action.run]
      exact body.element alike.tall
  | rescue frames error inside bodyAlike =>
      obtain ⟨env, rfl, alike⟩ := agree.exists_env
      have entered : Agree ground (one.enterRescue frames error)
          (Interpreter.enterRescue { one with env } frames error) := ⟨rfl, alike.enter _⟩
      obtain ⟨results, agreeAfter, deep⟩ := bodyAlike ground _ _ entered along
      rw [show (one.enterRescue frames error).env.depth = one.env.depth + 1 from
        Environment.depth_enter _ _] at deep
      exact ⟨results, agreeAfter.leaveScope alike.tall deep⟩
  | task entry inside bodyAlike =>
      obtain ⟨env, rfl, alike⟩ := id agree.exists_env
      have entered : Agree ground (one.enterTask entry)
          (Interpreter.enterTask { one with env } entry) := ⟨rfl, alike.enter _⟩
      have body := bodyAlike ground _ _ entered along
      rw [show (one.enterTask entry).env.depth = one.env.depth + 1 from
        Environment.depth_enter _ _] at body
      exact body.task alike.tall agree
  | fork owner related entry inside bodyAlike =>
      obtain ⟨env, rfl, alike⟩ := id agree.exists_env
      obtain ⟨base, rfl, bodyAlong⟩ := along
      obtain ⟨base', rfl, alikeBases⟩ := related base rfl
      have entered : Agree (ground.descend shared one.env base) (one.enterFork owner base entry)
          (Interpreter.enterFork { one with env } owner base' entry) :=
        ⟨rfl, alike.fork alikeBases entry.bindings⟩
      exact (bodyAlike _ _ _ entered bodyAlong).fork agree
  | isolated inside bodyAlike =>
      obtain ⟨env, rfl, alike⟩ := id agree.exists_env
      exact EndsAlike.copy agree (bodyAlike ground _ _ ⟨rfl, alike⟩ along)
  | spawned inside bodyAlike =>
      obtain ⟨env, rfl, alike⟩ := id agree.exists_env
      exact (EndsAlike.copy agree (bodyAlike ground _ _ ⟨rfl, alike⟩ along)).join
  | transaction inside bodyAlike =>
      obtain ⟨env, rfl, alike⟩ := id agree.exists_env
      exact EndsAlike.transaction agree (bodyAlike ground _ _ ⟨rfl, alike⟩ along)
  | call target => exact callsAlike ground target one other agree along

end

theorem along_readValue {shared : Prop} {host : Host}
    {calls : Call → Run Interpreter Fault Value} {visits : Ground → Call → Interpreter → Prop}
    {ground : Ground} {state : Interpreter} {name : String} :
    Action.Along shared host calls visits
      (match state.env.get name with
        | some value => Pure.pure value
        | none => do
            let position ← Action.position
            .raise (.undefinedVariable name position.line position.column)) ground state := by
  cases state.env.get name with
  | some value => trivial
  | none =>
      refine ⟨⟨[], ?_, by simp⟩, trivial⟩
      intro one other same _
      rw [same]
      rfl

/-- An identifier reads the name it is. -/
theorem along_evaluateIdentifier {shared : Prop} {host : Host}
    {calls : Call → Run Interpreter Fault Value} {visits : Ground → Call → Interpreter → Prop}
    {ground : Ground} {state : Interpreter} {name : String}
    (may : ground.MayRead state.env name) :
    Action.Along shared host calls visits (evaluateIdentifier name) ground state := by
  unfold evaluateIdentifier
  cases namespaceValue name with
  | some value => trivial
  | none =>
      refine ⟨⟨[name], ?_, ?_⟩, ?_⟩
      · intro one other _ same
        simp only [same name (List.mem_singleton_self name)]
      · intro other member
        rwa [List.mem_singleton.mp member]
      · exact along_readValue

/-- `Along` for calls, as deep as the interpreter recurses. -/
def AlongRun (shared : Prop) (host : Host) : Nat → Ground → Call → Interpreter → Prop
  | 0, _, _, _ => True
  | depth + 1, ground, target, state =>
      Action.Along shared host (perform host depth) (AlongRun shared host depth)
        (actionOf host target) ground state

/-- Projects whose environments match give runs that end alike. -/
theorem perform_alike {shared : Prop} {host : Host} {project : Option ProjectRuntime}
    (same : ∀ target, (actionOf host target).Matches shared (actionOf { host with project } target))
    (depth : Nat) (ground : Ground) (target : Call) (one other : Interpreter)
    (agree : Agree ground one other) (along : AlongRun shared host depth ground target one) :
    EndsAlike ground one.env.depth (perform host depth target one)
      (perform { host with project } depth target other) := by
  induction depth generalizing ground target one other with
  | zero => exact ⟨rfl, agree, le_refl _⟩
  | succ depth ih => exact run_alike ih (same target) ground one other agree along

/-- The same for an action of an interpreter that recurses this deep. -/
theorem runAction_alike {shared : Prop} {host : Host} {project : Option ProjectRuntime}
    (same : ∀ target, (actionOf host target).Matches shared (actionOf { host with project } target))
    {depth : Nat} {ground : Ground} {α : Type} {action action' : Action α}
    (matched : action.Matches shared action') {one other : Interpreter}
    (agree : Agree ground one other)
    (along : Action.Along shared host (perform host depth) (AlongRun shared host depth)
      action ground one) :
    EndsAlike ground one.env.depth (runAction host depth action one)
      (runAction { host with project } depth action' other) :=
  run_alike (perform_alike same depth) matched ground one other agree along

end Marreta
