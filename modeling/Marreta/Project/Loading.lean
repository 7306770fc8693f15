import Marreta.Project.Loader

namespace Marreta

open Foundation

/-! What a loaded project is made of, in terms of its files. -/

theorem mapError_eq_ok {ε φ α : Type} {change : ε → φ} {result : Except ε α} {value : α} :
    Except.mapError change result = .ok value ↔ result = .ok value := by
  cases result <;> simp [Except.mapError]

theorem mapError_eq_error {ε φ α : Type} {change : ε → φ} {result : Except ε α} {error : φ} :
    Except.mapError change result = .error error ↔
      ∃ before, result = .error before ∧ change before = error := by
  cases result <;> simp [Except.mapError]

/-- A loop that only checks succeeds when every turn does. -/
theorem forM_eq_ok {ε α : Type} {values : List α} {check : α → Except ε PUnit} :
    values.forM check = .ok () ↔ ∀ value ∈ values, check value = .ok () := by
  induction values with
  | nil => simp [pure, Except.pure]
  | cons value values ih =>
      rw [List.forall_mem_cons, ← ih]
      change (check value >>= fun _ => values.forM check) = .ok () ↔ _
      rw [bind_eq_ok]
      exact ⟨fun ⟨_, first, rest⟩ => ⟨first, rest⟩, fun ⟨first, rest⟩ => ⟨_, first, rest⟩⟩

/-! ## Files -/

namespace SourceFile

/-- The statements of a file, none when it does not parse. -/
def program (file : SourceFile) : Program :=
  match parseSource file.source with
  | .ok program => program
  | .error _ => []

def routes (file : SourceFile) : List RouteDefinition :=
  file.program.filterMap (Statement.route? file.moduleId)

def consumers (file : SourceFile) : List ConsumerDefinition :=
  file.program.filterMap (Statement.consumer? file.moduleId)

/-- The schemas of a file that every file sees. -/
def publicSchemas (file : SourceFile) (isEntrypoint : Bool) : List (String × SchemaDefinition) :=
  file.program.filterMap (Statement.publicSchema? isEntrypoint)

def privateSchemas (file : SourceFile) (isEntrypoint : Bool) : List (String × SchemaDefinition) :=
  file.program.filterMap (Statement.privateSchema? isEntrypoint)

/-- All schema declarations of a file. -/
def schemas (file : SourceFile) (isEntrypoint : Bool) : List (String × SchemaDefinition) :=
  file.publicSchemas isEntrypoint ++ file.privateSchemas isEntrypoint

theorem moduleId_of_mem_routes {file : SourceFile} {route : RouteDefinition}
    (member : route ∈ file.routes) : route.moduleId = some file.moduleId := by
  obtain ⟨statement, -, found⟩ := List.mem_filterMap.mp member
  cases statement <;> simp only [Statement.route?, Option.some.injEq, reduceCtorEq] at found
  rw [← found]

theorem moduleId_of_mem_consumers {file : SourceFile} {consumer : ConsumerDefinition}
    (member : consumer ∈ file.consumers) : consumer.moduleId = some file.moduleId := by
  obtain ⟨statement, -, found⟩ := List.mem_filterMap.mp member
  cases statement <;> simp only [Statement.consumer?, Option.some.injEq, reduceCtorEq] at found
  · rw [← found]
  · rw [← found]

end SourceFile

/-! ## Merging -/

/-- The module was built from the file. -/
structure Builds (entry : SourceFile × Bool) (module : ModuleDefinition) : Prop where
  id : module.id = entry.1.moduleId
  routes : module.routes = entry.1.routes
  consumers : module.consumers = entry.1.consumers
  publicSchemas : module.publicSchemas = Table.putAll [] (entry.1.publicSchemas entry.2)
  privateSchemas : module.privateSchemas = Table.putAll [] (entry.1.privateSchemas entry.2)

theorem buildModuleDefinition_builds {file : SourceFile} {isEntrypoint : Bool}
    {exportedNames names : Table String String} {module : ModuleDefinition}
    (built : buildModuleDefinition file.program file.moduleId isEntrypoint exportedNames =
      .ok (module, names)) : Builds (file, isEntrypoint) module := by
  rw [buildModuleDefinition, bind_eq_ok] at built
  obtain ⟨taken, -, built⟩ := built
  obtain ⟨rfl, -⟩ := Prod.mk.inj (Except.ok.inj built)
  exact ⟨rfl, rfl, rfl, rfl, rfl⟩

/-- The two routes that the loader refuses in different files. -/
def SamePattern (one other : RouteDefinition) : Prop :=
  one.verb = other.verb ∧ pathPattern one.path = pathPattern other.path

theorem checkRouteConflict_eq_ok {routes : List RouteDefinition} {route : RouteDefinition}
    (passes : checkRouteConflict routes route = .ok ()) :
    ∀ existing ∈ routes, ¬ SamePattern existing route := by
  intro existing member same
  unfold checkRouteConflict at passes
  split at passes
  · cases passes
  · rename_i none
    have differs := List.find?_eq_none.mp none existing member
    simp [same.1, same.2] at differs

/-- The merged modules of files. -/
structure Merged (entries : List (SourceFile × Bool)) (merged : MergedModules) : Prop where
  modules : List.Forall₂ Builds entries merged.modules
  routes : merged.routes = entries.flatMap (·.1.routes)
  consumers : merged.consumers = entries.flatMap (·.1.consumers)
  publicSchemas : merged.publicSchemas =
    Table.putAll [] (merged.modules.flatMap (·.publicSchemas))
  allSchemas : merged.allSchemas =
    Table.putAll [] (merged.modules.flatMap fun module =>
      module.publicSchemas ++ module.privateSchemas)
  apart : entries.Pairwise fun one other =>
    ∀ route ∈ one.1.routes, ∀ later ∈ other.1.routes, ¬ SamePattern route later

theorem merged_empty : Merged [] .empty :=
  ⟨.nil, rfl, rfl, rfl, rfl, .nil⟩

/-- What adding a file needs and changes. -/
theorem addFile_cases {merged next : MergedModules} {entry : SourceFile × Bool}
    (added : merged.addFile entry = .ok next) :
    ∃ module, Builds entry module ∧
      (∀ route ∈ module.routes, ∀ existing ∈ merged.routes, ¬ SamePattern existing route) ∧
      next.modules = merged.modules ++ [module] ∧
      next.routes = merged.routes ++ module.routes ∧
      next.consumers = merged.consumers ++ module.consumers ∧
      next.publicSchemas = Table.putAll merged.publicSchemas module.publicSchemas ∧
      next.allSchemas =
        Table.putAll (Table.putAll merged.allSchemas module.publicSchemas)
          module.privateSchemas := by
  obtain ⟨file, isEntrypoint⟩ := entry
  rw [MergedModules.addFile, bind_eq_ok] at added
  obtain ⟨program, parsed, added⟩ := added
  have same : program = file.program := by rw [SourceFile.program, parsed]
  subst same
  rw [mapError_eq_ok, bind_eq_ok] at added
  obtain ⟨_, -, added⟩ := added
  rw [bind_eq_ok] at added
  obtain ⟨⟨module, names⟩, built, added⟩ := added
  change merged.addModule module names = .ok next at added
  rw [MergedModules.addModule, bind_eq_ok] at added
  obtain ⟨⟨⟩, checked, added⟩ := added
  rw [bind_eq_ok] at added
  obtain ⟨providers, -, added⟩ := added
  obtain rfl := Except.ok.inj added
  refine ⟨module, buildModuleDefinition_builds built, ?_, rfl, rfl, rfl, rfl, rfl⟩
  exact fun route member => checkRouteConflict_eq_ok ((forM_eq_ok).mp checked route member)

theorem Merged.addFile {entries : List (SourceFile × Bool)} {merged next : MergedModules}
    (before : Merged entries merged) {entry : SourceFile × Bool}
    (added : merged.addFile entry = .ok next) : Merged (entries ++ [entry]) next := by
  obtain ⟨module, builds, apart, modules, routes, consumers, publics, all⟩ := addFile_cases added
  refine ⟨?_, ?_, ?_, ?_, ?_, ?_⟩
  · rw [modules]
    exact List.rel_append before.modules (.cons builds .nil)
  · rw [routes, before.routes, builds.routes]
    simp
  · rw [consumers, before.consumers, builds.consumers]
    simp
  · rw [publics, before.publicSchemas, modules, ← Table.putAll_append]
    simp
  · rw [all, before.allSchemas, modules, ← Table.putAll_append, ← Table.putAll_append]
    simp
  · rw [List.pairwise_append]
    refine ⟨before.apart, List.pairwise_singleton _ _, ?_⟩
    intro one member other single route inOne later inOther
    obtain rfl := List.mem_singleton.mp single
    rw [builds.routes] at apart
    apply apart later inOther route
    rw [before.routes]
    exact List.mem_flatMap.mpr ⟨one, member, inOne⟩

theorem mergeFiles_merged {project : ProjectFiles} {merged : MergedModules}
    (merges : mergeFiles project = .ok merged) : Merged project.all merged := by
  have run : ∀ (rest done : List (SourceFile × Bool)) (before : MergedModules),
      Merged done before → rest.foldlM MergedModules.addFile before = .ok merged →
      Merged (done ++ rest) merged := by
    intro rest
    induction rest with
    | nil =>
        intro done before holds ends
        obtain rfl := Except.ok.inj ends
        rwa [List.append_nil]
    | cons entry rest ih =>
        intro done before holds ends
        rw [List.foldlM_cons, bind_eq_ok] at ends
        obtain ⟨next, added, ends⟩ := ends
        have after := ih _ _ (holds.addFile added) ends
        rwa [List.append_assoc, List.singleton_append] at after
  exact run project.all [] .empty merged_empty merges

/-! ## Running the modules -/

theorem addModule_modules {context : LoadContext} {publicSchemas : Schemas}
    {draft next : RuntimeDraft} {module : ModuleDefinition}
    (added : draft.addModule context publicSchemas module = .ok next) :
    ∃ env, next.modules = draft.modules.put module.id
      { env, visibleSchemas := RuntimeDraft.visibleSchemas publicSchemas module } := by
  rw [RuntimeDraft.addModule] at added
  simp only at added
  rw [bind_eq_ok] at added
  obtain ⟨_, -, added⟩ := added
  rw [bind_eq_ok] at added
  obtain ⟨named, names, added⟩ := added
  obtain rfl := Except.ok.inj added
  have kept : named.modules = draft.modules := by
    rw [mapError_eq_ok, RuntimeDraft.addNamespace] at names
    split at names
    · obtain rfl := Except.ok.inj names
      rfl
    · rw [bind_eq_ok] at names
      obtain ⟨_, -, names⟩ := names
      split at names
      · cases names
      · obtain rfl := Except.ok.inj names
        rfl
  exact ⟨_, by rw [kept]⟩

/-- A module sees the public schemas and its own. -/
theorem buildProjectRuntime_module {context : LoadContext} {modules : List ModuleDefinition}
    {publicSchemas persistentSchemas : Schemas} {runtime : ProjectRuntime}
    (built : buildProjectRuntime context modules publicSchemas persistentSchemas = .ok runtime)
    (distinct : (modules.map (·.id)).Nodup) {module : ModuleDefinition} (member : module ∈ modules) :
    ∃ env, runtime.modules.lookup module.id = some
      { env, visibleSchemas := RuntimeDraft.visibleSchemas publicSchemas module } := by
  have run : ∀ (rest : List ModuleDefinition) (before after : RuntimeDraft),
      rest.foldlM (RuntimeDraft.addModule context publicSchemas) before = .ok after →
      (rest.map (·.id)).Nodup →
      (∀ id ∉ rest.map (·.id), after.modules.lookup id = before.modules.lookup id) ∧
      ∀ module ∈ rest, ∃ env, after.modules.lookup module.id = some
        { env, visibleSchemas := RuntimeDraft.visibleSchemas publicSchemas module } := by
    intro rest
    induction rest with
    | nil =>
        intro before after ends _
        obtain rfl := Except.ok.inj ends
        exact ⟨fun _ _ => rfl, by simp⟩
    | cons first rest ih =>
        intro before after ends distinct
        rw [List.foldlM_cons, bind_eq_ok] at ends
        obtain ⟨middle, added, ends⟩ := ends
        rw [List.map_cons, List.nodup_cons] at distinct
        obtain ⟨others, own⟩ := ih middle after ends distinct.2
        obtain ⟨env, put⟩ := addModule_modules added
        refine ⟨fun id absent => ?_, fun module member => ?_⟩
        · rw [List.map_cons, List.mem_cons, not_or] at absent
          rw [others id absent.2, put, Table.lookup_put, if_neg absent.1]
        · rcases List.mem_cons.mp member with rfl | member
          · exact ⟨env, by rw [others _ distinct.1, put, Table.lookup_put, if_pos rfl]⟩
          · exact own module member
  rw [buildProjectRuntime, bind_eq_ok] at built
  obtain ⟨draft, runs, built⟩ := built
  obtain rfl := Except.ok.inj built
  obtain ⟨env, found⟩ := (run modules .empty draft runs distinct).2 module member
  exact ⟨_, by rw [Table.lookup_map, found]; rfl⟩

/-! ## Loaded projects -/

/-- A project that loads, with what was merged on the way. -/
structure Loads (context : LoadContext) (project : ProjectFiles) (merged : MergedModules)
    (loaded : LoadedProject) : Prop where
  merges : Merged project.all merged
  checked : merged.check context = .ok ()
  built : buildProjectRuntime context merged.modules merged.publicSchemas
    (collectPersistentSchemas merged.allSchemas) = .ok loaded.runtime
  routes : loaded.routes = merged.routes
  consumers : loaded.consumers = merged.consumers
  persistentSchemas : loaded.runtime.persistentSchemas =
    collectPersistentSchemas merged.allSchemas

theorem buildProjectRuntime_persistentSchemas {context : LoadContext}
    {modules : List ModuleDefinition} {publicSchemas persistentSchemas : Schemas}
    {runtime : ProjectRuntime}
    (built : buildProjectRuntime context modules publicSchemas persistentSchemas = .ok runtime) :
    runtime.persistentSchemas = persistentSchemas := by
  rw [buildProjectRuntime, bind_eq_ok] at built
  obtain ⟨draft, -, built⟩ := built
  obtain rfl := Except.ok.inj built
  rfl

theorem loads_of_loadProject {context : LoadContext} {project : ProjectFiles}
    {loaded : LoadedProject} (loads : loadProject context project = .ok loaded) :
    ∃ merged, mergeFiles project = .ok merged ∧ Loads context project merged loaded := by
  rw [loadProject, bind_eq_ok] at loads
  obtain ⟨merged, merges, loads⟩ := loads
  rw [bind_eq_ok] at loads
  obtain ⟨⟨⟩, checked, loads⟩ := loads
  rw [bind_eq_ok] at loads
  obtain ⟨runtime, built, loads⟩ := loads
  obtain rfl := Except.ok.inj loads
  exact ⟨merged, merges, mergeFiles_merged merges, (mapError_eq_ok).mp checked, built, rfl, rfl,
    buildProjectRuntime_persistentSchemas built⟩

theorem Merged.map_id {entries : List (SourceFile × Bool)} {merged : MergedModules}
    (merges : Merged entries merged) :
    merged.modules.map (·.id) = entries.map (·.1.moduleId) := by
  have ids := merges.modules
  generalize merged.modules = modules at ids
  clear merges
  induction ids with
  | nil => rfl
  | cons builds _ ih => rw [List.map_cons, List.map_cons, builds.id, ih]

theorem ProjectFiles.distinct_all (project : ProjectFiles) :
    (project.all.map (·.1.moduleId)).Nodup := by
  have ids : project.all.map (·.1.moduleId) =
      (project.files ++ [project.entrypoint]).map (·.moduleId) := by
    simp [ProjectFiles.all, Function.comp_def]
  rw [ids]
  exact project.distinct

/-- The module of a file, and the schemas it sees. -/
theorem Loads.module {context : LoadContext} {project : ProjectFiles} {merged : MergedModules}
    {loaded : LoadedProject} (loads : Loads context project merged loaded)
    {entry : SourceFile × Bool} (member : entry ∈ project.all) :
    ∃ module ∈ merged.modules, Builds entry module ∧
      loaded.runtime.visibleSchemasFor (some entry.1.moduleId) =
        RuntimeDraft.visibleSchemas merged.publicSchemas module := by
  obtain ⟨module, inside, builds⟩ := exists_of_forall₂ loads.merges.modules member
  refine ⟨module, inside, builds, ?_⟩
  have distinct : (merged.modules.map (·.id)).Nodup := by
    rw [loads.merges.map_id]
    exact project.distinct_all
  obtain ⟨env, found⟩ := buildProjectRuntime_module loads.built distinct inside
  rw [builds.id] at found
  simp [ProjectRuntime.visibleSchemasFor, ProjectRuntime.module?, found]
where
  exists_of_forall₂ {α β : Type} {related : α → β → Prop} {first : List α} {second : List β}
      (all : List.Forall₂ related first second) {value : α} (member : value ∈ first) :
      ∃ other ∈ second, related value other := by
    induction all with
    | nil => cases member
    | cons head _ ih =>
        rcases List.mem_cons.mp member with rfl | member
        · exact ⟨_, List.mem_cons_self, head⟩
        · obtain ⟨other, inside, holds⟩ := ih member
          exact ⟨other, List.mem_cons_of_mem _ inside, holds⟩

theorem Loads.mem_file {context : LoadContext} {project : ProjectFiles} {merged : MergedModules}
    {loaded : LoadedProject} (loads : Loads context project merged loaded)
    {module : ModuleDefinition} (member : module ∈ merged.modules) :
    ∃ entry ∈ project.all, Builds entry module :=
  Loads.module.exists_of_forall₂ loads.merges.modules.flip member

end Marreta
