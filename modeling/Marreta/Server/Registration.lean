import Marreta.Foundation.PathTemplate
import Marreta.Project.Loading

namespace Marreta

open Foundation

/-! Registering the routes of a project.

The server gives the router its own paths first and then every route of the
project.  The router refuses a method that a template already has, and a
template that differs from a known one only in the names of its parameters. -/

/-- `:param` in the syntax of the router. -/
def toAxumPath (path : String) : List Char :=
  List.intercalate ['/'] ((path.toList.splitOn '/').map fun
    | ':' :: name => '{' :: name ++ ['}']
    | segment => segment)

structure ServerConfig where
  docsEnabled : Bool
  docsPath : String

structure Registration where
  verb : HttpVerb
  template : List Char
deriving DecidableEq

/-- The paths of the server itself. -/
def builtinRegistrations (config : ServerConfig) : List Registration :=
  (if config.docsEnabled then
    [{ verb := .get, template := "/openapi.json".toList },
      { verb := .get, template := config.docsPath.toList }]
  else []) ++ [{ verb := .get, template := "/_health".toList }]

def registerRoute (route : RouteDefinition) : Registration :=
  { verb := route.verb, template := toAxumPath route.path }

/-- Everything the router is given, in order. -/
def registrations (config : ServerConfig) (routes : List RouteDefinition) : List Registration :=
  builtinRegistrations config ++ routes.map registerRoute

/-- The router refuses the second of two registrations: one method on templates
that stand for the same paths, or templates that only differ in the names of
their parameters. -/
def Clash (one other : Registration) : Prop :=
  ∃ first second, Template.parse one.template = some first ∧
    Template.parse other.template = some second ∧
    (one.verb = other.verb ∧ (∀ path, Template.Matches first path ↔ Template.Matches second path) ∨
      first ≠ second ∧ Template.shape first = Template.shape second)

/-- No registration is refused. -/
def Registrable (list : List Registration) : Prop :=
  list.Pairwise fun one other => ¬ Clash one other

/-! ## Shapes -/

def Registration.shape (registration : Registration) :
    Option (List (List Char × Option Bool)) :=
  (Template.parse registration.template).map Template.shape

/-- Well-formed templates that differ at most in the names of their
parameters. -/
def SameShape (one other : Registration) : Prop :=
  one.shape.isSome ∧ one.shape = other.shape

/-- The parameters have the same names too. -/
def SameNames (one other : Registration) : Prop :=
  Template.parse one.template = Template.parse other.template

instance (one other : Registration) : Decidable (SameShape one other) :=
  inferInstanceAs (Decidable (_ ∧ _))

instance (one other : Registration) : Decidable (SameNames one other) :=
  inferInstanceAs (Decidable (_ = _))

theorem clash_iff (one other : Registration) :
    Clash one other ↔ SameShape one other ∧ (one.verb = other.verb ∨ ¬ SameNames one other) := by
  constructor
  · rintro ⟨first, second, parsedOne, parsedOther, clash⟩
    have shapes : Template.shape first = Template.shape second := by
      rcases clash with ⟨-, paths⟩ | ⟨-, shapes⟩
      · exact Template.shape_eq_of_matches (Template.endsInRest_of_parse parsedOne)
          (Template.endsInRest_of_parse parsedOther) paths
      · exact shapes
    refine ⟨⟨?_, ?_⟩, ?_⟩
    · simp [Registration.shape, parsedOne]
    · simp [Registration.shape, parsedOne, parsedOther, shapes]
    · rcases clash with ⟨verbs, -⟩ | ⟨differs, -⟩
      · exact .inl verbs
      · refine .inr fun names => differs ?_
        rw [SameNames, parsedOne, parsedOther] at names
        exact Option.some.inj names
  · rintro ⟨⟨known, shapes⟩, clash⟩
    unfold Registration.shape at known shapes
    obtain ⟨first, parsedOne⟩ := Option.isSome_iff_exists.mp (by simpa using known)
    rw [parsedOne, Option.map_some, eq_comm, Option.map_eq_some_iff] at shapes
    obtain ⟨second, parsedOther, same⟩ := shapes
    refine ⟨first, second, parsedOne, parsedOther, ?_⟩
    rcases clash with verbs | names
    · exact .inl ⟨verbs, Template.matches_of_shape same.symm⟩
    · refine .inr ⟨fun equal => names ?_, same.symm⟩
      rw [SameNames, parsedOne, parsedOther, equal]

/-! ## Routes the loader does not compare -/

/-- Registrations the router takes together. -/
def Compatible (one other : Registration) : Prop :=
  SameShape one other → one.verb ≠ other.verb ∧ SameNames one other

instance (one other : Registration) : Decidable (Compatible one other) :=
  inferInstanceAs (Decidable (_ → _))

theorem not_clash_iff (one other : Registration) : ¬ Clash one other ↔ Compatible one other := by
  rw [clash_iff, not_and, Compatible, not_or, not_not]

/-- What the loader leaves unchecked: the paths of the server, the routes of one
file, and in different files parameters that are written with braces or named
differently under another verb. -/
@[mk_iff]
structure RoutesApart (config : ServerConfig) (project : ProjectFiles) : Prop where
  builtins : (builtinRegistrations config).Pairwise fun one other => ¬ SameShape one other
  server : ∀ builtin ∈ builtinRegistrations config, ∀ entry ∈ project.all,
    ∀ route ∈ entry.1.routes, SameShape builtin (registerRoute route) →
      route.verb ≠ .get ∧ SameNames builtin (registerRoute route)
  file : ∀ entry ∈ project.all, entry.1.routes.Pairwise fun one other =>
    Compatible (registerRoute one) (registerRoute other)
  files : project.all.Pairwise fun one other => ∀ route ∈ one.1.routes,
    ∀ later ∈ other.1.routes, SameShape (registerRoute route) (registerRoute later) →
      if route.verb = later.verb then pathPattern route.path = pathPattern later.path
      else SameNames (registerRoute route) (registerRoute later)

theorem verb_of_builtin {config : ServerConfig} {builtin : Registration}
    (member : builtin ∈ builtinRegistrations config) : builtin.verb = .get := by
  unfold builtinRegistrations at member
  split at member
  · simp only [List.cons_append, List.nil_append, List.mem_cons, List.not_mem_nil, or_false]
      at member
    rcases member with rfl | rfl | rfl <;> rfl
  · simp only [List.nil_append, List.mem_singleton] at member
    rw [member]

/-- Routes of different files, once the loader has accepted them. -/
theorem compatible_of_files {one other : RouteDefinition} (accepted : ¬ SamePattern one other) :
    Compatible (registerRoute one) (registerRoute other) ↔
      (SameShape (registerRoute one) (registerRoute other) →
        if one.verb = other.verb then pathPattern one.path = pathPattern other.path
        else SameNames (registerRoute one) (registerRoute other)) := by
  unfold Compatible
  refine imp_congr_right fun _ => ?_
  split
  · rename_i verbs
    constructor
    · exact fun compatible => absurd verbs compatible.1
    · exact fun patterns => absurd ⟨verbs, patterns⟩ accepted
  · rename_i verbs
    exact ⟨fun compatible => compatible.2, fun names => ⟨verbs, names⟩⟩

/-- The router takes the routes of an accepted project if and only if the pairs
that the loader does not compare are compatible. -/
theorem registrable_iff {context : LoadContext} {project : ProjectFiles}
    {loaded : LoadedProject} (config : ServerConfig)
    (loads : loadProject context project = .ok loaded) :
    Registrable (registrations config loaded.routes) ↔ RoutesApart config project := by
  obtain ⟨merged, -, loads⟩ := loads_of_loadProject loads
  have accepted := loads.merges.apart
  have builtins : (builtinRegistrations config).Pairwise (fun one other => Compatible one other) ↔
      (builtinRegistrations config).Pairwise fun one other => ¬ SameShape one other := by
    apply List.Pairwise.iff_of_mem
    intro one other inOne inOther
    have verbs : one.verb = other.verb :=
      (verb_of_builtin inOne).trans (verb_of_builtin inOther).symm
    simp [Compatible, verbs]
  have server : (∀ builtin ∈ builtinRegistrations config,
      ∀ other ∈ (project.all.flatMap (·.1.routes)).map registerRoute, Compatible builtin other) ↔
      ∀ builtin ∈ builtinRegistrations config, ∀ entry ∈ project.all,
        ∀ route ∈ entry.1.routes, SameShape builtin (registerRoute route) →
          route.verb ≠ .get ∧ SameNames builtin (registerRoute route) := by
    refine forall₂_congr fun builtin member => ?_
    rw [List.forall_mem_map, List.forall_mem_flatMap]
    refine forall₄_congr fun entry _ route _ => ?_
    rw [Compatible, verb_of_builtin member, ne_comm]
    rfl
  have routes : ((project.all.flatMap (·.1.routes)).map registerRoute).Pairwise
        (fun one other => Compatible one other) ↔
      (∀ entry ∈ project.all, entry.1.routes.Pairwise fun one other =>
        Compatible (registerRoute one) (registerRoute other)) ∧
      project.all.Pairwise fun one other => ∀ route ∈ one.1.routes,
        ∀ later ∈ other.1.routes, SameShape (registerRoute route) (registerRoute later) →
          if route.verb = later.verb then pathPattern route.path = pathPattern later.path
          else SameNames (registerRoute route) (registerRoute later) := by
    rw [List.pairwise_map, List.pairwise_flatMap]
    refine and_congr Iff.rfl ?_
    constructor
    · intro compatible
      refine (compatible.and accepted).imp fun both route inOne later inOther => ?_
      exact (compatible_of_files (both.2 route inOne later inOther)).mp
        (both.1 route inOne later inOther)
    · intro apart
      refine (apart.and accepted).imp fun both route inOne later inOther => ?_
      exact (compatible_of_files (both.2 route inOne later inOther)).mpr
        (both.1 route inOne later inOther)
  rw [Registrable, registrations, loads.routes, loads.merges.routes]
  simp only [not_clash_iff]
  rw [List.pairwise_append, builtins, server, routes, routesApart_iff]
  exact and_congr_right fun _ => and_comm

instance (config : ServerConfig) (project : ProjectFiles) :
    Decidable (RoutesApart config project) :=
  decidable_of_iff' _ (routesApart_iff config project)

/-! ## Two projects -/

def docsConfig : ServerConfig :=
  { docsEnabled := true, docsPath := "/docs" }

/-- Two verbs on one path in two files. -/
def usersProject : ProjectFiles where
  files :=
    [{ path := "users.marreta", moduleId := "users"
       source := "route GET \"/users/:id\"\n    reply 200, id\n".toList }]
  entrypoint := namedEntrypoint "route DELETE \"/users/:id\"\n    reply 204, null\n"
  distinct := by decide

/-- One route twice in one file. -/
def twiceRouted : ProjectFiles where
  files := []
  entrypoint := namedEntrypoint
    "route GET \"/users\"\n    reply 200, 1\n\nroute GET \"/users\"\n    reply 200, 2\n"
  distinct := by decide

theorem usersProject_registrable :
    ∃ loaded, loadProject plainContext usersProject = .ok loaded ∧
      Registrable (registrations docsConfig loaded.routes) := by
  obtain ⟨loaded, loads, apart⟩ := @ProjectFiles.exists_loaded plainContext usersProject _
    (fun project _ => decide (RoutesApart docsConfig project)) true _ _
    (.cons String.toList_ofList .nil)
    (toList_append_spelled String.toList_ofList String.toList_ofList) (by decide +kernel)
  exact ⟨loaded, loads, (registrable_iff docsConfig loads).mpr (of_decide_eq_true apart)⟩

set_option maxRecDepth 1000 in
theorem twiceRouted_not_registrable :
    ∃ loaded, loadProject plainContext twiceRouted = .ok loaded ∧
      ¬ Registrable (registrations docsConfig loaded.routes) := by
  obtain ⟨loaded, loads, routes⟩ := @ProjectFiles.exists_loaded plainContext twiceRouted _
    (fun _ loaded => loaded.routes.map registerRoute)
    [⟨.get, "/users".toList⟩, ⟨.get, "/users".toList⟩] _ _ .nil
    (toList_append_spelled String.toList_ofList String.toList_ofList) (by decide +kernel)
  refine ⟨loaded, loads, fun registrable => ?_⟩
  rw [Registrable, registrations, routes, List.pairwise_append] at registrable
  have refused := registrable.2.1
  rw [List.pairwise_cons] at refused
  refine refused.1 _ List.mem_cons_self ?_
  rw [clash_iff]
  decide

end Marreta
