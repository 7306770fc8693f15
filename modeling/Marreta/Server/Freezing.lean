import Marreta.Runtime.Projects
import Marreta.Server.Bindings

namespace Marreta

open Foundation
open Environment (lookupScopes)

/-! Frozen environments.

Before a project is served, the definitions of its modules move from their scopes
into the shared base.  Every name keeps its meaning.  What changes is where an
assignment to a definition goes, and which definitions a task of another module
sees of its caller. -/

/-! ## Environments -/

namespace Environment

/-- Every scope has at most one variable of a name. -/
def Distinct (env : Environment) : Prop :=
  ∀ scope ∈ env.scopes, (Table.keys scope).Nodup

theorem base_freeze (env : Environment) :
    env.freeze.base = env.scopes.reverse.foldl ValueMap.insertAll env.base := rfl

theorem get?_base_freeze {env : Environment} (distinct : env.Distinct) (name : String) :
    env.freeze.base.get? name = env.get name := by
  have gathered : ∀ scopes : List ValueMap, (∀ scope ∈ scopes, (Table.keys scope).Nodup) →
      (scopes.reverse.foldl ValueMap.insertAll env.base).get? name =
        (lookupScopes scopes name).or (env.base.get? name) := by
    intro scopes
    induction scopes with
    | nil => exact fun _ => rfl
    | cons scope scopes ih =>
        intro distinct
        have rest := ih fun other member => distinct other (List.mem_cons_of_mem _ member)
        rw [List.reverse_cons, List.foldl_append, List.foldl_cons, List.foldl_nil,
          ValueMap.get?_insertAll, rest, lookupScopes_cons, Option.or_assoc,
          ValueMap.lookup_reverse (distinct scope List.mem_cons_self)]
  rw [base_freeze, gathered env.scopes distinct, get_eq]

theorem get_freeze {env : Environment} (distinct : env.Distinct) (name : String) :
    env.freeze.get name = env.get name := by
  rw [get_eq, ← get?_base_freeze distinct]
  rfl

end Environment

namespace ProjectRuntime

variable {project : ProjectRuntime}

theorem envForModule_freezeEnvs (moduleId : Option String) :
    project.freezeEnvs.envForModule moduleId = (project.envForModule moduleId).freeze := by
  rw [envForModule, freezeEnvs, module?_mapEnvs, envForModule]
  cases project.module? moduleId <;> rfl

theorem visibleSchemasFor_freezeEnvs :
    project.freezeEnvs.visibleSchemasFor = project.visibleSchemasFor := by
  funext moduleId
  exact visibleSchemasFor_mapEnvs project Environment.freeze moduleId

theorem resolveSchema_freezeEnvs : project.freezeEnvs.resolveSchema = project.resolveSchema := by
  funext moduleId name
  exact resolveSchema_mapEnvs project Environment.freeze moduleId name

/-- The environments of the project are maps. -/
def Distinct (project : ProjectRuntime) : Prop :=
  ∀ moduleId, (project.envForModule moduleId).Distinct

theorem like_freezeEnvs (distinct : project.Distinct) : project.freezeEnvs.Like False project where
  visible := (visibleSchemasFor_freezeEnvs).symm
  resolve := (resolveSchema_freezeEnvs).symm
  persistent := rfl
  flags := rfl
  tasks := rfl
  columns := rfl
  envs moduleId := by
    refine ⟨fun name => ?_, False.elim⟩
    rw [envForModule_freezeEnvs]
    exact Environment.get_freeze (distinct moduleId) name

end ProjectRuntime

/-! ## Handlers -/

/-- A handler starts in the frozen environment of its module: it reads every name
alike, but the definitions are not in its scope. -/
def Ground.handler (env : Environment) : Ground where
  floor := 0
  height := 1
  hidden _ := False
  loose name := (env.get name).isSome = true

theorem alike_freeze {env : Environment} (distinct : env.Distinct) :
    Alike (.handler env.freeze) env.freeze env := by
  refine ⟨[], [[]], [], env.scopes, rfl, rfl, by simp, by simp [Environment.scopes], rfl, rfl,
    fun name _ => ?_, fun name firm => ?_⟩
  · rw [← Environment.get_eq, ← Environment.get?_base_freeze distinct]
    rfl
  · have undefined : env.freeze.get name = none :=
      Option.not_isSome_iff_eq_none.mp fun is => absurd (firm is) Bool.false_ne_true
    rw [Environment.get_freeze distinct, Environment.get_eq, Option.or_eq_none_iff] at undefined
    rw [undefined.1]
    rfl

theorem Alike.setAll {ground : Ground} {one other : Environment} (alike : Alike ground one other)
    (bindings : List (String × Value)) : Alike ground (one.setAll bindings) (other.setAll bindings) := by
  induction bindings generalizing one other with
  | nil => exact alike
  | cons binding rest ih => exact ih (alike.set binding.1 binding.2)

theorem Agree.envSet {ground : Ground} {one other : Interpreter} (agree : Agree ground one other)
    (name : String) (value : Value) : Agree ground (one.envSet name value) (other.envSet name value) := by
  obtain ⟨env, rfl, alike⟩ := agree.exists_env
  exact ⟨rfl, alike.set name value⟩

theorem Agree.bindRequest {ground : Ground} {one other : Interpreter}
    (agree : Agree ground one other) (request : RouteRequest) :
    Agree ground (one.bindRequest request) (other.bindRequest request) := by
  obtain ⟨env, rfl, alike⟩ := agree.exists_env
  exact ⟨rfl, (((alike.set _ _).setAll _).set _ _).set _ _⟩

section

variable {server : ServerContext} {runtime : ProjectRuntime} {ground : Ground}

/-- Actions end alike in the frozen project and in the project itself. -/
theorem runAction_freezeEnvs (distinct : runtime.Distinct) {host : Host} {depth : Nat} {α : Type}
    {action : Action α} {one other : Interpreter} (agree : Agree ground one other)
    (along : Action.Along False (host.serving runtime.freezeEnvs)
      (perform (host.serving runtime.freezeEnvs) depth)
      (AlongRun False (host.serving runtime.freezeEnvs) depth) action ground one) :
    EndsAlike ground one.env.depth
      (runAction (host.serving runtime.freezeEnvs) depth action one)
      (runAction (host.serving runtime) depth action other) :=
  @runAction_alike False (host.serving runtime.freezeEnvs) (some runtime)
    (matches_actionOf host (ProjectRuntime.like_freezeEnvs distinct)) depth ground _ _ _ (.refl _)
    _ _ agree along

/-- `Along` for every `allow` that is evaluated. -/
def AllowAlong (server : ServerContext) (runtime : ProjectRuntime) (ground : Ground) :
    List Expression → Interpreter → Prop
  | [], _ => True
  | allow :: rest, state =>
      Action.Along False (server.hostFor runtime) (perform (server.hostFor runtime) server.depth)
        (AlongRun False (server.hostFor runtime) server.depth) (Action.eval allow) ground state ∧
      match runAction (server.hostFor runtime) server.depth (Action.eval allow) state with
      | (.ok _, after) => AllowAlong server runtime ground rest after
      | (.error _, _) => True

/-- Two requests are refused alike, or go on in states that agree. -/
def StartsAlike (ground : Ground) : Except Refusal Interpreter → Except Refusal Interpreter → Prop
  | .ok one, .ok other => Agree ground one other
  | .error refusal, .error refusal' => refusal = refusal'
  | _, _ => False

theorem checkAllow_freezeEnvs (distinct : runtime.Distinct) {allows : List Expression}
    {one other : Interpreter} (agree : Agree ground one other)
    (along : AllowAlong server runtime.freezeEnvs ground allows one) :
    StartsAlike ground (checkAllow server runtime.freezeEnvs allows one)
      (checkAllow server runtime allows other) := by
  induction allows generalizing one other with
  | nil => exact agree
  | cons allow rest ih =>
      obtain ⟨here, later⟩ := along
      have ends := runAction_freezeEnvs distinct agree here
      change EndsAlike ground one.env.depth
        (runAction (server.hostFor runtime.freezeEnvs) server.depth (Action.eval allow) one)
        (runAction (server.hostFor runtime) server.depth (Action.eval allow) other) at ends
      rw [checkAllow, checkAllow]
      rcases ran : runAction (server.hostFor runtime.freezeEnvs) server.depth (Action.eval allow) one
        with ⟨result, after⟩
      rcases ran' : runAction (server.hostFor runtime) server.depth (Action.eval allow) other
        with ⟨result', after'⟩
      rw [ran, ran'] at ends
      rw [ran] at later
      obtain ⟨results, agreeAfter, -⟩ := ends
      obtain rfl : result = result' := results
      cases result with
      | error fault => rfl
      | ok value =>
          simp only
          split
          · exact ih agreeAfter later
          · rfl

/-- The inputs of a request do not depend on the environments. -/
theorem takeValue_freezeEnvs (moduleId : Option String) (request : RouteRequest)
    (binding : TakeBinding) :
    takeValue server runtime.freezeEnvs moduleId request binding =
      takeValue server runtime moduleId request binding := by
  unfold takeValue
  rw [ProjectRuntime.resolveSchema_freezeEnvs, ProjectRuntime.visibleSchemasFor_freezeEnvs]

theorem foldlM_bindTake_freezeEnvs {moduleId : Option String} {request : RouteRequest}
    (bindings : List TakeBinding) {one other : Interpreter} (agree : Agree ground one other) :
    StartsAlike ground (bindings.foldlM (bindTake server runtime.freezeEnvs moduleId request) one)
      (bindings.foldlM (bindTake server runtime moduleId request) other) := by
  induction bindings generalizing one other with
  | nil => exact agree
  | cons binding rest ih =>
      rw [List.foldlM_cons, List.foldlM_cons, bindTake, bindTake, takeValue_freezeEnvs]
      cases takeValue server runtime moduleId request binding with
      | error refusal => rfl
      | ok value => exact ih (agree.envSet binding.name value)

/-- The state of a route before its `allow`s are checked. -/
def requestState (runtime : ProjectRuntime) (route : RouteDefinition) (request : RouteRequest) :
    Interpreter :=
  ((Interpreter.new (runtime.envForModule route.moduleId) route.moduleId).enterRoute
    route).bindRequest request

/-- On a project, the conditions and the body of a route assign no definition of a
module inside a nested body, and use no name in a task of another module that the
two modules define differently; names that the handler has bound itself do not
count. -/
structure RouteAlong (server : ServerContext) (runtime : ProjectRuntime)
    (route : RouteDefinition) (request : RouteRequest) : Prop where
  allows : ∀ auth, authenticateRoute server route request = .ok (some auth) →
    AllowAlong server runtime (.handler (runtime.envForModule route.moduleId)) route.allow
      ((requestState runtime route request).envSet "auth" auth)
  body : ∀ start, startRoute server runtime route request = .ok start →
    Action.Along False (server.hostFor runtime) (perform (server.hostFor runtime) server.depth)
      (AlongRun False (server.hostFor runtime) server.depth) (Action.block route.body)
      (.handler (runtime.envForModule route.moduleId)) start

theorem agree_requestState (distinct : runtime.Distinct) (route : RouteDefinition)
    (request : RouteRequest) :
    Agree (.handler (runtime.freezeEnvs.envForModule route.moduleId))
      (requestState runtime.freezeEnvs route request) (requestState runtime route request) := by
  rw [requestState, requestState, ProjectRuntime.envForModule_freezeEnvs]
  apply Agree.bindRequest
  exact ⟨rfl, alike_freeze (distinct route.moduleId)⟩

theorem startRoute_freezeEnvs (distinct : runtime.Distinct) {route : RouteDefinition}
    {request : RouteRequest} (along : RouteAlong server runtime.freezeEnvs route request) :
    StartsAlike (.handler (runtime.freezeEnvs.envForModule route.moduleId))
      (startRoute server runtime.freezeEnvs route request)
      (startRoute server runtime route request) := by
  have agree := agree_requestState distinct route request
  rw [startRoute, startRoute]
  cases identified : authenticateRoute server route request with
  | error refusal => rfl
  | ok auth =>
      cases auth with
      | none => exact foldlM_bindTake_freezeEnvs route.take agree
      | some auth =>
          have allowed := checkAllow_freezeEnvs distinct (agree.envSet "auth" auth)
            (along.allows auth identified)
          change StartsAlike _
            (checkAllow server runtime.freezeEnvs route.allow
              ((requestState runtime.freezeEnvs route request).envSet "auth" auth) >>= _)
            (checkAllow server runtime route.allow
              ((requestState runtime route request).envSet "auth" auth) >>= _)
          rcases ran : checkAllow server runtime.freezeEnvs route.allow
              ((requestState runtime.freezeEnvs route request).envSet "auth" auth) with refusal | one <;>
            rcases ran' : checkAllow server runtime route.allow
              ((requestState runtime route request).envSet "auth" auth) with refusal' | other <;>
            rw [ran, ran'] at allowed
          · exact allowed
          · exact allowed.elim
          · exact allowed.elim
          · exact foldlM_bindTake_freezeEnvs route.take allowed

end

/-- Freezing changes no result of a handler, a task or another part of a program
whose run on the frozen project assigns no definition of a module inside a nested
body, and uses no name in a task of another module that the two modules define
differently. -/
theorem freezeEnvs_transparent (runtime : ProjectRuntime) (distinct : runtime.Distinct) :
    (∀ server route request, RouteAlong server runtime.freezeEnvs route request →
      (executeRoute server runtime.freezeEnvs route request).map Prod.fst =
        (executeRoute server runtime route request).map Prod.fst) ∧
    (∀ (host : Host) depth moduleId bindings (state : Interpreter) target,
      AlongRun False (host.serving runtime.freezeEnvs) depth
        (.handler (runtime.freezeEnvs.envForModule moduleId)) target
        { state with env := (runtime.freezeEnvs.envForModule moduleId).setAll bindings } →
      (perform (host.serving runtime.freezeEnvs) depth target
        { state with env := (runtime.freezeEnvs.envForModule moduleId).setAll bindings }).1 =
      (perform (host.serving runtime) depth target
        { state with env := (runtime.envForModule moduleId).setAll bindings }).1) := by
  constructor
  · intro server route request along
    have starts := startRoute_freezeEnvs distinct along
    rw [executeRoute, executeRoute]
    rcases started : startRoute server runtime.freezeEnvs route request with refusal | one <;>
      rcases started' : startRoute server runtime route request with refusal' | other <;>
      rw [started, started'] at starts
    · exact congrArg Except.error starts
    · exact starts.elim
    · exact starts.elim
    · have ends := runAction_freezeEnvs distinct starts (along.body one started)
      exact congrArg Except.ok ends.1
  · intro host depth moduleId bindings state target along
    have alike := (alike_freeze (distinct moduleId)).setAll bindings
    rw [ProjectRuntime.envForModule_freezeEnvs] at along ⊢
    have ends := @perform_alike False (host.serving runtime.freezeEnvs) (some runtime)
      (matches_actionOf host (ProjectRuntime.like_freezeEnvs distinct)) depth _ target _ _
      (Agree.of_alike state alike) along
    exact ends.1

/-! ## Two handlers -/

/-- `task bump()` that assigns `rate`. -/
def bumpTask : TaskValue :=
  { name := "bump", params := []
    body := .block [.assignment "rate" (.integer 2) 3 5] (.identifier "rate")
    ownerModule := some "rates", sourceModule := some "rates", line := 2, column := 1 }

/-- A file `rates` with `rate = 1` and that task. -/
def ratesProject : ProjectRuntime where
  globalEnv := Environment.new
  modules :=
    [("rates", { env := (Environment.new.set "rate" (.integer 1)).set "bump" (.task bumpTask)
                 visibleSchemas := [] })]
  publicSchemas := []
  persistentSchemas := []
  featureFlags := { flags := [] }
  taskNamespaces := []
  dbColumns := []

def ratesServer : ServerContext where
  host := emptyHost
  depth := 10
  formats :=
    { parseDecimal := fun _ => none, parseInstant := fun _ => none, parseDate := fun _ => none
      parseTime := fun _ => none, jsonString := fun text => text }
  readJson _ := none
  readPairs _ := none
  decodeLossy _ := ""
  authenticate _ _ := none

def rateRoute (body : List Statement) : RouteDefinition :=
  { verb := .get, path := "/rate", auth := none, allow := [], take := [], body
    line := 6, column := 1, sourceFile := some "rates", moduleId := some "rates" }

def plainRequest : RouteRequest :=
  { urlParams := [], queryParams := [], rawQuery := none, headers := [], body := [] }

/-- A handler that calls `bump()` before it uses `rate`. -/
def bumpedRoute : RouteDefinition :=
  rateRoute [.expressionStatement (.functionCall "bump" []) 7 5,
    .raise (.identifier "rate") none 8 5]

/-- The task writes `rate` only where it is not frozen. -/
theorem bumpedRoute_differs :
    (executeRoute ratesServer ratesProject bumpedRoute plainRequest).map Prod.fst =
        .ok (.error (.error (.raiseError "2"))) ∧
      (executeRoute ratesServer ratesProject.freezeEnvs bumpedRoute plainRequest).map Prod.fst =
        .ok (.error (.error (.raiseError "1"))) :=
  ⟨rfl, rfl⟩

/-- A handler that assigns `rate` itself. -/
def assigningRoute : RouteDefinition :=
  rateRoute [.assignment "rate" (.integer 3) 7 5, .raise (.identifier "rate") none 8 5]

theorem assigningRoute_transparent :
    (executeRoute ratesServer ratesProject.freezeEnvs assigningRoute plainRequest).map Prod.fst =
      (executeRoute ratesServer ratesProject assigningRoute plainRequest).map Prod.fst := by
  have distinct : ratesProject.Distinct := by
    rintro (_ | id) scope member
    · obtain rfl := List.mem_singleton.mp member
      exact List.nodup_nil
    · by_cases same : id = "rates"
      · subst same
        obtain rfl := List.mem_singleton.mp member
        decide
      · have missing : ratesProject.envForModule (some id) = Environment.new := by
          simp [ProjectRuntime.envForModule, ProjectRuntime.module?, ratesProject,
            Table.lookup_cons, same]
        rw [missing] at member
        obtain rfl := List.mem_singleton.mp member
        exact List.nodup_nil
  refine (freezeEnvs_transparent ratesProject distinct).1 ratesServer assigningRoute plainRequest
    ⟨?_, ?_⟩
  · intro auth identified
    cases identified
  · intro start starts
    obtain rfl := Except.ok.inj starts
    refine ⟨⟨?_, trivial⟩, ⟨?_, trivial⟩, trivial⟩
    · exact ⟨trivial, trivial, fun _ => .inr rfl, trivial⟩
    · have may (env : Environment) : (Ground.handler
          (ratesProject.freezeEnvs.envForModule (some "rates"))).MayRead env "rate" := False.elim
      exact ⟨trivial, trivial, along_evaluateIdentifier (may _), trivial⟩

end Marreta
