import Marreta.Runtime.Sparing
import Marreta.Server.Authentication

namespace Marreta

open Foundation

/-! The gate of a route that requires auth.

The takes and the body of the route run only for accepted credentials, and only after
every `allow` held of the context that was built from them.  Otherwise the request ends
with a response that does not depend on them. -/

/-- A request as it comes in. -/
structure IncomingRequest where
  urlParams : List (String × String)
  queryParams : List (String × String)
  rawQuery : Option (List UInt8)
  headers : HeaderMap
  body : List UInt8

def IncomingRequest.toRoute (request : IncomingRequest) : RouteRequest where
  urlParams := request.urlParams
  queryParams := request.queryParams
  rawQuery := request.rawQuery
  headers := request.headers.map fun (name, bytes) => (name, HeaderMap.toStr bytes)
  body := request.body

section

variable {Key : Type} (kit : AuthKit Key) (registry : AuthRegistry) (client : AuthClient)
  (cache : JwksCache) (server : ServerContext) (runtime : ProjectRuntime)

/-- The context of the request on a route. -/
def requestContext (route : RouteDefinition) (request : IncomingRequest) : Option Value :=
  route.auth.bind fun auth =>
    authenticateRequest kit registry client cache auth.provider request.headers

/-- A route is executed with the credentials of its own request. -/
def handleRequest (route : RouteDefinition) (request : IncomingRequest) :
    Except Refusal (Except Fault Unit × Interpreter) :=
  executeRoute { server with
    authenticate := fun route _ => requestContext kit registry client cache route request }
    runtime route request.toRoute

/-- The state before authorization. -/
def boundRequest (route : RouteDefinition) (request : IncomingRequest) : Interpreter :=
  ((Interpreter.new (runtime.envForModule route.moduleId) route.moduleId).enterRoute
    route).bindRequest request.toRoute

/-- What is left of a route after its gate: the takes, then the body. -/
def continueRoute (route : RouteDefinition) (request : IncomingRequest) (state : Interpreter) :
    Except Refusal (Except Fault Unit × Interpreter) := do
  let start ← route.take.foldlM (bindTake server runtime route.moduleId request.toRoute) state
  return runAction (server.hostFor runtime) server.depth (Action.block route.body) start

/-- Each `allow` is evaluated where `auth` is the context, and is truthy. -/
inductive AllowsHold (context : Value) : List Expression → Interpreter → Interpreter → Prop
  | nil (state : Interpreter) : AllowsHold context [] state state
  | cons {allow : Expression} {rest : List Expression} {state after last : Interpreter}
      {value : Value} (bound : state.env.get "auth" = some context)
      (evaluates : perform (server.hostFor runtime) server.depth (.expression allow) state =
        (.ok value, after))
      (truthy : value.isTruthy = true) (others : AllowsHold context rest after last) :
      AllowsHold context (allow :: rest) state last

/-- The request passes the gate as it should, or ends with a response whatever takes and
body the route has. -/
def Gated (setup : AuthSetup) (providers : Table String AuthProvider)
    (answered : List (String × JwkSet)) (route : RouteDefinition) (auth : RouteAuth)
    (request : IncomingRequest) : Prop :=
  (∃ declared config context last, providers.lookup auth.provider = some declared ∧
    buildProvider setup declared = .ok config ∧
    CredentialsAccepted kit client answered config request.headers context ∧
    AllowsHold server runtime context route.allow
      ((boundRequest runtime route request).envSet "auth" context) last ∧
    handleRequest kit registry client cache server runtime route request =
      continueRoute server runtime route request last) ∨
  ∃ refusal, ∀ take body,
    handleRequest kit registry client cache server runtime { route with take, body } request =
      .error refusal

/-- No `allow` with another one after it writes the variable `auth` of the route, or
leaves a scope behind. -/
def AllowsSpare : List Expression → Interpreter → Prop
  | [], _ | [_], _ => True
  | allow :: rest, state =>
      ∀ value after,
        perform (server.hostFor runtime) server.depth (.expression allow) state =
          (.ok value, after) → value.isTruthy = true →
        SparesRun "auth" state.env.depth (server.hostFor runtime) server.depth
          (.expression allow) state ∧ AllowsSpare rest after

end

/-! ## Authorization -/

section

variable {server : ServerContext} {runtime : ProjectRuntime}

theorem checkAllow_cons (allow : Expression) (rest : List Expression) (state : Interpreter) :
    checkAllow server runtime (allow :: rest) state =
      match perform (server.hostFor runtime) server.depth (.expression allow) state with
      | (.ok value, after) =>
          if value.isTruthy then checkAllow server runtime rest after else .error .forbidden
      | (.error fault, _) => .error (.failed fault) := rfl

/-- Authorization lets pass only what every `allow` lets pass. -/
theorem allowsHold_of_checkAllow {context : Value} {allows : List Expression}
    {state last : Interpreter} (bound : state.env.get "auth" = some context)
    (spares : AllowsSpare server runtime allows state)
    (passes : checkAllow server runtime allows state = .ok last) :
    AllowsHold server runtime context allows state last := by
  induction allows generalizing state with
  | nil =>
      obtain rfl : state = last := Except.ok.inj passes
      exact .nil state
  | cons allow rest induction =>
      rw [checkAllow_cons] at passes
      rcases evaluates : perform (server.hostFor runtime) server.depth (.expression allow) state
        with ⟨fault | value, after⟩
      · rw [evaluates] at passes
        cases passes
      · simp only [evaluates] at passes
        split at passes
        · rename_i truthy
          refine .cons bound evaluates truthy ?_
          cases rest with
          | nil =>
              obtain rfl : after = last := Except.ok.inj passes
              exact .nil after
          | cons next others =>
              rw [AllowsSpare] at spares
              · obtain ⟨own, later⟩ := spares value after evaluates truthy
                have kept := perform_keeps server.depth (.expression allow) state own
                  (Nat.le_refl _)
                rw [evaluates] at kept
                exact induction (kept.get_eq.trans bound) later passes
              · simp
        · cases passes

/-- The server only hands its authentication on. -/
theorem checkAllow_authenticate (authenticate : RouteDefinition → RouteRequest → Option Value)
    (allows : List Expression) (state : Interpreter) :
    checkAllow { server with authenticate } runtime allows state =
      checkAllow server runtime allows state := by
  induction allows generalizing state with
  | nil => rfl
  | cons allow rest induction =>
      rw [checkAllow_cons, checkAllow_cons]
      show (match perform (server.hostFor runtime) server.depth (.expression allow) state with
        | (.ok value, after) => _
        | (.error fault, _) => _) = _
      rcases perform (server.hostFor runtime) server.depth (.expression allow) state
        with ⟨fault | value, after⟩
      · rfl
      · simp only [induction]

end

section

variable {Key : Type} {kit : AuthKit Key} {registry : AuthRegistry} {client : AuthClient}
  {cache : JwksCache} {server : ServerContext} {runtime : ProjectRuntime}
  {route : RouteDefinition} {auth : RouteAuth} {request : IncomingRequest}

/-- Without a context, nothing of the route runs. -/
theorem handleRequest_unauthorized (required : route.auth = some auth)
    (unknown : requestContext kit registry client cache route request = none) :
    handleRequest kit registry client cache server runtime route request =
      .error .unauthorized := by
  unfold handleRequest executeRoute startRoute authenticateRoute
  simp only [required, unknown]
  rfl

theorem handleRequest_authorized (required : route.auth = some auth) {context : Value}
    (known : requestContext kit registry client cache route request = some context) :
    handleRequest kit registry client cache server runtime route request =
      (checkAllow server runtime route.allow
        ((boundRequest runtime route request).envSet "auth" context) >>=
          continueRoute server runtime route request) := by
  unfold handleRequest executeRoute startRoute authenticateRoute
  simp only [required, known]
  show (checkAllow _ runtime route.allow _ >>= _) >>= _ = _
  rw [checkAllow_authenticate]
  rw [bind_assoc]
  rfl

end

/-- The gate holds for every request of every route that requires auth, with every cache
the server can have, when no `allow` writes the `auth` that a later one reads. -/
theorem gated_of_spares {Key : Type} (kit : AuthKit Key) (setup : AuthSetup)
    (loaded : LoadedProject) {registry : AuthRegistry}
    (built : buildAuthRegistry setup loaded.authProviders = .ok registry) {state : JwksState}
    (reached : JwksReachable state) (client : AuthClient) (server : ServerContext)
    (env : ValueMap) {route : RouteDefinition} {auth : RouteAuth}
    (required : route.auth = some auth) (request : IncomingRequest)
    (spares : ∀ context,
      requestContext kit registry client state.cache route request = some context →
      AllowsSpare server (loaded.served env) route.allow
        ((boundRequest (loaded.served env) route request).envSet "auth" context)) :
    Gated kit registry client state.cache server (loaded.served env) setup loaded.authProviders
      state.answered route auth request := by
  cases known : requestContext kit registry client state.cache route request with
  | none =>
      refine .inr ⟨.unauthorized, fun take body => ?_⟩
      have unknown : requestContext kit registry client state.cache { route with take, body }
          request = none := known
      exact handleRequest_unauthorized (show { route with take, body }.auth = some auth from required)
        unknown
  | some context =>
      have accepted : authenticateRequest kit registry client state.cache auth.provider
          request.headers = some context := by
        rwa [requestContext, required] at known
      obtain ⟨declared, config, listed, builds, credentials⟩ :=
        authenticateRequest_accepted built reached accepted
      cases passes : checkAllow server (loaded.served env) route.allow
          ((boundRequest (loaded.served env) route request).envSet "auth" context) with
      | error refusal =>
          refine .inr ⟨refusal, fun take body => ?_⟩
          have same : requestContext kit registry client state.cache { route with take, body }
              request = some context := known
          rw [handleRequest_authorized
            (show { route with take, body }.auth = some auth from required) same]
          show (checkAllow server (loaded.served env) route.allow
            ((boundRequest (loaded.served env) route request).envSet "auth" context) >>= _) = _
          rw [passes]
          rfl
      | ok last =>
          refine .inl ⟨declared, config, context, last, listed, builds, credentials, ?_, ?_⟩
          · refine allowsHold_of_checkAllow ?_ (spares context known) passes
            show ((boundRequest (loaded.served env) route request).env.set "auth" context).get
              "auth" = _
            rw [Environment.get_set, if_pos rfl]
          · rw [handleRequest_authorized required known, passes]
            rfl

/-! ## An `allow` that grants itself -/

def offlineClient : AuthClient where
  now := 0
  getJson _ := none
  getJwks _ := none

def adminServer : ServerContext where
  host := { emptyHost with hasDb := false }
  depth := 20
  formats :=
    { parseDecimal := fun _ => none, parseInstant := fun _ => none, parseDate := fun _ => none
      parseTime := fun _ => none, jsonString := fun text => "\"" ++ text ++ "\"" }
  readJson _ := none
  readPairs _ := none
  decodeLossy _ := ""
  authenticate _ _ := none

/-- A request with the key `k`. -/
def adminRequest : IncomingRequest where
  urlParams := []
  queryParams := []
  rawQuery := none
  headers := [("x-api-key", [107])]
  body := []

def adminKey : ApiKeyAuthConfig where
  name := "internal"
  header := "x-api-key"
  secretSource := .secret "k"
  principal := "internal"

def adminProject (routes : String) : ProjectFiles where
  files :=
    [{ path := "admin.marreta", moduleId := "admin"
       source := ("auth api_key internal \x7b\n    header: \"x-api-key\"\n    secret: \"k\"\n\x7d\n\n" ++
         routes).toList }]
  entrypoint := namedEntrypoint ""
  distinct := by simp [namedEntrypoint]

/-- The only route of a project, the registry and what the gate makes of the request. -/
def adminRoute (loaded : LoadedProject) : Option (RouteDefinition × AuthRegistry) :=
  match loaded.routes, buildAuthRegistry plainSetup loaded.authProviders with
  | [route], .ok registry => some (route, registry)
  | _, _ => none

theorem adminRoute_eq_some {loaded : LoadedProject} {route : RouteDefinition}
    {registry : AuthRegistry} (found : adminRoute loaded = some (route, registry)) :
    route ∈ loaded.routes ∧ buildAuthRegistry plainSetup loaded.authProviders = .ok registry := by
  unfold adminRoute at found
  split at found
  · rename_i routes built
    obtain ⟨rfl, rfl⟩ := Prod.mk.inj (Option.some.inj found)
    exact ⟨by rw [routes]; exact List.mem_cons_self, built⟩
  · cases found

/-- How many entries `auth` has. -/
def authSize (env : Environment) : Option Nat :=
  match env.get "auth" with
  | some (.map entries) => some entries.length
  | _ => none

def guardedProject : ProjectFiles :=
  adminProject ("route GET \"/admin\"\n    require auth internal\n    allow true\n" ++
    "    allow auth.user\n\n    reply 200, \"ok\"\n")

def isTrue : Expression → Bool
  | .boolean value => value
  | _ => false

/-- The request gets through a gate whose first `allow` is `true`. -/
def guards (loaded : LoadedProject) : Bool :=
  match adminRoute loaded with
  | none => false
  | some (route, registry) =>
      (handleRequest plainKit registry offlineClient [] adminServer (loaded.served []) route
          adminRequest).isOk && route.auth.isSome &&
        match route.allow with
        | [first, _] => isTrue first
        | _ => false

set_option maxRecDepth 1000 in
theorem guardedProject_gated :
    ∃ loaded, loadProject plainContext guardedProject = .ok loaded ∧
      ∃ registry, buildAuthRegistry plainSetup loaded.authProviders = .ok registry ∧
      ∃ route ∈ loaded.routes, ∃ auth, route.auth = some auth ∧
        (handleRequest plainKit registry offlineClient [] adminServer (loaded.served []) route
          adminRequest).isOk = true ∧
        Gated plainKit registry offlineClient [] adminServer (loaded.served []) plainSetup
          loaded.authProviders [] route auth adminRequest := by
  obtain ⟨loaded, loads, guarded⟩ := @ProjectFiles.exists_loaded plainContext guardedProject _
    (fun _ => guards) true _ _
    (.cons (toList_append_spelled String.toList_ofList
      (toList_append_spelled String.toList_ofList String.toList_ofList)) .nil)
    (toList_append_spelled String.toList_ofList String.toList_ofList) (by decide +kernel)
  rw [guards] at guarded
  split at guarded
  · cases guarded
  · rename_i route registry found
    obtain ⟨member, built⟩ := adminRoute_eq_some found
    simp only [Bool.and_eq_true] at guarded
    obtain ⟨⟨passes, required⟩, allows⟩ := guarded
    obtain ⟨auth, required⟩ := Option.isSome_iff_exists.mp required
    refine ⟨loaded, loads, registry, built, route, member, auth, required, passes, ?_⟩
    refine gated_of_spares plainKit plainSetup loaded built .start offlineClient adminServer []
      required adminRequest fun context _ => ?_
    split at allows
    · rename_i first second same
      rw [same]
      cases first with
      | boolean value => exact fun _ _ _ _ => ⟨trivial, trivial⟩
      | _ => cases allows
    · cases allows

def grantingProject : ProjectFiles :=
  adminProject ("task grant()\n    auth = \x7b admin: true \x7d\n    true\n\n" ++
    "route GET \"/admin\"\n    require auth internal\n    allow grant()\n    allow auth.admin\n\n" ++
    "    reply 200, \"ok\"\n")

def grantedState (loaded : LoadedProject) (route : RouteDefinition) : Interpreter :=
  (boundRequest (loaded.served []) route adminRequest).envSet "auth" (apiKeyAuthContext adminKey)

/-- The request gets through, with another `auth` after the first `allow`. -/
def grants (loaded : LoadedProject) : Bool :=
  match adminRoute loaded with
  | none => false
  | some (route, registry) =>
      (handleRequest plainKit registry offlineClient [] adminServer (loaded.served []) route
          adminRequest).isOk &&
        (route.auth.map (·.provider) = some "internal") &&
        ((loaded.authProviders.lookup "internal").bind
          (fun declared => (buildProvider plainSetup declared).toOption) = some (.apiKey adminKey)) &&
        match route.allow with
        | [first, _] =>
            authSize (perform (adminServer.hostFor (loaded.served [])) adminServer.depth
              (.expression first) (grantedState loaded route)).2.env = some 1
        | _ => false

set_option maxRecDepth 1000 in
theorem grantingProject_opens_gate :
    ∃ loaded, loadProject plainContext grantingProject = .ok loaded ∧
      ∃ registry, buildAuthRegistry plainSetup loaded.authProviders = .ok registry ∧
      ∃ route ∈ loaded.routes, ∃ auth, route.auth = some auth ∧
        ¬ Gated plainKit registry offlineClient [] adminServer (loaded.served []) plainSetup
          loaded.authProviders [] route auth adminRequest := by
  obtain ⟨loaded, loads, granted⟩ := @ProjectFiles.exists_loaded plainContext grantingProject _
    (fun _ => grants) true _ _
    (.cons (toList_append_spelled String.toList_ofList
      (toList_append_spelled (toList_append_spelled String.toList_ofList String.toList_ofList)
        String.toList_ofList)) .nil)
    (toList_append_spelled String.toList_ofList String.toList_ofList) (by decide +kernel)
  rw [grants] at granted
  split at granted
  · cases granted
  · rename_i route registry found
    obtain ⟨member, built⟩ := adminRoute_eq_some found
    simp only [Bool.and_eq_true, decide_eq_true_eq] at granted
    obtain ⟨⟨⟨passes, provider⟩, settings⟩, changed⟩ := granted
    obtain ⟨auth, required, named⟩ := Option.map_eq_some_iff.mp provider
    refine ⟨loaded, loads, registry, built, route, member, auth, required, ?_⟩
    rintro (⟨declared, config, context, last, listed, builds, accepted, holds, -⟩ |
      ⟨refusal, refused⟩)
    · rw [named] at listed
      rw [listed, Option.bind_some, builds] at settings
      obtain rfl : config = .apiKey adminKey := Option.some.inj settings
      obtain ⟨supplied, -, -, rfl⟩ := accepted
      split at changed
      · rename_i first second allows
        rw [allows] at holds
        obtain _ | ⟨-, evaluated, -, others⟩ := holds
        obtain _ | ⟨boundAgain, -, -, -⟩ := others
        simp only [decide_eq_true_eq] at changed
        have size := changed.symm.trans
          (congrArg (fun ended => authSize ended.2.env) evaluated)
        rw [authSize, boundAgain] at size
        cases size
      · cases changed
    · rw [show handleRequest plainKit registry offlineClient [] adminServer (loaded.served [])
        route adminRequest = .error refusal from refused route.take route.body] at passes
      cases passes

end Marreta
