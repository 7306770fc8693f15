import Marreta.Server.Authentication

namespace Marreta

open Foundation

/-! How old the signing keys are that requests are checked with.

Key sets are cached under their url.  A cached set is used by every provider with that url,
but it expires after the time that the provider that happened to fetch it allows.  Requests
are handled side by side: while one waits for a key server, others use the cache. -/

/-! ## The cache and the clock -/

section Clock

/-! Instants count the ticks of a clock, and there are only finitely many of them. -/

variable (ticks range : Nat)

/-- `Instant + Duration::from_secs`, unless it panics. -/
def addSeconds (instant seconds : Nat) : Option Nat :=
  if instant + seconds * ticks < range then some (instant + seconds * ticks) else none

/-- The first half of `fetch_jwks`: what the cache has. -/
def cachedSet (now : Nat) (cache : JwksCache) (url : String) : Option JwkSet :=
  match cache.lookup url with
  | some cached => if now < cached.expiresAt then some cached.set else none
  | none => none

/-- The second half: an answer goes into the cache, unless its end is no instant. -/
def storeSet (now : Nat) (cache : JwksCache) (config : JwtAuthConfig) (url : String)
    (set : JwkSet) : Option JwksCache :=
  (addSeconds ticks range now config.jwksCacheTtlSeconds).map fun expiresAt =>
    Table.put cache url { set, expiresAt }

end Clock

/-- Both halves together, with a clock that stands still and has no end. -/
theorem fetchJwks_eq (client : AuthClient) (cache : JwksCache) (config : JwtAuthConfig)
    (url : String) :
    fetchJwks client cache config url =
      match cachedSet client.now cache url with
      | some set => some (set, none)
      | none => fetchJwks.fetch client config url := by
  rw [fetchJwks, cachedSet]
  cases cache.lookup url with
  | none => rfl
  | some cached =>
      by_cases fresh : client.now < cached.expiresAt
      · simp only [fresh, if_true]
      · simp only [fresh, if_false]

theorem storeSet_eq {client : AuthClient} {cache : JwksCache} {config : JwtAuthConfig}
    {url : String} {set : JwkSet} {entry : CachedJwks} {range : Nat}
    (fetches : fetchJwks.fetch client config url = some (set, some entry))
    (inRange : entry.expiresAt < range) :
    storeSet 1 range client.now cache config url set = some (Table.put cache url entry) := by
  obtain ⟨answer, -, same⟩ := Option.map_eq_some_iff.mp fetches
  obtain ⟨rfl, entry_eq⟩ := Prod.mk.inj same
  obtain rfl := Option.some.inj entry_eq
  rw [storeSet, addSeconds, Nat.mul_one, if_pos inRange]
  rfl

/-! ## The server -/

/-- A use of a key set, with the instant at which the set was fetched. -/
structure KeyUse where
  config : JwtAuthConfig
  url : String
  set : JwkSet
  usedAt : Nat
  fetchedAt : Nat

/-- The fetch that a cached set is from. -/
structure Origin where
  set : JwkSet
  fetchedAt : Nat
  ttlSeconds : Nat

/-- The last four are records. -/
structure KeyServer where
  clock : Nat
  cache : JwksCache
  /-- Requests that wait for a key server. -/
  waiting : List (JwtAuthConfig × String)
  origins : Table String Origin
  answered : List (String × JwkSet × Nat)
  used : List KeyUse
  aborted : List (JwtAuthConfig × String)

inductive KeyEvent where
  | tick (passed : Nat)
  /-- A request for a route of the provider needs a key.  The url of an issuer is
  discovered anew for each request. -/
  | request (provider url : String)
  /-- A key server answers a request that waits, or the fetch fails. -/
  | answer (number : Nat) (reply : Option JwkSet)

/-- Where the keys of a provider can be. -/
def keysAt (config : JwtAuthConfig) (url : String) : Bool :=
  match config.validationSource with
  | .jwksUrl own => own = url
  | .oidcDiscovery => true
  | .publicKeyPem _ | .secret _ => false

namespace KeyServer

def start (clock : Nat) : KeyServer :=
  { clock, cache := [], waiting := [], origins := [], answered := [], used := [], aborted := [] }

section Steps

variable (ticks range : Nat) (registry : AuthRegistry)

/-- A request that finds no fresh set waits for its answer. -/
def request (state : KeyServer) (config : JwtAuthConfig) (url : String) : KeyServer :=
  match cachedSet state.clock state.cache url with
  | some set =>
      let fetchedAt := (state.origins.lookup url).elim 0 Origin.fetchedAt
      { state with used := ⟨config, url, set, state.clock, fetchedAt⟩ :: state.used }
  | none => { state with waiting := state.waiting ++ [(config, url)] }

/-- The answer of a key server goes into the cache and is used. -/
def receive (state : KeyServer) (config : JwtAuthConfig) (url : String) (set : JwkSet) :
    KeyServer :=
  let state := { state with answered := (url, set, state.clock) :: state.answered }
  match storeSet ticks range state.clock state.cache config url set with
  | none => { state with aborted := (config, url) :: state.aborted }
  | some cache =>
      { state with
        cache
        origins := state.origins.put url ⟨set, state.clock, config.jwksCacheTtlSeconds⟩
        used := ⟨config, url, set, state.clock, state.clock⟩ :: state.used }

/-- Events that do not apply change nothing. -/
def handle (state : KeyServer) : KeyEvent → KeyServer
  | .tick passed => { state with clock := state.clock + passed }
  | .request provider url =>
      match registry.lookup provider with
      | some (.jwt config) => if keysAt config url then state.request config url else state
      | _ => state
  | .answer number reply =>
      match state.waiting[number]?, reply with
      | none, _ => state
      | some _, none => { state with waiting := state.waiting.eraseIdx number }
      | some (config, url), some set =>
          receive ticks range { state with waiting := state.waiting.eraseIdx number }
            config url set

def run (state : KeyServer) (events : List KeyEvent) : KeyServer :=
  events.foldl (handle ticks range registry) state

/-! ## What the providers ask for -/

/-- Every set that is used comes from the provider's own url and is no older than the
provider allows, and no request is aborted. -/
structure Lawful (state : KeyServer) : Prop where
  own : ∀ use ∈ state.used, keysAt use.config use.url = true ∧
    (use.url, use.set, use.fetchedAt) ∈ state.answered
  fresh : ∀ use ∈ state.used,
    use.usedAt ≤ use.fetchedAt + use.config.jwksCacheTtlSeconds * ticks
  running : state.aborted = []

/-- A request does not come between the end of its own provider's time and the end of the
time of the provider that fetched the set, and the end of an answer's time is an instant. -/
def Meets (state : KeyServer) : KeyEvent → Prop
  | .tick _ => True
  | .request provider url =>
      ∀ config origin, registry.lookup provider = some (.jwt config) →
        keysAt config url = true → state.origins.lookup url = some origin →
        state.clock ≤ origin.fetchedAt + config.jwksCacheTtlSeconds * ticks ∨
          origin.fetchedAt + origin.ttlSeconds * ticks ≤ state.clock
  | .answer number reply =>
      ∀ config url, state.waiting[number]? = some (config, url) → reply ≠ none →
        state.clock + config.jwksCacheTtlSeconds * ticks < range

/-- Every event meets its condition in the state in which it comes. -/
def AllMeet (state : KeyServer) : List KeyEvent → Prop
  | [] => True
  | event :: events =>
      state.Meets ticks range registry event ∧
        AllMeet (state.handle ticks range registry event) events

end Steps

/-! ## Records -/

/-- The cache holds what the records say, and everything used was answered. -/
structure Recorded (ticks : Nat) (state : KeyServer) : Prop where
  cached : ∀ url, state.cache.lookup url = (state.origins.lookup url).map fun origin =>
    { set := origin.set, expiresAt := origin.fetchedAt + origin.ttlSeconds * ticks }
  origins : ∀ url origin, state.origins.lookup url = some origin →
    (url, origin.set, origin.fetchedAt) ∈ state.answered
  used : ∀ use ∈ state.used, keysAt use.config use.url = true ∧
    (use.url, use.set, use.fetchedAt) ∈ state.answered
  waiting : ∀ request ∈ state.waiting, keysAt request.1 request.2 = true

section Runs

variable {ticks range : Nat} {registry : AuthRegistry} {state : KeyServer}

/-- Records and requests that stay, and a clock that may go on. -/
theorem Recorded.keep (recorded : Recorded ticks state) {waiting : List (JwtAuthConfig × String)}
    (fewer : ∀ request ∈ waiting, request ∈ state.waiting) (clock : Nat) :
    Recorded ticks { state with clock, waiting } :=
  { recorded with waiting := fun request inside => recorded.waiting request (fewer request inside) }

/-- A cached set that is fresh, and its origin. -/
theorem Recorded.cachedSet_eq_some (recorded : Recorded ticks state) {url : String} {set : JwkSet} :
    cachedSet state.clock state.cache url = some set ↔
      ∃ origin, state.origins.lookup url = some origin ∧ origin.set = set ∧
        state.clock < origin.fetchedAt + origin.ttlSeconds * ticks := by
  rw [cachedSet, recorded.cached]
  cases state.origins.lookup url with
  | none => simp
  | some origin => simp [and_comm]

theorem Recorded.request (recorded : Recorded ticks state) {config : JwtAuthConfig} {url : String}
    (own : keysAt config url = true) : Recorded ticks (state.request config url) := by
  rw [KeyServer.request]
  cases cached : cachedSet state.clock state.cache url with
  | none =>
      refine { recorded with waiting := fun request inside => ?_ }
      rcases List.mem_append.mp inside with inside | inside
      · exact recorded.waiting request inside
      · rw [List.mem_singleton.mp inside]
        exact own
  | some set =>
      obtain ⟨origin, found, same, -⟩ := recorded.cachedSet_eq_some.mp cached
      refine { recorded with used := fun use inside => ?_ }
      rcases List.mem_cons.mp inside with rfl | inside
      · have answered := recorded.origins url origin found
        rw [same] at answered
        simp only [found, Option.elim_some]
        exact ⟨own, answered⟩
      · exact recorded.used use inside

theorem Recorded.receive (recorded : Recorded ticks state) {config : JwtAuthConfig} {url : String}
    (own : keysAt config url = true) (set : JwkSet) :
    Recorded ticks (state.receive ticks range config url set) := by
  have later {entry : String × JwkSet × Nat} (inside : entry ∈ state.answered) :
      entry ∈ (url, set, state.clock) :: state.answered :=
    List.mem_cons_of_mem _ inside
  have used : ∀ use ∈ state.used, keysAt use.config use.url = true ∧
      (use.url, use.set, use.fetchedAt) ∈ (url, set, state.clock) :: state.answered :=
    fun use inside => ⟨(recorded.used use inside).1, later (recorded.used use inside).2⟩
  rw [KeyServer.receive, storeSet, addSeconds]
  split
  case h_1 =>
      exact { recorded with
        origins := fun other origin found => later (recorded.origins other origin found)
        used }
  case h_2 cache stored =>
      split at stored
      case isFalse => cases stored
      case isTrue =>
      obtain rfl := Option.some.inj stored
      constructor
      · intro other
        rw [Table.lookup_put, Table.lookup_put, recorded.cached other]
        split <;> rfl
      · intro other origin found
        rw [Table.lookup_put] at found
        split at found
        case isTrue same =>
            obtain rfl := Option.some.inj found
            rw [same]
            exact List.mem_cons_self
        case isFalse => exact later (recorded.origins other origin found)
      · intro use inside
        rcases List.mem_cons.mp inside with rfl | inside
        · exact ⟨own, List.mem_cons_self⟩
        · exact used use inside
      · exact recorded.waiting

theorem mem_of_waiting {number : Nat} {request : JwtAuthConfig × String}
    (waits : state.waiting[number]? = some request) : request ∈ state.waiting :=
  List.mem_of_getElem? waits

theorem Recorded.handle (recorded : Recorded ticks state) (event : KeyEvent) :
    Recorded ticks (state.handle ticks range registry event) := by
  have fewer (number : Nat) : ∀ request ∈ state.waiting.eraseIdx number,
      request ∈ state.waiting :=
    fun request inside => List.mem_of_mem_eraseIdx inside
  cases event with
  | tick passed => exact recorded.keep (fun request inside => inside) _
  | request provider url =>
      rw [KeyServer.handle]
      split
      case h_1 config found =>
          split
          case isTrue own => exact recorded.request own
          case isFalse => exact recorded
      case h_2 => exact recorded
  | answer number reply =>
      cases waits : state.waiting[number]? with
      | none =>
          simp only [KeyServer.handle, waits]
          exact recorded
      | some request =>
          have own := recorded.waiting _ (mem_of_waiting waits)
          have keeps := recorded.keep (fewer number) state.clock
          cases reply with
          | none =>
              simp only [KeyServer.handle, waits]
              exact keeps
          | some set =>
              simp only [KeyServer.handle, waits]
              exact keeps.receive own set

/-! ## One event -/

/-- The state is lawful if its uses are fresh and nothing was aborted. -/
theorem Recorded.lawful_iff (recorded : Recorded ticks state) :
    Lawful ticks state ↔ (∀ use ∈ state.used,
      use.usedAt ≤ use.fetchedAt + use.config.jwksCacheTtlSeconds * ticks) ∧
        state.aborted = [] :=
  ⟨fun lawful => ⟨lawful.fresh, lawful.running⟩,
    fun both => ⟨recorded.used, both.1, both.2⟩⟩

theorem Recorded.lawful_request (recorded : Recorded ticks state) {config : JwtAuthConfig}
    {url : String} (own : keysAt config url = true) :
    Lawful ticks (state.request config url) ↔ Lawful ticks state ∧
      ∀ origin, state.origins.lookup url = some origin →
        state.clock ≤ origin.fetchedAt + config.jwksCacheTtlSeconds * ticks ∨
          origin.fetchedAt + origin.ttlSeconds * ticks ≤ state.clock := by
  rw [(recorded.request own).lawful_iff, recorded.lawful_iff, KeyServer.request]
  cases cached : cachedSet state.clock state.cache url with
  | none =>
      refine ⟨fun lawful => ⟨lawful, fun origin found => .inr ?_⟩, And.left⟩
      by_contra fresh
      have used := recorded.cachedSet_eq_some.mpr ⟨origin, found, rfl, Nat.lt_of_not_le fresh⟩
      rw [cached] at used
      cases used
  | some set =>
      obtain ⟨origin, found, -, fresh⟩ := recorded.cachedSet_eq_some.mp cached
      simp only [found, Option.elim_some, List.forall_mem_cons]
      constructor
      · intro lawful
        refine ⟨⟨lawful.1.2, lawful.2⟩, fun other same => .inl ?_⟩
        obtain rfl := Option.some.inj same
        exact lawful.1.1
      · intro lawful
        refine ⟨⟨?_, lawful.1.1⟩, lawful.1.2⟩
        rcases lawful.2 origin rfl with young | expired
        · exact young
        · omega

theorem Recorded.lawful_receive (recorded : Recorded ticks state) {config : JwtAuthConfig}
    {url : String} (own : keysAt config url = true) (set : JwkSet) :
    Lawful ticks (state.receive ticks range config url set) ↔ Lawful ticks state ∧
      state.clock + config.jwksCacheTtlSeconds * ticks < range := by
  rw [(recorded.receive own set).lawful_iff, recorded.lawful_iff, KeyServer.receive, storeSet,
    addSeconds]
  by_cases inRange : state.clock + config.jwksCacheTtlSeconds * ticks < range
  · simp only [inRange, if_true, Option.map_some, List.forall_mem_cons, and_true]
    constructor
    · intro lawful
      exact ⟨lawful.1.2, lawful.2⟩
    · intro lawful
      exact ⟨⟨Nat.le_add_right _ _, lawful.1⟩, lawful.2⟩
  · simp [inRange]

theorem Recorded.lawful_handle (recorded : Recorded ticks state) (event : KeyEvent) :
    Lawful ticks (state.handle ticks range registry event) ↔
      Lawful ticks state ∧ state.Meets ticks range registry event := by
  have kept {waiting : List (JwtAuthConfig × String)}
      (fewer : ∀ request ∈ waiting, request ∈ state.waiting) (clock : Nat) :
      Lawful ticks { state with clock, waiting } ↔ Lawful ticks state := by
    rw [(recorded.keep fewer clock).lawful_iff, recorded.lawful_iff]
  have fewer (number : Nat) : ∀ request ∈ state.waiting.eraseIdx number,
      request ∈ state.waiting :=
    fun request inside => List.mem_of_mem_eraseIdx inside
  cases event with
  | tick passed =>
      rw [KeyServer.handle, Meets, and_true]
      exact kept (fun request inside => inside) _
  | request provider url =>
      rw [KeyServer.handle, Meets]
      split
      case h_1 config found =>
          have only {other : JwtAuthConfig} (same : some (.jwt config) =
              some (AuthProviderRuntimeConfig.jwt other)) : config = other := by
            cases same
            rfl
          split
          case isTrue own =>
              rw [recorded.lawful_request own]
              apply and_congr_right'
              constructor
              · intro meets other origin named _ fetched
                obtain rfl := only (found.symm.trans named)
                exact meets origin fetched
              · intro meets origin
                exact meets config origin found own
          case isFalse foreign =>
              refine (and_iff_left fun other origin named own => ?_).symm
              obtain rfl := only (found.symm.trans named)
              exact absurd own foreign
      case h_2 other =>
          refine (and_iff_left fun config origin found => ?_).symm
          exact absurd found (other config)
  | answer number reply =>
      cases waits : state.waiting[number]? with
      | none => simp [KeyServer.handle, Meets, waits]
      | some request =>
          have own := recorded.waiting _ (mem_of_waiting waits)
          have keeps := recorded.keep (fewer number) state.clock
          cases reply with
          | none =>
              simp only [KeyServer.handle, Meets, waits]
              rw [kept (fewer number) state.clock]
              simp
          | some set =>
              simp only [KeyServer.handle, Meets, waits]
              rw [keeps.lawful_receive own set, kept (fewer number) state.clock]
              apply and_congr_right'
              constructor
              · intro inRange config url same _
                obtain rfl := Option.some.inj same
                exact inRange
              · intro meets
                exact meets request.1 request.2 rfl (Option.some_ne_none set)

/-! ## Runs -/

theorem Recorded.lawful_run (recorded : Recorded ticks state) (events : List KeyEvent) :
    Lawful ticks (state.run ticks range registry events) ↔
      Lawful ticks state ∧ state.AllMeet ticks range registry events := by
  induction events generalizing state with
  | nil => simp [run, AllMeet]
  | cons event events induction =>
      have after : Recorded ticks (state.handle ticks range registry event) :=
        recorded.handle event
      have next := induction after
      rw [run] at next
      rw [run, List.foldl_cons, next, recorded.lawful_handle, AllMeet, and_assoc]

end Runs

theorem recorded_start (ticks clock : Nat) : Recorded ticks (start clock) where
  cached _ := rfl
  origins _ _ found := nomatch found
  used _ inside := nomatch inside
  waiting _ inside := nomatch inside

theorem lawful_start (ticks clock : Nat) : Lawful ticks (start clock) where
  own _ inside := nomatch inside
  fresh _ inside := nomatch inside
  running := rfl

/-- Keys are as fresh as every provider asks for, and no request is aborted, exactly in the
runs whose events all meet their conditions.  A fetch that fails leaves the cache alone. -/
theorem keys_lawful_iff (ticks range : Nat) (registry : AuthRegistry) (clock : Nat)
    (events : List KeyEvent) :
    (Lawful ticks ((start clock).run ticks range registry events) ↔
      (start clock).AllMeet ticks range registry events) ∧
    ∀ (state : KeyServer) (number : Nat),
      (state.handle ticks range registry (.answer number none)).cache = state.cache := by
  constructor
  · rw [(recorded_start ticks clock).lawful_run]
    exact and_iff_right (lawful_start ticks clock)
  · intro state number
    cases waits : state.waiting[number]? with
    | none => simp only [handle, waits]
    | some request => simp only [handle, waits]

/-! ## Two providers with one url -/

/-- Everything is a url. -/
def linkSetup : AuthSetup where
  envVar _ := none
  fileSize _ := none
  readFile path := .error path
  isRsaPem _ := false
  isEcPem _ := false
  isArgon2Hash _ := false
  urlScheme _ := some "https"
  isHeaderName _ := true

def sharedUrl : String := "https://keys.example.com/jwks"

def sharedProvider (name : String) (ttlSeconds : Int64) : String × AuthProvider :=
  (name, .jwt name [.mk "issuer" (.stringLiteral "https://example.com") 1 1,
    .mk "audience" (.stringLiteral "shop") 2 1, .mk "jwks_url" (.stringLiteral sharedUrl) 3 1,
    .mk "jwks_cache_ttl_seconds" (.integer ttlSeconds) 4 1])

def sharedConfig (name : String) (ttlSeconds : Nat) : JwtAuthConfig where
  name
  issuer := "https://example.com"
  audience := "shop"
  subjectClaim := "sub"
  userIdClaim := "sub"
  rolesClaim := "roles"
  emailClaim := "email"
  validationSource := .jwksUrl sharedUrl
  algorithm := none
  jwksCacheTtlSeconds := ttlSeconds
  clockSkewSeconds := 60

def sharedRegistry : AuthRegistry :=
  [("staff", .jwt (sharedConfig "staff" 60)), ("partners", .jwt (sharedConfig "partners" 3600)),
    ("archive", .jwt (sharedConfig "archive" 9223372036854775807))]

theorem buildAuthRegistry_shared :
    buildAuthRegistry linkSetup [sharedProvider "staff" 60, sharedProvider "partners" 3600,
      sharedProvider "archive" 9223372036854775807] = .ok sharedRegistry := by
  rfl

/-- A set that `partners` fetched is used for `staff` two minutes later. -/
def staleUse : List KeyEvent :=
  [.request "partners" sharedUrl, .answer 0 (some []), .tick 120000000000,
    .request "staff" sharedUrl]

/-- The end of the time of `archive` is no instant. -/
def endlessUse : List KeyEvent :=
  [.request "archive" sharedUrl, .answer 0 (some [])]

/-- With nanoseconds and the instants of 64-bit seconds. -/
theorem keys_not_lawful :
    buildAuthRegistry linkSetup [sharedProvider "staff" 60, sharedProvider "partners" 3600,
        sharedProvider "archive" 9223372036854775807] = .ok sharedRegistry ∧
      ¬ Lawful 1000000000 ((start 1000000000).run 1000000000 9223372036854775808000000000
        sharedRegistry staleUse) ∧
      ¬ Lawful 1000000000 ((start 1000000000).run 1000000000 9223372036854775808000000000
        sharedRegistry endlessUse) := by
  refine ⟨buildAuthRegistry_shared, fun lawful => ?_, fun lawful => ?_⟩
  · have used : (⟨sharedConfig "staff" 60, sharedUrl, [], 121000000000, 1000000000⟩ : KeyUse) ∈
        ((start 1000000000).run 1000000000 9223372036854775808000000000 sharedRegistry
          staleUse).used :=
      List.mem_cons_self
    exact absurd (lawful.fresh _ used) (by decide)
  · have aborted : ((start 1000000000).run 1000000000 9223372036854775808000000000 sharedRegistry
        endlessUse).aborted = [(sharedConfig "archive" 9223372036854775807, sharedUrl)] := by
      rfl
    rw [lawful.running] at aborted
    cases aborted

end KeyServer
end Marreta
