import Marreta.Project.AuthProviders
import Marreta.Runtime.Json
import Marreta.Server.Bindings

namespace Marreta

open Foundation

/-! Who sends a request.

A route that requires auth checks the credentials of each request against the settings
of its provider: an API key against a secret or a hash, a bearer token against a key of
the provider's source.  Key sets are fetched over the network and cached. -/

/-! ## What authentication relies on -/

structure Jwk where
  keyId : Option String
  keyAlgorithm : Option String
  material : String
deriving DecidableEq

abbrev JwkSet := List Jwk

structure JwtHeader where
  algorithm : JwtAlgorithm
  kid : Option String
deriving DecidableEq

/-- What a token is checked for. -/
structure Validation where
  algorithm : JwtAlgorithm
  audience : Option (List String)
  issuer : Option (List String)
  validateExp : Bool
  validateNbf : Bool
  leeway : Nat
  requiredSpecClaims : List String
deriving DecidableEq

def Validation.new (algorithm : JwtAlgorithm) : Validation where
  algorithm
  audience := none
  issuer := none
  validateExp := true
  validateNbf := false
  leeway := 60
  requiredSpecClaims := ["exp"]

abbrev Claims := List (String × Json)

/-- Tokens, their keys and hashes.  `decode` gives the claims of a token that the key
signed and that passes the validation. -/
structure AuthKit (Key : Type) where
  decodeHeader : String → Option JwtHeader
  fromSecret : List UInt8 → Key
  fromRsaPem : String → Option Key
  fromEcPem : String → Option Key
  fromJwk : Jwk → Option Key
  decode : String → Key → Validation → Option Claims
  /-- A hash that is none accepts nothing. -/
  verifyArgon2 : String → List UInt8 → Bool
  sha256 : List UInt8 → String

/-- The clock and the answers that the network gives while a request is handled. -/
structure AuthClient where
  now : Nat
  getJson : String → Option Json
  getJwks : String → Option JwkSet

structure CachedJwks where
  set : JwkSet
  expiresAt : Nat

abbrev JwksCache := Table String CachedJwks

/-- Headers with their names in lower case and their values as bytes. -/
abbrev HeaderMap := List (String × List UInt8)

namespace HeaderMap

def getBytes (headers : HeaderMap) (name : String) : Option (List UInt8) :=
  headers.lookup (name.map Char.toLower)

/-- A header that is text: visible characters, blanks and tabs. -/
def toStr (bytes : List UInt8) : Option String :=
  if bytes.all fun byte => (32 ≤ byte && byte < 127) || byte = 9 then
    some (String.ofList (bytes.map fun byte => Char.ofNat byte.toNat))
  else none

end HeaderMap

/-! ## Contexts -/

def claimString (claims : Claims) (key : String) : Option String :=
  (claims.lookup key).bind Json.asString?

def claimRoles (claims : Claims) (key : String) : List String :=
  match claims.lookup key with
  | some (.array items) => items.filterMap Json.asString?
  | some (.string role) => [role]
  | _ => []

/-- The value of `auth` on a route. -/
def authContext (provider kind subject : String) (user : ValueMap) (claims : ValueMap) : Value :=
  .map [("provider", .string provider), ("type", .string kind), ("subject", .string subject),
    ("user", .map user), ("claims", .map claims)]

def jwtAuthContext (config : JwtAuthConfig) (claims : Claims) : Option Value := do
  let subject ← claimString claims config.subjectClaim
  let userId := (claimString claims config.userIdClaim).getD subject
  let roles := (claimRoles claims config.rolesClaim).map Value.string
  let email := (claimString claims config.emailClaim).map fun email => ("email", Value.string email)
  return authContext config.name "jwt" subject
    ([("id", .string userId), ("subject", .string subject), ("roles", .list roles)] ++ email.toList)
    (Json.entriesToValues claims)

def apiKeyAuthContext (config : ApiKeyAuthConfig) : Value :=
  authContext config.name "api_key" config.principal
    [("id", .string config.principal), ("subject", .string config.principal), ("roles", .list [])]
    []

/-! ## API keys -/

section Keys

variable {Key : Type} (kit : AuthKit Key)

def bytesOf (text : String) : List UInt8 :=
  text.toUTF8.data.toList

def verifyApiKeyHash (supplied : List UInt8) (expected : String) : Bool :=
  if isArgon2id expected then kit.verifyArgon2 expected supplied
  else
    match sha256Digest? expected with
    | none => false
    | some digest => (kit.sha256 supplied).toList = digest

/-- The header bytes are the secret, or match the hash. -/
def validApiKey (source : ApiKeySecretSource) (supplied : List UInt8) : Bool :=
  match source with
  | .secret secret => supplied = bytesOf secret
  | .secretHash hash => verifyApiKeyHash kit supplied hash

def authenticateApiKey (config : ApiKeyAuthConfig) (headers : HeaderMap) : Option Value := do
  let supplied ← headers.getBytes config.header
  if validApiKey kit config.secretSource supplied then some (apiKeyAuthContext config) else none

/-! ## Tokens -/

def stripBearer (text : List Char) : Option (List Char) :=
  if "Bearer ".toList.isPrefixOf text || "bearer ".toList.isPrefixOf text then some (text.drop 7)
  else none

def bearerToken (headers : HeaderMap) : Option String := do
  let bytes ← headers.getBytes "authorization"
  let text ← HeaderMap.toStr bytes
  let token ← stripBearer text.toList
  if Text.trim token = [] then none else some (String.ofList token)

def jwtHeaderAlgorithm (config : JwtAuthConfig) (header : JwtAlgorithm) : Option JwtAlgorithm :=
  match config.algorithm with
  | some name => (jwtAlgorithm name).filter (· = header)
  | none => if header.isSupportedJwks then some header else none

def fixedPublicKey (pem : String) (algorithm : JwtAlgorithm) : Option Key :=
  match algorithm with
  | .rs256 | .rs384 | .rs512 => kit.fromRsaPem pem
  | .es256 | .es384 => kit.fromEcPem pem
  | _ => none

/-- Where an issuer says where its keys are. -/
def discoveryUrl (issuer : String) : String :=
  String.ofList (issuer.toList.reverse.dropWhile (· = '/')).reverse ++
    "/.well-known/openid-configuration"

def discoverJwksUrl (client : AuthClient) (config : JwtAuthConfig) : Option String := do
  let body ← client.getJson (discoveryUrl config.issuer)
  match body with
  | .object entries => (entries.lookup "jwks_uri").bind Json.asString?
  | _ => none

/-- The key set of a url, from the cache while it is fresh, with the entry that is put
into the cache otherwise. -/
def fetchJwks (client : AuthClient) (cache : JwksCache) (config : JwtAuthConfig) (url : String) :
    Option (JwkSet × Option CachedJwks) :=
  match cache.lookup url with
  | some cached =>
      if client.now < cached.expiresAt then some (cached.set, none) else fetch
  | none => fetch
where
  fetch : Option (JwkSet × Option CachedJwks) :=
    (client.getJwks url).map fun set =>
      (set, some { set, expiresAt := client.now + config.jwksCacheTtlSeconds })

def matchesKeyAlgorithm (config : JwtAuthConfig) (algorithm : JwtAlgorithm) (jwk : Jwk) : Bool :=
  match jwk.keyAlgorithm with
  | some name => jwtAlgorithm name = some algorithm
  | none => config.algorithm.isSome

def jwksDecodingKey (client : AuthClient) (cache : JwksCache) (config : JwtAuthConfig)
    (token : String) (algorithm : JwtAlgorithm) (url : String) : Option Key := do
  let header ← kit.decodeHeader token
  let kid ← header.kid
  let (set, _) ← fetchJwks client cache config url
  let jwk ← set.find? fun jwk => jwk.keyId = some kid
  if matchesKeyAlgorithm config algorithm jwk then kit.fromJwk jwk else none

def decodingKey (client : AuthClient) (cache : JwksCache) (config : JwtAuthConfig)
    (token : String) (algorithm : JwtAlgorithm) : Option Key :=
  match config.validationSource with
  | .secret secret => some (kit.fromSecret (bytesOf secret))
  | .publicKeyPem pem => fixedPublicKey kit pem algorithm
  | .jwksUrl url => jwksDecodingKey kit client cache config token algorithm url
  | .oidcDiscovery => do
      let url ← discoverJwksUrl client config
      jwksDecodingKey kit client cache config token algorithm url

def jwtValidation (config : JwtAuthConfig) (algorithm : JwtAlgorithm) : Validation :=
  { Validation.new algorithm with
    audience := some [config.audience]
    issuer := some [config.issuer]
    validateNbf := true
    leeway := config.clockSkewSeconds
    requiredSpecClaims := ["exp", "iss", "aud"] }

def decodeJwtClaims (config : JwtAuthConfig) (token : String) (algorithm : JwtAlgorithm)
    (key : Key) : Option Value := do
  let claims ← kit.decode token key (jwtValidation config algorithm)
  jwtAuthContext config claims

def authenticateJwt (client : AuthClient) (cache : JwksCache) (config : JwtAuthConfig)
    (headers : HeaderMap) : Option Value := do
  let token ← bearerToken headers
  let header ← kit.decodeHeader token
  let algorithm ← jwtHeaderAlgorithm config header.algorithm
  let key ← decodingKey kit client cache config token algorithm
  decodeJwtClaims kit config token algorithm key

/-- The context of a request, or `none` when it is unauthorized. -/
def authenticateRequest (registry : AuthRegistry) (client : AuthClient) (cache : JwksCache)
    (provider : String) (headers : HeaderMap) : Option Value := do
  match ← registry.lookup provider with
  | .apiKey config => authenticateApiKey kit config headers
  | .jwt config => authenticateJwt kit client cache config headers

end Keys

/-! ## The cache -/

/-- The cache and, for the record, every key set that a url has answered with. -/
structure JwksState where
  cache : JwksCache
  answered : List (String × JwkSet)

/-- Requests are handled side by side.  The only change to the cache is an entry that
`fetchJwks` made of an answer; the cache it read may be older. -/
inductive JwksStep : JwksState → JwksState → Prop
  | fetched (state : JwksState) (client : AuthClient) (seen : JwksCache) (config : JwtAuthConfig)
      (url : String) (set : JwkSet) (entry : CachedJwks)
      (fetches : fetchJwks client seen config url = some (set, some entry)) :
      JwksStep state
        { cache := Table.put state.cache url entry, answered := (url, set) :: state.answered }

/-- What the server can have cached since it started. -/
inductive JwksReachable : JwksState → Prop
  | start : JwksReachable { cache := [], answered := [] }
  | step {before after : JwksState} (reached : JwksReachable before) (taken : JwksStep before after) :
      JwksReachable after

/-! ## What accepted credentials are -/

section Accepted

variable {Key : Type} (kit : AuthKit Key) (client : AuthClient)
  (answered : List (String × JwkSet))

/-- Where the provider keeps its key sets. -/
def SourceUrl (config : JwtAuthConfig) (url : String) : Prop :=
  config.validationSource = .jwksUrl url ∨
    config.validationSource = .oidcDiscovery ∧ discoverJwksUrl client config = some url

/-- The key belongs to a set that the provider's url answered with, now or before. -/
def JwkOf (config : JwtAuthConfig) (key : Key) (jwk : Jwk) : Prop :=
  ∃ url set, SourceUrl client config url ∧
    ((url, set) ∈ answered ∨ client.getJwks url = some set) ∧
    jwk ∈ set ∧ kit.fromJwk jwk = some key

/-- The key comes from the source of the provider. -/
def OwnKey (config : JwtAuthConfig) (key : Key) : Prop :=
  match config.validationSource with
  | .secret secret => key = kit.fromSecret (bytesOf secret)
  | .publicKeyPem pem => kit.fromRsaPem pem = some key ∨ kit.fromEcPem pem = some key
  | .jwksUrl _ | .oidcDiscovery => ∃ jwk, JwkOf kit client answered config key jwk

/-- All checks of a token are on. -/
structure Validation.Strict (validation : Validation) (config : JwtAuthConfig) : Prop where
  issuer : validation.issuer = some [config.issuer]
  audience : validation.audience = some [config.audience]
  exp : validation.validateExp = true
  nbf : validation.validateNbf = true
  required : ∀ claim ∈ ["exp", "iss", "aud"], claim ∈ validation.requiredSpecClaims

/-- A bearer token that is decoded under the algorithm of the provider, or else under
the public-key algorithm that the matched key declares. -/
structure JwtAccepted (config : JwtAuthConfig) (headers : HeaderMap) (context : Value)
    (token : String) (key : Key) (validation : Validation) (claims : Claims) : Prop where
  bearer : bearerToken headers = some token
  own : OwnKey kit client answered config key
  configured : ∀ name, config.algorithm = some name →
    jwtAlgorithm name = some validation.algorithm
  declared : config.algorithm = none →
    validation.algorithm.isSupportedJwks = true ∧
      ∃ jwk name, JwkOf kit client answered config key jwk ∧ jwk.keyAlgorithm = some name ∧
        jwtAlgorithm name = some validation.algorithm
  noHmac : ∀ pem, config.validationSource = .publicKeyPem pem →
    validation.algorithm.isHmac = false
  strict : validation.Strict config
  decoded : kit.decode token key validation = some claims
  context_eq : jwtAuthContext config claims = some context

/-- The credentials of a request are accepted, and give this context. -/
def CredentialsAccepted (config : AuthProviderRuntimeConfig) (headers : HeaderMap) (context : Value) :
    Prop :=
  match config with
  | .apiKey config =>
      ∃ supplied, headers.getBytes config.header = some supplied ∧
        (match config.secretSource with
          | .secret secret => supplied = bytesOf secret
          | .secretHash hash => verifyApiKeyHash kit supplied hash = true) ∧
        context = apiKeyAuthContext config
  | .jwt config =>
      ∃ token key validation claims,
        JwtAccepted kit client answered config headers context token key validation claims

end Accepted

/-! ## Settings -/

/-- Without an algorithm, keys come from a key set. -/
theorem jwtSource_ok {setup : AuthSetup} {provider : String}
    {url pem secret algorithm : Option String} {source : JwtValidationSource}
    (found : jwtSource setup provider url pem secret algorithm = .ok source)
    (none : algorithm = none) : source = .oidcDiscovery ∨ ∃ url, source = .jwksUrl url := by
  subst none
  cases pem with
  | some pem =>
      obtain ⟨_, -, rest⟩ := bind_eq_ok.mp found
      cases rest
  | none =>
      cases secret with
      | some secret =>
          obtain ⟨_, -, rest⟩ := bind_eq_ok.mp found
          cases rest
      | none =>
          obtain ⟨_, -, rest⟩ := bind_eq_ok.mp found
          obtain ⟨_, -, rest⟩ := bind_eq_ok.mp rest
          obtain ⟨_, -, rest⟩ := bind_eq_ok.mp rest
          rw [← Except.ok.inj rest]
          cases url with
          | none => exact .inl rfl
          | some url => exact .inr ⟨url, rfl⟩

theorem buildJwtConfig_ok {setup : AuthSetup} {provider : String}
    {declared : List AuthProviderField} {config : JwtAuthConfig}
    (built : buildJwtConfig setup provider declared = .ok config) :
    ∃ url pem secret, jwtSource setup provider url pem secret config.algorithm =
      .ok config.validationSource := by
  unfold buildJwtConfig at built
  obtain ⟨fields, -, built⟩ := bind_eq_ok.mp built
  obtain ⟨issuer, -, built⟩ := bind_eq_ok.mp built
  obtain ⟨audience, -, built⟩ := bind_eq_ok.mp built
  obtain ⟨subject, -, built⟩ := bind_eq_ok.mp built
  obtain ⟨user, -, built⟩ := bind_eq_ok.mp built
  obtain ⟨roles, -, built⟩ := bind_eq_ok.mp built
  obtain ⟨email, -, built⟩ := bind_eq_ok.mp built
  obtain ⟨url, -, built⟩ := bind_eq_ok.mp built
  obtain ⟨given, -, built⟩ := bind_eq_ok.mp built
  obtain ⟨file, -, built⟩ := bind_eq_ok.mp built
  obtain ⟨pem, -, built⟩ := bind_eq_ok.mp built
  obtain ⟨secret, -, built⟩ := bind_eq_ok.mp built
  obtain ⟨algorithm, -, built⟩ := bind_eq_ok.mp built
  obtain ⟨ttl, -, built⟩ := bind_eq_ok.mp built
  obtain ⟨skew, -, built⟩ := bind_eq_ok.mp built
  obtain ⟨source, found, built⟩ := bind_eq_ok.mp built
  rw [← Except.ok.inj built]
  exact ⟨url, pem, secret, found⟩

theorem lookup_buildAuthRegistry {setup : AuthSetup} {providers : Table String AuthProvider}
    {registry : AuthRegistry} (built : buildAuthRegistry setup providers = .ok registry)
    {name : String} {config : AuthProviderRuntimeConfig}
    (found : registry.lookup name = some config) :
    ∃ declared, providers.lookup name = some declared ∧
      buildProvider setup declared = .ok config := by
  induction providers generalizing registry with
  | nil =>
      cases built
      cases found
  | cons entry rest induction =>
      obtain ⟨first, provider⟩ := entry
      rw [buildAuthRegistry, List.mapM_cons] at built
      obtain ⟨head, headBuilt, built⟩ := bind_eq_ok.mp built
      obtain ⟨tail, others, built⟩ := bind_eq_ok.mp built
      obtain ⟨own, builds, same⟩ := bind_eq_ok.mp headBuilt
      obtain rfl := Except.ok.inj same
      obtain rfl := Except.ok.inj built
      rw [Table.lookup_cons] at found ⊢
      split at found
      · rename_i here
        rw [if_pos here]
        obtain rfl := Option.some.inj found
        exact ⟨provider, rfl, builds⟩
      · rename_i other
        rw [if_neg other]
        exact induction others found

/-! ## The cache -/

theorem fetchJwks_fresh {client : AuthClient} {cache : JwksCache} {config : JwtAuthConfig}
    {url : String} {set : JwkSet} {entry : CachedJwks}
    (fetches : fetchJwks client cache config url = some (set, some entry)) :
    client.getJwks url = some set ∧ entry.set = set := by
  have fetch : fetchJwks.fetch client config url = some (set, some entry) := by
    unfold fetchJwks at fetches
    split at fetches
    · split at fetches
      · cases fetches
      · exact fetches
    · exact fetches
  obtain ⟨answer, answered, same⟩ := Option.map_eq_some_iff.mp fetch
  obtain ⟨rfl, rest⟩ := Prod.mk.inj same
  exact ⟨answered, by rw [← Option.some.inj rest]⟩

/-- Every cached key set is one that its url answered with. -/
def CacheSound (state : JwksState) : Prop :=
  ∀ url entry, state.cache.lookup url = some entry → (url, entry.set) ∈ state.answered

theorem JwksStep.sound {before after : JwksState} (taken : JwksStep before after)
    (sound : CacheSound before) : CacheSound after := by
  cases taken with
  | fetched client seen config url set entry fetches =>
      intro other cached found
      rw [Table.lookup_put] at found
      split at found
      · rename_i same
        obtain rfl := Option.some.inj found
        rw [same, (fetchJwks_fresh fetches).2]
        exact List.mem_cons_self
      · exact List.mem_cons_of_mem _ (sound other cached found)

theorem JwksReachable.sound {state : JwksState} (reached : JwksReachable state) :
    CacheSound state := by
  induction reached with
  | start => intro url entry found; cases found
  | step _ taken induction => exact taken.sound induction

/-- Whether it is cached or not, a key set comes from its url. -/
theorem fetchJwks_answered {state : JwksState} (sound : CacheSound state) {client : AuthClient}
    {config : JwtAuthConfig} {url : String} {set : JwkSet} {entry : Option CachedJwks}
    (fetches : fetchJwks client state.cache config url = some (set, entry)) :
    (url, set) ∈ state.answered ∨ client.getJwks url = some set := by
  have fresh : fetchJwks.fetch client config url = some (set, entry) →
      client.getJwks url = some set := by
    intro fetch
    obtain ⟨answer, answered, same⟩ := Option.map_eq_some_iff.mp fetch
    rwa [(Prod.mk.inj same).1] at answered
  unfold fetchJwks at fetches
  split at fetches
  · rename_i cached found
    split at fetches
    · obtain ⟨rfl, -⟩ := Prod.mk.inj (Option.some.inj fetches)
      exact .inl (sound url cached found)
    · exact .inr (fresh fetches)
  · exact .inr (fresh fetches)

/-! ## Authentication -/

section Authentication

variable {Key : Type} {kit : AuthKit Key} {client : AuthClient} {state : JwksState}
  {config : JwtAuthConfig} {token : String} {algorithm : JwtAlgorithm} {key : Key}

theorem jwksDecodingKey_own (sound : CacheSound state) {url : String}
    (own : SourceUrl client config url)
    (found : jwksDecodingKey kit client state.cache config token algorithm url = some key) :
    ∃ jwk, JwkOf kit client state.answered config key jwk ∧
      (config.algorithm = none →
        ∃ name, jwk.keyAlgorithm = some name ∧ jwtAlgorithm name = some algorithm) := by
  obtain ⟨header, -, found⟩ := Option.bind_eq_some_iff.mp found
  obtain ⟨kid, -, found⟩ := Option.bind_eq_some_iff.mp found
  obtain ⟨⟨set, entry⟩, fetches, found⟩ := Option.bind_eq_some_iff.mp found
  obtain ⟨jwk, finds, found⟩ := Option.bind_eq_some_iff.mp found
  split at found
  · rename_i matched
    refine ⟨jwk, ⟨url, set, own, fetchJwks_answered sound fetches,
      List.mem_of_find?_eq_some finds, found⟩, fun none => ?_⟩
    rw [matchesKeyAlgorithm, none] at matched
    cases declared : jwk.keyAlgorithm with
    | none => simp [declared] at matched
    | some name => exact ⟨name, rfl, by simpa [declared] using matched⟩
  · cases found

theorem decodingKey_own (sound : CacheSound state)
    (found : decodingKey kit client state.cache config token algorithm = some key) :
    OwnKey kit client state.answered config key ∧
      (config.algorithm = none → (config.validationSource = .oidcDiscovery ∨
          ∃ url, config.validationSource = .jwksUrl url) →
        ∃ jwk name, JwkOf kit client state.answered config key jwk ∧
          jwk.keyAlgorithm = some name ∧ jwtAlgorithm name = some algorithm) ∧
      ∀ pem, config.validationSource = .publicKeyPem pem → algorithm.isHmac = false := by
  unfold decodingKey at found
  unfold OwnKey
  cases source : config.validationSource with
  | secret secret =>
      simp only [source] at found ⊢
      exact ⟨(Option.some.inj found).symm, by simp, by simp⟩
  | publicKeyPem pem =>
      simp only [source] at found ⊢
      refine ⟨?_, by simp, fun _ _ => ?_⟩
      · unfold fixedPublicKey at found
        split at found
        iterate 3 exact .inl found
        iterate 2 exact .inr found
        cases found
      · unfold fixedPublicKey at found
        split at found
        iterate 5 rfl
        cases found
  | jwksUrl url =>
      simp only [source] at found ⊢
      obtain ⟨jwk, own, declares⟩ := jwksDecodingKey_own sound (.inl source) found
      refine ⟨⟨jwk, own⟩, fun none _ => ?_, by simp⟩
      obtain ⟨name, declared⟩ := declares none
      exact ⟨jwk, name, own, declared⟩
  | oidcDiscovery =>
      simp only [source] at found ⊢
      obtain ⟨url, discovered, found⟩ := Option.bind_eq_some_iff.mp found
      obtain ⟨jwk, own, declares⟩ := jwksDecodingKey_own sound (.inr ⟨source, discovered⟩) found
      refine ⟨⟨jwk, own⟩, fun none _ => ?_, by simp⟩
      obtain ⟨name, declared⟩ := declares none
      exact ⟨jwk, name, own, declared⟩

theorem jwtValidation_strict (config : JwtAuthConfig) (algorithm : JwtAlgorithm) :
    (jwtValidation config algorithm).Strict config where
  issuer := rfl
  audience := rfl
  exp := rfl
  nbf := rfl
  required _ member := member

theorem jwtHeaderAlgorithm_eq {header : JwtAlgorithm}
    (found : jwtHeaderAlgorithm config header = some algorithm) :
    (∀ name, config.algorithm = some name → jwtAlgorithm name = some algorithm) ∧
      (config.algorithm = none → algorithm.isSupportedJwks = true) := by
  unfold jwtHeaderAlgorithm at found
  cases configured : config.algorithm with
  | some name =>
      simp only [configured, Option.filter_eq_some_iff] at found
      refine ⟨fun other same => ?_, by simp⟩
      rw [← Option.some.inj same]
      exact found.1
  | none =>
      simp only [configured] at found
      split at found
      · rename_i supported
        rw [← Option.some.inj found]
        exact ⟨by simp, fun _ => supported⟩
      · cases found

theorem authenticateJwt_accepted (sound : CacheSound state) {setup : AuthSetup} {provider : String}
    {declared : List AuthProviderField}
    (built : buildJwtConfig setup provider declared = .ok config)
    {headers : HeaderMap} {context : Value}
    (found : authenticateJwt kit client state.cache config headers = some context) :
    ∃ token key validation claims, JwtAccepted kit client state.answered config headers context
      token key validation claims := by
  obtain ⟨token, bearer, found⟩ := Option.bind_eq_some_iff.mp found
  obtain ⟨header, -, found⟩ := Option.bind_eq_some_iff.mp found
  obtain ⟨algorithm, chosen, found⟩ := Option.bind_eq_some_iff.mp found
  obtain ⟨key, keyFound, found⟩ := Option.bind_eq_some_iff.mp found
  obtain ⟨claims, decoded, context_eq⟩ := Option.bind_eq_some_iff.mp found
  obtain ⟨configured, supported⟩ := jwtHeaderAlgorithm_eq chosen
  obtain ⟨own, declares, noHmac⟩ := decodingKey_own sound keyFound
  obtain ⟨url, pem, secret, source⟩ := buildJwtConfig_ok built
  exact ⟨token, key, jwtValidation config algorithm, claims,
    { bearer, own, configured, noHmac, decoded, context_eq
      strict := jwtValidation_strict config algorithm
      declared := fun none => ⟨supported none, declares none (jwtSource_ok source none)⟩ }⟩

end Authentication

/-- A context is only given to accepted credentials of the provider. -/
theorem authenticateRequest_accepted {Key : Type} {kit : AuthKit Key} {setup : AuthSetup}
    {providers : Table String AuthProvider} {registry : AuthRegistry}
    (built : buildAuthRegistry setup providers = .ok registry) {state : JwksState}
    (reached : JwksReachable state) {client : AuthClient} {provider : String}
    {headers : HeaderMap} {context : Value}
    (found : authenticateRequest kit registry client state.cache provider headers =
      some context) :
    ∃ declared config, providers.lookup provider = some declared ∧
      buildProvider setup declared = .ok config ∧
      CredentialsAccepted kit client state.answered config headers context := by
  obtain ⟨config, registered, found⟩ := Option.bind_eq_some_iff.mp found
  obtain ⟨declared, listed, builds⟩ := lookup_buildAuthRegistry built registered
  refine ⟨declared, config, listed, builds, ?_⟩
  cases config with
  | apiKey config =>
      obtain ⟨supplied, given, valid⟩ := Option.bind_eq_some_iff.mp found
      split at valid
      · rename_i matched
        refine ⟨supplied, given, ?_, (Option.some.inj valid).symm⟩
        unfold validApiKey at matched
        cases source : config.secretSource with
        | secret secret => simpa [source] using matched
        | secretHash hash => simpa [source] using matched
      · cases valid
  | jwt config =>
      cases declared with
      | apiKey name fields =>
          rw [buildProvider] at builds
          cases apiKey : buildApiKeyConfig setup name fields <;>
            simp [apiKey, Functor.map, Except.map] at builds
      | jwt name fields =>
          rw [buildProvider] at builds
          cases jwt : buildJwtConfig setup name fields with
          | error error => simp [jwt, Functor.map, Except.map] at builds
          | ok settings =>
              obtain rfl : settings = config := by
                simpa [jwt, Functor.map, Except.map] using builds
              exact authenticateJwt_accepted reached.sound jwt found

/-! ## A kit for examples -/

/-- A kit for API keys given as secrets. -/
def plainKit : AuthKit Unit where
  decodeHeader _ := none
  fromSecret _ := ()
  fromRsaPem _ := none
  fromEcPem _ := none
  fromJwk _ := none
  decode _ _ _ := none
  verifyArgon2 _ _ := false
  sha256 _ := ""

/-- Settings are checked with no files and no variables. -/
def plainSetup : AuthSetup where
  envVar _ := none
  fileSize _ := none
  readFile _ := .error "not found"
  isRsaPem _ := false
  isEcPem _ := false
  isArgon2Hash _ := false
  urlScheme _ := none
  isHeaderName name := name = "x-api-key"

end Marreta
