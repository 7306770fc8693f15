import Marreta.Project.Loader

namespace Marreta

open Foundation

/-! The settings of the auth providers.

Declarations are turned into settings when the server starts.  A setting is a text of
the program or an environment variable; keys and urls are checked here, and so is which
source of keys goes with which algorithm. -/

inductive JwtAlgorithm where
  | hs256 | hs384 | hs512
  | es256 | es384
  | rs256 | rs384 | rs512
  | ps256 | ps384 | ps512
  | edDsa
deriving DecidableEq

def jwtAlgorithm : String → Option JwtAlgorithm
  | "HS256" => some .hs256
  | "HS384" => some .hs384
  | "HS512" => some .hs512
  | "RS256" => some .rs256
  | "RS384" => some .rs384
  | "RS512" => some .rs512
  | "ES256" => some .es256
  | "ES384" => some .es384
  | _ => none

namespace JwtAlgorithm

def isHmac : JwtAlgorithm → Bool
  | .hs256 | .hs384 | .hs512 => true
  | _ => false

/-- The algorithms with a public key that the server knows. -/
def isSupportedJwks : JwtAlgorithm → Bool
  | .rs256 | .rs384 | .rs512 | .es256 | .es384 => true
  | _ => false

end JwtAlgorithm

/-! ## Settings -/

inductive JwtValidationSource where
  | oidcDiscovery
  | jwksUrl (url : String)
  | publicKeyPem (pem : String)
  | secret (secret : String)
deriving DecidableEq

structure JwtAuthConfig where
  name : String
  issuer : String
  audience : String
  subjectClaim : String
  userIdClaim : String
  rolesClaim : String
  emailClaim : String
  validationSource : JwtValidationSource
  algorithm : Option String
  jwksCacheTtlSeconds : Nat
  clockSkewSeconds : Nat
deriving DecidableEq

inductive ApiKeySecretSource where
  | secretHash (hash : String)
  | secret (secret : String)
deriving DecidableEq

structure ApiKeyAuthConfig where
  name : String
  header : String
  secretSource : ApiKeySecretSource
  principal : String
deriving DecidableEq

inductive AuthProviderRuntimeConfig where
  | jwt (config : JwtAuthConfig)
  | apiKey (config : ApiKeyAuthConfig)
deriving DecidableEq

abbrev AuthRegistry := Table String AuthProviderRuntimeConfig

/-- What settings are checked with: the environment of the process, the size and the
content of files, and the parsers of keys, hashes, urls and header names. -/
structure AuthSetup where
  envVar : String → Option String
  fileSize : String → Option Nat
  readFile : String → Except String String
  isRsaPem : String → Bool
  isEcPem : String → Bool
  isArgon2Hash : String → Bool
  urlScheme : String → Option String
  isHeaderName : String → Bool

/-! ## Fields -/

def authConfigError {α : Type} (provider message : String) : Except MarretaError α :=
  .error (.runtimeError ("invalid auth provider '" ++ provider ++ "': " ++ message) 0 0)

/-- The fields of a provider, each allowed and given once. -/
def authFieldMap (provider kind : String) (allowed : List String)
    (fields : List AuthProviderField) : Except MarretaError (Table String Expression) :=
  fields.foldlM
    (fun (map : Table String Expression) (field : AuthProviderField) =>
      match field with
      | .mk name value _ _ =>
          if name ∉ allowed then
            authConfigError provider ("unknown " ++ kind ++ " auth field '" ++ name ++ "'")
          else if (map.lookup name).isSome then
            authConfigError provider ("duplicate auth field '" ++ name ++ "'")
          else .ok (map.put name value))
    []

section Fields

variable (setup : AuthSetup) (provider : String) (fields : Table String Expression)

def missingVariable (field variableName : String) : MarretaError :=
  .runtimeError ("auth provider '" ++ provider ++ "' field '" ++ field ++
    "' references missing environment variable '" ++ variableName ++ "'") 0 0

def evalString (field : String) (value : Expression) : Except MarretaError String := do
  let text ← match value with
    | .stringLiteral text => .ok text
    | .propertyAccess (.identifier "env") property =>
        match setup.envVar property with
        | some text => .ok text
        | none => .error (missingVariable provider field property)
    | _ =>
        authConfigError provider
          ("auth field '" ++ field ++ "' must be a string literal or env.VAR reference")
  if Text.trim text.toList = [] then
    authConfigError provider ("auth field '" ++ field ++ "' cannot be empty")
  else .ok text

def evalNumber (field : String) (value : Expression) : Except MarretaError Nat :=
  match value with
  | .stringLiteral text =>
      match parseNumber text.toList with
      | some number => .ok number
      | none =>
          .error (.runtimeError ("auth provider '" ++ provider ++ "' field '" ++ field ++
            "' must be a positive integer") 0 0)
  | .propertyAccess (.identifier "env") property =>
      match setup.envVar property with
      | none => .error (missingVariable provider field property)
      | some text =>
          match parseNumber text.toList with
          | some number => .ok number
          | none =>
              .error (.runtimeError ("auth provider '" ++ provider ++ "' field '" ++ field ++
                "' references environment variable '" ++ property ++
                "' that must be a positive integer") 0 0)
  | .integer number =>
      if 0 ≤ number then .ok number.toInt.toNat else notInteger
  | _ => notInteger
where
  notInteger : Except MarretaError Nat :=
    authConfigError provider
      ("auth field '" ++ field ++ "' must be an integer literal or env.VAR reference")

def optionalString (field : String) : Except MarretaError (Option String) :=
  match fields.lookup field with
  | none => .ok none
  | some value => some <$> evalString setup provider field value

def requiredString (field : String) : Except MarretaError String := do
  match ← optionalString setup provider fields field with
  | some value => .ok value
  | none => authConfigError provider ("missing required auth field '" ++ field ++ "'")

def optionalNumber (field : String) : Except MarretaError (Option Nat) :=
  match fields.lookup field with
  | none => .ok none
  | some value => some <$> evalNumber setup provider field value

end Fields

/-! ## Tokens -/

def isHmacAlgorithm (algorithm : String) : Bool :=
  algorithm ∈ ["HS256", "HS384", "HS512"]

def isAsymmetricAlgorithm (algorithm : String) : Bool :=
  algorithm ∈ ["RS256", "RS384", "RS512", "ES256", "ES384"]

section Tokens

variable (setup : AuthSetup) (provider : String)

def maxPublicKeyPemFileBytes : Nat := 64 * 1024

def readPublicKeyPemFile (path : String) : Except MarretaError String :=
  let large := match setup.fileSize path with
    | some size => decide (maxPublicKeyPemFileBytes < size)
    | none => false
  if large then
    authConfigError provider ("public_key_pem_file '" ++ path ++
      "' is too large; expected a PEM file up to " ++ toString maxPublicKeyPemFileBytes ++ " bytes")
  else
    match setup.readFile path with
    | .ok text => .ok text
    | .error cause =>
        authConfigError provider
          ("failed to read public_key_pem_file '" ++ path ++ "': " ++ cause)

/-- The key of a provider, given in place or in a file. -/
def publicKeyPem (given file : Option String) : Except MarretaError (Option String) :=
  match given, file with
  | some _, some _ =>
      authConfigError provider "public_key_pem and public_key_pem_file are mutually exclusive"
  | some pem, none => .ok (some pem)
  | none, some path => some <$> readPublicKeyPemFile setup provider path
  | none, none => .ok none

def validatePublicKeyPem (pem algorithm : String) : Except MarretaError Unit :=
  let valid := if algorithm ∈ ["RS256", "RS384", "RS512"] then setup.isRsaPem pem
    else setup.isEcPem pem
  if valid then .ok ()
  else authConfigError provider
    ("public_key_pem must be a valid PEM public key for " ++ algorithm)

/-- Which source goes with which algorithm. -/
def checkAlgorithm (pem secret : Option String) (algorithm : String) :
    Except MarretaError Unit := do
  if !isHmacAlgorithm algorithm && !isAsymmetricAlgorithm algorithm then
    authConfigError provider ("unsupported JWT algorithm '" ++ algorithm ++ "'")
  else if secret.isSome && !isHmacAlgorithm algorithm then
    authConfigError provider "secret is valid only with HMAC algorithms HS256, HS384, or HS512"
  else if pem.isSome && !isAsymmetricAlgorithm algorithm then
    authConfigError provider
      ("public_key_pem and public_key_pem_file are valid only with asymmetric algorithms such as " ++
        "RS256 or ES256")
  else
    match pem with
    | some pem => validatePublicKeyPem setup provider pem algorithm
    | none => .ok ()

def validateHttpUrl (field url : String) : Except MarretaError Unit :=
  match setup.urlScheme url with
  | none => authConfigError provider ("auth field '" ++ field ++ "' must be a valid URL")
  | some scheme =>
      if scheme ∈ ["http", "https"] then .ok ()
      else authConfigError provider ("auth field '" ++ field ++ "' must use http or https")

def checkSources (url pem secret : Option String) : Except MarretaError Unit :=
  if 1 < [url, pem, secret].countP Option.isSome then
    authConfigError provider
      ("jwt validation sources are mutually exclusive: use only one of jwks_url, public_key_pem, " ++
        "public_key_pem_file, or secret")
  else .ok ()

def validationSource (url pem secret : Option String) : JwtValidationSource :=
  match url, pem, secret with
  | some url, _, _ => .jwksUrl url
  | none, some pem, _ => .publicKeyPem pem
  | none, none, some secret => .secret secret
  | none, none, none => .oidcDiscovery

/-- The rules about sources and algorithms, in the order they are checked. -/
def jwtSource (url pem secret algorithm : Option String) :
    Except MarretaError JwtValidationSource := do
  checkSources provider url pem secret
  if (pem.isSome || secret.isSome) && algorithm.isNone then
    authConfigError provider
      "algorithm is required when using public_key_pem, public_key_pem_file, or secret"
  algorithm.forM (checkAlgorithm setup provider pem secret)
  url.forM (validateHttpUrl setup provider "jwks_url")
  return validationSource url pem secret

def jwtFields : List String :=
  ["issuer", "audience", "subject_claim", "user_id_claim", "roles_claim", "email_claim",
    "jwks_url", "public_key_pem", "public_key_pem_file", "secret", "algorithm",
    "jwks_cache_ttl_seconds", "clock_skew_seconds"]

def buildJwtConfig (declared : List AuthProviderField) : Except MarretaError JwtAuthConfig := do
  let fields ← authFieldMap provider "jwt" jwtFields declared
  let text := optionalString setup provider fields
  let issuer ← requiredString setup provider fields "issuer"
  let audience ← requiredString setup provider fields "audience"
  let subjectClaim := (← text "subject_claim").getD "sub"
  let userIdClaim := (← text "user_id_claim").getD subjectClaim
  let rolesClaim := (← text "roles_claim").getD "roles"
  let emailClaim := (← text "email_claim").getD "email"
  let url ← text "jwks_url"
  let given ← text "public_key_pem"
  let file ← text "public_key_pem_file"
  let pem ← publicKeyPem setup provider given file
  let secret ← text "secret"
  let algorithm ← text "algorithm"
  let ttl ← optionalNumber setup provider fields "jwks_cache_ttl_seconds"
  let skew ← optionalNumber setup provider fields "clock_skew_seconds"
  let validationSource ← jwtSource setup provider url pem secret algorithm
  return {
    name := provider, issuer, audience, subjectClaim, userIdClaim, rolesClaim, emailClaim
    validationSource, algorithm, jwksCacheTtlSeconds := ttl.getD 300
    clockSkewSeconds := skew.getD 60 }

end Tokens

/-! ## Keys -/

section Keys

variable (setup : AuthSetup) (provider : String)

/-- What follows the name of the digest. -/
def sha256Digest? (hash : String) : Option (List Char) :=
  if "sha256:".toList.isPrefixOf hash.toList || "SHA256:".toList.isPrefixOf hash.toList then
    some (hash.toList.drop 7)
  else none

def isArgon2id (hash : String) : Bool :=
  "$argon2id$".toList.isPrefixOf hash.toList

def isHexDigit (char : Char) : Bool :=
  char.isDigit || ('a' ≤ char && char ≤ 'f') || ('A' ≤ char && char ≤ 'F')

def validateSecretHash (hash : String) : Except MarretaError Unit :=
  if isArgon2id hash then
    if setup.isArgon2Hash hash then .ok ()
    else authConfigError provider "api_key secret_hash must be a valid Argon2id PHC string"
  else if (sha256Digest? hash).any fun hex => hex.length = 64 && hex.all isHexDigit then .ok ()
  else
    authConfigError provider
      "api_key secret_hash must be either an Argon2id PHC string or sha256:<64 hex chars>"

def validateApiKeyHeader (header : String) : Except MarretaError Unit :=
  if setup.isHeaderName header then .ok ()
  else authConfigError provider "api_key header must be a valid HTTP header name"

def secretSource (hash secret : Option String) : Except MarretaError ApiKeySecretSource :=
  match hash, secret with
  | some hash, none => do
      validateSecretHash setup provider hash
      .ok (.secretHash hash)
  | none, some secret => .ok (.secret secret)
  | none, none =>
      authConfigError provider "api_key auth requires one secret source: secret_hash or secret"
  | some _, some _ =>
      authConfigError provider "api_key secret_hash and secret are mutually exclusive"

def buildApiKeyConfig (declared : List AuthProviderField) :
    Except MarretaError ApiKeyAuthConfig := do
  let fields ← authFieldMap provider "api_key" ["header", "secret_hash", "secret", "principal"]
    declared
  let header ← requiredString setup provider fields "header"
  let hash ← optionalString setup provider fields "secret_hash"
  let secret ← optionalString setup provider fields "secret"
  let principal := (← optionalString setup provider fields "principal").getD provider
  validateApiKeyHeader setup provider header
  let secretSource ← secretSource setup provider hash secret
  return { name := provider, header, secretSource, principal }

end Keys

/-! ## The registry -/

def buildProvider (setup : AuthSetup) : AuthProvider → Except MarretaError AuthProviderRuntimeConfig
  | .jwt name fields => .jwt <$> buildJwtConfig setup name fields
  | .apiKey name fields => .apiKey <$> buildApiKeyConfig setup name fields

def buildAuthRegistry (setup : AuthSetup) (providers : Table String AuthProvider) :
    Except MarretaError AuthRegistry :=
  providers.mapM fun (name, provider) => do
    let config ← buildProvider setup provider
    return (name, config)

end Marreta
