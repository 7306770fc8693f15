import Marreta.Foundation.Uri

namespace Marreta

open Foundation

/-! The connection URLs of the configured backends.

A URL is built from the settings of a backend.  What may hold delimiters is encoded, the
host is taken as it is. -/

namespace Config

/-! ## Encoding -/

def percentEncode (input : List Char) (allowSlash : Bool) : List Char :=
  Uri.encode (Uri.isUnescaped allowSlash) input

def percentEncodeComponent (input : List Char) : List Char :=
  percentEncode input false

def percentEncodePathSegment (input : List Char) : List Char :=
  percentEncode input true

theorem percentEncodeComponent_eq (input : List Char) :
    percentEncodeComponent input = Uri.encode Uri.isUnreserved input := by
  have same : Uri.isUnescaped false = Uri.isUnreserved := by
    funext byte
    rw [Uri.isUnescaped, Bool.false_and, Bool.or_false]
  rw [percentEncodeComponent, percentEncode, same]

def requireValue (value : Option (List Char)) (envKey provider : String) :
    Except String (List Char) :=
  match value with
  | some value => .ok value
  | none => .error s!"incomplete structured config for provider {provider}: missing {envKey}"

def portText (port : UInt16) : List Char :=
  Nat.toDigits 10 port.toNat

/-- `@` behind the user, with the password between them. -/
def userAndPassword (user : List Char) (password : Option (List Char)) : List Char :=
  percentEncodeComponent user ++
    (password.elim [] fun password => ':' :: percentEncodeComponent password) ++ ['@']

/-! ## Builders

Providers are compared in lower case, by the Unicode table `toLowercase`. -/

structure DbRuntimeConfig where
  provider : String
  host : Option (List Char)
  port : Option UInt16
  name : Option (List Char)
  user : Option (List Char)
  password : Option (List Char)
  sslMode : Option (List Char)
deriving DecidableEq

def DbRuntimeConfig.connectionUrl (toLowercase : String → String) (config : DbRuntimeConfig) :
    Except String (List Char) :=
  let provider := toLowercase config.provider
  if provider = "postgres" ∨ provider = "postgresql" then do
    let host ← requireValue config.host "MARRETA_DB_HOST" "postgres"
    let port := config.port.getD 5432
    let name ← requireValue config.name "MARRETA_DB_NAME" "postgres"
    let user ← requireValue config.user "MARRETA_DB_USER" "postgres"
    let url := "postgres://".toList ++ userAndPassword user config.password ++ host ++
      ':' :: portText port ++ '/' :: percentEncodePathSegment name
    return url ++ config.sslMode.elim [] fun sslMode =>
      "?sslmode=".toList ++ percentEncodeComponent sslMode
  else .error s!"unsupported structured db provider '{provider}'"

structure DocRuntimeConfig where
  provider : String
  host : Option (List Char)
  port : Option UInt16
  name : Option (List Char)
  user : Option (List Char)
  password : Option (List Char)
  authSource : Option (List Char)
deriving DecidableEq

def DocRuntimeConfig.connectionUrl (toLowercase : String → String) (config : DocRuntimeConfig) :
    Except String (List Char) :=
  let provider := toLowercase config.provider
  if provider = "mongodb" then do
    let host ← requireValue config.host "MARRETA_DOC_HOST" "mongodb"
    let port := config.port.getD 27017
    let name ← requireValue config.name "MARRETA_DOC_NAME" "mongodb"
    let auth ← match config.user, config.password with
      | some user, password => .ok (userAndPassword user password)
      | none, some _ =>
        .error "incomplete structured doc config for provider mongodb: missing MARRETA_DOC_USER"
      | none, none => .ok []
    let url := "mongodb://".toList ++ auth ++ host ++ ':' :: portText port ++
      '/' :: percentEncodePathSegment name
    return url ++ config.authSource.elim [] fun authSource =>
      "?authSource=".toList ++ percentEncodeComponent authSource
  else .error s!"unsupported structured doc provider '{provider}'"

structure CacheRuntimeConfig where
  provider : String
  host : Option (List Char)
  port : Option UInt16
  user : Option (List Char)
  password : Option (List Char)
  db : Option UInt32
deriving DecidableEq

def CacheRuntimeConfig.connectionUrl (toLowercase : String → String)
    (config : CacheRuntimeConfig) : Except String (List Char) :=
  let provider := toLowercase config.provider
  if provider = "redis" then do
    let host ← requireValue config.host "MARRETA_CACHE_HOST" "redis"
    let port := config.port.getD 6379
    let auth := match config.user, config.password with
      | some user, password => userAndPassword user password
      | none, some password => ':' :: percentEncodeComponent password ++ ['@']
      | none, none => []
    let dbSuffix := config.db.elim [] fun db => '/' :: Nat.toDigits 10 db.toNat
    return "redis://".toList ++ auth ++ host ++ ':' :: portText port ++ dbSuffix
  else .error s!"unsupported structured cache provider '{provider}'"

structure QueueRuntimeConfig where
  provider : String
  host : Option (List Char)
  port : Option UInt16
  user : Option (List Char)
  password : Option (List Char)
  vhost : Option (List Char)
deriving DecidableEq

def QueueRuntimeConfig.connectionUrl (toLowercase : String → String)
    (config : QueueRuntimeConfig) : Except String (List Char) :=
  let provider := toLowercase config.provider
  if provider = "rabbitmq" then do
    let host ← requireValue config.host "MARRETA_QUEUE_HOST" "rabbitmq"
    let port := config.port.getD 5672
    let user ← requireValue config.user "MARRETA_QUEUE_USER" "rabbitmq"
    let auth := userAndPassword user config.password
    let vhost := config.vhost.getD ['/']
    let encodedVhost :=
      if vhost = ['/'] then "%2F".toList
      else percentEncodePathSegment (vhost.dropWhile (· = '/'))
    return "amqp://".toList ++ auth ++ host ++ ':' :: portText port ++ '/' :: encodedVhost
  else .error s!"unsupported structured queue provider '{provider}'"

/-! ## What a URL carries -/

/-- The virtual host that is asked for: the default one, or a name without the slashes in
front of it. -/
def requestedVhost (vhost : Option (List Char)) : List Char :=
  if vhost.getD ['/'] = ['/'] then ['/'] else (vhost.getD ['/']).dropWhile (· = '/')

def DbRuntimeConfig.carried (config : DbRuntimeConfig) : Uri.Reading where
  scheme := "postgres".toList
  user := config.user
  password := config.password
  host := config.host.getD []
  port := some (config.port.getD 5432).toNat
  segment := config.name
  query := config.sslMode.elim [] fun sslMode => [("sslmode".toList, sslMode)]

def DocRuntimeConfig.carried (config : DocRuntimeConfig) : Uri.Reading where
  scheme := "mongodb".toList
  user := config.user
  password := config.password
  host := config.host.getD []
  port := some (config.port.getD 27017).toNat
  segment := config.name
  query := config.authSource.elim [] fun authSource => [("authSource".toList, authSource)]

/-- A password alone belongs to a user without a name. -/
def CacheRuntimeConfig.carried (config : CacheRuntimeConfig) : Uri.Reading where
  scheme := "redis".toList
  user := config.user.or (config.password.map fun _ => [])
  password := config.password
  host := config.host.getD []
  port := some (config.port.getD 6379).toNat
  segment := config.db.map fun db => Nat.toDigits 10 db.toNat
  query := []

def QueueRuntimeConfig.carried (config : QueueRuntimeConfig) : Uri.Reading where
  scheme := "amqp".toList
  user := config.user
  password := config.password
  host := config.host.getD []
  port := some (config.port.getD 5672).toNat
  segment := some (requestedVhost config.vhost)
  query := []

/-- A text that an encoder leaves alone. -/
theorem encode_plain {keeps : UInt8 → Bool} {text : List Char}
    (plain : ∀ ch ∈ text, ∃ byte, keeps byte = true ∧ byte.toNat < 128 ∧ Char.ofUInt8 byte = ch) :
    Uri.encode keeps text = text := by
  induction text with
  | nil => rfl
  | cons ch text induction =>
      rw [List.forall_mem_cons] at plain
      obtain ⟨⟨byte, kept, ascii, rfl⟩, rest⟩ := plain
      have front : Uri.encode keeps (Char.ofUInt8 byte :: text) =
          Char.ofUInt8 byte :: Uri.encode keeps text := by
        rw [Uri.encode, List.flatMap_cons, Uri.utf8EncodeChar_ofUInt8 ascii, List.singleton_append,
          Uri.encodeBytes, List.flatMap_cons, if_pos kept]
        rfl
      rw [front, induction rest]

theorem encode_digits (number : Nat) :
    Uri.encode (Uri.isUnescaped true) (Nat.toDigits 10 number) = Nat.toDigits 10 number := by
  apply encode_plain
  intro ch member
  have digit := Nat.isDigit_of_mem_toDigits (by decide) (by decide) member
  have small : ch.toNat < 128 := by
    apply HexText.toNat_lt_of_value?
    rw [HexText.value?, if_pos digit]
    rfl
  have table : ∀ code < 128, (Char.ofNat code).isDigit = true →
      Uri.isUnescaped true (UInt8.ofNat code) = true ∧ (UInt8.ofNat code).toNat < 128 ∧
        Char.ofUInt8 (UInt8.ofNat code) = Char.ofNat code := by decide
  have known := table ch.toNat small
  rw [Char.ofNat_toNat] at known
  exact ⟨_, known digit⟩

theorem userAndPassword_eq (user : List Char) (password : Option (List Char)) :
    userAndPassword user password = Uri.encode Uri.isUnreserved user ++
      (password.elim [] fun password => ':' :: Uri.encode Uri.isUnreserved password) ++ ['@'] := by
  simp only [userAndPassword, percentEncodeComponent_eq]

/-- A name of a setting stands for itself. -/
theorem write_setting {name : List Char} (plain : Uri.encode Uri.isUnreserved name = name)
    (value : Option (List Char)) :
    Uri.writeQuery (value.elim [] fun value => [(name, value)]) =
      value.elim [] fun value => '?' :: (name ++ '=' :: percentEncodeComponent value) := by
  cases value with
  | none => rfl
  | some value =>
      rw [Option.elim_some, Option.elim_some, Uri.writeQuery_singleton, Uri.writeAssignment, plain,
        percentEncodeComponent_eq]

theorem bind_requireValue {value : Option (List Char)} {envKey provider : String}
    {next : List Char → Except String (List Char)} {url : List Char}
    (accepted : (requireValue value envKey provider >>= next) = .ok url) :
    ∃ found, value = some found ∧ next found = .ok url := by
  cases value with
  | none => cases accepted
  | some found => exact ⟨found, rfl, accepted⟩

/-- An accepted text is the one of a supported provider. -/
theorem of_supported {supported : Prop} [Decidable supported] {built : Except String (List Char)}
    {message : String} {url : List Char}
    (accepted : (if supported then built else .error message) = .ok url) : built = .ok url := by
  split at accepted
  · exact accepted
  · cases accepted

/-- A text written for a reading, that is complete. -/
structure WrittenFor (allowSlash : Bool) (reading : Uri.Reading) (url : List Char) : Prop where
  same : url = Uri.write allowSlash reading
  user : reading.user = none → reading.password = none

theorem DbRuntimeConfig.connectionUrl_eq {toLowercase : String → String}
    {config : DbRuntimeConfig} {url : List Char}
    (accepted : config.connectionUrl toLowercase = .ok url) :
    WrittenFor true config.carried url := by
  obtain ⟨provider, host, port, name, user, password, sslMode⟩ := config
  rw [DbRuntimeConfig.connectionUrl] at accepted
  replace accepted := of_supported accepted
  obtain ⟨address, rfl, accepted⟩ := bind_requireValue accepted
  obtain ⟨database, rfl, accepted⟩ := bind_requireValue accepted
  obtain ⟨login, rfl, accepted⟩ := bind_requireValue accepted
  obtain rfl := Except.ok.inj accepted
  refine ⟨?_, nofun⟩
  rw [Uri.write_eq]
  dsimp only [DbRuntimeConfig.carried]
  rw [write_setting (by decide)]
  simp [portText, userAndPassword_eq, percentEncodePathSegment, percentEncode]

theorem DocRuntimeConfig.connectionUrl_eq {toLowercase : String → String}
    {config : DocRuntimeConfig} {url : List Char}
    (accepted : config.connectionUrl toLowercase = .ok url) :
    WrittenFor true config.carried url := by
  obtain ⟨provider, host, port, name, user, password, authSource⟩ := config
  rw [DocRuntimeConfig.connectionUrl] at accepted
  replace accepted := of_supported accepted
  obtain ⟨address, rfl, accepted⟩ := bind_requireValue accepted
  obtain ⟨database, rfl, accepted⟩ := bind_requireValue accepted
  dsimp only at accepted
  cases user with
  | none =>
      cases password with
      | none =>
          obtain rfl := Except.ok.inj accepted
          refine ⟨?_, fun _ => rfl⟩
          rw [Uri.write_eq]
          dsimp only [DocRuntimeConfig.carried]
          rw [write_setting (by decide)]
          simp [portText, percentEncodePathSegment, percentEncode]
      | some password => cases accepted
  | some login =>
      obtain rfl := Except.ok.inj accepted
      refine ⟨?_, nofun⟩
      rw [Uri.write_eq]
      dsimp only [DocRuntimeConfig.carried]
      rw [write_setting (by decide)]
      simp [portText, userAndPassword_eq, percentEncodePathSegment, percentEncode]

/-- The number of a database behind the address. -/
theorem write_db (db : Option UInt32) :
    (db.map fun db => Nat.toDigits 10 db.toNat).elim []
      (fun segment => '/' :: Uri.encode (Uri.isUnescaped true) segment) =
        db.elim [] fun db => '/' :: Nat.toDigits 10 db.toNat := by
  cases db with
  | none => rfl
  | some db => rw [Option.map_some, Option.elim_some, Option.elim_some, encode_digits]

theorem CacheRuntimeConfig.connectionUrl_eq {toLowercase : String → String}
    {config : CacheRuntimeConfig} {url : List Char}
    (accepted : config.connectionUrl toLowercase = .ok url) :
    WrittenFor true config.carried url := by
  obtain ⟨provider, host, port, user, password, db⟩ := config
  rw [CacheRuntimeConfig.connectionUrl] at accepted
  replace accepted := of_supported accepted
  obtain ⟨address, rfl, accepted⟩ := bind_requireValue accepted
  obtain rfl := Except.ok.inj accepted
  constructor
  · rw [Uri.write_eq]
    dsimp only [CacheRuntimeConfig.carried]
    rw [write_db]
    cases user with
    | none => cases password <;> simp [portText, Uri.writeQuery, percentEncodeComponent_eq]
    | some user => simp [portText, Uri.writeQuery, userAndPassword_eq]
  · intro missing
    cases password with
    | none => rfl
    | some password => cases user <;> cases missing

/-- Names are asked for without slashes in front, so none of them is the default. -/
theorem requestedVhost_eq_slash_iff {vhost : Option (List Char)} :
    requestedVhost vhost = ['/'] ↔ vhost.getD ['/'] = ['/'] := by
  rw [requestedVhost]
  split
  · rename_i root
    exact iff_of_true rfl root
  · rename_i named
    refine iff_of_false (fun same => ?_) named
    have front := List.head?_dropWhile_not (fun ch : Char => decide (ch = '/'))
      (vhost.getD ['/'])
    rw [same] at front
    simp at front

/-- The slash of the default virtual host is escaped. -/
theorem QueueRuntimeConfig.connectionUrl_eq {toLowercase : String → String}
    {config : QueueRuntimeConfig} {url : List Char}
    (accepted : config.connectionUrl toLowercase = .ok url) :
    WrittenFor (config.carried.segment ≠ some ['/']) config.carried url := by
  obtain ⟨provider, host, port, user, password, vhost⟩ := config
  rw [QueueRuntimeConfig.connectionUrl] at accepted
  replace accepted := of_supported accepted
  obtain ⟨address, rfl, accepted⟩ := bind_requireValue accepted
  obtain ⟨login, rfl, accepted⟩ := bind_requireValue accepted
  obtain rfl := Except.ok.inj accepted
  refine ⟨?_, nofun⟩
  have encoded : (if vhost.getD ['/'] = ['/'] then "%2F".toList
      else percentEncodePathSegment ((vhost.getD ['/']).dropWhile (· = '/'))) =
        Uri.encode (Uri.isUnescaped (some (requestedVhost vhost) ≠ some ['/']))
          (requestedVhost vhost) := by
    by_cases root : vhost.getD ['/'] = ['/']
    · have asked := (requestedVhost_eq_slash_iff).mpr root
      rw [if_pos root, asked]
      decide
    · have asked : some (requestedVhost vhost) ≠ some ['/'] := fun same =>
        root ((requestedVhost_eq_slash_iff).mp (Option.some.inj same))
      rw [if_neg root, decide_eq_true asked, requestedVhost, if_neg root]
      rfl
  rw [Uri.write_eq]
  dsimp only [QueueRuntimeConfig.carried]
  rw [encoded]
  simp [portText, userAndPassword_eq, Uri.writeQuery]

/-! ## Reading a URL back -/

section Faithful

variable {Settings : Type} (connectionUrl : Settings → Except String (List Char))
variable (host : Settings → Option (List Char)) (carried : Settings → Uri.Reading)

/-- An accepted configuration, whose host is a name. -/
def Accepted (config : Settings) (url : List Char) : Prop :=
  connectionUrl config = .ok url ∧ ∀ name ∈ host config, Uri.IsName name

/-- What is carried is read from the URL, and nothing else tells two URLs apart. -/
def Faithful : Prop :=
  (∀ config url, Accepted connectionUrl host config url →
    Uri.read url = some (carried config)) ∧
  ∀ one other oneUrl otherUrl, Accepted connectionUrl host one oneUrl →
    Accepted connectionUrl host other otherUrl →
      (oneUrl = otherUrl ↔ carried one = carried other)

variable {connectionUrl host carried}

theorem faithful_of_written {allowSlash : Uri.Reading → Bool}
    (written : ∀ config url, connectionUrl config = .ok url →
      WrittenFor (allowSlash (carried config)) (carried config) url)
    (scheme : ∀ config, ':' ∉ (carried config).scheme)
    (address : ∀ config, (carried config).host = (host config).getD []) :
    Faithful connectionUrl host carried := by
  have reads : ∀ config url, Accepted connectionUrl host config url →
      Uri.read url = some (carried config) := by
    intro config url accepted
    obtain ⟨same, user⟩ := written config url accepted.1
    rw [same]
    apply Uri.read_write
    refine ⟨scheme config, user, ?_⟩
    rw [address]
    cases found : host config with
    | none => exact fun _ _ => List.not_mem_nil
    | some name => exact accepted.2 name found
  refine ⟨reads, fun one other oneUrl otherUrl oneAccepted otherAccepted => ⟨?_, ?_⟩⟩
  · rintro rfl
    exact Option.some.inj ((reads _ _ oneAccepted).symm.trans (reads _ _ otherAccepted))
  · intro same
    rw [(written _ _ oneAccepted.1).same, (written _ _ otherAccepted.1).same, same]

end Faithful

theorem faithful_queue (toLowercase : String → String) :
    Faithful (QueueRuntimeConfig.connectionUrl toLowercase) (·.host) (·.carried) := by
  apply @faithful_of_written _ _ _ _ fun reading => decide (reading.segment ≠ some ['/'])
  · exact fun _ _ accepted => QueueRuntimeConfig.connectionUrl_eq accepted
  · exact fun _ => (by decide : ':' ∉ "amqp".toList)
  · exact fun _ => rfl

/-- Each kind of backend, by what its URL carries. -/
theorem connectionUrls_faithful (toLowercase : String → String) :
    Faithful (DbRuntimeConfig.connectionUrl toLowercase) (·.host) (·.carried) ∧
    Faithful (DocRuntimeConfig.connectionUrl toLowercase) (·.host) (·.carried) ∧
    Faithful (CacheRuntimeConfig.connectionUrl toLowercase) (·.host) (·.carried) ∧
    Faithful (QueueRuntimeConfig.connectionUrl toLowercase) (·.host) (·.carried) := by
  refine ⟨?_, ?_, ?_, faithful_queue toLowercase⟩
  · apply @faithful_of_written _ _ _ _ fun _ => true
    · exact fun _ _ accepted => DbRuntimeConfig.connectionUrl_eq accepted
    · exact fun _ => (by decide : ':' ∉ "postgres".toList)
    · exact fun _ => rfl
  · apply @faithful_of_written _ _ _ _ fun _ => true
    · exact fun _ _ accepted => DocRuntimeConfig.connectionUrl_eq accepted
    · exact fun _ => (by decide : ':' ∉ "mongodb".toList)
    · exact fun _ => rfl
  · apply @faithful_of_written _ _ _ _ fun _ => true
    · exact fun _ _ accepted => CacheRuntimeConfig.connectionUrl_eq accepted
    · exact fun _ => (by decide : ':' ∉ "redis".toList)
    · exact fun _ => rfl

/-- A virtual host with a slash in front. -/
def slashedQueue : QueueRuntimeConfig where
  provider := "rabbitmq"
  host := some "broker".toList
  port := none
  user := some "app".toList
  password := none
  vhost := some "/orders".toList

/-- It is not the virtual host that is read back, and the URL is the one of another. -/
theorem slashedQueue_confused : ∃ url,
    Accepted (QueueRuntimeConfig.connectionUrl id) (·.host) slashedQueue url ∧
    Accepted (QueueRuntimeConfig.connectionUrl id) (·.host)
      { slashedQueue with vhost := some "orders".toList } url ∧
    (Uri.read url).map (·.segment) = some (some "orders".toList) ∧
    slashedQueue.vhost ≠ some "orders".toList := by
  have name : ∀ host ∈ slashedQueue.host, Uri.IsName host := by
    intro host found
    obtain rfl := Option.some.inj found
    unfold Uri.IsName
    decide
  have accepted : Accepted (QueueRuntimeConfig.connectionUrl id) (·.host) slashedQueue
      "amqp://app@broker:5672/orders".toList := ⟨by decide, name⟩
  refine ⟨_, accepted, ⟨by decide, name⟩, ?_, by decide⟩
  rw [(faithful_queue id).1 _ _ accepted]
  decide

end Config

end Marreta
