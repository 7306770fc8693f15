import Marreta.Foundation.HexText
import Marreta.Foundation.Text

namespace Foundation

/-! Uniform resource identifiers with an authority: the components a text has by the
generic grammar, and percent-encoding. -/

namespace Uri

open Text

/-! ## Percent-encoding -/

/-- A digit of an escaped byte.  Escapes are written in upper case. -/
def escapeDigit (value : Nat) : Char :=
  "0123456789ABCDEF".toList.getD value '?'

def escapeByte (byte : UInt8) : List Char :=
  ['%', escapeDigit (byte.toNat / 16), escapeDigit (byte.toNat % 16)]

/-- The bytes of a text, each as its own character or escaped. -/
def encodeBytes (keeps : UInt8 → Bool) (bytes : List UInt8) : List Char :=
  bytes.flatMap fun byte => if keeps byte then [Char.ofUInt8 byte] else escapeByte byte

def encode (keeps : UInt8 → Bool) (text : List Char) : List Char :=
  encodeBytes keeps (text.flatMap String.utf8EncodeChar)

@[simp] theorem encode_nil (keeps : UInt8 → Bool) : encode keeps [] = [] := rfl

/-- The bytes that never need an escape. -/
def isUnreserved (byte : UInt8) : Bool :=
  (Char.ofUInt8 byte).isAlphanum || "-_.~".toList.contains (Char.ofUInt8 byte)

/-- The bytes that stand for themselves, in a path of several segments also the slash. -/
def isUnescaped (allowSlash : Bool) (byte : UInt8) : Bool :=
  isUnreserved byte || allowSlash && Char.ofUInt8 byte == '/'

/-- The bytes that a text with escapes stands for. -/
def decodeBytes : List Char → Option (List UInt8)
  | [] => some []
  | '%' :: high :: low :: rest => do
      let high ← HexText.value? high
      let low ← HexText.value? low
      let bytes ← decodeBytes rest
      return UInt8.ofNat (16 * high + low) :: bytes
  | ch :: rest =>
      if ch = '%' then none
      else (decodeBytes rest).map fun bytes => String.utf8EncodeChar ch ++ bytes

def decode (text : List Char) : Option (List Char) := do
  let bytes ← decodeBytes text
  let decoded ← bytes.toByteArray.utf8Decode?
  return decoded.toList

/-! ## Components -/

structure Components where
  scheme : List Char
  userinfo : Option (List Char)
  host : List Char
  port : Option (List Char)
  path : List Char
  query : Option (List Char)
  fragment : Option (List Char)
deriving DecidableEq

/-- The text up to a mark and the text behind it, if there is one. -/
def upTo (mark : Char) (text : List Char) : List Char × Option (List Char) :=
  match splitOnceAt mark text with
  | some (before, after) => (before, some after)
  | none => (text, none)

/-- The text that ends before the first of some characters, and the rest. -/
def before (marks : List Char) (text : List Char) : List Char × List Char :=
  (text.takeWhile fun ch => !marks.contains ch, text.dropWhile fun ch => !marks.contains ch)

/-- The components of an authority whose host is a name. -/
def splitAuthority (authority : List Char) :
    Option (List Char) × List Char × Option (List Char) :=
  match splitOnceAt '@' authority with
  | some (userinfo, rest) => (some userinfo, upTo ':' rest)
  | none => (none, upTo ':' authority)

/-- The components of a text of the form `scheme://authority path ?query #fragment`. -/
def decompose (text : List Char) : Option Components :=
  match splitOnceAt ':' text with
  | some (scheme, '/' :: '/' :: rest) =>
      let (authority, rest) := before ['/', '?', '#'] rest
      let (rest, fragment) := upTo '#' rest
      let (path, query) := upTo '?' rest
      let (userinfo, host, port) := splitAuthority authority
      some { scheme, userinfo, host, port, path, query, fragment }
  | _ => none

/-- The text that has the components. -/
def compose (parts : Components) : List Char :=
  parts.scheme ++ "://".toList ++ (parts.userinfo.elim [] fun userinfo => userinfo ++ ['@']) ++
    parts.host ++ (parts.port.elim [] fun port => ':' :: port) ++ parts.path ++
    (parts.query.elim [] fun query => '?' :: query) ++
    (parts.fragment.elim [] fun fragment => '#' :: fragment)

/-- Components in which no delimiter of a later component stands. -/
structure Components.Proper (parts : Components) : Prop where
  scheme : ':' ∉ parts.scheme
  userinfo : ∀ userinfo ∈ parts.userinfo, ∀ ch ∈ ['/', '?', '#', '@'], ch ∉ userinfo
  host : ∀ ch ∈ ['/', '?', '#', '@', ':'], ch ∉ parts.host
  port : ∀ port ∈ parts.port, ∀ ch ∈ ['/', '?', '#', '@'], ch ∉ port
  path : ∀ ch ∈ ['?', '#'], ch ∉ parts.path
  rooted : parts.path = [] ∨ ∃ rest, parts.path = '/' :: rest
  query : ∀ query ∈ parts.query, '#' ∉ query

/-- What a text says when its escapes are undone: the path as one segment, the query as
assignments. -/
structure Reading where
  scheme : List Char
  user : Option (List Char)
  password : Option (List Char)
  host : List Char
  port : Option Nat
  segment : Option (List Char)
  query : List (List Char × List Char)
deriving DecidableEq

/-- The user and the password of a text before an address. -/
def readUserinfo (userinfo : Option (List Char)) :
    Option (Option (List Char) × Option (List Char)) :=
  match userinfo with
  | none => some (none, none)
  | some userinfo => do
      let (user, password) := upTo ':' userinfo
      let user ← decode user
      let password ← password.mapM decode
      return (some user, password)

def readPath : List Char → Option (Option (List Char))
  | [] => some none
  | '/' :: segment => (decode segment).map some
  | _ => none

def readAssignment (text : List Char) : Option (List Char × List Char) := do
  let (name, value) := upTo '=' text
  return (← decode name, ← decode (value.getD []))

def readQuery : Option (List Char) → Option (List (List Char × List Char))
  | none => some []
  | some query => (query.splitOn '&').mapM readAssignment

def readPort (digits : List Char) : Option Nat :=
  if digits.all Char.isDigit then some (Nat.ofDigitChars 10 digits 0) else none

def read (text : List Char) : Option Reading := do
  let parts ← decompose text
  let (user, password) ← readUserinfo parts.userinfo
  let host ← decode parts.host
  let port ← parts.port.mapM readPort
  let segment ← readPath parts.path
  let query ← readQuery parts.query
  return { scheme := parts.scheme, user, password, host, port, segment, query }

def writeAssignment (assignment : List Char × List Char) : List Char :=
  encode isUnreserved assignment.1 ++ '=' :: encode isUnreserved assignment.2

/-- The components that say something, with the slashes of the path as they are or escaped. -/
def writeParts (allowSlash : Bool) (reading : Reading) : Components where
  scheme := reading.scheme
  userinfo := reading.user.map fun user => encode isUnreserved user ++
    reading.password.elim [] fun password => ':' :: encode isUnreserved password
  host := reading.host
  port := reading.port.map (Nat.toDigits 10)
  path := reading.segment.elim [] fun segment => '/' :: encode (isUnescaped allowSlash) segment
  query := if reading.query = [] then none
    else some (['&'].intercalate (reading.query.map writeAssignment))
  fragment := none

def write (allowSlash : Bool) (reading : Reading) : List Char :=
  compose (writeParts allowSlash reading)

/-- A name is what stands for itself between the delimiters of an authority. -/
def IsName (host : List Char) : Prop :=
  ∀ ch ∈ "/?#@:%[]".toList, ch ∉ host

/-- What can be written: there is no password without a user. -/
structure Reading.Writable (reading : Reading) : Prop where
  scheme : ':' ∉ reading.scheme
  user : reading.user = none → reading.password = none
  host : IsName reading.host

/-- The query behind its mark, if there is one. -/
def writeQuery (query : List (List Char × List Char)) : List Char :=
  if query = [] then [] else '?' :: ['&'].intercalate (query.map writeAssignment)

theorem write_eq (allowSlash : Bool) (reading : Reading) :
    write allowSlash reading = reading.scheme ++ "://".toList ++
    (reading.user.elim [] fun user => encode isUnreserved user ++
      (reading.password.elim [] fun password => ':' :: encode isUnreserved password) ++ ['@']) ++
    reading.host ++ (reading.port.elim [] fun port => ':' :: Nat.toDigits 10 port) ++
    (reading.segment.elim [] fun segment => '/' :: encode (isUnescaped allowSlash) segment) ++
    writeQuery reading.query := by
  obtain ⟨scheme, user, password, host, port, segment, query⟩ := reading
  cases user <;> cases port <;> cases query <;>
    simp [write, compose, writeParts, writeQuery]

theorem writeQuery_singleton (assignment : List Char × List Char) :
    writeQuery [assignment] = '?' :: writeAssignment assignment := by
  rw [writeQuery, if_neg (List.cons_ne_nil _ _), List.map_singleton, List.intercalate_singleton]

/-! ## Percent-encoding and back -/

theorem value?_escapeDigit : ∀ value < 16, HexText.value? (escapeDigit value) = some value := by
  decide

theorem decodeBytes_escapeByte (byte : UInt8) (rest : List Char) :
    decodeBytes (escapeByte byte ++ rest) = (decodeBytes rest).map (byte :: ·) := by
  have bounded := byte.toNat_lt
  have high := value?_escapeDigit (byte.toNat / 16) (by omega)
  have low := value?_escapeDigit (byte.toNat % 16) (by omega)
  have same : 16 * (byte.toNat / 16) + byte.toNat % 16 = byte.toNat := by omega
  change decodeBytes ('%' :: escapeDigit _ :: escapeDigit _ :: rest) = _
  simp only [decodeBytes, high, low, same, UInt8.ofNat_toNat, Option.bind_eq_bind,
    Option.bind_some]
  cases decodeBytes rest <;> rfl

theorem decodeBytes_cons {ch : Char} (plain : ch ≠ '%') (rest : List Char) :
    decodeBytes (ch :: rest) =
      (decodeBytes rest).map fun bytes => String.utf8EncodeChar ch ++ bytes := by
  rw [decodeBytes.eq_def]
  split
  · rename_i same
    cases same
  · rename_i same
    exact absurd (List.cons.inj same).1 plain
  · rename_i same
    obtain ⟨rfl, rfl⟩ := List.cons.inj same
    exact if_neg plain

/-- A byte may stand for itself when it is an ASCII character other than the escape. -/
def Spares (keeps : UInt8 → Bool) : Prop :=
  ∀ byte, keeps byte = true → byte.toNat < 128 ∧ Char.ofUInt8 byte ≠ '%'

theorem utf8EncodeChar_ofUInt8 {byte : UInt8} (ascii : byte.toNat < 128) :
    String.utf8EncodeChar (Char.ofUInt8 byte) = [byte] := by
  have code : (Char.ofUInt8 byte).toNat = byte.toNat := by
    simp [Char.ofUInt8, Char.toNat]
  unfold String.utf8EncodeChar
  change ite ((Char.ofUInt8 byte).toNat ≤ 127) _ _ = _
  rw [code, if_pos (Nat.le_of_lt_succ ascii)]
  change [UInt8.ofNat (Char.ofUInt8 byte).toNat] = _
  rw [code, UInt8.ofNat_toNat]

theorem decodeBytes_encodeBytes {keeps : UInt8 → Bool} (spares : Spares keeps)
    (bytes : List UInt8) : decodeBytes (encodeBytes keeps bytes) = some bytes := by
  induction bytes with
  | nil => rfl
  | cons byte bytes induction =>
      rw [encodeBytes, List.flatMap_cons, ← encodeBytes]
      split
      · rename_i kept
        obtain ⟨ascii, plain⟩ := spares byte kept
        rw [List.singleton_append, decodeBytes_cons plain, induction,
          utf8EncodeChar_ofUInt8 ascii]
        rfl
      · rw [decodeBytes_escapeByte, induction]
        rfl

theorem decode_encode {keeps : UInt8 → Bool} (spares : Spares keeps) (text : List Char) :
    decode (encode keeps text) = some text := by
  rw [decode, encode, decodeBytes_encodeBytes spares]
  have decoded := @List.utf8Decode?_utf8Encode text
  rw [List.utf8Encode] at decoded
  simp only [Option.bind_eq_bind, Option.bind_some, decoded]
  rfl

/-! ## Components and back -/

theorem upTo_elim {mark : Char} {text : List Char} (clear : mark ∉ text)
    (rest : Option (List Char)) :
    upTo mark (text ++ rest.elim [] fun after => mark :: after) = (text, rest) := by
  cases rest with
  | some after =>
      rw [upTo, Option.elim_some, splitOnceAt_around clear]
  | none =>
      rw [upTo, Option.elim_none, List.append_nil, splitOnceAt_of_not_mem clear]

theorem before_append {marks text rest : List Char} (clear : ∀ ch ∈ marks, ch ∉ text)
    (stops : ∀ ch ∈ rest.head?, ch ∈ marks) : before marks (text ++ rest) = (text, rest) := by
  have passes : ∀ ch ∈ text, (!marks.contains ch) = true := by
    intro ch member
    rw [Bool.not_eq_true', List.contains_eq_mem, decide_eq_false_iff_not]
    exact fun marked => clear ch marked member
  have ends : rest.takeWhile (fun ch => !marks.contains ch) = [] ∧
      rest.dropWhile (fun ch => !marks.contains ch) = rest := by
    cases rest with
    | nil => exact ⟨rfl, rfl⟩
    | cons ch rest =>
        have marked := stops ch rfl
        rw [List.takeWhile_cons_of_neg (by simpa using marked),
          List.dropWhile_cons_of_neg (by simpa using marked)]
        exact ⟨rfl, rfl⟩
  rw [before, List.takeWhile_append_of_pos passes, List.dropWhile_append_of_pos passes, ends.1,
    ends.2, List.append_nil]

theorem splitAuthority_eq {userinfo : Option (List Char)} {host : List Char}
    {port : Option (List Char)} (user : ∀ text ∈ userinfo, '@' ∉ text)
    (name : ∀ ch ∈ ['@', ':'], ch ∉ host) (number : ∀ text ∈ port, '@' ∉ text) :
    splitAuthority ((userinfo.elim [] fun text => text ++ ['@']) ++
      (host ++ port.elim [] fun text => ':' :: text)) = (userinfo, host, port) := by
  have address := upTo_elim (name ':' (by simp)) port
  cases userinfo with
  | some userinfo =>
      rw [splitAuthority, Option.elim_some, List.append_assoc, List.singleton_append,
        splitOnceAt_around (user userinfo rfl)]
      exact congrArg (some userinfo, ·) address
  | none =>
      have clear : '@' ∉ host ++ port.elim [] fun text => ':' :: text := by
        intro member
        rcases List.mem_append.mp member with inside | inside
        · exact name '@' (by simp) inside
        · cases port with
          | none => cases inside
          | some port =>
              rcases List.mem_cons.mp inside with same | inside
              · cases same
              · exact number port rfl inside
      rw [splitAuthority, Option.elim_none, List.nil_append, splitOnceAt_of_not_mem clear]
      exact congrArg (none, ·) address

/-- What no part of a text holds, the text does not hold. -/
theorem not_mem_append_elim {ch : Char} {text : List Char} (clear : ch ∉ text)
    {rest : Option (List Char)} {joined : List Char → List Char}
    (others : ∀ after ∈ rest, ch ∉ joined after) : ch ∉ text ++ rest.elim [] joined := by
  intro member
  rcases List.mem_append.mp member with inside | inside
  · exact clear inside
  · cases rest with
    | none => cases inside
    | some after => exact others after rfl inside

/-- A text put together from proper components has these components. -/
theorem decompose_compose {parts : Components} (proper : parts.Proper) :
    decompose (compose parts) = some parts := by
  obtain ⟨scheme, userinfo, host, port, path, query, fragment⟩ := parts
  have query_clear : '#' ∉ path ++ query.elim [] fun query => '?' :: query := by
    apply not_mem_append_elim (proper.path '#' (by simp))
    intro after found member
    rcases List.mem_cons.mp member with same | inside
    · cases same
    · exact proper.query after found inside
  have authority_clear : ∀ ch ∈ ['/', '?', '#'],
      ch ∉ (userinfo.elim [] fun text => text ++ ['@']) ++
        (host ++ port.elim [] fun text => ':' :: text) := by
    intro ch mark member
    rcases List.mem_append.mp member with inside | inside
    · cases userinfo with
      | none => cases inside
      | some userinfo =>
          rcases List.mem_append.mp inside with inside | same
          · exact proper.userinfo userinfo rfl ch (by simp at mark ⊢; tauto) inside
          · obtain rfl := List.mem_singleton.mp same
            simp at mark
    · refine not_mem_append_elim (proper.host ch (by simp at mark ⊢; tauto)) ?_ inside
      intro after found member
      rcases List.mem_cons.mp member with rfl | inside
      · simp at mark
      · exact proper.port after found ch (by simp at mark ⊢; tauto) inside
  have stops : ∀ ch ∈ ((path ++ query.elim [] fun query => '?' :: query) ++
      fragment.elim [] fun fragment => '#' :: fragment).head?, ch ∈ ['/', '?', '#'] := by
    rcases proper.rooted with empty | ⟨rest, rooted⟩
    · simp only at empty
      subst empty
      cases query <;> cases fragment <;> simp
    · simp only at rooted
      subst rooted
      simp
  have shape : compose { scheme, userinfo, host, port, path, query, fragment } =
      scheme ++ ':' :: '/' :: '/' :: ((userinfo.elim [] fun text => text ++ ['@']) ++
        (host ++ port.elim [] fun text => ':' :: text) ++
        ((path ++ query.elim [] fun query => '?' :: query) ++
          fragment.elim [] fun fragment => '#' :: fragment)) := by
    simp [compose, List.append_assoc]
  have authority : splitAuthority ((userinfo.elim [] fun text => text ++ ['@']) ++
      (host ++ port.elim [] fun text => ':' :: text)) = (userinfo, host, port) := by
    apply splitAuthority_eq
    · exact fun text found => proper.userinfo text found '@' (by simp)
    · exact fun ch mark => proper.host ch (by simp at mark ⊢; tauto)
    · exact fun text found => proper.port text found '@' (by simp)
  rw [shape, decompose, splitOnceAt_around proper.scheme]
  simp only [before_append authority_clear stops, upTo_elim query_clear fragment,
    upTo_elim (proper.path '?' (by simp)) query, authority]

/-! ## Reading what was written -/

theorem forall_byte {property : UInt8 → Prop} (table : ∀ code < 256, property (UInt8.ofNat code))
    (byte : UInt8) : property byte := by
  have known := table byte.toNat byte.toNat_lt
  rwa [UInt8.ofNat_toNat] at known

/-- Bytes that are written as they are stand for plain characters. -/
theorem written_plain : ∀ byte,
    (isUnreserved byte = true →
      byte.toNat < 128 ∧ Char.ofUInt8 byte ∉ "/?#@:%[]&=".toList) ∧
    ∀ allowSlash, isUnescaped allowSlash byte = true →
      byte.toNat < 128 ∧ Char.ofUInt8 byte ∉ "?#@:%[]&=".toList := by
  apply forall_byte
  decide +kernel

theorem isUnreserved_plain (byte : UInt8) (kept : isUnreserved byte = true) :
    byte.toNat < 128 ∧ Char.ofUInt8 byte ∉ "/?#@:%[]&=".toList := by
  apply (written_plain byte).1 kept

theorem isUnescaped_plain (allowSlash : Bool) (byte : UInt8)
    (kept : isUnescaped allowSlash byte = true) :
    byte.toNat < 128 ∧ Char.ofUInt8 byte ∉ "?#@:%[]&=".toList := by
  apply (written_plain byte).2 allowSlash kept

theorem spares_isUnreserved : Spares isUnreserved := by
  intro byte kept
  obtain ⟨ascii, plain⟩ := isUnreserved_plain byte kept
  exact ⟨ascii, fun same => plain (by rw [same]; decide)⟩

theorem spares_isUnescaped (allowSlash : Bool) : Spares (isUnescaped allowSlash) := by
  intro byte kept
  obtain ⟨ascii, plain⟩ := isUnescaped_plain allowSlash byte kept
  exact ⟨ascii, fun same => plain (by rw [same]; decide)⟩

theorem escapeDigit_mem : ∀ value < 16, escapeDigit value ∈ "0123456789ABCDEF".toList := by
  decide

/-- An encoded text holds escapes and what stands for itself. -/
theorem not_mem_encode {keeps : UInt8 → Bool} {ch : Char}
    (kept : ∀ byte, keeps byte = true → Char.ofUInt8 byte ≠ ch)
    (other : ch ∉ "%0123456789ABCDEF".toList) (text : List Char) : ch ∉ encode keeps text := by
  intro member
  obtain ⟨byte, -, inside⟩ := List.mem_flatMap.mp member
  split at inside
  · rename_i keep
    exact kept byte keep (List.mem_singleton.mp inside).symm
  · have bounded := byte.toNat_lt
    apply other
    rw [escapeByte, List.mem_cons, List.mem_cons, List.mem_singleton] at inside
    rcases inside with rfl | rfl | rfl
    · decide
    · exact List.mem_cons_of_mem _ (escapeDigit_mem _ (by omega))
    · exact List.mem_cons_of_mem _ (escapeDigit_mem _ (by omega))

theorem not_mem_encode_unreserved (text : List Char) :
    ∀ ch ∈ "/?#@:[]&=".toList, ch ∉ encode isUnreserved text := by
  intro ch mark
  have escaped : ∀ ch ∈ "/?#@:[]&=".toList,
      ch ∈ "/?#@:%[]&=".toList ∧ ch ∉ "%0123456789ABCDEF".toList := by decide
  apply not_mem_encode _ (escaped ch mark).2
  intro byte kept same
  exact (isUnreserved_plain byte kept).2 (same ▸ (escaped ch mark).1)

theorem not_mem_encode_path (allowSlash : Bool) (text : List Char) :
    ∀ ch ∈ "?#".toList, ch ∉ encode (isUnescaped allowSlash) text := by
  intro ch mark
  have escaped : ∀ ch ∈ "?#".toList,
      ch ∈ "?#@:%[]&=".toList ∧ ch ∉ "%0123456789ABCDEF".toList := by decide
  apply not_mem_encode _ (escaped ch mark).2
  intro byte kept same
  exact (isUnescaped_plain allowSlash byte kept).2 (same ▸ (escaped ch mark).1)

theorem not_mem_writeAssignment (assignment : List Char × List Char) :
    ∀ ch ∈ "#&".toList, ch ∉ writeAssignment assignment := by
  intro ch mark member
  have marks : ∀ ch ∈ "#&".toList, ch ∈ "/?#@:[]&=".toList ∧ ch ≠ '=' := by decide
  obtain ⟨encoded, other⟩ := marks ch mark
  rcases List.mem_append.mp member with inside | inside
  · exact not_mem_encode_unreserved _ ch encoded inside
  · rcases List.mem_cons.mp inside with same | inside
    · exact other same
    · exact not_mem_encode_unreserved _ ch encoded inside

theorem decode_name {host : List Char} (name : IsName host) : decode host = some host := by
  have plain : '%' ∉ host := name '%' (by decide)
  have bytes : decodeBytes host = some (host.flatMap String.utf8EncodeChar) := by
    clear name
    induction host with
    | nil => rfl
    | cons ch host induction =>
        rw [List.mem_cons, not_or] at plain
        rw [decodeBytes_cons (Ne.symm plain.1), induction plain.2]
        rfl
  have decoded := @List.utf8Decode?_utf8Encode host
  rw [List.utf8Encode] at decoded
  rw [decode, bytes]
  simp only [Option.bind_eq_bind, Option.bind_some, decoded]
  rfl

theorem not_mem_userinfo (allowSlash : Bool) (reading : Reading) (userinfo : List Char)
    (found : userinfo ∈ (writeParts allowSlash reading).userinfo) :
    ∀ ch ∈ ['/', '?', '#', '@'], ch ∉ userinfo := by
  intro ch mark
  obtain ⟨user, -, rfl⟩ := Option.map_eq_some_iff.mp found
  have marks : ∀ ch ∈ ['/', '?', '#', '@'], ch ∈ "/?#@:[]&=".toList ∧ ch ≠ ':' := by decide
  obtain ⟨encoded, other⟩ := marks ch mark
  apply not_mem_append_elim (not_mem_encode_unreserved user ch encoded)
  intro password _ member
  rcases List.mem_cons.mp member with same | inside
  · exact other same
  · exact not_mem_encode_unreserved password ch encoded inside

theorem not_mem_query (allowSlash : Bool) (reading : Reading) (query : List Char)
    (found : query ∈ (writeParts allowSlash reading).query) : '#' ∉ query := by
  simp only [writeParts] at found
  split at found
  · cases found
  · obtain rfl := Option.mem_some.mp found
    intro member
    rcases mem_of_mem_intercalate member with separator | ⟨text, written, inside⟩
    · revert separator
      decide
    · obtain ⟨assignment, -, rfl⟩ := List.mem_map.mp written
      exact not_mem_writeAssignment assignment '#' (by decide) inside

theorem proper_writeParts (allowSlash : Bool) {reading : Reading}
    (writable : reading.Writable) :
    (writeParts allowSlash reading).Proper := by
  constructor
  · exact writable.scheme
  · exact not_mem_userinfo allowSlash reading
  · intro ch mark
    exact writable.host ch (by simp at mark ⊢; tauto)
  · intro port found ch mark member
    obtain ⟨number, -, rfl⟩ := Option.map_eq_some_iff.mp found
    have digit := Nat.isDigit_of_mem_toDigits (by decide) (by decide) member
    have marks : ∀ ch ∈ ['/', '?', '#', '@'], ch.isDigit = false := by decide
    rw [marks ch mark] at digit
    cases digit
  · intro ch mark member
    have marks : ∀ ch ∈ ['?', '#'], ch ∈ "?#".toList ∧ ch ≠ '/' := by decide
    simp only [writeParts] at member
    cases written : reading.segment with
    | none =>
        rw [written] at member
        cases member
    | some segment =>
        rw [written] at member
        rcases List.mem_cons.mp member with same | inside
        · exact (marks ch mark).2 same
        · exact not_mem_encode_path allowSlash segment ch (marks ch mark).1 inside
  · simp only [writeParts]
    cases reading.segment with
    | none => exact .inl rfl
    | some segment => exact .inr ⟨_, rfl⟩
  · exact not_mem_query allowSlash reading

theorem readUserinfo_write (allowSlash : Bool) {reading : Reading}
    (user : reading.user = none → reading.password = none) :
    readUserinfo (writeParts allowSlash reading).userinfo = some (reading.user, reading.password) := by
  obtain ⟨scheme, user?, password?, host, port, segment, query⟩ := reading
  simp only [writeParts]
  cases user? with
  | none =>
      obtain rfl : password? = none := user rfl
      rfl
  | some name =>
      have split := upTo_elim (not_mem_encode_unreserved name ':' (by decide))
        (password?.map (encode isUnreserved))
      rw [Option.elim_map] at split
      rw [Option.map_some, readUserinfo]
      simp only [Function.comp_def] at split ⊢
      rw [split]
      simp only [decode_encode spares_isUnreserved, Option.bind_eq_bind, Option.bind_some]
      cases password? with
      | none => rfl
      | some password =>
          simp only [Option.map_some, Option.mapM_some, decode_encode spares_isUnreserved]
          rfl

theorem readPath_write (allowSlash : Bool) (reading : Reading) :
    readPath (writeParts allowSlash reading).path = some reading.segment := by
  simp only [writeParts]
  cases reading.segment with
  | none => rfl
  | some segment =>
      rw [Option.elim_some, readPath, decode_encode (spares_isUnescaped allowSlash), Option.map_some]

theorem readPort_write (allowSlash : Bool) (reading : Reading) :
    (writeParts allowSlash reading).port.mapM readPort = some reading.port := by
  simp only [writeParts]
  cases reading.port with
  | none => rfl
  | some port =>
      have digits : (Nat.toDigits 10 port).all Char.isDigit = true := List.all_eq_true.mpr
        fun ch member => Nat.isDigit_of_mem_toDigits (by decide) (by decide) member
      have number : readPort (Nat.toDigits 10 port) = some port := by
        rw [readPort, if_pos digits, Nat.ofDigitChars_ten_toDigits]
      rw [Option.map_some, Option.mapM_some, number]
      rfl

theorem readAssignment_write (assignment : List Char × List Char) :
    readAssignment (writeAssignment assignment) = some assignment := by
  have split := upTo_elim (not_mem_encode_unreserved assignment.1 '=' (by decide))
    (some (encode isUnreserved assignment.2))
  rw [Option.elim_some] at split
  rw [readAssignment, writeAssignment, split]
  simp only [Option.getD_some, decode_encode spares_isUnreserved, Option.bind_eq_bind,
    Option.bind_some]
  rfl

theorem readQuery_write (allowSlash : Bool) (reading : Reading) :
    readQuery (writeParts allowSlash reading).query = some reading.query := by
  simp only [writeParts]
  split
  · rename_i empty
    rw [empty]
    rfl
  · rename_i filled
    have split : (['&'].intercalate (reading.query.map writeAssignment)).splitOn '&' =
        reading.query.map writeAssignment := by
      apply List.splitOn_intercalate
      · intro text member
        obtain ⟨assignment, -, rfl⟩ := List.mem_map.mp member
        exact not_mem_writeAssignment assignment '&' (by decide)
      · exact fun empty => filled (List.map_eq_nil_iff.mp empty)
    rw [readQuery, split]
    generalize reading.query = query
    induction query with
    | nil => rfl
    | cons assignment query induction =>
        rw [List.map_cons, List.mapM_cons, readAssignment_write, induction]
        rfl

/-- What is written is read. -/
theorem read_write (allowSlash : Bool) {reading : Reading} (writable : reading.Writable) :
    read (write allowSlash reading) = some reading := by
  rw [read, write, decompose_compose (proper_writeParts allowSlash writable)]
  simp only [Option.bind_eq_bind, Option.bind_some, readUserinfo_write allowSlash writable.user,
    readPort_write, readPath_write, readQuery_write]
  change (decode reading.host).bind _ = _
  rw [decode_name writable.host]
  rfl

end Uri

end Foundation
