import Marreta.Foundation.HexText
import Marreta.Server.Authentication

namespace Marreta

open Foundation

/-! API keys against the hashes of the settings.

A hash is checked when the server starts, where digits of either case are accepted, and
compared with the digest of each key as text, which is written in lower case. -/

abbrev Sha256Digest := Vector UInt8 32

/-- The digest of a key, written as the server formats it. -/
def AuthKit.withDigest {Key : Type} (kit : AuthKit Key) (digest : List UInt8 → Sha256Digest) :
    AuthKit Key :=
  { kit with sha256 := fun supplied => String.ofList (HexText.write (digest supplied).toList) }

/-- The bytes that the digits of a hash stand for. -/
def denotedDigest? (hash : String) : Option (List UInt8) :=
  (sha256Digest? hash).bind HexText.read?

/-- Some digit of the hash is a letter in upper case. -/
def hasUpperDigit (hash : String) : Bool :=
  (sha256Digest? hash).any fun digits => digits.any Char.isUpper

/-! ## What is accepted -/

section Accepted

variable {setup : AuthSetup} {provider hash : String}

theorem digits_of_accepted (accepted : validateSecretHash setup provider hash = .ok ())
    (form : isArgon2id hash = false) :
    ∃ digits, sha256Digest? hash = some digits ∧ digits.length = 64 ∧ digits.all isHexDigit := by
  rw [validateSecretHash, if_neg (by simp [form])] at accepted
  split at accepted
  case isTrue known =>
      obtain ⟨digits, found, wellFormed⟩ := (Option.any_eq_true _ _).mp known
      rw [Bool.and_eq_true, decide_eq_true_iff] at wellFormed
      exact ⟨digits, found, wellFormed⟩
  case isFalse => cases accepted

theorem value?_of_isHexDigit {char : Char} (digit : isHexDigit char) :
    (HexText.value? char).isSome := by
  simp only [isHexDigit, Bool.or_eq_true, Bool.and_eq_true, decide_eq_true_iff] at digit
  simp only [HexText.value?]
  split_ifs <;> simp_all

/-- A hash that is accepted denotes 32 bytes. -/
theorem denotedDigest?_of_accepted (accepted : validateSecretHash setup provider hash = .ok ())
    (form : isArgon2id hash = false) :
    ∃ digits bytes, sha256Digest? hash = some digits ∧ HexText.read? digits = some bytes ∧
      bytes.length = 32 := by
  obtain ⟨digits, found, length, hex⟩ := digits_of_accepted accepted form
  have values : ∀ char ∈ digits, (HexText.value? char).isSome := by
    intro char member
    exact value?_of_isHexDigit (List.all_eq_true.mp hex char member)
  obtain ⟨bytes, read⟩ := HexText.exists_read? (by rw [length]) values
  have half := HexText.length_of_read? read
  exact ⟨digits, bytes, found, read, by omega⟩

end Accepted

/-! ## What is verified -/

section Verified

variable {Key : Type} (kit : AuthKit Key) (digest : List UInt8 → Sha256Digest)

/-- The text of a digest is the text of the hash: the bytes are the same, and the hash is
written in lower case. -/
theorem verifyApiKeyHash_eq_true_iff {hash : String} {digits : List Char} {bytes : List UInt8}
    (form : isArgon2id hash = false) (found : sha256Digest? hash = some digits)
    (read : HexText.read? digits = some bytes) (supplied : List UInt8) :
    verifyApiKeyHash (kit.withDigest digest) supplied hash = true ↔
      (digest supplied).toList = bytes ∧ ∀ char ∈ digits, char.isUpper = false := by
  rw [verifyApiKeyHash, if_neg (by simp [form]), found]
  change decide _ = true ↔ _
  rw [decide_eq_true_iff, AuthKit.withDigest, String.toList_ofList]
  exact HexText.write_eq_iff read

/-- A key is verified exactly when its digest is the one that the hash denotes, unless the
hash of this very key has a digit in upper case. -/
theorem verifyApiKeyHash_iff_denotes (setup : AuthSetup) (provider hash : String)
    (supplied : List UInt8) (accepted : validateSecretHash setup provider hash = .ok ())
    (form : isArgon2id hash = false) :
    (verifyApiKeyHash (kit.withDigest digest) supplied hash = true ↔
        denotedDigest? hash = some (digest supplied).toList) ↔
      hasUpperDigit hash = false ∨ denotedDigest? hash ≠ some (digest supplied).toList := by
  obtain ⟨digits, bytes, found, read, -⟩ := denotedDigest?_of_accepted accepted form
  have denoted : denotedDigest? hash = some bytes := by
    rw [denotedDigest?, found, Option.bind_some, read]
  have upper : hasUpperDigit hash = false ↔ ∀ char ∈ digits, char.isUpper = false := by
    rw [hasUpperDigit, found, Option.any_some, List.any_eq_false]
    simp
  rw [verifyApiKeyHash_eq_true_iff kit digest form found read, denoted, upper, ne_eq,
    Option.some_inj]
  constructor
  · intro correct
    by_cases same : bytes = (digest supplied).toList
    · exact .inl (correct.mpr same).2
    · exact .inr same
  · rintro (lower | different)
    · exact ⟨fun verified => verified.1.symm, fun same => ⟨same.symm, lower⟩⟩
    · exact ⟨fun verified => verified.1.symm, fun same => absurd same different⟩

end Verified

/-! ## A hash in upper case -/

/-- The digest of the key `secret`. -/
def secretDigest : Sha256Digest :=
  #v[43, 184, 13, 83, 123, 29, 163, 227, 139, 211, 3, 97, 170, 133, 86, 134,
    189, 224, 234, 205, 113, 98, 254, 246, 162, 95, 233, 123, 245, 39, 162, 91]

theorem verifyApiKeyHash_lowerCase :
    verifyApiKeyHash (plainKit.withDigest fun _ => secretDigest) (bytesOf "secret")
        "SHA256:2bb80d537b1da3e38bd30361aa855686bde0eacd7162fef6a25fe97bf527a25b" = true ↔
      denotedDigest? "SHA256:2bb80d537b1da3e38bd30361aa855686bde0eacd7162fef6a25fe97bf527a25b" =
        some secretDigest.toList :=
  (verifyApiKeyHash_iff_denotes plainKit (fun _ => secretDigest) plainSetup "partners"
    "SHA256:2bb80d537b1da3e38bd30361aa855686bde0eacd7162fef6a25fe97bf527a25b" (bytesOf "secret")
    (by decide) (by decide)).mpr (.inl (by decide))

theorem verifyApiKeyHash_upperCase :
    validateSecretHash plainSetup "partners"
        "sha256:2BB80D537B1DA3E38BD30361AA855686BDE0EACD7162FEF6A25FE97BF527A25B" = .ok () ∧
      isArgon2id "sha256:2BB80D537B1DA3E38BD30361AA855686BDE0EACD7162FEF6A25FE97BF527A25B" =
        false ∧
      ¬(verifyApiKeyHash (plainKit.withDigest fun _ => secretDigest) (bytesOf "secret")
          "sha256:2BB80D537B1DA3E38BD30361AA855686BDE0EACD7162FEF6A25FE97BF527A25B" = true ↔
        denotedDigest? "sha256:2BB80D537B1DA3E38BD30361AA855686BDE0EACD7162FEF6A25FE97BF527A25B" =
          some secretDigest.toList) := by
  decide

end Marreta
