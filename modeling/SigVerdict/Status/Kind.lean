import SigVerdict.Status.Field

set_option autoImplicit false

/-! # Kinds of status

The registry of the status keywords that are decoded. Each kind has its keyword, the fields it
declares, and a sentence that explains it. A keyword that is not registered has no kind. -/

namespace SigVerdict.Status

open Text

/-- A registered kind of status, in the order of the registry. -/
inductive Kind where
  | expSig
  | expKeySig
  | revKeySig
  | badSig
  | errSig
  | noPubkey
  | missingPassphrase
  | badPassphrase
  | noData
  | unexpected
  | error
  | failure
  | badArmor
  | keyExpired
  | keyRevoked
  | noSecKey
  deriving DecidableEq, Repr

namespace Kind

/-- Every kind, in the order of the registry. -/
def all : List Kind :=
  [.expSig, .expKeySig, .revKeySig, .badSig, .errSig, .noPubkey, .missingPassphrase,
    .badPassphrase, .noData, .unexpected, .error, .failure, .badArmor, .keyExpired, .keyRevoked,
    .noSecKey]

/-- The place of a kind in the registry. -/
def rank : Kind → Nat
  | .expSig => 0
  | .expKeySig => 1
  | .revKeySig => 2
  | .badSig => 3
  | .errSig => 4
  | .noPubkey => 5
  | .missingPassphrase => 6
  | .badPassphrase => 7
  | .noData => 8
  | .unexpected => 9
  | .error => 10
  | .failure => 11
  | .badArmor => 12
  | .keyExpired => 13
  | .keyRevoked => 14
  | .noSecKey => 15

/-- The keyword of a kind on a status line. -/
def keyword : Kind → String
  | .expSig => "EXPSIG"
  | .expKeySig => "EXPKEYSIG"
  | .revKeySig => "REVKEYSIG"
  | .badSig => "BADSIG"
  | .errSig => "ERRSIG"
  | .noPubkey => "NO_PUBKEY"
  | .missingPassphrase => "MISSING_PASSPHRASE"
  | .badPassphrase => "BAD_PASSPHRASE"
  | .noData => "NODATA"
  | .unexpected => "UNEXPECTED"
  | .error => "ERROR"
  | .failure => "FAILURE"
  | .badArmor => "BADARMOR"
  | .keyExpired => "KEYEXPIRED"
  | .keyRevoked => "KEYREVOKED"
  | .noSecKey => "NO_SECKEY"

/-- The kind of a keyword; upper and lower case differ. -/
def ofKeyword? (word : String) : Option Kind := all.find? fun kind => kind.keyword == word

/-- The fields that a kind declares, in the order of its arguments. -/
def fields : Kind → List Field
  | .expSig | .expKeySig | .revKeySig | .badSig =>
    [⟨"keyid", .text, false⟩, ⟨"username", .text, false⟩]
  | .errSig =>
    [ ⟨"keyid", .text, false⟩,
      ⟨"pkalgo", .integer .word32, false⟩,
      ⟨"hashalgo", .integer .word32, false⟩,
      ⟨"sig_class", .text, false⟩,
      ⟨"time", .integer .signed64, false⟩,
      ⟨"rc", .integer .word32, false⟩,
      ⟨"fpr", .text, false⟩ ]
  | .noPubkey | .badPassphrase | .noSecKey => [⟨"keyid", .text, false⟩]
  | .missingPassphrase | .badArmor | .keyRevoked => []
  | .noData | .unexpected => [⟨"what", .text, false⟩]
  | .error =>
    [⟨"location", .text, false⟩, ⟨"code", .integer .word32, false⟩, ⟨"more", .text, true⟩]
  | .failure => [⟨"location", .text, false⟩, ⟨"code", .integer .word32, false⟩]
  | .keyExpired => [⟨"timestamp", .integer .signed64, false⟩]

/-- The field that holds a point in time, if a kind declares one. -/
def timeField? : Kind → Option String
  | .errSig => some "time"
  | .keyExpired => some "timestamp"
  | _ => none

/-- Whether a kind only says that something has expired. -/
def isExpiry : Kind → Bool
  | .expSig | .expKeySig | .keyExpired => true
  | _ => false

/-- The explanation of a kind, as it is set in the registry: over several lines, which are indented,
    and with wide gaps behind sentences. -/
def documentation : Kind → String
  | .expSig =>
    "The signature with the keyid is good,
                 but the signature is expired."
  | .expKeySig =>
    "The signature with the keyid is good,
                 but the signature was made by an expired key."
  | .revKeySig =>
    "The signature with the keyid is good,
                 but the signature was made by a revoked key."
  | .badSig => "The signature with the keyid has not been verified okay."
  | .errSig =>
    "It was not possible to check the signature.  This may be
                 caused by a missing public key or an unsupported algorithm.
                 A RC of 4 indicates unknown algorithm, a 9 indicates a
                 missing public key."
  | .noPubkey => "The public key is not available."
  | .missingPassphrase => "No passphrase was supplied."
  | .badPassphrase => "The supplied passphrase was wrong or not given."
  | .noData =>
    "No data has been found.  Codes for WHAT are:
                 - 1 :: No armored data.
                 - 2 :: Expected a packet but did not find one.
                 - 3 :: Invalid packet found, this may indicate a non OpenPGP
                        message.
                 - 4 :: Signature expected but not found."
  | .unexpected =>
    "Unexpected data has been encountered.  Codes for WHAT are:
                 - 0 :: Not further specified."
  | .error =>
    "This is a generic error status message, it might be
                 followed by error location specific data."
  | .failure =>
    "This is the counterpart to SUCCESS and used to indicate
                 a program failure."
  | .badArmor => "The ASCII armor is corrupted."
  | .keyExpired => "The key has expired."
  | .keyRevoked => "The used key has been revoked by its owner."
  | .noSecKey => "The secret key is not available."

/-- The explanation of a kind on one line, with a single space wherever the registry has white
    space. -/
def description (kind : Kind) : String := String.ofList (collapse kind.documentation.toList)

/-- Kinds sorted by their place in the registry. -/
def sort (kinds : List Kind) : List Kind := kinds.mergeSort fun a b => a.rank ≤ b.rank

/-! ## The registry is complete and one to one -/

theorem mem_all (kind : Kind) : kind ∈ all := by cases kind <;> decide

@[simp] theorem ofKeyword?_keyword (kind : Kind) : ofKeyword? kind.keyword = some kind := by
  cases kind <;> decide

theorem ofKeyword?_eq_some_iff {word : String} {kind : Kind} :
    ofKeyword? word = some kind ↔ word = kind.keyword := by
  constructor
  · intro h
    have := List.find?_some h
    simpa using (beq_iff_eq.mp this).symm
  · rintro rfl
    exact ofKeyword?_keyword kind

end Kind

end SigVerdict.Status
