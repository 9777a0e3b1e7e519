import Ciphr.AuditVerify
import Ciphr.CoreEnvName
import Ciphr.CoreSecret

/-!
The errors of the crates, and what `Display` writes of them where something reads it. The errors of other
crates inside them are their texts, as that of a policy file is. The failures to read a master key, which
no operation modelled here has, are left out.
-/

namespace Ciphr

/-! ### `ciphr-crypto/src/error.rs` -/

inductive CryptoError where
  | aead
  | entropy
  | keyLength (expected found : Nat)
  | encoding (error : Hex.HexError)
  | rootKeyIdMismatch
  | tokenFormat
  deriving DecidableEq, Repr

/-- What `Display` writes. -/
def CryptoError.text : CryptoError → String
  | .aead => "authenticated decryption failed"
  | .entropy => "the operating system provided no randomness"
  | .keyLength expected found =>
      "expected a " ++ toString expected ++ "-byte key, found " ++ toString found ++ " bytes"
  | .encoding error => "invalid hexadecimal: " ++ error.display
  | .rootKeyIdMismatch => "the sealed root key carries an unexpected identifier"
  | .tokenFormat => "not a valid token"

/-! ### `ciphr-store/src/error.rs` -/

inductive StoreError where
  | locked (holder : Option Nat)
  | io (detail : String)
  | notFound (path : String)
  | versionNotFound (path : String) (version : SecretVersion)
  | versionDeleted (path : String) (version : SecretVersion)
  | versionDestroyed (path : String) (version : SecretVersion)
  | tokenNotFound (tokenId : String)
  | reserved (path : String)
  | alreadyInitialized
  | notInitialized
  | schemaTooNew (found supported : Nat)
  | versionOverflow (path : String)
  | corrupt (detail : String)
  | cutRefused (detail : String)
  | migration (version : Nat) (name source : String)
  | sqlite (error : String)
  | crypto (error : String)
  | path (error : PathError)
  | rotation (error : RotationError)
  deriving DecidableEq

/-- What `Display` writes. -/
def StoreError.text : StoreError → String
  | .locked (some pid) =>
      "the store is in use by process " ++ toString pid ++ "; stop it, run this, start it again. " ++
        "Two writers collide on the audit sequence and leave the first one refusing every request."
  | .locked none =>
      "a lock file exists whose holder cannot be verified. If no ciphr process is using this " ++
        "store, remove the '.lock' file beside it."
  | .io detail => detail
  | .notFound secret => "no secret at '" ++ secret ++ "'"
  | .versionNotFound secret version => "'" ++ secret ++ "' has no version " ++ toString version.number
  | .versionDeleted secret version =>
      "version " ++ toString version.number ++ " of '" ++ secret ++ "' is deleted"
  | .versionDestroyed secret version =>
      "version " ++ toString version.number ++ " of '" ++ secret ++ "' was destroyed"
  | .tokenNotFound tokenId => "no token with id '" ++ tokenId ++ "'"
  | .reserved secret =>
      "'" ++ reservedPrefix ++ "/' is reserved and cannot hold secrets, so '" ++ secret ++
        "' was refused"
  | .alreadyInitialized => "the store is already initialized"
  | .notInitialized => "the store is not initialized"
  | .schemaTooNew found supported =>
      "database schema version " ++ toString found ++ " is newer than the supported " ++
        toString supported
  | .versionOverflow secret => "'" ++ secret ++ "' has exhausted its version numbers"
  | .corrupt detail => "stored data is malformed: " ++ detail
  | .cutRefused detail => "the audit log was not cut: " ++ detail
  | .migration version name source =>
      "migration " ++ toString version ++ " (" ++ name ++ ") failed: " ++ source
  | .sqlite error => "database error: " ++ error
  | .crypto error => error
  | .path error => "stored path is invalid: " ++ error.text
  | .rotation error => "stored rotation class is invalid: " ++ error.text

/-! ### `ciphr-server/src/error.rs` -/

inductive ApiError where
  | unauthenticated
  | forbidden
  | notFound
  | badRequest (reason : String)
  | auditUnavailable
  | internal (detail : String)
  deriving DecidableEq, Repr

namespace ApiError

def status : ApiError → Nat
  | .unauthenticated => 401
  | .forbidden => 403
  | .notFound => 404
  | .badRequest _ => 400
  | .auditUnavailable => 503
  | .internal _ => 500

def ofStore (error : StoreError) : ApiError :=
  match error with
  | .notFound _ | .versionNotFound _ _ | .versionDeleted _ _ | .versionDestroyed _ _ => .notFound
  | .reserved _ => .badRequest error.text
  | other => .internal other.text

/-- Errors of the cryptography are their texts. -/
def ofCrypto (error : String) : ApiError := .internal error

end ApiError

/-! ### `ciphr-cli/src/error.rs` -/

inductive CliError where
  | notInitialized (path : String)
  | alreadyInitialized (path : String)
  | unknownIdentity (name : String)
  | needsStdin
  | wouldPipeSecret
  | duration (found : String)
  | noExpiryDecision
  | dotEnv (line : Nat) (reason : String)
  | store (error : StoreError)
  | lockedButServed (locked : StoreError) (request : String)
  | crypto (error : CryptoError)
  | policy (error : String)
  | path (error : PathError)
  | rotation (error : RotationError)
  | envName (error : EnvNameError)
  | exportDelimiter (name reason : String)
  | audit (message : String)
  | chainBroken (chainBreak : ChainBreak)
  | io (error : String)
  deriving DecidableEq

end Ciphr
