import Ciphr.RustText

/-!
`ciphr-server/src/config.rs`: the configuration as far as the audit devices and the federation depend
on it, and what makes it accepted. The stanzas of a provider are declared here and checked where they
are resolved.
-/

namespace Ciphr

inductive AuditConfig where
  | sqlite
  | file (path : String) (rotateSize : Option String)
  deriving DecidableEq, Repr

structure SurfaceConfig where
  entry : String
  accepted : String
  reason : String
  deriving DecidableEq, Repr

/-- One `[[auth.oidc.key]]` stanza, tagged by `alg`. -/
inductive KeyConfig where
  | rs256 (kid n e : String)
  | es256 (kid x y : String)
  deriving DecidableEq, Repr

/-- A `BTreeMap<String, String>`: ordered by its keys, each of which it has once. -/
structure ClaimMap where
  entries : List (String × String)
  sorted : entries.Pairwise (·.1 < ·.1)
  deriving DecidableEq, Repr

/-- One `[[auth.oidc.binding]]` stanza. -/
structure BindingConfig where
  identity : String
  claims : ClaimMap
  deriving DecidableEq, Repr

/-- One `[[auth.oidc]]` stanza, with the defaults of the fields that have one. -/
structure ProviderConfig where
  name : String
  issuer : String
  audience : String
  skewSeconds : UInt32 := 60
  ttl : String := "15m"
  keys : List KeyConfig := []
  bindings : List BindingConfig := []
  deriving DecidableEq, Repr

structure Config where
  storagePath : String
  audit : List AuditConfig
  surface : List SurfaceConfig
  oidc : List ProviderConfig
  deriving DecidableEq, Repr

inductive ConfigError where
  | size (found : String)
  | noAuditDevice
  | noStoreAuditDevice
  | oidcName
  | oidcIssuer (name : String)
  | oidcAudience (name : String)
  | oidcDuplicateProvider (issuer audience : String)
  | oidcTtl (name found : String)
  | oidcNoKeys (name : String)
  | oidcKeyEncoding (name kid field : String)
  | oidcKeySize (name kid : String) (bits : Nat)
  | oidcDuplicateKey (name kid : String)
  | oidcNoBindings (name : String)
  | oidcBindingIdentity (name : String)
  | oidcBindingNoClaims (name identity : String)
  | oidcBindingVerifiedClaim (name claim : String)
  | oidcDuplicateBinding (name : String)
  | oidcEntryWithoutProvider
  | oidcProviderWithoutEntry
  deriving DecidableEq, Repr

def oidcSurfaceEntry : String := "oidc_login"

/-- A size such as `64MB`, in powers of 1024, or a plain byte count. -/
def parseSize (input : String) : Except ConfigError Nat :=
  let text := Rust.trim input
  let (digits, multiplier) :=
    match Rust.stripSuffix "GB" text with
    | some rest => (rest, 1024 * 1024 * 1024)
    | none =>
        match Rust.stripSuffix "MB" text with
        | some rest => (rest, 1024 * 1024)
        | none =>
            match Rust.stripSuffix "KB" text with
            | some rest => (rest, 1024)
            | none => (text, 1)
  match Rust.parseUnsigned 64 (Rust.trim digits) with
  | some value =>
      -- `checked_mul`, and zero is not a size
      if value * multiplier < 2 ^ 64 && 0 < value * multiplier then .ok (value * multiplier)
      else .error (.size input)
  | none => .error (.size input)

namespace Config

/-- The check of one stanza's rotation size. -/
def checkSize : AuditConfig → Except ConfigError Unit
  | .file _ (some size) => do
      let _ ← parseSize size
      .ok ()
  | _ => .ok ()

def validate (config : Config) : Except ConfigError Unit :=
  if config.audit.isEmpty then .error .noAuditDevice
  else if !config.audit.any (· == .sqlite) then .error .noStoreAuditDevice
  else do
    config.audit.forM checkSize
    let entryNamed := config.surface.any (·.entry == oidcSurfaceEntry)
    if entryNamed && config.oidc.isEmpty then .error .oidcEntryWithoutProvider
    else if !entryNamed && !config.oidc.isEmpty then .error .oidcProviderWithoutEntry
    else .ok ()

/-- The rotation size of the first file stanza, for all of them. -/
def fileRotateBytes (config : Config) : Except ConfigError (Option Nat) :=
  go config.audit
where
  go : List AuditConfig → Except ConfigError (Option Nat)
    | [] => .ok none
    | .file _ none :: _ => .ok none
    | .file _ (some size) :: _ => (parseSize size).map some
    | .sqlite :: rest => go rest

theorem sqlite_mem_of_validate {config : Config} (h : config.validate = .ok ()) :
    .sqlite ∈ config.audit := by
  unfold validate at h
  split at h
  · cases h
  · split at h
    · cases h
    · rename_i hany
      simpa using hany

end Config

end Ciphr
