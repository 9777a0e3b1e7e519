import Ciphr.LibFold
import Ciphr.CoreBase64url
import Ciphr.CryptoEnvelope
import Ciphr.ServerConfig

/-!
`ciphr-server/src/oidc.rs`: which identity a presented ID token is exchanged for. `ring` and
`serde_json` are parameters: the first decides whether a key signed a message, the second reads a JSON
object from bytes.
-/

namespace Ciphr.Oidc

/-- A number of `serde_json`, as the parser stores it. -/
inductive Number where
  | posInt (n : UInt64)
  | negInt (n : Int64)
  | float
  deriving DecidableEq, Repr

/-- `Number::as_i64`. -/
def Number.asI64 : Number → Option Int
  | .posInt n => if (n.toNat : Int) ≤ Rust.i64Max then some n.toNat else none
  | .negInt n => some n.toInt
  | .float => none

inductive Json where
  | null
  | bool (b : Bool)
  | number (n : Number)
  | string (text : String)
  | array (values : List Json)
  | object (members : List (String × Json))

def Json.asStr : Json → Option String
  | .string text => some text
  | _ => none

def Json.asI64 : Json → Option Int
  | .number n => n.asI64
  | _ => none

/-- `serde_json::Map`, looked up by name. -/
abbrev Claims := List (String × Json)

def Claims.get (claims : Claims) (name : String) : Option Json := claims.lookup name

/-- What the module calls and does not have itself. -/
structure Libraries where
  rsaPkcs1Sha256 : (modulus exponent message signature : List UInt8) → Bool
  ecdsaP256Sha256 : (point message signature : List UInt8) → Bool
  fromSlice : List UInt8 → Option Claims

def maxIdTokenLen : Nat := 8 * 1024

def minRsaModulusLen : Nat := 256

/-- Claim names a binding may not select on. -/
def verifiedClaims : List String := ["iss", "aud", "exp", "nbf", "iat"]

/-- One signing key, decoded. -/
inductive Key where
  | rs256 (kid : String) (modulus exponent : List UInt8)
  | es256 (kid : String) (point : List UInt8)
  deriving DecidableEq, Repr

namespace Key

def kid : Key → String
  | .rs256 kid _ _ => kid
  | .es256 kid _ => kid

/-- The name of the algorithm this key is for, as it appears in a token header. -/
def algorithm : Key → String
  | .rs256 .. => "RS256"
  | .es256 .. => "ES256"

def verifies (libraries : Libraries) (message signature : List UInt8) : Key → Bool
  | .rs256 _ modulus exponent => libraries.rsaPkcs1Sha256 modulus exponent message signature
  | .es256 _ point => libraries.ecdsaP256Sha256 point message signature

end Key

/-- One claim-set-to-identity binding. -/
structure Binding where
  identity : String
  claims : ClaimMap
  deriving DecidableEq, Repr

/-- One provider, ready to verify against. -/
structure Provider where
  name : String
  issuer : String
  audience : String
  skewMs : Int
  ttlMs : Int
  keys : List Key
  bindings : List Binding
  deriving DecidableEq, Repr

structure Federation where
  providers : List Provider
  deriving DecidableEq, Repr

/-! ### Resolution -/

/-- Parse `15m`, `900s`, `1h`; a bare number is refused. -/
def parseDurationMillis (input : String) : Option Int := do
  let text := Rust.trim input
  let last ← text.toList.getLast?
  let digits := String.ofList text.toList.dropLast
  let unitMillis ← match last with
    | 'd' => some (24 * 60 * 60 * 1000)
    | 'h' => some (60 * 60 * 1000)
    | 'm' => some (60 * 1000)
    | 's' => some 1000
    | _ => none
  let value ← (Rust.parseI64 digits).filter (0 < ·)
  Rust.checkedMul value unitMillis

example : (parseDurationMillis " 15m ", parseDurationMillis "900", parseDurationMillis "0s") =
    (some 900000, none, none) := by decide +kernel

def decodeKeyField (name kid field value : String) : Except ConfigError (List UInt8) :=
  (Base64url.decode value).mapError fun _ => .oidcKeyEncoding name kid field

/-- The key of one stanza. -/
def resolveKey (name : String) : KeyConfig → Except ConfigError Key
  | .rs256 kid n e => do
      let modulus ← decodeKeyField name kid "n" n
      let exponent ← decodeKeyField name kid "e" e
      if modulus.length < minRsaModulusLen then .error (.oidcKeySize name kid (modulus.length * 8))
      else .ok (.rs256 kid modulus exponent)
  | .es256 kid x y => do
      let x ← decodeKeyField name kid "x" x
      let y ← decodeKeyField name kid "y" y
      if x.length ≠ 32 ∨ y.length ≠ 32 then
        .error (.oidcKeySize name kid (max x.length y.length * 8))
      -- the uncompressed point, which is what `ring` verifies with
      else .ok (.es256 kid (0x04 :: x ++ y))

def pushKey (name : String) (keys : List Key) (config : KeyConfig) :
    Except ConfigError (List Key) := do
  let key ← resolveKey name config
  if keys.any (·.kid == key.kid) then .error (.oidcDuplicateKey name key.kid)
  else .ok (keys ++ [key])

def resolveKeys (name : String) (configs : List KeyConfig) : Except ConfigError (List Key) :=
  if configs.isEmpty then .error (.oidcNoKeys name) else configs.foldlM (pushKey name) []

/-- The loop over the claim names of one binding stanza. -/
def checkClaimNames (name : String) : List (String × String) → Except ConfigError Unit
  | [] => .ok ()
  | (claim, _) :: rest =>
      if verifiedClaims.contains claim then .error (.oidcBindingVerifiedClaim name claim)
      else checkClaimNames name rest

def pushBinding (name : String) (bindings : List Binding) (config : BindingConfig) :
    Except ConfigError (List Binding) :=
  if (Rust.trim config.identity).isEmpty then .error (.oidcBindingIdentity name)
  else if config.claims.entries.isEmpty then .error (.oidcBindingNoClaims name config.identity)
  else do
    checkClaimNames name config.claims.entries
    if bindings.any (·.claims == config.claims) then .error (.oidcDuplicateBinding name)
    else .ok (bindings ++ [⟨config.identity, config.claims⟩])

def resolveBindings (name : String) (configs : List BindingConfig) :
    Except ConfigError (List Binding) :=
  if configs.isEmpty then .error (.oidcNoBindings name) else configs.foldlM (pushBinding name) []

/-- How many stanzas have the issuer and the audience of this one. -/
def claimants (configs : List ProviderConfig) (config : ProviderConfig) : Nat :=
  (configs.filter fun other =>
    other.issuer == config.issuer && other.audience == config.audience).length

/-- What is left of the check of a stanza that no other one disputes. -/
def resolveStanza (config : ProviderConfig) : Except ConfigError Provider := do
  let name := Rust.trim config.name
  let ttlMs ← match parseDurationMillis config.ttl with
    | some ttlMs => .ok ttlMs
    | none => .error (.oidcTtl name config.ttl)
  let keys ← resolveKeys name config.keys
  let bindings ← resolveBindings name config.bindings
  .ok ⟨name, config.issuer, config.audience, config.skewSeconds.toNat * 1000, ttlMs, keys,
    bindings⟩

/-- One turn of the loop of `resolve`. -/
def resolveProvider (configs : List ProviderConfig) (config : ProviderConfig) :
    Except ConfigError Provider :=
  let name := Rust.trim config.name
  if name.isEmpty then .error .oidcName
  else if (Rust.trim config.issuer).isEmpty then .error (.oidcIssuer name)
  else if (Rust.trim config.audience).isEmpty then .error (.oidcAudience name)
  else if 1 < claimants configs config then
    .error (.oidcDuplicateProvider config.issuer config.audience)
  else resolveStanza config

/-- Check every `[[auth.oidc]]` stanza and decode its keys. -/
def Federation.resolve (configs : List ProviderConfig) : Except ConfigError Federation := do
  let providers ← configs.mapM (resolveProvider configs)
  .ok ⟨providers⟩

/-! ### Token parsing -/

def jsonObject (libraries : Libraries) (part : String) : Option Claims :=
  match Base64url.decode part with
  | .ok bytes => libraries.fromSlice bytes
  | .error _ => none

/-- A compact JWS: its header, payload, signed input and signature. -/
structure Jws where
  header : Claims
  payload : Claims
  signed : String
  signature : List UInt8

def split (libraries : Libraries) (presented : String) : Option Jws :=
  match Rust.splitChar '.' presented with
  | [header, payload, signature] => do
      let signedLen := header.utf8ByteSize + 1 + payload.utf8ByteSize
      let signed ← Rust.splitAtBytes presented.toList signedLen
      let header ← jsonObject libraries header
      let payload ← jsonObject libraries payload
      match Base64url.decode signature with
      | .ok signature => some ⟨header, payload, String.ofList signed.1, signature⟩
      | .error _ => none
  | _ => none

/-- The parts of a compact JWS that is put together from them. -/
theorem split_parts (libraries : Libraries) {header payload signature : String}
    (hheader : '.' ∉ header.toList) (hpayload : '.' ∉ payload.toList) (hsignature : '.' ∉ signature.toList) :
    split libraries (header ++ "." ++ payload ++ "." ++ signature) =
      (jsonObject libraries header).bind fun headerObject =>
        (jsonObject libraries payload).bind fun payloadObject =>
          match Base64url.decode signature with
          | .ok signature => some ⟨headerObject, payloadObject, header ++ "." ++ payload, signature⟩
          | .error _ => none := by
  have hparts : Rust.splitChar '.' (header ++ "." ++ payload ++ "." ++ signature) =
      [header, payload, signature] := by
    have hshape : header ++ "." ++ payload ++ "." ++ signature =
        header ++ String.singleton '.' ++ (payload ++ String.singleton '.' ++ signature) := by
      have hdot : "." = String.singleton '.' := rfl
      rw [hdot]
      simp only [String.append_assoc]
    rw [hshape, Rust.splitChar_append hheader, Rust.splitChar_append hpayload,
      Rust.splitChar_of_not_mem hsignature]
  have hsigned : Rust.splitAtBytes (header ++ "." ++ payload ++ "." ++ signature).toList
      (header.utf8ByteSize + 1 + payload.utf8ByteSize) =
      some ((header ++ "." ++ payload).toList, ("." ++ signature).toList) := by
    refine Rust.splitAtBytes_eq_some.mpr ⟨?_, ?_⟩
    · rw [← String.toList_append, String.append_assoc]
    · rw [String.ofList_toList, String.utf8ByteSize_append, String.utf8ByteSize_append]
      rfl
  unfold split
  rw [hparts]
  dsimp only
  rw [hsigned]
  cases jsonObject libraries header with
  | none => rfl
  | some headerObject =>
      cases jsonObject libraries payload with
      | none => rfl
      | some payloadObject =>
          cases Base64url.decode signature with
          | error error => rfl
          | ok bytes =>
              exact congrArg (fun signed => some (Jws.mk headerObject payloadObject signed bytes))
                String.ofList_toList

def stringClaim (claims : Claims) (name : String) : Option String :=
  (claims.get name).bind Json.asStr

/-- A time claim, in seconds, as milliseconds. -/
def secondsClaim (claims : Claims) (name : String) : Option Int :=
  ((claims.get name).bind Json.asI64).bind (Rust.checkedMul · 1000)

/-- Whether `aud`, a string or an array of strings, contains the configured audience. -/
def audienceMatches (claims : Claims) (expected : String) : Bool :=
  match claims.get "aud" with
  | some (.string one) => one == expected
  | some (.array many) => (many.filterMap Json.asStr).any (· == expected)
  | _ => false

def Binding.matches (payload : Claims) (binding : Binding) : Bool :=
  binding.claims.entries.all fun claim => stringClaim payload claim.1 == some claim.2

/-! ### The exchange -/

/-- Why a presented token was not verifiable, and therefore not recorded. -/
inductive Unverifiable where
  | malformed
  | unknownIssuer
  | unknownKey
  | signature
  deriving DecidableEq, Repr

/-- Why a verified token was refused. -/
inductive Refusal where
  | missingSubject
  | missingExpiry
  | expired
  | notYetValid
  | audience
  | noBinding
  | ambiguousBinding
  deriving DecidableEq, Repr

/-- The label the audit entry carries as its deny reason. -/
def Refusal.asStr : Refusal → String
  | .missingSubject => "missing-subject"
  | .missingExpiry => "missing-expiry"
  | .expired => "expired"
  | .notYetValid => "not-yet-valid"
  | .audience => "audience-mismatch"
  | .noBinding => "no-binding"
  | .ambiguousBinding => "ambiguous-binding"

/-- A verified exchange: which identity, for how long, on whose word. -/
structure Accepted where
  provider : String
  subject : String
  identity : String
  ttlMs : Int
  deriving DecidableEq, Repr

inductive Exchange where
  | unverifiable (reason : Unverifiable)
  | refused (provider : String) (subject : Option String) (reason : Refusal)
  | accepted (accepted : Accepted)
  deriving DecidableEq, Repr

/-- The keys of a provider that the token's header leaves. -/
def Provider.candidates (provider : Provider) (kid : Option String) (algorithm : String) :
    List Key :=
  (provider.keys.filter fun key => kid.all (key.kid == ·)).filter (·.algorithm == algorithm)

/-- What the two loops of `exchange` carry. -/
structure Search where
  sawIssuer : Bool
  sawCandidateKey : Bool
  verified : Option Provider

section Search

variable (libraries : Libraries) (kid : Option String) (algorithm : String)
  (message signature : List UInt8)

def searchKeys (provider : Provider) : List Key → Search → Search
  | [], search => search
  | key :: keys, search =>
      let search := { search with sawCandidateKey := true }
      if key.verifies libraries message signature then { search with verified := some provider }
      else searchKeys provider keys search

def searchProviders : List Provider → Search → Search
  | [], search => search
  | provider :: providers, search =>
      let search := searchKeys libraries message signature provider
        (provider.candidates kid algorithm) { search with sawIssuer := true }
      if search.verified.isSome then search else searchProviders providers search

end Search

def Provider.refuse (provider : Provider) (subject : Option String) (reason : Refusal) : Exchange :=
  .refused provider.name subject reason

/-- The half of `exchange` that is recorded: a provider has signed for the claims. -/
def Provider.examine (provider : Provider) (payload : Claims) (nowMs : Int) : Exchange :=
  let subject := stringClaim payload "sub"
  match secondsClaim payload "exp" with
  | none => provider.refuse subject .missingExpiry
  | some expiry =>
      if Rust.saturatingAdd expiry provider.skewMs < nowMs then provider.refuse subject .expired
      else if (secondsClaim payload "nbf").any fun notBefore =>
          nowMs < Rust.saturatingSub notBefore provider.skewMs then
        provider.refuse subject .notYetValid
      else if !audienceMatches payload provider.audience then provider.refuse subject .audience
      else match subject with
        | none => provider.refuse none .missingSubject
        | some subject =>
            match provider.bindings.filter (Binding.matches payload) with
            | [] => provider.refuse (some subject) .noBinding
            | [binding] =>
                .accepted ⟨provider.name, subject, binding.identity, provider.ttlMs⟩
            -- two bindings matching one token is a refusal, not a choice
            | _ :: _ :: _ => provider.refuse (some subject) .ambiguousBinding

/-- Examine a presented ID token. -/
def Federation.exchange (libraries : Libraries) (federation : Federation) (presented : String)
    (nowMs : Int) : Exchange :=
  if presented.isEmpty || maxIdTokenLen < presented.utf8ByteSize then .unverifiable .malformed
  else match split libraries presented with
    | none => .unverifiable .malformed
    | some jws =>
        match stringClaim jws.header "alg" with
        | none => .unverifiable .malformed
        | some algorithm =>
            match stringClaim jws.payload "iss" with
            | none => .unverifiable .malformed
            | some issuer =>
                let search := searchProviders libraries (stringClaim jws.header "kid") algorithm
                  (utf8 jws.signed) jws.signature
                  (federation.providers.filter (·.issuer == issuer)) ⟨false, false, none⟩
                match search.verified with
                | some provider => provider.examine jws.payload nowMs
                | none =>
                    .unverifiable (if search.sawCandidateKey then .signature
                      else if search.sawIssuer then .unknownKey else .unknownIssuer)

end Ciphr.Oidc

namespace Ciphr.Sample

open Oidc

def idTokenHeader : String := "eyJhbGciOiJFUzI1NiIsImtpZCI6ImsxIn0"

def idTokenPayload : String :=
  "eyJpc3MiOiJodHRwczovL2NpLnRlc3QiLCJhdWQiOiJjaXBociIsInN1YiI6ImRlcGxveSIsImV4cCI6MjAwMDAwMDAwMH0"

def idTokenSignature : String :=
  "vjMR4kR0Bb6MOuFc0P7vD1qDHPij__70YhVDKoj7Yxkt9GriCqRmTZlcZVWXieHUNrB7kVegDLmz0pY8ySm3NA"

/-- An ES256 token of `https://ci.test` for the audience `ciphr`, signed with the key of `signingKey`. -/
def idToken : String := idTokenHeader ++ "." ++ idTokenPayload ++ "." ++ idTokenSignature

def signingKey : KeyConfig :=
  .es256 "k1" "Nratkx1BSNsvF-2aeVmEeXcovCmD7IPY5rpudnBjxas"
    "ogGZnaHYfqPI46-bIB1S5YBGqCWPlQyFeD1tIw4M2AA"

def decoded (text : String) : List UInt8 := ((Base64url.decode text).toOption).getD []

/-- The signature and the two objects of `idToken`, and nothing else. -/
def oidcLibraries : Libraries where
  rsaPkcs1Sha256 _ _ _ _ := false
  ecdsaP256Sha256 point message signature :=
    point == 0x04 :: decoded "Nratkx1BSNsvF-2aeVmEeXcovCmD7IPY5rpudnBjxas" ++
        decoded "ogGZnaHYfqPI46-bIB1S5YBGqCWPlQyFeD1tIw4M2AA" &&
      message == utf8 (idTokenHeader ++ "." ++ idTokenPayload) &&
      signature == decoded idTokenSignature
  fromSlice bytes :=
    if bytes = utf8 "\x7b\"alg\":\"ES256\",\"kid\":\"k1\"\x7d" then
      some [("alg", .string "ES256"), ("kid", .string "k1")]
    else if bytes = utf8 ("\x7b\"iss\":\"https://ci.test\",\"aud\":\"ciphr\"," ++
        "\"sub\":\"deploy\",\"exp\":2000000000\x7d") then
      some [("iss", .string "https://ci.test"), ("aud", .string "ciphr"),
        ("sub", .string "deploy"), ("exp", .number (.posInt 2000000000))]
    else none

theorem dot_not_mem {text : String} (h : 0x2e ∉ text.toUTF8.data.toList) : '.' ∉ text.toList :=
  fun hmem => h (Rust.mem_utf8_of_mem hmem (by decide))

theorem idTokenHeader_decoded : Base64url.decode idTokenHeader =
    .ok (utf8 "\x7b\"alg\":\"ES256\",\"kid\":\"k1\"\x7d") := by
  decide +kernel

/-- The two objects of `idToken`, what is signed of it, and the signature. -/
def idTokenJws : Jws where
  header := [("alg", .string "ES256"), ("kid", .string "k1")]
  payload := [("iss", .string "https://ci.test"), ("aud", .string "ciphr"), ("sub", .string "deploy"),
    ("exp", .number (.posInt 2000000000))]
  signed := idTokenHeader ++ "." ++ idTokenPayload
  signature := decoded idTokenSignature

theorem split_idToken : split oidcLibraries idToken = some idTokenJws := by
  have hheader : jsonObject oidcLibraries idTokenHeader = some idTokenJws.header := by
    unfold jsonObject
    rw [idTokenHeader_decoded]
    dsimp only [oidcLibraries]
    rw [if_pos rfl, idTokenJws]
  have hpayload : jsonObject oidcLibraries idTokenPayload = some idTokenJws.payload := by
    have hdecoded : Base64url.decode idTokenPayload = .ok (utf8
        ("\x7b\"iss\":\"https://ci.test\",\"aud\":\"ciphr\"," ++
          "\"sub\":\"deploy\",\"exp\":2000000000\x7d")) := by
      decide +kernel
    unfold jsonObject
    have hnot : ¬(utf8 ("\x7b\"iss\":\"https://ci.test\",\"aud\":\"ciphr\"," ++
        "\"sub\":\"deploy\",\"exp\":2000000000\x7d") = utf8 "\x7b\"alg\":\"ES256\",\"kid\":\"k1\"\x7d") := by
      decide +kernel
    rw [hdecoded]
    dsimp only [oidcLibraries]
    rw [if_neg hnot, if_pos rfl, idTokenJws]
  have hsignature : Base64url.decode idTokenSignature = .ok (decoded idTokenSignature) := by decide +kernel
  unfold idToken
  rw [split_parts oidcLibraries (dot_not_mem (by decide +kernel)) (dot_not_mem (by decide +kernel))
    (dot_not_mem (by decide +kernel)), hheader, hpayload, hsignature]
  exact rfl

/-- A stanza that binds `sub = deploy`. -/
def stanza (name issuer audience identity : String) : ProviderConfig :=
  { name := name, issuer := issuer, audience := audience, keys := [signingKey],
    bindings := [⟨identity, ⟨[("sub", "deploy")], by simp⟩⟩] }

def stagingStanza : ProviderConfig :=
  stanza "staging" "https://ci.test" "ciphr-staging" "staging-deploy"

def productionStanza : ProviderConfig := stanza "production" "https://ci.test" "ciphr" "deploy"

def otherStanza : ProviderConfig :=
  stanza "other" "https://other.test" "ciphr" "other-deploy"

end Ciphr.Sample
