import Ciphr.ServerFederation
import Ciphr.ServerHandlers

/-!
What an accepted ID token has shown, and what a login makes of it. Which key signed which message is for
the libraries of the federation to say.
-/

namespace Ciphr.Oidc

variable {libraries : Libraries} {federation : Federation} {presented : String} {nowMs : Int}
  {accepted : Accepted} {provider : Provider} {payload : Claims} {configs : List ProviderConfig}

/-! ### Texts -/

/-- A text of three parts: two objects and a signature, and what is signed is the first two parts as they
were presented. -/
def Jws.ReadFrom (libraries : Libraries) (presented : String) (jws : Jws) : Prop :=
  ∃ header payload signature : String,
    Rust.splitChar '.' presented = [header, payload, signature] ∧
      presented = header ++ "." ++ payload ++ "." ++ signature ∧
      jws.signed = header ++ "." ++ payload ∧
      (∃ bytes, Base64url.decode header = .ok bytes ∧ libraries.fromSlice bytes = some jws.header) ∧
      (∃ bytes, Base64url.decode payload = .ok bytes ∧ libraries.fromSlice bytes = some jws.payload) ∧
      Base64url.decode signature = .ok jws.signature

theorem jsonObject_eq_some {part : String} {claims : Claims} (h : jsonObject libraries part = some claims) :
    ∃ bytes, Base64url.decode part = .ok bytes ∧ libraries.fromSlice bytes = some claims := by
  unfold jsonObject at h
  split at h
  · rename_i bytes hbytes
    exact ⟨bytes, hbytes, h⟩
  · cases h

theorem splitAtBytes_signed {header payload signature : String}
    (h : Rust.splitChar '.' presented = [header, payload, signature]) :
    Rust.splitAtBytes presented.toList (header.utf8ByteSize + 1 + payload.utf8ByteSize) =
      some ((header ++ "." ++ payload).toList, '.' :: signature.toList) := by
  have hchars : presented.toList =
      (header ++ "." ++ payload).toList ++ '.' :: signature.toList := by
    rw [Rust.splitChar_three h]
    simp
  have hsize : (String.ofList (header ++ "." ++ payload).toList).utf8ByteSize =
      header.utf8ByteSize + 1 + payload.utf8ByteSize := by
    rw [String.ofList_toList, String.utf8ByteSize_append, String.utf8ByteSize_append]
    rfl
  rw [hchars, ← hsize]
  exact Rust.splitAtBytes_append _ _

theorem split_readFrom {jws : Jws} (h : split libraries presented = some jws) :
    jws.ReadFrom libraries presented := by
  unfold split at h
  split at h
  · rename_i header payload signature hparts
    simp only [splitAtBytes_signed hparts, Option.bind_eq_bind, Option.bind_some,
      Option.bind_eq_some_iff] at h
    obtain ⟨headerClaims, hheader, payloadClaims, hpayload, h⟩ := h
    split at h
    · rename_i bytes hsignature
      cases h
      have hpresented : presented = header ++ "." ++ payload ++ "." ++ signature := by
        apply String.toList_inj.mp
        rw [Rust.splitChar_three hparts]
        simp
      exact ⟨header, payload, signature, hparts, hpresented, String.ofList_toList,
        jsonObject_eq_some hheader, jsonObject_eq_some hpayload, hsignature⟩
    · cases h
  · cases h

/-! ### Claims -/

theorem stringClaim_eq_some {claims : Claims} {name text : String} :
    stringClaim claims name = some text ↔ claims.get name = some (.string text) := by
  unfold stringClaim
  rw [Option.bind_eq_some_iff]
  constructor
  · rintro ⟨value, hvalue, htext⟩
    cases value with
    | string found =>
        cases htext
        exact hvalue
    | null => cases htext
    | bool b => cases htext
    | number n => cases htext
    | array values => cases htext
    | object members => cases htext
  · intro h
    exact ⟨_, h, rfl⟩

/-- All claims of the binding are in the payload, with the values that it asks for. -/
def Binding.Agrees (payload : Claims) (binding : Binding) : Prop :=
  ∀ claim ∈ binding.claims.entries, payload.get claim.1 = some (.string claim.2)

theorem Binding.matches_iff (binding : Binding) :
    binding.matches payload = true ↔ binding.Agrees payload := by
  unfold Binding.matches Binding.Agrees
  simp only [List.all_eq_true, beq_iff_eq, stringClaim_eq_some]

/-- A time claim that can be read is a whole number of seconds. -/
theorem secondsClaim_eq_some {claims : Claims} {name : String} {millis : Int} :
    secondsClaim claims name = some millis ↔
      ∃ number seconds, claims.get name = some (.number number) ∧ number.asI64 = some seconds ∧
        Rust.checkedMul seconds 1000 = some millis := by
  unfold secondsClaim
  simp only [Option.bind_eq_some_iff]
  constructor
  · rintro ⟨seconds, ⟨value, hvalue, hseconds⟩, hmillis⟩
    cases value with
    | number number => exact ⟨number, seconds, hvalue, hseconds, hmillis⟩
    | null => cases hseconds
    | bool b => cases hseconds
    | string text => cases hseconds
    | array values => cases hseconds
    | object members => cases hseconds
  · rintro ⟨number, seconds, hvalue, hseconds, hmillis⟩
    exact ⟨seconds, ⟨.number number, hvalue, hseconds⟩, hmillis⟩

theorem checkedMul_eq_some {a b value : Int} :
    Rust.checkedMul a b = some value ↔ value = a * b ∧ Rust.i64Min ≤ value ∧ value ≤ Rust.i64Max := by
  unfold Rust.checkedMul
  by_cases hfits : Rust.i64Min ≤ a * b ∧ a * b ≤ Rust.i64Max
  · rw [if_pos hfits, Option.some.injEq]
    constructor
    · rintro rfl
      exact ⟨rfl, hfits⟩
    · rintro ⟨rfl, -⟩
      rfl
  · rw [if_neg hfits]
    refine iff_of_false nofun ?_
    rintro ⟨rfl, hrange⟩
    exact hfits hrange

theorem audienceMatches_iff {claims : Claims} {expected : String} :
    audienceMatches claims expected = true ↔ claims.get "aud" = some (.string expected) ∨
      ∃ many, claims.get "aud" = some (.array many) ∧ .string expected ∈ many := by
  have hstr : ∀ value : Json, value.asStr = some expected ↔ value = .string expected := by
    intro value
    cases value <;> simp [Json.asStr]
  unfold audienceMatches
  split
  · rename_i one hone
    rw [hone]
    simp
  · rename_i many hmany
    rw [hmany, List.any_eq_true]
    simp [hstr]
  · rename_i hstring harray
    refine iff_of_false nofun ?_
    rintro (hone | ⟨many, hmany, -⟩)
    · exact hstring _ hone
    · exact harray _ hmany

/-! ### What is accepted -/

/-- A provider has vouched for the claims, and they admit their bearer to one of its bindings. -/
structure Grounds (libraries : Libraries) (provider : Provider) (jws : Jws) (nowMs : Int)
    (accepted : Accepted) : Prop where
  issuer : jws.payload.get "iss" = some (.string provider.issuer)
  key : ∃ key ∈ provider.keys, jws.header.get "alg" = some (.string key.algorithm) ∧
    (∀ kid, jws.header.get "kid" = some (.string kid) → key.kid = kid) ∧
    key.verifies libraries (utf8 jws.signed) jws.signature = true
  expiry : ∃ number seconds, jws.payload.get "exp" = some (.number number) ∧
    number.asI64 = some seconds ∧ nowMs - provider.skewMs ≤ seconds * 1000
  audience : jws.payload.get "aud" = some (.string provider.audience) ∨
    ∃ many, jws.payload.get "aud" = some (.array many) ∧ .string provider.audience ∈ many
  subject : jws.payload.get "sub" = some (.string accepted.subject)
  binding : ∃ front binding rest, provider.bindings = front ++ binding :: rest ∧
    binding.Agrees jws.payload ∧ (∀ other ∈ front ++ rest, ¬ other.Agrees jws.payload) ∧
    accepted.identity = binding.identity
  lifetime : accepted.ttlMs = provider.ttlMs
  name : accepted.provider = provider.name

theorem filter_eq_singleton {bindings : List Binding} {binding : Binding}
    (h : bindings.filter (Binding.matches payload) = [binding]) :
    ∃ front rest, bindings = front ++ binding :: rest ∧ binding.Agrees payload ∧
      ∀ other ∈ front ++ rest, ¬ other.Agrees payload := by
  obtain ⟨front, rest, hsplit, hfront, hmatches, hrest⟩ := List.filter_eq_cons_iff.mp h
  rw [List.filter_eq_nil_iff] at hrest
  refine ⟨front, rest, hsplit, (Binding.matches_iff _).mp hmatches, ?_⟩
  intro other hmem hagrees
  rw [← Binding.matches_iff] at hagrees
  rcases List.mem_append.mp hmem with hbefore | hbehind
  · exact hfront other hbefore hagrees
  · exact hrest other hbehind hagrees

theorem Provider.vouches_iff {jws : Jws} :
    provider.vouches libraries jws = true ↔
      jws.payload.get "iss" = some (.string provider.issuer) ∧
        ∃ key ∈ provider.keys, jws.header.get "alg" = some (.string key.algorithm) ∧
          (∀ kid, jws.header.get "kid" = some (.string kid) → key.kid = kid) ∧
          key.verifies libraries (utf8 jws.signed) jws.signature = true := by
  unfold Provider.vouches Provider.candidates
  simp only [Bool.and_eq_true, beq_iff_eq, stringClaim_eq_some, Option.any_eq_true, List.any_eq_true,
    List.mem_filter, Option.all_eq_true]
  refine and_congr_right fun _ => ?_
  constructor
  · rintro ⟨algorithm, halg, key, ⟨⟨hmem, hkid⟩, rfl⟩, hverifies⟩
    exact ⟨key, hmem, halg, hkid, hverifies⟩
  · rintro ⟨key, hmem, halg, hkid, hverifies⟩
    exact ⟨_, halg, key, ⟨⟨hmem, hkid⟩, rfl⟩, hverifies⟩

theorem Provider.grounds {jws : Jws} (hskew : 0 ≤ provider.skewMs)
    (hvouches : provider.vouches libraries jws = true)
    (hexamine : provider.examine jws.payload nowMs = .accepted accepted) :
    Grounds libraries provider jws nowMs accepted := by
  obtain ⟨subject, binding, hadmits, rfl⟩ := Provider.examine_eq_accepted hexamine
  obtain ⟨hissuer, hkey⟩ := Provider.vouches_iff.mp hvouches
  obtain ⟨expiry, hexp, hnow⟩ := hadmits.expiry
  obtain ⟨number, seconds, hnumber, hseconds, hmillis⟩ := secondsClaim_eq_some.mp hexp
  obtain ⟨rfl, hmin, -⟩ := checkedMul_eq_some.mp hmillis
  have hsum : Rust.saturatingAdd (seconds * 1000) provider.skewMs ≤ seconds * 1000 + provider.skewMs :=
    Rust.saturate_le (by omega) (le_refl _)
  obtain ⟨front, rest, hsplit, hagrees, hothers⟩ := filter_eq_singleton hadmits.binding
  exact {
    issuer := hissuer
    key := hkey
    expiry := ⟨number, seconds, hnumber, hseconds, by omega⟩
    audience := audienceMatches_iff.mp hadmits.audience
    subject := stringClaim_eq_some.mp hadmits.subject
    binding := ⟨front, binding, rest, hsplit, hagrees, hothers, rfl⟩
    lifetime := rfl
    name := rfl }

/-! ### Resolved providers -/

theorem parseDurationMillis_pos {input : String} {millis : Int}
    (h : parseDurationMillis input = some millis) : 0 < millis := by
  have hproduct : ∀ (digits : String) (unit : Int), 0 < unit →
      (((Rust.parseI64 digits).filter (0 < ·)).bind fun value => Rust.checkedMul value unit) = some millis →
      0 < millis := by
    intro digits unit hunit h
    obtain ⟨value, hvalue, hmillis⟩ := Option.bind_eq_some_iff.mp h
    obtain ⟨rfl, -⟩ := checkedMul_eq_some.mp hmillis
    have hpos : 0 < value := of_decide_eq_true (Option.filter_eq_some_iff.mp hvalue).2
    exact Int.mul_pos hpos hunit
  unfold parseDurationMillis at h
  obtain ⟨last, -, h⟩ := Option.bind_eq_some_iff.mp h
  dsimp only at h
  split at h
  · rw [Option.bind_eq_bind, Option.bind_some] at h
    exact hproduct _ _ (by omega) h
  · rw [Option.bind_eq_bind, Option.bind_some] at h
    exact hproduct _ _ (by omega) h
  · rw [Option.bind_eq_bind, Option.bind_some] at h
    exact hproduct _ _ (by omega) h
  · rw [Option.bind_eq_bind, Option.bind_some] at h
    exact hproduct _ _ (by omega) h
  · cases h

/-- The tolerance of a provider that a stanza resolves to is not negative, and its lifetime is a
positive one. -/
theorem resolveStanza_times {config : ProviderConfig} (h : resolveStanza config = .ok provider) :
    0 ≤ provider.skewMs ∧ 0 < provider.ttlMs := by
  unfold resolveStanza at h
  dsimp only at h
  split at h
  · rename_i millis hmillis
    obtain ⟨ttlMs, httl, h⟩ := Loop.bind_eq_ok h
    obtain ⟨keys, -, h⟩ := Loop.bind_eq_ok h
    obtain ⟨bindings, -, h⟩ := Loop.bind_eq_ok h
    cases httl
    cases h
    have hskew : (0 : Int) ≤ config.skewSeconds.toNat * 1000 := by omega
    exact ⟨hskew, parseDurationMillis_pos hmillis⟩
  · obtain ⟨_, httl, -⟩ := Loop.bind_eq_ok h
    cases httl

theorem Federation.times (h : Federation.resolve configs = .ok federation)
    (hmem : provider ∈ federation.providers) : 0 ≤ provider.skewMs ∧ 0 < provider.ttlMs := by
  obtain ⟨config, -, hresolved⟩ := Federation.exists_stanza h hmem
  exact resolveStanza_times (resolveProvider_eq_ok.mp hresolved).2.2

/-- Whatever a federation accepts is a text of three parts, which one of its providers vouches for. -/
theorem Federation.grounds (h : Federation.resolve configs = .ok federation)
    (haccepted : federation.exchange libraries presented nowMs = .accepted accepted) :
    ∃ jws, jws.ReadFrom libraries presented ∧
      ∃ provider ∈ federation.providers, Grounds libraries provider jws nowMs accepted := by
  obtain ⟨-, jws, hsplit, provider, hfind, hexamine⟩ := Federation.exchange_eq_accepted.mp haccepted
  have hmem : provider ∈ federation.providers := List.mem_of_find?_eq_some hfind
  refine ⟨jws, split_readFrom hsplit, provider, hmem, ?_⟩
  exact Provider.grounds (Federation.times h hmem).1 (List.find?_some hfind) hexamine

/-! ### Not before -/

/-- The payload says from when on it holds, and not in a way that can be read as a time. -/
def Claims.UnreadNotBefore (payload : Claims) : Prop :=
  payload.get "nbf" ≠ none ∧ secondsClaim payload "nbf" = none

/-- Whatever is accepted, a time from which on it holds is one that was read, and has come but for the
tolerance of the provider. -/
def NotBeforeEnforced (libraries : Libraries) (federation : Federation) (presented : String)
    (nowMs : Int) : Prop :=
  ∀ accepted jws provider, federation.exchange libraries presented nowMs = .accepted accepted →
    split libraries presented = some jws →
    federation.providers.find? (Provider.vouches libraries jws) = some provider →
    jws.payload.get "nbf" ≠ none →
    ∃ notBefore, secondsClaim jws.payload "nbf" = some notBefore ∧ notBefore ≤ nowMs + provider.skewMs

/-- The first provider that vouches for the token would admit it without a look at the time from which on
it holds, and there is one that cannot be read. -/
def AdmitsUnread (libraries : Libraries) (federation : Federation) (presented : String) (nowMs : Int) :
    Prop :=
  presented.utf8ByteSize ≤ maxIdTokenLen ∧ ∃ jws provider subject binding,
    split libraries presented = some jws ∧
      federation.providers.find? (Provider.vouches libraries jws) = some provider ∧
      jws.payload.UnreadNotBefore ∧ provider.Admits jws.payload nowMs subject binding

theorem Provider.Admits.notBefore_le {subject : String} {binding : Binding} {notBefore : Int}
    (h : provider.Admits payload nowMs subject binding) (hskew : 0 ≤ provider.skewMs)
    (hclaim : secondsClaim payload "nbf" = some notBefore) : notBefore ≤ nowMs + provider.skewMs := by
  obtain ⟨_, seconds, -, -, hmillis⟩ := secondsClaim_eq_some.mp hclaim
  obtain ⟨-, -, hmax⟩ := checkedMul_eq_some.mp hmillis
  have hcome := h.notBefore notBefore hclaim
  have hsaturated : notBefore - provider.skewMs ≤ Rust.saturatingSub notBefore provider.skewMs := by
    unfold Rust.saturatingSub Rust.saturate
    omega
  omega

/-- The time from which on a token holds is enforced, unless it is there and cannot be read. -/
theorem notBeforeEnforced_iff (hresolve : Federation.resolve configs = .ok federation) :
    NotBeforeEnforced libraries federation presented nowMs ↔
      ¬ AdmitsUnread libraries federation presented nowMs := by
  constructor
  · rintro henforced ⟨hsize, jws, provider, subject, binding, hsplit, hfind, ⟨hthere, hunread⟩, hadmits⟩
    have haccepted := Federation.exchange_of_admits hsize hsplit hfind hadmits
    obtain ⟨notBefore, hread, -⟩ := henforced _ jws provider haccepted hsplit hfind hthere
    rw [hunread] at hread
    cases hread
  · intro hread accepted jws provider haccepted hsplit hfind hthere
    obtain ⟨⟨-, hsize⟩, jws', hsplit', provider', hfind', hexamine⟩ :=
      Federation.exchange_eq_accepted.mp haccepted
    rw [hsplit, Option.some.injEq] at hsplit'
    rw [← hsplit', hfind, Option.some.injEq] at hfind'
    rw [← hsplit', ← hfind'] at hexamine
    obtain ⟨subject, binding, hadmits, -⟩ := Provider.examine_eq_accepted hexamine
    cases hclaim : secondsClaim jws.payload "nbf" with
    | none =>
        exact absurd ⟨hsize, jws, provider, subject, binding, hsplit, hfind, ⟨hthere, hclaim⟩, hadmits⟩
          hread
    | some notBefore =>
        have hskew := (Federation.times hresolve (List.mem_of_find?_eq_some hfind)).1
        exact ⟨notBefore, rfl, hadmits.notBefore_le hskew hclaim⟩

end Ciphr.Oidc

namespace Ciphr

open Oidc Script

variable {u : Unicode} [ReservedPaths u] {deployment : Deployment} {headers : Headers}
  {configs : List ProviderConfig}

/-! ### Logins -/

theorem askedMillis_pos {seconds : Option UInt32} {asked : Int}
    (h : askedMillis seconds = .ok (some asked)) : 0 < asked := by
  unfold askedMillis at h
  split at h
  · cases h
  · dsimp only at h
    split at h
    · cases h
    · cases h
      omega

/-- The lifetime of a minted token is positive and not longer than the provider's. -/
theorem mintedTtl_range {accepted : Accepted} {seconds : Option UInt32} {asked : Option Int}
    (hasked : askedMillis seconds = .ok asked) (httl : 0 < accepted.ttlMs) :
    0 < mintedTtl accepted asked ∧ mintedTtl accepted asked ≤ accepted.ttlMs := by
  unfold mintedTtl
  cases asked with
  | none => exact ⟨httl, le_refl _⟩
  | some asked =>
      have hpos := askedMillis_pos hasked
      simp only [Option.map_some, Option.getD_some]
      omega

/-- A row that is written while a token is minted is for the identity of the exchange, and as long as the
minted lifetime. -/
theorem Minting.issued {accepted : Accepted} {asked : Option Int} {now : Int} {acts : List (ApiAct u)}
    {result : Except ApiError ApiResponse} (h : Minting deployment headers accepted asked now acts result)
    {identity createdBy : String} {token : Token} {expiresAt : Int} {stored : Except StoreError Unit}
    (hmem : (⟨.issueToken identity token createdBy expiresAt, stored⟩ : ApiAct u) ∈ acts) :
    identity = accepted.identity ∧ expiresAt = Rust.saturatingAdd now (mintedTtl accepted asked) := by
  cases h with
  | ungenerated => cases List.mem_singleton.mp hmem
  | unrecorded =>
      rcases List.mem_cons.mp hmem with heq | hmem
      · cases heq
      · cases List.mem_singleton.mp hmem
  | failed token error status hcorrected =>
      obtain ⟨_, _, rfl, -⟩ := hcorrected
      simp only [List.mem_cons, List.not_mem_nil, or_false] at hmem
      rcases hmem with heq | heq | heq | heq
      · cases heq
      · cases heq
      · cases heq
        exact ⟨rfl, rfl⟩
      · cases heq
  | minted token =>
      simp only [List.mem_cons, List.not_mem_nil, or_false] at hmem
      rcases hmem with heq | heq | heq
      · cases heq
      · cases heq
      · cases heq
        exact ⟨rfl, rfl⟩

/-- A login that stores a token read the clock first, had its ID token accepted at that time, and stores a
token that does not outlive the lifetime of the provider. -/
theorem oidcLogin_issued (hresolve : Federation.resolve configs = .ok deployment.federation)
    {body : Except String OidcLoginRequest} {acts : List (ApiAct u)} {result : Except ApiError ApiResponse}
    (h : Runs (oidcLogin deployment headers body : Api u ApiResponse) acts result)
    {identity createdBy : String} {token : Token} {expiresAt : Int} {stored : Except StoreError Unit}
    (hmem : (⟨.issueToken identity token createdBy expiresAt, stored⟩ : ApiAct u) ∈ acts) :
    ∃ (now : Int) (minted : List (ApiAct u)) (login : OidcLoginRequest) (accepted : Accepted),
      acts = ⟨.nowMillis, now⟩ :: minted ∧ body = .ok login ∧
      deployment.federation.exchange deployment.libraries login.idToken now = .accepted accepted ∧
      identity = accepted.identity ∧ (Rust.i64Min ≤ now → expiresAt ≤ now + accepted.ttlMs) := by
  cases runs_oidcLogin h with
  | turnedAway _ _ _ haway => cases haway.refusing _ hmem
  | misshapen => cases List.mem_singleton.mp hmem
  | unverifiable => cases List.mem_singleton.mp hmem
  | refused _ _ _ _ _ _ _ _ _ hrecorded =>
      obtain ⟨_, _, rfl, -⟩ := hrecorded
      rcases List.mem_cons.mp hmem with heq | hmem
      · cases heq
      · cases List.mem_singleton.mp hmem
  | accepted now login asked accepted hbody hasked hexchange hminted =>
      rcases List.mem_cons.mp hmem with heq | hmem
      · cases heq
      · obtain ⟨hidentity, hexpires⟩ := (runs_mintToken hminted).issued hmem
        obtain ⟨_, -, provider, hprovider, hgrounds⟩ := Federation.grounds hresolve hexchange
        have httl : 0 < accepted.ttlMs := hgrounds.lifetime ▸ (Federation.times hresolve hprovider).2
        obtain ⟨hpos, hle⟩ := mintedTtl_range hasked httl
        refine ⟨now, _, login, accepted, rfl, hbody, hexchange, hidentity, fun hnow => ?_⟩
        have hsum : now + mintedTtl accepted asked ≤ now + accepted.ttlMs := by omega
        rw [hexpires]
        exact Rust.saturate_le (by omega) hsum

/-- Whatever a resolved federation accepts is grounded in one of its providers, and a login stores a token
for nothing else, no longer than that provider grants. -/
theorem oidcLogin_sound (hresolve : Federation.resolve configs = .ok deployment.federation) :
    (∀ presented nowMs accepted,
      deployment.federation.exchange deployment.libraries presented nowMs = .accepted accepted →
      ∃ jws, jws.ReadFrom deployment.libraries presented ∧
        ∃ provider ∈ deployment.federation.providers,
          Grounds deployment.libraries provider jws nowMs accepted) ∧
    ∀ headers body (acts : List (ApiAct u)) result,
      Runs (oidcLogin deployment headers body : Api u ApiResponse) acts result →
      ∀ identity token createdBy expiresAt stored,
        (⟨.issueToken identity token createdBy expiresAt, stored⟩ : ApiAct u) ∈ acts →
        ∃ (now : Int) (minted : List (ApiAct u)) (login : OidcLoginRequest) (accepted : Accepted),
          acts = ⟨.nowMillis, now⟩ :: minted ∧ body = .ok login ∧
          deployment.federation.exchange deployment.libraries login.idToken now = .accepted accepted ∧
          identity = accepted.identity ∧ (Rust.i64Min ≤ now → expiresAt ≤ now + accepted.ttlMs) := by
  refine ⟨fun presented nowMs accepted => Federation.grounds hresolve, ?_⟩
  intro headers body acts result hruns identity token createdBy expiresAt stored hmem
  exact oidcLogin_issued hresolve hruns hmem

namespace Sample

def productionFederation : Federation :=
  ⟨[sampleProvider "production" "https://ci.test" "ciphr" "deploy"]⟩

theorem resolve_productionStanza :
    Federation.resolve [productionStanza] = .ok productionFederation := by
  decide +kernel

def federated : Deployment :=
  { Sample.deployment with federation := productionFederation, libraries := oidcLibraries }

theorem exchange_idToken : productionFederation.exchange oidcLibraries idToken 1999999990000 =
    .accepted ⟨"production", "deploy", "deploy", 900000⟩ := by
  unfold Federation.exchange
  rw [idToken_size, split_idToken]
  decide +kernel

/-- `POST /v1/auth/oidc/login` with the ID token, for five minutes. -/
def idTokenLogin : OidcLoginRequest := ⟨idToken, some 300⟩

def mintedToken : Token := ⟨⟨Vector.replicate 6 3⟩, Vector.replicate 32 5⟩

def loginActs : List (ApiAct asciiUnicode) :=
  [⟨.nowMillis, (1999999990000 : Int)⟩, ⟨.generateToken, some mintedToken⟩,
    ⟨.record (federationEntry (u := asciiUnicode) federated "production" (some "deploy")
      (.minted "deploy" mintedToken.id.asText) 200 Sample.headers.requestContext), .ok ()⟩,
    ⟨.issueToken "deploy" mintedToken "oidc:production" 2000000290000, .ok ()⟩]

theorem idTokenLogin_runs : Runs
    (oidcLogin federated Sample.headers (.ok idTokenLogin) : Api asciiUnicode ApiResponse) loginActs
    (.ok (.loggedIn ⟨mintedToken.exposeText, mintedToken.id.asText, "deploy", 2000000290000⟩)) := by
  have hexchange : federated.federation.exchange federated.libraries idTokenLogin.idToken 1999999990000 =
      .accepted ⟨"production", "deploy", "deploy", 900000⟩ := exchange_idToken
  have hasked : askedMillis idTokenLogin.ttlSeconds = .ok (some 300000) := by decide +kernel
  unfold oidcLogin
  change Runs (ask ApiCall.nowMillis .ok >>= _) _ _
  refine Runs.ask_bind rfl (Runs.ofExcept_bind hasked ?_)
  rw [hexchange]
  exact Runs.ask_bind rfl (Runs.ask_bind rfl (Runs.ask_bind rfl (.done _)))

/-- The ID token of the sample is accepted by a federation of one stanza, and is grounded there; the login
stores a token that lasts five of the fifteen minutes that the stanza grants. -/
theorem idTokenLogin_grounded :
    (∃ jws, Jws.ReadFrom oidcLibraries idToken jws ∧ ∃ provider ∈ productionFederation.providers,
      Grounds oidcLibraries provider jws 1999999990000 ⟨"production", "deploy", "deploy", 900000⟩) ∧
    ∃ (now : Int) (minted : List (ApiAct asciiUnicode)) (login : OidcLoginRequest) (accepted : Accepted),
      loginActs = ⟨.nowMillis, now⟩ :: minted ∧ (.ok idTokenLogin : Except String OidcLoginRequest) = .ok login ∧
        productionFederation.exchange oidcLibraries login.idToken now = .accepted accepted ∧
        "deploy" = accepted.identity ∧ (Rust.i64Min ≤ now → 2000000290000 ≤ now + accepted.ttlMs) := by
  obtain ⟨hexchanged, hstored⟩ :=
    @oidcLogin_sound asciiUnicode _ federated [productionStanza] resolve_productionStanza
  exact ⟨hexchanged idToken 1999999990000 _ exchange_idToken,
    hstored Sample.headers (.ok idTokenLogin) loginActs _ idTokenLogin_runs "deploy" mintedToken "oidc:production"
      2000000290000 (.ok ()) (by simp [loginActs])⟩

/-- A token of the sample's issuer, signed with the same key: its two last parts, and what they decode to. -/
structure SignedToken where
  payload : String
  signature : String
  text : String
  claims : Claims

namespace SignedToken

variable (token : SignedToken)

def presented : String := idTokenHeader ++ "." ++ token.payload ++ "." ++ token.signature

/-- The signature and the two objects of the token, and nothing else. -/
def libraries : Libraries where
  rsaPkcs1Sha256 _ _ _ _ := false
  ecdsaP256Sha256 point message signature :=
    point == 0x04 :: decoded "Nratkx1BSNsvF-2aeVmEeXcovCmD7IPY5rpudnBjxas" ++
        decoded "ogGZnaHYfqPI46-bIB1S5YBGqCWPlQyFeD1tIw4M2AA" &&
      message == utf8 (idTokenHeader ++ "." ++ token.payload) &&
      signature == decoded token.signature
  fromSlice bytes :=
    if bytes = utf8 "\x7b\"alg\":\"ES256\",\"kid\":\"k1\"\x7d" then
      some [("alg", .string "ES256"), ("kid", .string "k1")]
    else if bytes = utf8 token.text then some token.claims
    else none

def jws : Jws where
  header := [("alg", .string "ES256"), ("kid", .string "k1")]
  payload := token.claims
  signed := idTokenHeader ++ "." ++ token.payload
  signature := decoded token.signature

variable {token}

theorem split_presented (hpayload : Base64url.decode token.payload = .ok (utf8 token.text))
    (hsignature : Base64url.decode token.signature = .ok (decoded token.signature))
    (hother : utf8 token.text ≠ utf8 "\x7b\"alg\":\"ES256\",\"kid\":\"k1\"\x7d")
    (hdot : '.' ∉ token.payload.toList) (hdot' : '.' ∉ token.signature.toList) :
    split token.libraries token.presented = some token.jws := by
  have hheader : jsonObject token.libraries idTokenHeader = some token.jws.header := by
    unfold jsonObject
    rw [idTokenHeader_decoded]
    dsimp only [libraries]
    rw [if_pos rfl, jws]
  have hclaims : jsonObject token.libraries token.payload = some token.claims := by
    unfold jsonObject
    rw [hpayload]
    dsimp only [libraries]
    rw [if_neg hother, if_pos rfl]
  unfold presented
  rw [split_parts token.libraries (dot_not_mem (by decide +kernel)) hdot hdot', hheader, hclaims, hsignature]
  rfl

end SignedToken

/-- Its `nbf` is a number. -/
def datedToken : SignedToken where
  payload :=
    "eyJpc3MiOiJodHRwczovL2NpLnRlc3QiLCJhdWQiOiJjaXBociIsInN1YiI6ImRlcGxveSIsImV4cCI6MjAwMDAwMDAwMCwi" ++
      "bmJmIjoxOTk5OTk5MDAwfQ"
  signature := "vjMR4kR0Bb6MOuFc0P7vD1qDHPij__70YhVDKoj7YxlPmy5qi5RbF5YYYmhoCh2NelhzazCXNUijkPnuJZEqug"
  text := "\x7b\"iss\":\"https://ci.test\",\"aud\":\"ciphr\",\"sub\":\"deploy\",\"exp\":2000000000," ++
    "\"nbf\":1999999000\x7d"
  claims :=
    [("iss", .string "https://ci.test"), ("aud", .string "ciphr"), ("sub", .string "deploy"),
      ("exp", .number (.posInt 2000000000)), ("nbf", .number (.posInt 1999999000))]

/-- Its `nbf` is a date in text. -/
def undatedToken : SignedToken where
  payload :=
    "eyJpc3MiOiJodHRwczovL2NpLnRlc3QiLCJhdWQiOiJjaXBociIsInN1YiI6ImRlcGxveSIsImV4cCI6MjAwMDAwMDAwMCwi" ++
      "bmJmIjoiMjAzMy0wNS0xOFQwMzozMzoyMFoifQ"
  signature := "vjMR4kR0Bb6MOuFc0P7vD1qDHPij__70YhVDKoj7YxkgOftlsUU4v0D7NdhPSB6kt4TKZbzdRh5y6UUkayQ39w"
  text := "\x7b\"iss\":\"https://ci.test\",\"aud\":\"ciphr\",\"sub\":\"deploy\",\"exp\":2000000000," ++
    "\"nbf\":\"2033-05-18T03:33:20Z\"\x7d"
  claims :=
    [("iss", .string "https://ci.test"), ("aud", .string "ciphr"), ("sub", .string "deploy"),
      ("exp", .number (.posInt 2000000000)), ("nbf", .string "2033-05-18T03:33:20Z")]

theorem split_datedToken : split datedToken.libraries datedToken.presented = some datedToken.jws :=
  SignedToken.split_presented (by decide +kernel) (by decide +kernel) (by decide +kernel)
    (dot_not_mem (by decide +kernel)) (dot_not_mem (by decide +kernel))

theorem split_undatedToken : split undatedToken.libraries undatedToken.presented = some undatedToken.jws :=
  SignedToken.split_presented (by decide +kernel) (by decide +kernel) (by decide +kernel)
    (dot_not_mem (by decide +kernel)) (dot_not_mem (by decide +kernel))

/-- A token is accepted ten minutes and a half after the time that it names, which is read. -/
theorem datedToken_notBeforeEnforced :
    productionFederation.exchange datedToken.libraries datedToken.presented 1999999630000 =
        .accepted ⟨"production", "deploy", "deploy", 900000⟩ ∧
      NotBeforeEnforced datedToken.libraries productionFederation datedToken.presented 1999999630000 := by
  have hsize : (datedToken.presented.isEmpty || decide (maxIdTokenLen < datedToken.presented.utf8ByteSize)) =
      false := by
    decide +kernel
  refine ⟨?_, (notBeforeEnforced_iff resolve_productionStanza).mpr ?_⟩
  · unfold Federation.exchange
    rw [hsize, split_datedToken]
    decide +kernel
  · rintro ⟨-, jws, provider, subject, binding, hsplit, -, ⟨-, hunread⟩, -⟩
    rw [split_datedToken, Option.some.injEq] at hsplit
    have hread : secondsClaim datedToken.jws.payload "nbf" = some 1999999000000 := by decide +kernel
    rw [← hsplit, hread] at hunread
    cases hunread

/-- A token that asks not to be used before the year 2033 is accepted in 1970. -/
theorem undatedToken_not_notBeforeEnforced :
    Federation.resolve [productionStanza] = .ok productionFederation ∧
      ¬ NotBeforeEnforced undatedToken.libraries productionFederation undatedToken.presented 0 := by
  refine ⟨resolve_productionStanza, ?_⟩
  intro henforced
  have hsize : (undatedToken.presented.isEmpty ||
      decide (maxIdTokenLen < undatedToken.presented.utf8ByteSize)) = false := by
    decide +kernel
  have haccepted : productionFederation.exchange undatedToken.libraries undatedToken.presented 0 =
      .accepted ⟨"production", "deploy", "deploy", 900000⟩ := by
    unfold Federation.exchange
    rw [hsize, split_undatedToken]
    decide +kernel
  obtain ⟨-, jws, hsplit, provider, hfind, -⟩ := Federation.exchange_eq_accepted.mp haccepted
  obtain rfl : jws = undatedToken.jws := by
    rw [split_undatedToken, Option.some.injEq] at hsplit
    exact hsplit.symm
  have hsome : undatedToken.jws.payload.get "nbf" ≠ none := by decide
  obtain ⟨notBefore, hread, -⟩ := henforced _ undatedToken.jws provider haccepted hsplit hfind hsome
  have hnone : secondsClaim undatedToken.jws.payload "nbf" = none := rfl
  rw [hnone] at hread
  cases hread

end Sample

end Ciphr
