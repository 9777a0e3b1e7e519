import Mathlib.Data.List.Perm.Basic
import Ciphr.ServerOidc

/-!
Which provider of a federation answers for a token. The provider is the first one of the token's
issuer with a key that verifies the signature, and only that one is asked for the audience, the times
and the binding; two stanzas of one issuer may have one key and different audiences.
-/

namespace Ciphr.Oidc

/-- The token's issuer is this provider's, and one of its keys that the header leaves verifies the
signature. -/
def Provider.vouches (libraries : Libraries) (jws : Jws) (provider : Provider) : Bool :=
  stringClaim jws.payload "iss" == some provider.issuer &&
    (stringClaim jws.header "alg").any fun algorithm =>
      (provider.candidates (stringClaim jws.header "kid") algorithm).any
        (·.verifies libraries (utf8 jws.signed) jws.signature)

/-- What a provider that has vouched for a payload asks of it. -/
structure Provider.Admits (provider : Provider) (payload : Claims) (nowMs : Int) (subject : String)
    (binding : Binding) : Prop where
  expiry : ∃ expiry, secondsClaim payload "exp" = some expiry ∧
    nowMs ≤ Rust.saturatingAdd expiry provider.skewMs
  notBefore : ∀ notBefore, secondsClaim payload "nbf" = some notBefore →
    Rust.saturatingSub notBefore provider.skewMs ≤ nowMs
  audience : audienceMatches payload provider.audience = true
  subject : stringClaim payload "sub" = some subject
  binding : provider.bindings.filter (Binding.matches payload) = [binding]

section Examine

variable {provider : Provider} {payload : Claims} {nowMs : Int}

theorem Provider.Admits.examine {subject : String} {binding : Binding}
    (h : provider.Admits payload nowMs subject binding) :
    provider.examine payload nowMs =
      .accepted ⟨provider.name, subject, binding.identity, provider.ttlMs⟩ := by
  obtain ⟨expiry, hexp, hnow⟩ := h.expiry
  have hnbf : ((secondsClaim payload "nbf").any fun notBefore =>
      decide (nowMs < Rust.saturatingSub notBefore provider.skewMs)) = false := by
    cases hclaim : secondsClaim payload "nbf" with
    | none => rfl
    | some notBefore => simpa using h.notBefore notBefore hclaim
  unfold Provider.examine
  simp only [hexp, if_neg (not_lt.mpr hnow), hnbf, h.audience, h.subject, h.binding]
  rfl

theorem Provider.examine_eq_accepted {accepted : Accepted}
    (h : provider.examine payload nowMs = .accepted accepted) :
    ∃ subject binding, provider.Admits payload nowMs subject binding ∧
      accepted = ⟨provider.name, subject, binding.identity, provider.ttlMs⟩ := by
  unfold Provider.examine at h
  simp only at h
  split at h
  · cases h
  · rename_i expiry hexp
    split at h
    · cases h
    · rename_i hnow
      split at h
      · cases h
      · rename_i hnbf
        split at h
        · cases h
        · rename_i haud
          split at h
          · cases h
          · rename_i subject hsub
            split at h
            · cases h
            · rename_i binding hbinding
              cases h
              refine ⟨subject, binding, ⟨⟨expiry, hexp, not_lt.mp hnow⟩, ?_, by simpa using haud,
                hsub, hbinding⟩, rfl⟩
              intro notBefore hclaim
              rw [hclaim] at hnbf
              simpa using hnbf
            · cases h

end Examine

section Exchange

variable {libraries : Libraries} {kid : Option String} {algorithm : String}
  {message signature : List UInt8}

variable (libraries message signature) in
theorem searchKeys_verified (provider : Provider) (keys : List Key) (search : Search) :
    (searchKeys libraries message signature provider keys search).verified =
      if keys.any (·.verifies libraries message signature) then some provider
      else search.verified := by
  induction keys generalizing search with
  | nil => rfl
  | cons key keys ih =>
      rw [searchKeys, List.any_cons]
      by_cases hkey : key.verifies libraries message signature = true
      · simp [hkey]
      · simp [hkey, ih]

/-- The search ends at the first provider with a key that verifies. -/
theorem searchProviders_verified (providers : List Provider) (search : Search)
    (hnone : search.verified = none) :
    (searchProviders libraries kid algorithm message signature providers search).verified =
      providers.find? fun provider =>
        (provider.candidates kid algorithm).any (·.verifies libraries message signature) := by
  induction providers generalizing search with
  | nil => exact hnone
  | cons provider providers ih =>
      have hkeys := searchKeys_verified libraries message signature provider
        (provider.candidates kid algorithm) { search with sawIssuer := true }
      rw [searchProviders, List.find?_cons]
      cases hany : (provider.candidates kid algorithm).any
          (·.verifies libraries message signature) with
      | true =>
          rw [hany, if_pos rfl] at hkeys
          simp only [hkeys, Option.isSome_some, if_true]
      | false =>
          rw [hany, if_neg (by simp)] at hkeys
          have hstill := hkeys.trans hnone
          dsimp only
          rw [if_neg (by rw [hstill]; simp)]
          exact ih _ hstill

variable (libraries) in
/-- The provider that the two loops find. -/
theorem searchProviders_eq_find (jws : Jws) {issuer : String} (federation : Federation)
    (halg : stringClaim jws.header "alg" = some algorithm)
    (hiss : stringClaim jws.payload "iss" = some issuer) :
    (searchProviders libraries (stringClaim jws.header "kid") algorithm (utf8 jws.signed)
      jws.signature (federation.providers.filter (·.issuer == issuer))
      ⟨false, false, none⟩).verified =
      federation.providers.find? (Provider.vouches libraries jws) := by
  rw [searchProviders_verified _ _ rfl, List.find?_filter]
  congr 1
  funext provider
  rw [Provider.vouches, halg, hiss]
  by_cases hissuer : provider.issuer = issuer
  · simp [hissuer, -List.any_eq_true]
  · simp [hissuer, Ne.symm hissuer]

theorem find_vouches_eq_none {jws : Jws} (providers : List Provider)
    (h : stringClaim jws.header "alg" = none ∨ stringClaim jws.payload "iss" = none) :
    providers.find? (Provider.vouches libraries jws) = none := by
  rw [List.find?_eq_none]
  intro provider _
  rcases h with halg | hiss
  · simp [Provider.vouches, halg]
  · simp [Provider.vouches, hiss]

/-- A token is accepted when it is not too long, can be read, and the first provider that vouches for
it admits it. -/
theorem Federation.exchange_eq_accepted {federation : Federation} {presented : String} {nowMs : Int}
    {accepted : Accepted} :
    federation.exchange libraries presented nowMs = .accepted accepted ↔
      (presented.isEmpty = false ∧ presented.utf8ByteSize ≤ maxIdTokenLen) ∧
      ∃ jws, split libraries presented = some jws ∧
        ∃ provider, federation.providers.find? (Provider.vouches libraries jws) = some provider ∧
          provider.examine jws.payload nowMs = .accepted accepted := by
  unfold Federation.exchange
  by_cases hsize : presented.isEmpty = false ∧ presented.utf8ByteSize ≤ maxIdTokenLen
  · have hguard : (presented.isEmpty || decide (maxIdTokenLen < presented.utf8ByteSize)) = false := by
      simp [hsize.1, hsize.2]
    rw [hguard]
    cases hsplit : split libraries presented with
    | none => simp
    | some jws =>
        cases halg : stringClaim jws.header "alg" with
        | none => simp [halg, find_vouches_eq_none _ (.inl halg)]
        | some algorithm =>
            cases hiss : stringClaim jws.payload "iss" with
            | none => simp [halg, hiss, find_vouches_eq_none _ (.inr hiss)]
            | some issuer =>
                have hfind := searchProviders_eq_find libraries jws federation halg hiss
                cases hverified : federation.providers.find? (Provider.vouches libraries jws) with
                | none => simp [halg, hiss, hfind, hverified]
                | some provider => simp [halg, hiss, hfind, hverified, hsize]
  · have hguard : (presented.isEmpty || decide (maxIdTokenLen < presented.utf8ByteSize)) = true := by
      by_contra hnot
      apply hsize
      simpa using hnot
    simp only [hguard, if_true]
    constructor
    · intro h
      cases h
    · rintro ⟨hok, -⟩
      exact absurd hok hsize

end Exchange

section Resolve

variable {configs order : List ProviderConfig} {config : ProviderConfig} {provider : Provider}
  {federation : Federation}

/-- A stanza resolves when its three names are not blank, no other stanza has its issuer and its
audience, and the rest of it can be used. -/
theorem resolveProvider_eq_ok :
    resolveProvider configs config = .ok provider ↔
      ((Rust.trim config.name).isEmpty = false ∧ (Rust.trim config.issuer).isEmpty = false ∧
        (Rust.trim config.audience).isEmpty = false) ∧ claimants configs config ≤ 1 ∧
        resolveStanza config = .ok provider := by
  unfold resolveProvider
  by_cases hname : (Rust.trim config.name).isEmpty = true
  · simp [hname]
  · by_cases hissuer : (Rust.trim config.issuer).isEmpty = true
    · simp [hname, hissuer]
    · by_cases haudience : (Rust.trim config.audience).isEmpty = true
      · simp [hname, hissuer, haudience]
      · by_cases hclaimants : 1 < claimants configs config
        · simp [hname, hissuer, haudience, hclaimants]
        · simp [hname, hissuer, haudience, hclaimants, not_lt.mp hclaimants]

theorem Federation.resolve_eq_ok :
    Federation.resolve configs = .ok federation ↔
      List.Forall₂ (fun config provider => resolveProvider configs config = .ok provider) configs
        federation.providers := by
  rw [← Loop.mapM_eq_ok_iff]
  unfold Federation.resolve
  cases configs.mapM (resolveProvider configs) with
  | error e => simp [bind, Except.bind]
  | ok providers =>
      obtain ⟨providers'⟩ := federation
      simp [bind, Except.bind]

theorem claimants_perm (h : order.Perm configs) (config : ProviderConfig) :
    claimants order config = claimants configs config :=
  (h.filter _).length_eq

theorem claimants_singleton (config : ProviderConfig) : claimants [config] config = 1 := by
  simp [claimants]

/-- A federation resolves in every order of its stanzas, to the same providers in that order. -/
theorem Federation.resolve_of_perm (h : Federation.resolve configs = .ok federation)
    (horder : order.Perm configs) :
    ∃ federation', Federation.resolve order = .ok federation' ∧
      federation'.providers.Perm federation.providers := by
  rw [Federation.resolve_eq_ok] at h
  obtain ⟨providers, hproviders, hperm⟩ := List.perm_comp_forall₂ horder h
  refine ⟨⟨providers⟩, Federation.resolve_eq_ok.mpr (hproviders.imp ?_), hperm⟩
  intro config provider hresolved
  rw [resolveProvider_eq_ok, claimants_perm horder]
  rwa [resolveProvider_eq_ok] at hresolved

/-- A stanza of a federation that resolves also resolves alone, to the same provider. -/
theorem Federation.resolve_singleton (h : resolveProvider configs config = .ok provider) :
    Federation.resolve [config] = .ok ⟨[provider]⟩ := by
  rw [resolveProvider_eq_ok] at h
  apply Federation.resolve_eq_ok.mpr
  refine .cons (resolveProvider_eq_ok.mpr ⟨h.1, ?_, h.2.2⟩) .nil
  rw [claimants_singleton]

theorem Federation.exists_stanza (h : Federation.resolve configs = .ok federation)
    (hmem : provider ∈ federation.providers) :
    ∃ config ∈ configs, resolveProvider configs config = .ok provider := by
  rw [Federation.resolve_eq_ok, ← Loop.mapM_eq_ok_iff] at h
  exact Loop.exists_of_mem_mapM h hmem

theorem Federation.exists_provider (h : Federation.resolve configs = .ok federation)
    (hmem : config ∈ configs) :
    ∃ provider ∈ federation.providers, resolveProvider configs config = .ok provider := by
  rw [Federation.resolve_eq_ok, ← Loop.mapM_eq_ok_iff] at h
  exact Loop.exists_of_mem_of_mapM h hmem

end Resolve

section Order

variable (libraries : Libraries)

/-- This stanza, configured alone, accepts the token for the identity. -/
def AcceptsAlone (presented : String) (nowMs : Int) (identity : String) (config : ProviderConfig) :
    Prop :=
  ∃ alone accepted, Federation.resolve [config] = .ok alone ∧
    alone.exchange libraries presented nowMs = .accepted accepted ∧ accepted.identity = identity

/-- What one provider alone accepts is accepted by the whole federation, for an identity that a
provider alone would give, and whatever the order of the stanzas. -/
structure OrderIndependent (configs : List ProviderConfig) (presented : String) (nowMs : Int) :
    Prop where
  whole : ∀ order, order.Perm configs →
    (∃ config ∈ configs, ∃ identity, AcceptsAlone libraries presented nowMs identity config) →
    ∃ federation accepted, Federation.resolve order = .ok federation ∧
      federation.exchange libraries presented nowMs = .accepted accepted ∧
      ∃ config ∈ configs, AcceptsAlone libraries presented nowMs accepted.identity config
  permuting : ∀ order order' federation federation' accepted, order.Perm configs →
    order'.Perm configs → Federation.resolve order = .ok federation →
    Federation.resolve order' = .ok federation' →
    federation.exchange libraries presented nowMs = .accepted accepted →
    ∀ provider subject reason,
      federation'.exchange libraries presented nowMs ≠ .refused provider subject reason

/-- Of the providers that vouch for the token, all admit it when one does. -/
def Unanimous (federation : Federation) (presented : String) (nowMs : Int) : Prop :=
  presented.utf8ByteSize ≤ maxIdTokenLen → ∀ jws, split libraries presented = some jws →
    ∀ provider ∈ federation.providers, ∀ other ∈ federation.providers,
      provider.vouches libraries jws = true → other.vouches libraries jws = true →
      (∃ subject binding, other.Admits jws.payload nowMs subject binding) →
      ∃ subject binding, provider.Admits jws.payload nowMs subject binding

variable {libraries} {configs : List ProviderConfig} {federation : Federation} {presented : String}
  {nowMs : Int}

theorem split_eq_none_of_isEmpty (h : presented.isEmpty = true) :
    split libraries presented = none := by
  have hempty : presented = "" := by simpa using h
  rw [hempty]
  rfl

/-- What the first provider that vouches for a token admits is accepted. -/
theorem Federation.exchange_of_admits {provider : Provider} {jws : Jws} {subject : String} {binding : Binding}
    (hsize : presented.utf8ByteSize ≤ maxIdTokenLen) (hsplit : split libraries presented = some jws)
    {providers : List Provider}
    (hfind : providers.find? (Provider.vouches libraries jws) = some provider)
    (hadmits : provider.Admits jws.payload nowMs subject binding) :
    (Federation.mk providers).exchange libraries presented nowMs =
      .accepted ⟨provider.name, subject, binding.identity, provider.ttlMs⟩ := by
  have hne : presented.isEmpty = false := by
    by_contra h
    rw [split_eq_none_of_isEmpty (by simpa using h)] at hsplit
    cases hsplit
  exact Federation.exchange_eq_accepted.mpr
    ⟨⟨hne, hsize⟩, jws, hsplit, provider, hfind, hadmits.examine⟩

/-- A stanza accepts a token alone when its provider vouches for it and admits it. -/
theorem AcceptsAlone.vouches {config : ProviderConfig} {provider : Provider} {identity : String}
    (h : AcceptsAlone libraries presented nowMs identity config)
    (hresolved : resolveProvider configs config = .ok provider) :
    presented.utf8ByteSize ≤ maxIdTokenLen ∧ ∃ jws, split libraries presented = some jws ∧
      provider.vouches libraries jws = true ∧
      ∃ subject binding, provider.Admits jws.payload nowMs subject binding := by
  obtain ⟨alone, accepted, halone, haccepted, -⟩ := h
  rw [Federation.resolve_singleton hresolved, Except.ok.injEq] at halone
  rw [← halone, Federation.exchange_eq_accepted] at haccepted
  obtain ⟨⟨-, hsize⟩, jws, hsplit, found, hfind, hexamine⟩ := haccepted
  have hfound : found = provider := by simpa using List.mem_of_find?_eq_some hfind
  obtain ⟨subject, binding, hadmits, -⟩ := Provider.examine_eq_accepted hexamine
  rw [hfound] at hadmits hfind
  exact ⟨hsize, jws, hsplit, List.find?_some hfind, subject, binding, hadmits⟩

theorem acceptsAlone_of_admits {config : ProviderConfig} {provider : Provider} {jws : Jws}
    {subject : String} {binding : Binding}
    (hresolved : resolveProvider configs config = .ok provider)
    (hsize : presented.utf8ByteSize ≤ maxIdTokenLen) (hsplit : split libraries presented = some jws)
    (hvouches : provider.vouches libraries jws = true)
    (hadmits : provider.Admits jws.payload nowMs subject binding) :
    AcceptsAlone libraries presented nowMs binding.identity config := by
  have hfind : [provider].find? (Provider.vouches libraries jws) = some provider := by
    rw [List.find?_cons, hvouches]
  exact ⟨_, _, Federation.resolve_singleton hresolved,
    Federation.exchange_of_admits hsize hsplit hfind hadmits, rfl⟩

/-- The federation in some order of its stanzas, when all that vouch for the token admit it. -/
theorem Unanimous.accepts {order : List ProviderConfig}
    (h : Unanimous libraries federation presented nowMs)
    (hresolve : Federation.resolve configs = .ok federation) (horder : order.Perm configs)
    (halone : ∃ config ∈ configs, ∃ identity,
      AcceptsAlone libraries presented nowMs identity config) :
    ∃ federation' accepted, Federation.resolve order = .ok federation' ∧
      federation'.exchange libraries presented nowMs = .accepted accepted ∧
      ∃ config ∈ configs, AcceptsAlone libraries presented nowMs accepted.identity config := by
  obtain ⟨config, hconfig, identity, haccepts⟩ := halone
  obtain ⟨other, hother, hresolved⟩ := Federation.exists_provider hresolve hconfig
  obtain ⟨hsize, jws, hsplit, hvouches, hadmits⟩ := haccepts.vouches hresolved
  obtain ⟨federation', hresolve', hperm⟩ := Federation.resolve_of_perm hresolve horder
  obtain ⟨provider, hfind⟩ : ∃ provider,
      federation'.providers.find? (Provider.vouches libraries jws) = some provider := by
    rw [← Option.isSome_iff_exists, List.find?_isSome]
    exact ⟨other, hperm.mem_iff.mpr hother, hvouches⟩
  have hmem : provider ∈ federation.providers :=
    hperm.mem_iff.mp (List.mem_of_find?_eq_some hfind)
  have hfirst : provider.vouches libraries jws = true := List.find?_some hfind
  obtain ⟨subject, binding, hprovider⟩ :=
    h hsize jws hsplit provider hmem other hother hfirst hvouches hadmits
  obtain ⟨stanza, hstanza, hstanzaResolved⟩ := Federation.exists_stanza hresolve hmem
  exact ⟨federation', _, hresolve',
    Federation.exchange_of_admits hsize hsplit hfind hprovider, stanza, hstanza,
    acceptsAlone_of_admits hstanzaResolved hsize hsplit hfirst hprovider⟩

/-- Whatever a federation accepts, the provider that it found accepts alone. -/
theorem exists_acceptsAlone {accepted : Accepted}
    (hresolve : Federation.resolve configs = .ok federation)
    (haccepted : federation.exchange libraries presented nowMs = .accepted accepted) :
    ∃ config ∈ configs, ∃ identity, AcceptsAlone libraries presented nowMs identity config := by
  obtain ⟨⟨-, hsize⟩, jws, hsplit, provider, hfind, hexamine⟩ :=
    Federation.exchange_eq_accepted.mp haccepted
  obtain ⟨subject, binding, hadmits, -⟩ := Provider.examine_eq_accepted hexamine
  obtain ⟨config, hconfig, hresolved⟩ :=
    Federation.exists_stanza hresolve (List.mem_of_find?_eq_some hfind)
  exact ⟨config, hconfig, binding.identity,
    acceptsAlone_of_admits hresolved hsize hsplit (List.find?_some hfind) hadmits⟩

/-- A provider that vouches for the token is the one that is asked when its stanza comes first. -/
theorem OrderIndependent.admits (h : OrderIndependent libraries configs presented nowMs)
    (hresolve : Federation.resolve configs = .ok federation) : 
    Unanimous libraries federation presented nowMs := by
  intro hsize jws hsplit provider hmem other hother hvouches hotherVouches hadmits
  obtain ⟨subject, binding, hadmits⟩ := hadmits
  obtain ⟨stanza, hstanza, hstanzaResolved⟩ := Federation.exists_stanza hresolve hmem
  obtain ⟨config, hconfig, hresolved⟩ := Federation.exists_stanza hresolve hother
  have horder : (stanza :: configs.erase stanza).Perm configs :=
    (List.perm_cons_erase hstanza).symm
  obtain ⟨federation', accepted, hresolve', haccepted, -⟩ := h.whole _ horder
    ⟨config, hconfig, binding.identity,
      acceptsAlone_of_admits hresolved hsize hsplit hotherVouches hadmits⟩
  -- the first stanza of this order resolves to `provider`
  have hfirst : federation'.providers.find? (Provider.vouches libraries jws) = some provider := by
    rw [Federation.resolve_eq_ok] at hresolve'
    cases hproviders : federation'.providers with
    | nil =>
        rw [hproviders] at hresolve'
        cases hresolve'
    | cons first rest =>
        rw [hproviders] at hresolve'
        cases hresolve' with
        | cons hhead _ =>
            rw [resolveProvider_eq_ok] at hhead hstanzaResolved
            have hsame : provider = first := by
              rw [← Except.ok.injEq, ← hstanzaResolved.2.2, hhead.2.2]
            rw [List.find?_cons, ← hsame, hvouches]
  obtain ⟨-, jws', hsplit', found, hfound, hexamine⟩ :=
    Federation.exchange_eq_accepted.mp haccepted
  rw [hsplit, Option.some.injEq] at hsplit'
  rw [← hsplit', hfirst, Option.some.injEq] at hfound
  rw [← hfound, ← hsplit'] at hexamine
  obtain ⟨subject', binding', hprovider, -⟩ := Provider.examine_eq_accepted hexamine
  exact ⟨subject', binding', hprovider⟩

theorem Provider.issuer_eq_of_vouches {jws : Jws} {provider other : Provider}
    (h : provider.vouches libraries jws = true) (hother : other.vouches libraries jws = true) :
    provider.issuer = other.issuer := by
  simp only [Provider.vouches, Bool.and_eq_true, beq_iff_eq] at h hother
  rw [← Option.some.injEq, ← h.1, hother.1]

theorem orderIndependent_iff (hresolve : Federation.resolve configs = .ok federation) :
    OrderIndependent libraries configs presented nowMs ↔
      Unanimous libraries federation presented nowMs := by
  constructor
  · intro h
    exact h.admits hresolve
  · intro h
    refine ⟨fun order horder halone => h.accepts hresolve horder halone, ?_⟩
    intro order order' first second accepted horder horder' hfirst hsecond haccepted
      provider subject reason hrefused
    have halone := exists_acceptsAlone hfirst haccepted
    obtain ⟨config, hconfig, hidentity⟩ := halone
    obtain ⟨again, accepted', hagain, haccepted', -⟩ := h.accepts hresolve horder'
      ⟨config, horder.mem_iff.mp hconfig, hidentity⟩
    rw [hsecond, Except.ok.injEq] at hagain
    rw [← hagain, hrefused] at haccepted'
    cases haccepted'

end Order

end Ciphr.Oidc

namespace Ciphr.Sample

open Oidc

theorem deployClaims_sorted : [("sub", "deploy")].Pairwise (·.1 < ·.1) := List.pairwise_singleton ..

def sampleProvider (name issuer audience identity : String) : Provider :=
  ⟨name, issuer, audience, 60000, 900000,
    [.es256 "k1" (0x04 :: decoded "Nratkx1BSNsvF-2aeVmEeXcovCmD7IPY5rpudnBjxas" ++
      decoded "ogGZnaHYfqPI46-bIB1S5YBGqCWPlQyFeD1tIw4M2AA")],
    [⟨identity, ⟨[("sub", "deploy")], deployClaims_sorted⟩⟩]⟩

theorem idToken_size : (idToken.isEmpty || decide (maxIdTokenLen < idToken.utf8ByteSize)) = false := by
  decide +kernel

/-- The stanza of the other audience comes first, has the key as well, and refuses the token that the
second stanza alone accepts. -/
theorem staging_first_not_orderIndependent :
    (∃ federation, Federation.resolve [stagingStanza, productionStanza] = .ok federation) ∧
      ¬ OrderIndependent oidcLibraries [stagingStanza, productionStanza] idToken 1999999990000 := by
  have hresolve : Federation.resolve [stagingStanza, productionStanza] =
      .ok ⟨[sampleProvider "staging" "https://ci.test" "ciphr-staging" "staging-deploy",
        sampleProvider "production" "https://ci.test" "ciphr" "deploy"]⟩ := by decide +kernel
  refine ⟨⟨_, hresolve⟩, ?_⟩
  intro h
  have halone : AcceptsAlone oidcLibraries idToken 1999999990000 "deploy" productionStanza := by
    refine ⟨⟨[sampleProvider "production" "https://ci.test" "ciphr" "deploy"]⟩,
      ⟨"production", "deploy", "deploy", 900000⟩, by decide +kernel, ?_, rfl⟩
    unfold Federation.exchange
    rw [idToken_size, split_idToken]
    decide +kernel
  obtain ⟨federation, accepted, hfederation, haccepted, -⟩ :=
    h.whole _ (List.Perm.refl _) ⟨_, by simp, _, halone⟩
  rw [hresolve, Except.ok.injEq] at hfederation
  have hrefused : (Federation.mk
      [sampleProvider "staging" "https://ci.test" "ciphr-staging" "staging-deploy",
        sampleProvider "production" "https://ci.test" "ciphr" "deploy"]).exchange oidcLibraries
        idToken 1999999990000 = .refused "staging" (some "deploy") .audience := by
    unfold Federation.exchange
    rw [idToken_size, split_idToken]
    decide +kernel
  rw [← hfederation, hrefused] at haccepted
  cases haccepted

/-- Two stanzas of different issuers: at most one of them vouches for a token. -/
theorem orderIndependent_of_two_issuers :
    OrderIndependent oidcLibraries [otherStanza, productionStanza] idToken 1999999990000 := by
  have hresolve : Federation.resolve [otherStanza, productionStanza] =
      .ok ⟨[sampleProvider "other" "https://other.test" "ciphr" "other-deploy",
        sampleProvider "production" "https://ci.test" "ciphr" "deploy"]⟩ := by decide +kernel
  refine (orderIndependent_iff hresolve).mpr ?_
  intro hsize jws hsplit provider hprovider other hother hvouches hotherVouches hadmits
  have hissuer := Provider.issuer_eq_of_vouches hvouches hotherVouches
  have hsame : provider = other := by
    simp only [List.mem_cons, List.not_mem_nil, or_false] at hprovider hother
    rcases hprovider with rfl | rfl
    · rcases hother with rfl | rfl
      · rfl
      · exact absurd hissuer (by decide)
    · rcases hother with rfl | rfl
      · exact absurd hissuer (by decide)
      · rfl
  rw [hsame]
  exact hadmits

end Ciphr.Sample
