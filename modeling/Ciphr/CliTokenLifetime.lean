import Ciphr.CliCorrections
import Ciphr.CryptoTokenText
import Ciphr.StoreTokenLife

/-!
The lifetime that `ciphr token issue --ttl` names, and the time at which the token it stores expires. The
duration is checked on its own, and the sum with the clock is not.
-/

namespace Ciphr

open Script

/-- A number that an `i64` has. -/
def Rust.Fits (n : Int) : Prop := Rust.i64Min ≤ n ∧ n ≤ Rust.i64Max

/-- A sum that wraps is the sum itself when an `i64` has that. -/
theorem Rust.bmod_eq_self_iff {n : Int} : n.bmod (2 ^ 64) = n ↔ Rust.Fits n := by
  have hlow : -(2 ^ 64 / 2 : Int) ≤ n.bmod (2 ^ 64) := Int.le_bmod (by decide)
  have hhigh : n.bmod (2 ^ 64) < (2 ^ 64 + 1) / 2 := Int.bmod_lt (by decide)
  unfold Rust.Fits Rust.i64Min Rust.i64Max
  constructor
  · intro h
    omega
  · intro h
    exact Int.bmod_eq_of_le (by omega) (by omega)

variable {u : Unicode} {host : CliHost u} {identity ttl : String} {noExpiry force honeypot : Bool}
  {now millis : Int} {acts : List (CliAct u)} {result : Except CliError Unit}

/-! ### What is stored -/

/-- Where a token is stored, its row has the time of expiry, and the text of a credential is accepted
until exactly then. -/
def CliCall.StoresUntil (hmac : Hmac) (deadline : Int) : CliCall u → Prop
  | .issueToken identity issued pepper createdBy expiresAt purpose =>
      ∀ (table stored : TokenTable) (issuedAt : Int) (fault : Option String),
        table.issueToken hmac identity issued pepper createdBy expiresAt purpose issuedAt fault =
          (stored, .ok ()) →
        (∃ row, stored = table ++ [row] ∧ row.tokenId = issued.id.asText ∧ row.expiresAt = some deadline) ∧
          (purpose = .credential → ∀ t,
            (stored.authenticate hmac issued.exposeText pepper t {}).2 =
              some (.ok (.valid ⟨identity, issued.id.asText⟩)) ↔ t < deadline)
  | _ => True

/-- The text of a credential that was just stored is accepted until its row expires. -/
theorem authenticate_issued {hmac : Hmac} {table : TokenTable} {token : Token} {pepper : TokenPepper}
    {name createdBy : String} {issuedAt deadline : Int} {row : TokenRow}
    (hnew : table.find? (·.tokenId == token.id.asText) = none)
    (hrow : row = ⟨token.id.asText, name, (token.verifier hmac pepper).toHex, issuedAt, createdBy,
      some deadline, none, none, 0⟩) (t : Int) :
    (TokenTable.authenticate hmac (table ++ [row]) token.exposeText pepper t {}).2 =
      some (.ok (.valid ⟨name, token.id.asText⟩)) ↔ t < deadline := by
  have hfind : (table ++ [row]).find? (·.tokenId == token.id.asText) = some row := by
    rw [List.find?_append, hnew, Option.none_or, hrow, List.find?_cons, beq_self_eq_true]
  have hread : TokenVerifier.fromHex row.verifier = .ok (token.verifier hmac pepper) := by
    rw [hrow]
    exact TokenVerifier.fromHex_toHex _
  have hmatches : (token.verifier hmac pepper).matchesBytes (token.verifier hmac pepper) = true :=
    beq_self_eq_true _
  rw [TokenTable.authenticate_of_row (Token.parse_exposeText token) rfl rfl hfind hread]
  by_cases hlive : t < deadline
  · simp [hmatches, hrow, TokenRecord.isUsableAt, TokenRow.record, hlive]
  · simp [hmatches, hrow, TokenRecord.isUsableAt, TokenRow.record, hlive]

theorem storesUntil_issueToken {hmac : Hmac} {deadline : Int} {name createdBy : String} {token : Token}
    {pepper : TokenPepper} {expiresAt : Option Int} {purpose : TokenPurpose} :
    (CliCall.issueToken name token pepper createdBy expiresAt purpose : CliCall u).StoresUntil hmac
      deadline ↔ expiresAt = some deadline := by
  constructor
  · intro h
    obtain ⟨⟨row, hrow, -, hexpires⟩, -⟩ := h [] _ 0 none rfl
    cases hrow
    exact hexpires
  · rintro rfl table stored issuedAt fault hissued
    unfold TokenTable.issueToken at hissued
    split at hissued
    · cases hissued
    · split at hissued
      · cases hissued
      · rename_i hnew
        cases hissued
        refine ⟨⟨_, rfl, rfl, rfl⟩, ?_⟩
        rintro rfl t
        exact authenticate_issued (by simpa using hnew) rfl t

/-! ### Runs -/

/-- What the command stores at a time of the clock expires when the lifetime is over, and a text that
names no such time is refused before anything is recorded. -/
def HonoursLifetime (host : CliHost u) (identity ttl : String) (noExpiry force honeypot : Bool)
    (now : Int) : Prop :=
  ∀ (acts : List (CliAct u)) (result : Except CliError Unit),
    Runs (Cli.issueToken host identity (some ttl) noExpiry force honeypot) acts result →
    (∀ clock : Int, (⟨.nowMillis, clock⟩ : CliAct u) ∈ acts → clock = now) →
    (∀ millis, Cli.parseDurationMillis ttl = .ok millis →
      ∀ act ∈ acts, CliCall.StoresUntil host.hmac (now + millis) act.1) ∧
    ((¬ ∃ millis, Cli.parseDurationMillis ttl = .ok millis ∧ Rust.Fits (now + millis)) →
      (∃ error, result = .error error) ∧
        ∀ entry reply, (⟨.record entry, reply⟩ : CliAct u) ∉ acts)

theorem runs_guardSecretOutput {ended : Except CliError Unit}
    (h : Runs (Cli.guardSecretOutput force : Cli u Unit) acts ended) :
    ∀ act ∈ acts, act.1 = .stdoutIsTerminal := by
  unfold Cli.guardSecretOutput at h
  split at h
  · obtain ⟨rfl, -⟩ := runs_pure_iff.mp h
    exact List.forall_mem_nil _
  · obtain ⟨reply, rfl, -⟩ := runs_ask_iff.mp h
    exact List.forall_mem_singleton.mpr rfl

theorem expiry_of_parsed (hparse : Cli.parseDurationMillis ttl = .ok millis) :
    (Cli.expiry (some ttl) : Cli u (Option Int)) =
      ask .nowMillis fun (clock : Int) => .ok (some ((clock + millis).bmod (2 ^ 64))) := by
  change (ofExcept (Cli.parseDurationMillis ttl) >>= fun millis => _ : Cli u (Option Int)) = _
  rw [hparse]
  rfl

/-- A lifetime that cannot be read. -/
theorem runs_issueToken_unread {error : CliError} (hparse : Cli.parseDurationMillis ttl = .error error)
    (h : Runs (Cli.issueToken host identity (some ttl) noExpiry force honeypot) acts result) :
    (∃ error, result = .error error) ∧ ∀ entry reply, (⟨.record entry, reply⟩ : CliAct u) ∉ acts := by
  unfold Cli.issueToken at h
  rw [if_neg (by simp)] at h
  rcases runs_bind_iff.mp h with ⟨refused, hpolicies, rfl⟩ | ⟨policies, front, rest, rfl, hpolicies, hidentity⟩
  · obtain ⟨reply, rfl, -⟩ := runs_ask_iff.mp hpolicies
    refine ⟨⟨_, rfl⟩, fun entry reply hmem => ?_⟩
    cases List.mem_singleton.mp hmem
  · obtain ⟨reply, rfl, -⟩ := runs_ask_iff.mp hpolicies
    split at hidentity
    · obtain ⟨rfl, rfl⟩ := runs_ofExcept_iff.mp hidentity
      refine ⟨⟨_, rfl⟩, fun entry reply hmem => ?_⟩
      cases List.mem_singleton.mp hmem
    · have hstops : (∃ error, result = .error error) ∧ ∀ act ∈ rest, act.1 = .stdoutIsTerminal := by
        rcases runs_bind_iff.mp hidentity with ⟨refused, hguard, rfl⟩ | ⟨⟨⟩, guarded, more, rfl, hguard, hrest⟩
        · exact ⟨⟨_, rfl⟩, runs_guardSecretOutput hguard⟩
        · have hexpiry : (Cli.expiry (some ttl) : Cli u (Option Int)) = ofExcept (.error error) := by
            change (ofExcept (Cli.parseDurationMillis ttl) >>= fun millis => _ : Cli u (Option Int)) = _
            rw [hparse]
            rfl
          rw [hexpiry] at hrest
          obtain ⟨rfl, rfl⟩ := runs_ofExcept_iff.mp hrest
          rw [List.append_nil]
          exact ⟨⟨_, rfl⟩, runs_guardSecretOutput hguard⟩
      refine ⟨hstops.1, fun entry reply hmem => ?_⟩
      rcases List.mem_append.mp hmem with hfirst | hrest
      · cases List.mem_singleton.mp hfirst
      · cases hstops.2 _ hrest

/-- A lifetime whose end an `i64` has: whatever is stored, is stored until then. -/
theorem asks_issueToken (hparse : Cli.parseDurationMillis ttl = .ok millis)
    (hfits : Rust.Fits (now + millis)) :
    (Cli.issueToken host identity (some ttl) noExpiry force honeypot).Asks
      (fun c reply => ∀ clock : Int, (⟨c, reply⟩ : CliAct u) = ⟨.nowMillis, clock⟩ → clock = now)
      (CliCall.StoresUntil host.hmac (now + millis)) := by
  unfold Cli.issueToken
  rw [if_neg (by simp)]
  refine (asks_ask trivial).bind fun policies => ?_
  split
  · exact asks_ofExcept
  · have hguard : (Cli.guardSecretOutput force : Cli u Unit).Asks
        (fun c reply => ∀ clock : Int, (⟨c, reply⟩ : CliAct u) = ⟨.nowMillis, clock⟩ → clock = now)
        (CliCall.StoresUntil host.hmac (now + millis)) := by
      unfold Cli.guardSecretOutput
      split
      · exact asks_pure
      · exact asks_ask trivial
    refine hguard.bind fun _ => ?_
    rw [expiry_of_parsed hparse]
    refine asks_ask_bind trivial fun clock expiresAt hclock hexpires => ?_
    have hdeadline : expiresAt = some (now + millis) := by
      rw [← Except.ok.inj hexpires, hclock clock rfl, Rust.bmod_eq_self_iff.mpr hfits]
    refine (asks_ask trivial).bind fun root => (asks_ask trivial).bind fun token =>
      (asks_ask trivial).bind fun _ => (asks_ask ?_).bind fun _ => asks_ask trivial
    exact storesUntil_issueToken.mpr hdeadline

/-! ### The lifetimes that are honoured -/

/-- A policy file that knows one identity. -/
def PolicySet.only (name : String) : PolicySet where
  identities := [⟨name, .machine, [], List.nodup_nil⟩]
  policies := []
  identities_nodup := List.nodup_singleton _
  policies_nodup := List.nodup_nil
  attached := List.forall_mem_singleton.mpr (List.forall_mem_nil _)

/-- What is asked before the clock, where nothing is refused. -/
def unguarded (force : Bool) : List (CliAct u) := if force then [] else [⟨.stdoutIsTerminal, true⟩]

theorem runs_guardSecretOutput_of (force : Bool) :
    Runs (Cli.guardSecretOutput force : Cli u Unit) (unguarded force) (.ok ()) := by
  cases force with
  | true => exact runs_pure_iff.mpr ⟨rfl, rfl⟩
  | false => exact runs_ask_iff.mpr ⟨true, rfl, rfl⟩

def issuingRoot : RootKey := ⟨Vector.replicate 32 0⟩

def issuedToken : Token := ⟨⟨Vector.replicate 6 0⟩, Vector.replicate 32 0⟩

/-- What is asked once the time of expiry is known, where nothing is refused. -/
def issuing (host : CliHost u) (identity : String) (expiresAt : Option Int) (honeypot : Bool) :
    List (CliAct u) :=
  [⟨.openSession, .ok issuingRoot⟩, ⟨.generateToken, .ok issuedToken⟩,
    ⟨.record ((Session.operatorEntry host .issueToken true none).withSubject
      (Cli.tokenSubject identity (some IdentityKind.machine.asStr) issuedToken.id.asText)), .ok ()⟩,
    ⟨.issueToken identity issuedToken (.derive host.hmac issuingRoot.bytes) "cli" expiresAt
      (if honeypot then .honeypot else .credential), .ok ()⟩,
    ⟨.print (issuedToken.exposeText ++ "\n"), ()⟩]

/-- A lifetime that can be read is recorded and stored, whatever the clock says. -/
theorem runs_issueToken_of (host : CliHost u) (identity : String) (noExpiry force honeypot : Bool)
    (now : Int) (hparse : Cli.parseDurationMillis ttl = .ok millis) :
    Runs (Cli.issueToken host identity (some ttl) noExpiry force honeypot)
      (⟨.readPolicies, .ok (PolicySet.only identity)⟩ :: (unguarded force ++ ⟨.nowMillis, now⟩ ::
        issuing host identity (some ((now + millis).bmod (2 ^ 64))) honeypot)) (.ok ()) := by
  have hfound : (PolicySet.only identity).identity identity =
      some ⟨identity, .machine, [], List.nodup_nil⟩ :=
    List.find?_cons_of_pos (beq_self_eq_true identity)
  unfold Cli.issueToken
  rw [if_neg (by simp)]
  refine Runs.ask_bind rfl ?_
  rw [hfound]
  refine (runs_guardSecretOutput_of force).bind ?_
  rw [expiry_of_parsed hparse]
  refine Runs.ask_bind rfl (Runs.ask_bind rfl (Runs.ask_bind rfl (Runs.ask_bind rfl (Runs.ask_bind rfl ?_))))
  exact runs_ask_iff.mpr ⟨(), rfl, rfl⟩

/-- The run of a lifetime that is honoured stores the sum of the clock and the lifetime itself. -/
theorem HonoursLifetime.fits (h : HonoursLifetime host identity ttl noExpiry force honeypot now)
    (hparse : Cli.parseDurationMillis ttl = .ok millis) : Rust.Fits (now + millis) := by
  have hclock : ∀ clock : Int, (⟨.nowMillis, clock⟩ : CliAct u) ∈
      (⟨.readPolicies, .ok (PolicySet.only identity)⟩ :: (unguarded force ++ ⟨.nowMillis, now⟩ ::
        issuing host identity (some ((now + millis).bmod (2 ^ 64))) honeypot)) → clock = now := by
    intro clock hmem
    rcases List.mem_cons.mp hmem with heq | hmem
    · cases heq
    · rcases List.mem_append.mp hmem with hguarded | hmem
      · cases runs_guardSecretOutput (runs_guardSecretOutput_of force) _ hguarded
      · rcases List.mem_cons.mp hmem with heq | hmem
        · cases heq
          rfl
        · simp only [issuing, List.mem_cons, List.not_mem_nil, or_false] at hmem
          rcases hmem with heq | heq | heq | heq | heq
          all_goals cases heq
  have hstored := (h _ _ (runs_issueToken_of host identity noExpiry force honeypot now hparse) hclock).1
    millis hparse ⟨.issueToken identity issuedToken (.derive host.hmac issuingRoot.bytes) "cli"
      (some ((now + millis).bmod (2 ^ 64))) (if honeypot then .honeypot else .credential), .ok ()⟩
    (by simp [issuing])
  exact Rust.bmod_eq_self_iff.mp (Option.some.inj (storesUntil_issueToken.mp hstored))

theorem honoursLifetime_iff : HonoursLifetime host identity ttl noExpiry force honeypot now ↔
    ∀ millis, Cli.parseDurationMillis ttl = .ok millis → Rust.Fits (now + millis) := by
  constructor
  · intro h millis hparse
    exact h.fits hparse
  · intro hfits acts result hruns hclock
    refine ⟨fun millis hparse => ?_, fun hnone => ?_⟩
    · apply (asks_issueToken hparse (hfits millis hparse)).runs hruns
      intro act hmem clock hasked
      exact hclock clock (hasked ▸ hmem)
    · cases hparse : Cli.parseDurationMillis ttl with
      | error error => exact runs_issueToken_unread hparse hruns
      | ok millis => exact absurd ⟨millis, hparse, hfits millis hparse⟩ hnone

namespace Sample

/-- The longest number of days whose milliseconds an `i64` has ends in the past: the sum with the clock
of the year 2026 wraps. -/
theorem longest_ttl_not_honoured : Cli.parseDurationMillis "106751991167d" = .ok 9223372036828800000 ∧
    ¬ HonoursLifetime operator "ci" "106751991167d" false true false 1767225600000 := by
  have hparse : Cli.parseDurationMillis "106751991167d" = .ok 9223372036828800000 := by
    decide +kernel
  refine ⟨hparse, fun h => ?_⟩
  have hfits : Rust.Fits (1767225600000 + 9223372036828800000) := h.fits hparse
  unfold Rust.Fits Rust.i64Max at hfits
  omega

end Sample

end Ciphr
