import Ciphr.CliCommands
import Ciphr.CoreEnvAssign
import Ciphr.ExportMasks
import Ciphr.ServerCorrections

/-!
Whether the trail of the command line takes back what did not happen: a command that ends with an
error, after an entry that allowed what it was about to do.
-/

namespace Ciphr

open Script

variable {u : Unicode}

abbrev CliAct (u : Unicode) := Act (CliCall u) CliCall.Reply

namespace CliAct

/-- What the trail has taken. -/
def committed : CliAct u → Option Entry
  | ⟨.record entry, .ok ()⟩ => some entry
  | _ => none

/-- The store has refused to change something. -/
def refuses : CliAct u → Bool
  | ⟨.putWithRotation _ _ _ _, .error _⟩ | ⟨.setRotation _ _, .error _⟩ | ⟨.delete _ _, .error _⟩
  | ⟨.undelete _ _, .error _⟩ | ⟨.destroy _ _, .error _⟩ | ⟨.issueToken _ _ _ _ _ _, .error _⟩
  | ⟨.revokeToken _, .error _⟩ => true
  | _ => false

/-- There is no environment file, or it could not be written. -/
def unsent : CliAct u → Bool
  | ⟨.githubEnv, none⟩ | ⟨.appendFile _ _, .error _⟩ => true
  | _ => false

/-- What a command has written out tells the value of one of the secrets that it has read. -/
inductive Tells (host : CliHost u) (secrets : List (Exported u)) (secret : Exported u) :
    CliCommand → CliAct u → Prop where
  | written {args : Cli.ExportArgs} {format : Cli.ExportFormat} {text rest : String}
      (hformat : Cli.ExportFormat.parse args.format = some format) (hplain : format ≠ .actionsEnv)
      (hrender : Cli.rendered host format secrets = .ok (text, rest)) :
      Tells host secrets secret (.exportSecrets args) ⟨.print text, ()⟩
  /-- A command that masks a line of the value has the line in it. -/
  | masked {args : Cli.ExportArgs} {text line : String}
      (hformat : Cli.ExportFormat.parse args.format = some .actionsEnv)
      (hline : line ∈ maskedLines secret.value)
      (htext : ("::add-mask::" ++ line ++ "\n").toList <:+: text.toList) :
      Tells host secrets secret (.exportSecrets args) ⟨.print text, ()⟩
  | printed {args : Cli.ExportArgs} {masks assignments : String}
      (hformat : Cli.ExportFormat.parse args.format = some .actionsEnv) (henv : args.githubEnv = false)
      (hrender : Cli.rendered host .actionsEnv secrets = .ok (masks, assignments)) :
      Tells host secrets secret (.exportSecrets args) ⟨.print assignments, ()⟩
  | appended {args : Cli.ExportArgs} {masks assignments target : String}
      (hformat : Cli.ExportFormat.parse args.format = some .actionsEnv) (henv : args.githubEnv = true)
      (hrender : Cli.rendered host .actionsEnv secrets = .ok (masks, assignments)) :
      Tells host secrets secret (.exportSecrets args) ⟨.appendFile target assignments, .ok ()⟩
  | dumped {format : String} {force : Bool} {now : Int} {dumps : List Dumped} {one : Dumped}
      (hone : one ∈ dumps) (hpath : one.path = secret.path.text) (hvalue : one.value = secret.value) :
      Tells host secrets secret (.dump format force)
        ⟨.print (host.toStringPretty (portableDocument now dumps) ++ "\n"), ()⟩

/-- The value that an entry speaks of was written out. -/
def HandsOut (host : CliHost u) (command : CliCommand) (secrets : List (Exported u)) (entry : Entry)
    (act : CliAct u) : Prop :=
  entry.action = .read ∧
    ∃ secret ∈ secrets, entry.path = some secret.path.text ∧ Tells host secrets secret command act

/-- What an entry speaks of was done: a row was changed, or the value was written out; `secrets` are
the values that the command has read. -/
def Does (host : CliHost u) (command : CliCommand) (secrets : List (Exported u)) (entry : Entry) :
    CliAct u → Prop
  | ⟨.putWithRotation path _ rotation _, .ok _⟩ =>
      entry.path = some path.text ∧
        (entry.action = .write ∨ entry.action = .classify ∧ rotation.isSome = true)
  | ⟨.setRotation path _, .ok _⟩ => entry.action = .classify ∧ entry.path = some path.text
  | ⟨.delete path version, .ok _⟩ =>
      entry.action = .delete ∧ entry.path = some path.text ∧ entry.version = some version.number
  | ⟨.undelete path version, .ok _⟩ =>
      entry.action = .undelete ∧ entry.path = some path.text ∧ entry.version = some version.number
  | ⟨.destroy path version, .ok _⟩ =>
      entry.action = .destroy ∧ entry.path = some path.text ∧ entry.version = some version.number
  | ⟨.issueToken _ token _ _ _ _, .ok _⟩ =>
      entry.action = .issueToken ∧ entry.subject.bind (·.tokenId) = some token.id.asText
  | ⟨.revokeToken tokenId, .ok _⟩ =>
      entry.action = .revokeToken ∧ entry.subject.bind (·.tokenId) = some tokenId
  | ⟨.revokeIdentityTokens identity, .ok _⟩ =>
      entry.action = .revokeToken ∧ entry.subject.map (·.name) = some identity
  | ⟨.print text, reply⟩ => HandsOut host command secrets entry ⟨.print text, reply⟩
  | ⟨.appendFile target text, reply⟩ => HandsOut host command secrets entry ⟨.appendFile target text, reply⟩
  | _ => False

end CliAct

/-- The entries that the trail has taken, in their order. -/
def cliEntries (acts : List (CliAct u)) : List Entry := acts.filterMap CliAct.committed

/-- No record was refused. -/
def TrailAccepts (acts : List (CliAct u)) : Prop :=
  ∀ entry error, (⟨.record entry, .error error⟩ : CliAct u) ∉ acts

/-- Whatever an entry allows was done after it, or taken back. -/
def Honest (host : CliHost u) (command : CliCommand) (secrets : List (Exported u)) :
    List (CliAct u) → Prop
  | [] => True
  | act :: later =>
      (∀ entry, act.committed = some entry → entry.allowed = true →
        (∃ done ∈ later, CliAct.Does host command secrets entry done) ∨
          ∃ correction ∈ cliEntries later, correction.Corrects entry) ∧ Honest host command secrets later

section Trails

variable {acts front later : List (CliAct u)} {entry : Entry} {host : CliHost u} {command : CliCommand}
  {secrets : List (Exported u)}

@[simp] theorem cliEntries_append : cliEntries (front ++ later) = cliEntries front ++ cliEntries later :=
  List.filterMap_append

theorem trailAccepts_append : TrailAccepts (front ++ later) ↔ TrailAccepts front ∧ TrailAccepts later := by
  constructor
  · intro h
    exact ⟨fun entry error hmem => h entry error (List.mem_append_left _ hmem),
      fun entry error hmem => h entry error (List.mem_append_right _ hmem)⟩
  · rintro ⟨h, h'⟩ entry error hmem
    rcases List.mem_append.mp hmem with hleft | hright
    · exact h entry error hleft
    · exact h' entry error hright

theorem TrailAccepts.tail {act : CliAct u} (h : TrailAccepts (act :: later)) : TrailAccepts later :=
  fun entry error hmem => h entry error (List.mem_cons_of_mem _ hmem)

theorem not_trailAccepts_record {error : String} :
    ¬ TrailAccepts ((⟨.record entry, .error error⟩ : CliAct u) :: later) :=
  fun h => h entry error (List.mem_cons_self ..)

/-- Where nothing was recorded, nothing is claimed. -/
theorem honest_of_silent (h : cliEntries acts = []) : Honest host command secrets acts := by
  induction acts with
  | nil => exact trivial
  | cons act later ih =>
      cases hact : act.committed with
      | none =>
          refine ⟨fun entry hentry => ?_, ih ?_⟩
          · rw [hact] at hentry
            cases hentry
          · unfold cliEntries at h ⊢
            rwa [List.filterMap_cons_none hact] at h
      | some entry =>
          unfold cliEntries at h
          rw [List.filterMap_cons_some hact] at h
          cases h

/-- An act that is no record is in front of a trail as if it was not there. -/
theorem honest_cons_iff {act : CliAct u} (h : act.committed = none) :
    Honest host command secrets (act :: later) ↔ Honest host command secrets later := by
  constructor
  · exact fun hhonest => hhonest.2
  · intro hlater
    refine ⟨fun entry hentry => ?_, hlater⟩
    rw [h] at hentry
    cases hentry

theorem Honest.of_append (h : Honest host command secrets (front ++ later)) :
    Honest host command secrets later := by
  induction front with
  | nil => exact h
  | cons act front ih => exact ih h.2

/-- A claim after which nothing is done and nothing is refused. -/
theorem not_honest_of_claim (hallowed : entry.allowed = true)
    (hdone : ∀ act ∈ later, ¬ CliAct.Does host command secrets entry act)
    (hentries : ∀ other ∈ cliEntries later, other.allowed = true) :
    ¬ Honest host command secrets (front ++ ⟨.record entry, .ok ()⟩ :: later) := by
  intro h
  rcases h.of_append.1 entry rfl hallowed with ⟨done, hmem, hdoes⟩ | ⟨correction, hmem, hcorrects⟩
  · exact hdone done hmem hdoes
  · have hrefused := hcorrects.refused
    rw [hentries correction hmem] at hrefused
    cases hrefused

/-- Claims that are all done by one act after them. -/
theorem honest_append_of_does
    (hfront : ∀ entry ∈ cliEntries front, ∃ done ∈ later, CliAct.Does host command secrets entry done)
    (hlater : Honest host command secrets later) : Honest host command secrets (front ++ later) := by
  induction front with
  | nil => exact hlater
  | cons act front ih =>
      have hrest : ∀ entry ∈ cliEntries front,
          ∃ done ∈ later, CliAct.Does host command secrets entry done := by
        intro entry hmem
        apply hfront entry
        obtain ⟨act', hact', hentry⟩ := List.mem_filterMap.mp hmem
        exact List.mem_filterMap.mpr ⟨act', List.mem_cons_of_mem _ hact', hentry⟩
      refine ⟨fun entry hentry _ => ?_, ih hrest⟩
      obtain ⟨done, hdone, hdoes⟩ :=
        hfront entry (List.mem_filterMap.mpr ⟨act, List.mem_cons_self .., hentry⟩)
      exact .inl ⟨done, List.mem_append_right _ hdone, hdoes⟩

end Trails

/-! ### What a command has seen of the store -/

/-- The store has refused what the command was about to change. -/
def CliCommand.Refused : CliCommand → CliAct u → Prop
  | .put _ _, ⟨.putWithRotation _ _ _ _, .error _⟩ => True
  | .delete _ _, ⟨.delete _ _, .error _⟩ => True
  | .undelete _ _, ⟨.undelete _ _, .error _⟩ => True
  | .destroy _ _ _, ⟨.destroy _ _, .error _⟩ => True
  | .rotation _ _, ⟨.setRotation _ _, .error _⟩ => True
  | .importDotenv _ _ _ _, ⟨.putWithRotation _ _ _ _, .error _⟩ => True
  | .issueToken _ _ _ _ _, ⟨.issueToken _ _ _ _ _ _, .error _⟩ => True
  | .revoke _, ⟨.revokeToken _, .error _⟩ => True
  | _, _ => False

theorem CliCommand.refuses_of_refused {command : CliCommand} {act : CliAct u} (h : command.Refused act) :
    act.refuses = true := by
  unfold CliCommand.Refused at h
  split at h
  all_goals first | rfl | exact h.elim

section Seen

variable (host : CliHost u) (root : RootKey)

/-- A stored value, where it is a text that the root key opens. -/
def plainText (stored : StoredVersion u) : Option String :=
  (decrypt host.aead root stored.path stored.version stored.value).toOption.bind Rust.fromUtf8

/-- The value that a call has brought. -/
def valueOf : CliAct u → Option (Exported u)
  | ⟨.get _ _, .ok stored⟩ => (plainText host root stored).map (⟨stored.path, ·⟩)
  | _ => none

/-- The call has not brought what was asked for, or a value that is no text. -/
def unreadable : CliAct u → Bool
  | ⟨.get _ _, .ok stored⟩ => (plainText host root stored).isNone
  | ⟨.get _ _, .error _⟩ | ⟨.metadata _, .error _⟩ => true
  | _ => false

/-- The values that were read. -/
def valuesRead (acts : List (CliAct u)) : List (Exported u) := acts.filterMap (valueOf host root)

/-- The claims that stay on the trail when a command ends with an error: the store refuses the change
that was recorded, or the revocation of tokens it has named; a value cannot be read after others have
been; what was read cannot be rendered; and a value that has no line to mask was to go to an environment
file that is not there, or cannot be written. -/
inductive ClaimStays (acts : List (CliAct u)) : CliCommand → Prop where
  | change {command : CliCommand} (act : CliAct u) (hmem : act ∈ acts) (hrefused : command.Refused act) :
      ClaimStays acts command
  | revocation (identity : String) (records : List TokenRecord) (error : StoreError)
      (hlisted : (⟨.tokens (some identity), .ok records⟩ : CliAct u) ∈ acts)
      (hvalid : ∃ record ∈ records, record.revokedAt = none)
      (hrefused : (⟨.revokeIdentityTokens identity, .error error⟩ : CliAct u) ∈ acts) :
      ClaimStays acts (.revokeAll identity)
  | unread {command : CliCommand} (act : CliAct u) (hread : valuesRead host root acts ≠ [])
      (hmem : act ∈ acts) (hunreadable : unreadable host root act = true) : ClaimStays acts command
  | unrendered (args : Cli.ExportArgs) (format : Cli.ExportFormat) (error : ExportError)
      (hread : valuesRead host root acts ≠ []) (hformat : Cli.ExportFormat.parse args.format = some format)
      (hrender : Cli.rendered host format (valuesRead host root acts) = .error error) :
      ClaimStays acts (.exportSecrets args)
  | unmasked (args : Cli.ExportArgs) (secret : Exported u) (act : CliAct u)
      (hread : secret ∈ valuesRead host root acts) (hlines : maskedLines secret.value = [])
      (hformat : Cli.ExportFormat.parse args.format = some .actionsEnv) (henv : args.githubEnv = true)
      (hmem : act ∈ acts) (hunsent : act.unsent = true) : ClaimStays acts (.exportSecrets args)

end Seen

/-! ### Steps that claim nothing -/

namespace CliAct

/-- Calls that neither record, nor change anything, nor bring a value. -/
def mute : CliAct u → Bool
  | ⟨.record _, _⟩ | ⟨.get _ _, _⟩ | ⟨.putWithRotation _ _ _ _, _⟩ | ⟨.setRotation _ _, _⟩
  | ⟨.delete _ _, _⟩ | ⟨.undelete _ _, _⟩ | ⟨.destroy _ _, _⟩ | ⟨.issueToken _ _ _ _ _ _, _⟩
  | ⟨.revokeToken _, _⟩ | ⟨.revokeIdentityTokens _, _⟩ => false
  | _ => true

/-- Mute calls that tell nothing of the secrets, of the tokens that are to be revoked, and of the
environment file. -/
def idle : CliAct u → Bool
  | ⟨.metadata _, .error _⟩ | ⟨.tokens _, _⟩ | ⟨.githubEnv, none⟩ | ⟨.appendFile _ _, .error _⟩ => false
  | act => act.mute

theorem mute_of_idle {act : CliAct u} (h : act.idle = true) : act.mute = true := by
  obtain ⟨c, reply⟩ := act
  cases c with
  | metadata path => rfl
  | tokens identity => rfl
  | githubEnv => rfl
  | appendFile target text => rfl
  | _ => exact h

theorem unsent_of_idle {act : CliAct u} (h : act.idle = true) : act.unsent = false := by
  obtain ⟨c, reply⟩ := act
  cases c with
  | githubEnv =>
      cases reply with
      | some target => rfl
      | none => cases h
  | appendFile target text =>
      cases reply with
      | ok => rfl
      | error error => cases h
  | _ => rfl

theorem committed_of_mute {act : CliAct u} (h : act.mute = true) : act.committed = none := by
  obtain ⟨c, reply⟩ := act
  cases c with
  | record entry => cases h
  | _ => rfl

theorem refuses_of_mute {act : CliAct u} (h : act.mute = true) : act.refuses = false := by
  obtain ⟨c, reply⟩ := act
  cases c with
  | putWithRotation => cases h
  | setRotation => cases h
  | delete => cases h
  | undelete => cases h
  | destroy => cases h
  | issueToken => cases h
  | revokeToken => cases h
  | _ => rfl

theorem valueOf_of_mute {act : CliAct u} {host : CliHost u} {root : RootKey} (h : act.mute = true) :
    valueOf host root act = none := by
  obtain ⟨c, reply⟩ := act
  cases c with
  | get path version => cases h
  | _ => rfl

theorem unreadable_of_idle {act : CliAct u} {host : CliHost u} {root : RootKey} (h : act.idle = true) :
    unreadable host root act = false := by
  obtain ⟨c, reply⟩ := act
  cases c with
  | get path version => cases h
  | metadata path =>
      cases reply with
      | ok found => rfl
      | error error => cases h
  | _ => rfl

end CliAct

section Steps

variable {host : CliHost u} {root : RootKey} {command : CliCommand} {acts : List (CliAct u)}
  {secrets : List (Exported u)}

theorem CliCommand.not_refused_of_mute {act : CliAct u} (h : act.mute = true) : ¬ command.Refused act := by
  intro hrefused
  have hrefuses := CliCommand.refuses_of_refused hrefused
  rw [CliAct.refuses_of_mute h] at hrefuses
  cases hrefuses

theorem valuesRead_append (front later : List (CliAct u)) :
    valuesRead host root (front ++ later) = valuesRead host root front ++ valuesRead host root later :=
  List.filterMap_append

theorem valuesRead_of_mute (h : ∀ act ∈ acts, act.mute = true) : valuesRead host root acts = [] :=
  List.filterMap_eq_nil_iff.mpr fun act hmem => CliAct.valueOf_of_mute (h act hmem)

theorem valuesRead_cons_of_mute {act : CliAct u} (h : act.mute = true) :
    valuesRead host root (act :: acts) = valuesRead host root acts :=
  List.filterMap_cons_none (CliAct.valueOf_of_mute h)

/-- An idle call has no part in what stays. -/
theorem claimStays_cons_iff {act : CliAct u} (h : act.idle = true) :
    ClaimStays host root (act :: acts) command ↔ ClaimStays host root acts command := by
  have hmute := CliAct.mute_of_idle h
  constructor
  · intro hstays
    cases hstays with
    | change act' hmem hrefused =>
        rcases List.mem_cons.mp hmem with rfl | hmem
        · exact absurd hrefused (CliCommand.not_refused_of_mute hmute)
        · exact .change act' hmem hrefused
    | revocation identity records error hlisted hvalid hrefused =>
        refine .revocation identity records error ?_ hvalid ?_
        · rcases List.mem_cons.mp hlisted with rfl | hlisted
          · cases h
          · exact hlisted
        · rcases List.mem_cons.mp hrefused with rfl | hrefused
          · cases h
          · exact hrefused
    | unread act' hread hmem hunreadable =>
        rw [valuesRead_cons_of_mute hmute] at hread
        rcases List.mem_cons.mp hmem with rfl | hmem
        · rw [CliAct.unreadable_of_idle h] at hunreadable
          cases hunreadable
        · exact .unread act' hread hmem hunreadable
    | unrendered args format error hread hformat hrender =>
        rw [valuesRead_cons_of_mute hmute] at hread hrender
        exact .unrendered args format error hread hformat hrender
    | unmasked args secret act' hread hlines hformat henv hmem hunsent =>
        rw [valuesRead_cons_of_mute hmute] at hread
        rcases List.mem_cons.mp hmem with rfl | hmem
        · rw [CliAct.unsent_of_idle h] at hunsent
          cases hunsent
        · exact .unmasked args secret act' hread hlines hformat henv hmem hunsent
  · intro hstays
    cases hstays with
    | change act' hmem hrefused => exact .change act' (List.mem_cons_of_mem _ hmem) hrefused
    | revocation identity records error hlisted hvalid hrefused =>
        exact .revocation identity records error (List.mem_cons_of_mem _ hlisted) hvalid
          (List.mem_cons_of_mem _ hrefused)
    | unread act' hread hmem hunreadable =>
        refine .unread act' ?_ (List.mem_cons_of_mem _ hmem) hunreadable
        rwa [valuesRead_cons_of_mute hmute]
    | unrendered args format error hread hformat hrender =>
        refine .unrendered args format error ?_ hformat ?_
        · rwa [valuesRead_cons_of_mute hmute]
        · rwa [valuesRead_cons_of_mute hmute]
    | unmasked args secret act' hread hlines hformat henv hmem hunsent =>
        refine .unmasked args secret act' ?_ hlines hformat henv (List.mem_cons_of_mem _ hmem) hunsent
        rwa [valuesRead_cons_of_mute hmute]

/-- What was all mute claims nothing. -/
theorem not_claimStays_of_mute (h : ∀ act ∈ acts, act.mute = true) :
    ¬ ClaimStays host root acts command := by
  have hnone : valuesRead host root acts = [] := valuesRead_of_mute h
  intro hstays
  cases hstays with
  | change act hmem hrefused => exact CliCommand.not_refused_of_mute (h act hmem) hrefused
  | revocation identity records error hlisted hvalid hrefused =>
      have hmute := h _ hrefused
      cases hmute
  | unread act hread => exact hread hnone
  | unrendered args format error hread => exact hread hnone
  | unmasked args secret act hread =>
      rw [hnone] at hread
      cases hread

theorem honest_of_mute (h : ∀ act ∈ acts, act.mute = true) : Honest host command secrets acts := by
  apply honest_of_silent
  apply List.filterMap_eq_nil_iff.mpr
  intro act hmem
  exact CliAct.committed_of_mute (h act hmem)

/-- However the script ends with an error, its claims stay exactly in the cases that are named. -/
def Settles (host : CliHost u) (root : RootKey) (command : CliCommand) {α : Type} (script : Cli u α) :
    Prop :=
  ∀ acts error, Runs script acts (.error error) → TrailAccepts acts →
    (∀ opened, (⟨.openSession, .ok opened⟩ : CliAct u) ∈ acts → opened = root) →
    (Honest host command (valuesRead host root acts) acts ↔ ¬ ClaimStays host root acts command)

variable {α β : Type} {k : α → Cli u β}

/-- All that the script asks is mute, and idle if it ends well. -/
def Prelude {α : Type} (script : Cli u α) : Prop :=
  ∀ acts result, Runs script acts result → (∀ act ∈ acts, CliAct.mute act = true) ∧
    ∀ a, result = .ok a → ∀ act ∈ acts, CliAct.idle act = true

variable {α β : Type} {k : α → Cli u β}

theorem prelude_ofExcept {result : Except CliError α} : Prelude (ofExcept result : Cli u α) := by
  intro acts ended h
  obtain ⟨rfl, -⟩ := runs_ofExcept_iff.mp h
  exact ⟨List.forall_mem_nil _, fun _ _ => List.forall_mem_nil _⟩

theorem prelude_pure {a : α} : Prelude (pure a : Cli u α) := prelude_ofExcept

theorem prelude_ask {c : CliCall u} {f : c.Reply → Except CliError α}
    (hmute : ∀ reply, CliAct.mute (⟨c, reply⟩ : CliAct u) = true)
    (hidle : ∀ reply a, f reply = .ok a → CliAct.idle (⟨c, reply⟩ : CliAct u) = true) :
    Prelude (ask c f) := by
  intro acts ended h
  obtain ⟨reply, rfl, rfl⟩ := runs_ask_iff.mp h
  constructor
  · intro act hmem
    rw [List.mem_singleton.mp hmem]
    exact hmute reply
  · intro a hreply act hmem
    rw [List.mem_singleton.mp hmem]
    exact hidle reply a hreply

theorem Prelude.bind {script : Cli u α} (h : Prelude script) (hk : ∀ a, Prelude (k a)) :
    Prelude (script >>= k) := by
  intro acts ended hruns
  rcases runs_bind_iff.mp hruns with ⟨e, hfirst, rfl⟩ | ⟨a, front, rest, rfl, hfirst, hrest⟩
  · exact ⟨(h acts _ hfirst).1, nofun⟩
  · obtain ⟨hmute, hidle⟩ := h front _ hfirst
    obtain ⟨hmute', hidle'⟩ := hk a rest ended hrest
    constructor
    · intro act hmem
      exact (List.mem_append.mp hmem).elim (hmute act) (hmute' act)
    · intro b hb act hmem
      exact (List.mem_append.mp hmem).elim (hidle a rfl act) (hidle' b hb act)

theorem Prelude.settles {script : Cli u α} (h : Prelude script) : Settles host root command script := by
  intro acts error hruns _ _
  have hmute := (h acts _ hruns).1
  exact iff_of_true (honest_of_mute hmute) (not_claimStays_of_mute hmute)

theorem honest_append_of_idle {front : List (CliAct u)} (h : ∀ act ∈ front, CliAct.idle act = true) :
    Honest host command secrets (front ++ acts) ↔ Honest host command secrets acts := by
  induction front with
  | nil => exact Iff.rfl
  | cons act front ih =>
      have hact := CliAct.mute_of_idle (h act (List.mem_cons_self ..))
      rw [List.cons_append, honest_cons_iff (CliAct.committed_of_mute hact)]
      exact ih fun other hmem => h other (List.mem_cons_of_mem _ hmem)

theorem claimStays_append_of_idle {front : List (CliAct u)} (h : ∀ act ∈ front, CliAct.idle act = true) :
    ClaimStays host root (front ++ acts) command ↔ ClaimStays host root acts command := by
  induction front with
  | nil => exact Iff.rfl
  | cons act front ih =>
      rw [List.cons_append, claimStays_cons_iff (h act (List.mem_cons_self ..))]
      exact ih fun other hmem => h other (List.mem_cons_of_mem _ hmem)

theorem valuesRead_append_of_idle {front : List (CliAct u)} (h : ∀ act ∈ front, CliAct.idle act = true) :
    valuesRead host root (front ++ acts) = valuesRead host root acts := by
  rw [valuesRead_append, valuesRead_of_mute fun act hmem => CliAct.mute_of_idle (h act hmem), List.nil_append]

/-- What claims nothing may come before anything. -/
theorem Prelude.settles_bind {script : Cli u α} (h : Prelude script)
    (hk : ∀ a, Settles host root command (k a)) : Settles host root command (script >>= k) := by
  intro acts error hruns haccepts hopened
  rcases runs_bind_iff.mp hruns with ⟨e, hfirst, -⟩ | ⟨a, front, rest, rfl, hfirst, hrest⟩
  · exact h.settles acts e hfirst haccepts hopened
  · have hidle := (h front _ hfirst).2 a rfl
    rw [honest_append_of_idle hidle, claimStays_append_of_idle hidle, valuesRead_append_of_idle hidle]
    exact hk a rest error hrest (trailAccepts_append.mp haccepts).2
      fun opened hmem => hopened opened (List.mem_append_right _ hmem)

/-- A session that is opened with the root key of the store. -/
theorem settles_open_bind {f : Except CliError RootKey → Except CliError RootKey}
    {k : RootKey → Cli u β} (hf : ∀ opened key, f opened = .ok key → opened = .ok key)
    (hk : Settles host root command (k root)) :
    Settles host root command (ask .openSession f >>= k) := by
  intro acts error hruns haccepts hopened
  rcases runs_bind_iff.mp hruns with ⟨e, hfirst, -⟩ | ⟨key, front, rest, rfl, hfirst, hrest⟩
  · have hopen : Prelude (ask .openSession f : Cli u RootKey) :=
      prelude_ask (fun _ => rfl) fun _ _ _ => rfl
    exact hopen.settles acts e hfirst haccepts hopened
  · obtain ⟨reply, rfl, hreply⟩ := runs_ask_iff.mp hfirst
    obtain rfl := hf reply key hreply.symm
    obtain rfl := hopened key (List.mem_cons_self ..)
    have hidle : ∀ act ∈ [(⟨.openSession, .ok key⟩ : CliAct u)], CliAct.idle act = true := by
      intro act hmem
      rw [List.mem_singleton.mp hmem]
      rfl
    rw [honest_append_of_idle hidle, claimStays_append_of_idle hidle, valuesRead_append_of_idle hidle]
    exact hk rest error hrest (trailAccepts_append.mp haccepts).2
      fun opened hmem => hopened opened (List.mem_append_right _ hmem)

/-- The script does nothing but record what it allows. -/
def Records (recording : Cli u Unit) : Prop :=
  ∀ acts result, Runs recording acts result → TrailAccepts acts → result = .ok () ∧
    ∃ claims : List Entry, claims ≠ [] ∧ (∀ entry ∈ claims, entry.allowed = true) ∧
      acts = claims.map fun entry => ⟨.record entry, .ok ()⟩

theorem CliAct.not_does_of_refuses {act : CliAct u} {entry : Entry} (h : act.refuses = true) :
    ¬ CliAct.Does host command secrets entry act := by
  obtain ⟨c, reply⟩ := act
  cases c with
  | putWithRotation | setRotation | delete | undelete | destroy | issueToken | revokeToken =>
      cases reply with
      | error error => exact id
      | ok found => cases h
  | _ => cases h

theorem CliAct.committed_of_refuses {act : CliAct u} (h : act.refuses = true) : act.committed = none := by
  obtain ⟨c, reply⟩ := act
  cases c with
  | record entry => cases h
  | _ => rfl

theorem cliEntries_records (claims : List Entry) :
    cliEntries (claims.map fun entry => (⟨.record entry, .ok ()⟩ : CliAct u)) = claims := by
  induction claims with
  | nil => rfl
  | cons entry claims ih => exact congrArg (entry :: ·) ih

/-- Claims that are followed by a refusal are not honest. -/
theorem not_honest_of_refusal (front : List (CliAct u)) {claims : List Entry} {act : CliAct u}
    (hne : claims ≠ []) (hallowed : ∀ entry ∈ claims, entry.allowed = true)
    (hdone : ∀ entry, ¬ CliAct.Does host command secrets entry act) (hcommitted : act.committed = none) :
    ¬ Honest host command secrets (front ++ (claims.map (fun entry => ⟨.record entry, .ok ()⟩) ++ [act])) := by
  cases claims with
  | nil => exact absurd rfl hne
  | cons entry claims =>
      apply not_honest_of_claim (hallowed entry (List.mem_cons_self ..))
      · intro other hmem
        rcases List.mem_append.mp hmem with hrecord | hlast
        · obtain ⟨claim, -, rfl⟩ := List.mem_map.mp hrecord
          exact id
        · rw [List.mem_singleton.mp hlast]
          exact hdone entry
      · intro other hmem
        have hlast : cliEntries [act] = [] := List.filterMap_cons_none hcommitted
        change other ∈ cliEntries (claims.map (fun entry => ⟨.record entry, .ok ()⟩) ++ [act]) at hmem
        rw [cliEntries_append, cliEntries_records, hlast, List.append_nil] at hmem
        exact hallowed other (List.mem_cons_of_mem _ hmem)

/-- A change that is recorded before it is made, and that the store refuses. -/
theorem refused_change {recording : Cli u Unit} {c : CliCall u} {f : c.Reply → Except CliError α}
    {front rest : List (CliAct u)} {error : CliError} (hrecords : Records recording)
    (hrefused : ∀ reply e, f reply = .error e → command.Refused (⟨c, reply⟩ : CliAct u))
    (hrecord : Runs recording front (.ok ())) (hask : Runs (ask c f) rest (.error error))
    (haccepts : TrailAccepts (front ++ rest)) :
    ¬ Honest host command secrets (front ++ rest) ∧ ∃ act ∈ front ++ rest, command.Refused act := by
  obtain ⟨-, claims, hne, hallowed, rfl⟩ := hrecords front _ hrecord (trailAccepts_append.mp haccepts).1
  obtain ⟨reply, rfl, hreply⟩ := runs_ask_iff.mp hask
  have hact := hrefused reply error hreply.symm
  have hrefuses := CliCommand.refuses_of_refused hact
  refine ⟨?_, _, List.mem_append_right _ (List.mem_singleton_self _), hact⟩
  exact not_honest_of_refusal [] hne hallowed (fun entry => CliAct.not_does_of_refuses hrefuses)
    (CliAct.committed_of_refuses hrefuses)

theorem runs_change_error {recording : Cli u Unit} {c : CliCall u} {f : c.Reply → Except CliError α}
    {error : CliError} (hrecords : Records recording)
    (hrefused : ∀ reply e, f reply = .error e → command.Refused (⟨c, reply⟩ : CliAct u))
    (hk : ∀ a acts e, ¬ Runs (k a) acts (.error e))
    (hruns : Runs (recording >>= fun _ => ask c f >>= k) acts (.error error))
    (haccepts : TrailAccepts acts) :
    ¬ Honest host command secrets acts ∧ ∃ act ∈ acts, command.Refused act := by
  rcases runs_bind_iff.mp hruns with ⟨e, hrecord, -⟩ | ⟨⟨⟩, front, rest, rfl, hrecord, hrest⟩
  · obtain ⟨hok, -⟩ := hrecords acts _ hrecord haccepts
    cases hok
  · rcases runs_bind_iff.mp hrest with ⟨e, hask, -⟩ | ⟨a, _, last, -, -, hlast⟩
    · exact refused_change hrecords hrefused hrecord hask haccepts
    · exact absurd hlast (hk a last error)

theorem settles_of_refusal {script : Cli u α}
    (h : ∀ acts error, Runs script acts (.error error) → TrailAccepts acts →
      ¬ Honest host command (valuesRead host root acts) acts ∧ ∃ act ∈ acts, command.Refused act) :
    Settles host root command script := by
  intro acts error hruns haccepts _
  obtain ⟨hnot, act, hmem, hrefused⟩ := h acts error hruns haccepts
  exact iff_of_false hnot (not_not_intro (.change act hmem hrefused))

theorem not_runs_print_error {text : String} {error : CliError} :
    ¬ Runs (Cli.print text : Cli u Unit) acts (.error error) := by
  intro h
  obtain ⟨_, -, hok⟩ := runs_ask_iff.mp h
  cases hok

theorem prelude_print {text : String} : Prelude (Cli.print text : Cli u Unit) :=
  prelude_ask (fun _ => rfl) fun _ _ _ => rfl

/-! ### The commands -/

theorem records_record {entry : Entry} (hallowed : entry.allowed = true) :
    Records (Session.record entry : Cli u Unit) := by
  intro acts result h haccepts
  obtain ⟨reply, rfl, rfl⟩ := runs_ask_iff.mp h
  cases reply with
  | error error => exact absurd haccepts not_trailAccepts_record
  | ok =>
      refine ⟨rfl, [entry], List.cons_ne_nil _ _, ?_, rfl⟩
      intro other hmem
      rw [List.mem_singleton.mp hmem]
      exact hallowed

theorem Records.bind {recording more : Cli u Unit} (h : Records recording) (hmore : Records more) :
    Records (do recording; more) := by
  intro acts result hruns haccepts
  rcases runs_bind_iff.mp hruns with ⟨e, hfirst, rfl⟩ | ⟨⟨⟩, front, rest, rfl, hfirst, hrest⟩
  · obtain ⟨hok, -⟩ := h acts _ hfirst haccepts
    cases hok
  · obtain ⟨hfront, hback⟩ := trailAccepts_append.mp haccepts
    obtain ⟨-, claims, hne, hallowed, rfl⟩ := h front _ hfirst hfront
    obtain ⟨rfl, claims', -, hallowed', rfl⟩ := hmore rest _ hrest hback
    refine ⟨rfl, claims ++ claims', List.append_ne_nil_of_left_ne_nil hne _, ?_, ?_⟩
    · intro entry hmem
      exact (List.mem_append.mp hmem).elim (hallowed entry) (hallowed' entry)
    · rw [List.map_append]

theorem records_recordWrite {path : SecretPath u} {rotation : Option Rotation} :
    Records (Cli.recordWrite host path rotation) := by
  have hwrite : Records (Session.record ((Session.operatorEntry host .write true none).withPath path) :
      Cli u Unit) := records_record rfl
  unfold Cli.recordWrite
  cases rotation with
  | none =>
      intro acts result h haccepts
      rcases runs_bind_iff.mp h with ⟨e, hfirst, rfl⟩ | ⟨⟨⟩, front, rest, rfl, hfirst, hrest⟩
      · exact hwrite acts _ hfirst haccepts
      · obtain ⟨rfl, rfl⟩ := runs_pure_iff.mp hrest
        rw [List.append_nil] at haccepts ⊢
        exact hwrite front _ hfirst haccepts
  | some rotation => exact hwrite.bind (records_record rfl)

theorem prelude_parseRotationArg {raw : Option String} :
    Prelude (Cli.parseRotationArg raw : Cli u (Option Rotation)) := by
  cases raw with
  | none => exact prelude_pure
  | some raw => exact prelude_ofExcept.bind fun _ => prelude_pure

theorem prelude_openSession {f : Except CliError RootKey → Except CliError RootKey} :
    Prelude (ask .openSession f : Cli u RootKey) :=
  prelude_ask (fun _ => rfl) fun _ _ _ => rfl

theorem storeValue_refused {key : RootKey} {path : SecretPath u} {createdBy : String}
    {rotation : Option Rotation} {value : List UInt8}
    (hcommand : ∀ encrypt error, command.Refused
      (⟨.putWithRotation path createdBy rotation encrypt, .error error⟩ : CliAct u))
    (reply : (CliCall.putWithRotation path createdBy rotation fun draws version =>
      encrypt host.aead key path version value draws).Reply) (e : CliError)
    (h : Except.mapError CliError.store reply = .error e) : command.Refused (⟨_, reply⟩ : CliAct u) := by
  cases reply with
  | ok version => cases h
  | error error => exact hcommand _ error

theorem put_settles {path : String} {rotation : Option String} :
    Settles host root (.put path rotation) (Cli.put host path rotation) := by
  refine prelude_ofExcept.settles_bind fun path => prelude_ofExcept.settles_bind fun _ =>
    (prelude_ask (fun _ => rfl) fun _ _ _ => rfl).settles_bind fun value =>
    prelude_parseRotationArg.settles_bind fun rotation =>
    prelude_openSession.settles_bind fun key => settles_of_refusal fun acts error hruns haccepts => ?_
  exact runs_change_error records_recordWrite (storeValue_refused fun _ _ => trivial)
    (fun _ _ _ => not_runs_print_error) hruns haccepts

theorem prelude_deletedVersion {path : SecretPath u} {version : Option UInt32} :
    Prelude (Cli.deletedVersion path version) := by
  unfold Cli.deletedVersion
  split
  · exact prelude_pure
  · refine prelude_ask (fun _ => rfl) ?_
    intro reply a hreply
    cases reply with
    | ok found => rfl
    | error error => cases hreply

theorem prelude_versionArg {version : UInt32} : Prelude (Cli.versionArg version : Cli u SecretVersion) := by
  unfold Cli.versionArg
  split
  · exact prelude_pure
  · exact prelude_ofExcept

/-- One entry, and then one change of the store. -/
theorem settles_recorded_change {entry : Entry} (hallowed : entry.allowed = true) {c : CliCall u}
    {f : c.Reply → Except CliError α}
    (hrefused : ∀ reply e, f reply = .error e → command.Refused (⟨c, reply⟩ : CliAct u))
    (hk : ∀ a acts e, ¬ Runs (k a) acts (.error e)) :
    Settles host root command (Session.record entry >>= fun _ => ask c f >>= k) :=
  settles_of_refusal fun _ _ hruns haccepts =>
    runs_change_error (records_record hallowed) hrefused hk hruns haccepts

theorem mapError_store_error {γ : Type} {reply : Except StoreError γ} {e : CliError}
    (h : reply.mapError CliError.store = .error e) : ∃ error, reply = .error error := by
  cases reply with
  | ok value => cases h
  | error error => exact ⟨error, rfl⟩

theorem delete_settles {path : String} {version : Option UInt32} :
    Settles host root (.delete path version) (Cli.delete host path version) := by
  refine prelude_ofExcept.settles_bind fun path => prelude_ofExcept.settles_bind fun _ =>
    prelude_openSession.settles_bind fun key => prelude_deletedVersion.settles_bind fun version =>
    settles_recorded_change rfl ?_ fun _ _ _ => not_runs_print_error
  intro reply e h
  obtain ⟨error, rfl⟩ := mapError_store_error h
  trivial

theorem undelete_settles {path : String} {version : UInt32} :
    Settles host root (.undelete path version) (Cli.undelete host path version) := by
  refine prelude_ofExcept.settles_bind fun path => prelude_versionArg.settles_bind fun version =>
    prelude_openSession.settles_bind fun key =>
    settles_recorded_change rfl ?_ fun _ _ _ => not_runs_print_error
  intro reply e h
  obtain ⟨error, rfl⟩ := mapError_store_error h
  trivial

theorem destroy_settles {path : String} {version : UInt32} {yes : Bool} :
    Settles host root (.destroy path version yes) (Cli.destroy host path version yes) := by
  refine prelude_ofExcept.settles_bind fun path => prelude_versionArg.settles_bind fun version => ?_
  cases yes with
  | false => exact prelude_ofExcept.settles
  | true =>
      refine prelude_openSession.settles_bind fun key =>
        settles_recorded_change rfl ?_ fun _ _ _ => not_runs_print_error
      intro reply e h
      obtain ⟨error, rfl⟩ := mapError_store_error h
      trivial

theorem rotation_settles {path : String} {newClass : Option String} :
    Settles host root (.rotation path newClass) (Cli.rotation host path newClass) := by
  refine prelude_ofExcept.settles_bind fun path => ?_
  cases newClass with
  | none =>
      have hopen : Prelude (ask .openMetadata (·.mapError .store) : Cli u Unit) :=
        prelude_ask (fun _ => rfl) fun _ _ _ => rfl
      have hmetadata : Prelude (ask (.metadata path) (·.mapError .store) : Cli u (SecretMetadata u)) := by
        refine prelude_ask (fun _ => rfl) ?_
        intro reply a hreply
        cases reply with
        | ok found => rfl
        | error error => cases hreply
      exact (hopen.bind fun _ => hmetadata.bind fun _ => prelude_print).settles
  | some raw =>
      refine prelude_ofExcept.settles_bind fun rotation => prelude_openSession.settles_bind fun key =>
        settles_of_refusal fun acts error hruns haccepts => ?_
      change Runs (Cli.classify host path rotation >>= fun _ => Cli.print _) acts (.error error) at hruns
      rcases runs_bind_iff.mp hruns with ⟨e, hclassify, -⟩ | ⟨_, _, last, -, -, hlast⟩
      · rcases runs_bind_iff.mp hclassify with ⟨_, hrecord, -⟩ | ⟨⟨⟩, front, rest, rfl, hrecord, hset⟩
        · obtain ⟨hok, -⟩ := records_record rfl acts _ hrecord haccepts
          cases hok
        · refine refused_change (records_record rfl) ?_ hrecord hset haccepts
          intro reply e h
          obtain ⟨error, rfl⟩ := mapError_store_error h
          trivial
      · exact absurd hlast not_runs_print_error

theorem prelude_guardSecretOutput {force : Bool} : Prelude (Cli.guardSecretOutput force : Cli u Unit) := by
  unfold Cli.guardSecretOutput
  split
  · exact prelude_pure
  · exact prelude_ask (fun _ => rfl) fun _ _ _ => rfl

theorem prelude_expiry {ttl : Option String} : Prelude (Cli.expiry ttl : Cli u (Option Int)) := by
  cases ttl with
  | none => exact prelude_pure
  | some ttl => exact prelude_ofExcept.bind fun _ => prelude_ask (fun _ => rfl) fun _ _ _ => rfl

theorem issueToken_settles {identity : String} {ttl : Option String} {noExpiry force honeypot : Bool} :
    Settles host root (.issueToken identity ttl noExpiry force honeypot)
      (Cli.issueToken host identity ttl noExpiry force honeypot) := by
  unfold Cli.issueToken
  split
  · exact prelude_ofExcept.settles
  · refine (prelude_ask (fun _ => rfl) fun _ _ _ => rfl).settles_bind fun policies => ?_
    split
    · exact prelude_ofExcept.settles
    · refine prelude_guardSecretOutput.settles_bind fun _ => prelude_expiry.settles_bind fun expiresAt =>
        prelude_openSession.settles_bind fun key =>
        (prelude_ask (fun _ => rfl) fun _ _ _ => rfl).settles_bind fun token =>
        settles_recorded_change rfl ?_ fun _ _ _ => not_runs_print_error
      intro reply e h
      obtain ⟨error, rfl⟩ := mapError_store_error h
      trivial

theorem revoke_settles {tokenId : String} :
    Settles host root (.revoke tokenId) (Cli.revoke host tokenId) := by
  refine prelude_openSession.settles_bind fun key =>
    (prelude_ask (fun _ => rfl) fun _ _ _ => rfl).settles_bind fun found => ?_
  cases found with
  | none => exact prelude_ofExcept.settles
  | some found =>
      refine settles_recorded_change rfl ?_ fun _ _ _ => not_runs_print_error
      intro reply e h
      obtain ⟨error, rfl⟩ := mapError_store_error h
      trivial

/-- A loop that is recorded as a whole. -/
theorem runs_each_records {one : α → Cli u Unit} (hone : ∀ a, Records (one a)) {as : List α}
    {result : Except CliError (List Unit)} (h : Runs (Cli.each one as) acts result)
    (haccepts : TrailAccepts acts) :
    (∃ units, result = .ok units) ∧ ∃ claims : List Entry, (claims = [] ↔ as = []) ∧
      (∀ entry ∈ claims, entry.allowed = true) ∧
      acts = claims.map fun entry => ⟨.record entry, .ok ()⟩ := by
  induction as generalizing acts result with
  | nil =>
      obtain ⟨rfl, rfl⟩ := runs_pure_iff.mp h
      exact ⟨⟨[], rfl⟩, [], iff_of_true rfl rfl, List.forall_mem_nil _, rfl⟩
  | cons a as ih =>
      rcases runs_bind_iff.mp h with ⟨e, hfirst, -⟩ | ⟨⟨⟩, front, rest, rfl, hfirst, hrest⟩
      · obtain ⟨hok, -⟩ := hone a acts _ hfirst haccepts
        cases hok
      · obtain ⟨hfront, hback⟩ := trailAccepts_append.mp haccepts
        obtain ⟨-, claims, hne, hallowed, rfl⟩ := hone a front _ hfirst hfront
        rcases runs_bind_iff.mp hrest with ⟨e, hloop, -⟩ | ⟨units, front', last, rfl, hloop, hlast⟩
        · obtain ⟨⟨_, hok⟩, -⟩ := ih hloop hback
          cases hok
        · obtain ⟨rfl, rfl⟩ := runs_pure_iff.mp hlast
          rw [List.append_nil] at hback ⊢
          obtain ⟨-, claims', -, hallowed', rfl⟩ := ih hloop hback
          refine ⟨⟨_, rfl⟩, claims ++ claims', iff_of_false ?_ (List.cons_ne_nil _ _), ?_, ?_⟩
          · exact List.append_ne_nil_of_left_ne_nil hne _
          · intro entry hmem
            exact (List.mem_append.mp hmem).elim (hallowed entry) (hallowed' entry)
          · rw [List.map_append]

/-- The revocation of an identity's tokens that is refused leaves a claim for each valid one. -/
theorem revocation_honest_iff {identity : String} {found : List TokenRecord} {failed : StoreError}
    {claims : List Entry}
    (hempty : claims = [] ↔ (found.filter (·.revokedAt.isNone)).map (·.tokenId) = [])
    (hallowed : ∀ entry ∈ claims, entry.allowed = true) :
    let acts : List (CliAct u) := [⟨.tokens (some identity), .ok found⟩] ++
      (claims.map (fun entry => ⟨.record entry, .ok ()⟩) ++ [⟨.revokeIdentityTokens identity, .error failed⟩])
    Honest host (.revokeAll identity) secrets acts ↔ ¬ ClaimStays host root acts (.revokeAll identity) := by
  intro acts
  have hlisted : (⟨.tokens (some identity), .ok found⟩ : CliAct u) ∈ acts := List.mem_cons_self ..
  have hlast : (⟨.revokeIdentityTokens identity, .error failed⟩ : CliAct u) ∈ acts := by
    simp only [acts, List.mem_append, List.mem_singleton, or_true]
  by_cases hne : claims = []
  · have hacts : acts = [⟨.tokens (some identity), .ok found⟩,
        ⟨.revokeIdentityTokens identity, .error failed⟩] := by
      simp only [acts, hne]
      rfl
    refine iff_of_true ?_ ?_
    · rw [hacts]
      exact honest_of_silent rfl
    · intro hstays
      rw [hacts] at hstays
      cases hstays with
      | change act hmem hrefused => exact hrefused
      | revocation _ records error hrecords hvalid hrefused =>
          simp only [List.mem_cons, List.not_mem_nil, or_false] at hrecords
          rcases hrecords with heq | heq
          · cases heq
            obtain ⟨record, hrecord, hrevoked⟩ := hvalid
            have hnone := List.map_eq_nil_iff.mp (hempty.mp hne)
            have hkept : record ∈ found.filter (·.revokedAt.isNone) :=
              List.mem_filter.mpr ⟨hrecord, by rw [hrevoked]; rfl⟩
            rw [hnone] at hkept
            cases hkept
          · cases heq
      | unread act hread => exact hread rfl
  · refine iff_of_false ?_ (not_not_intro ?_)
    · exact not_honest_of_refusal [_] hne hallowed (fun entry => id) rfl
    · refine .revocation identity found failed hlisted ?_ hlast
      cases hvalid : found.filter (·.revokedAt.isNone) with
      | nil =>
          rw [hvalid] at hempty
          exact absurd (hempty.mpr rfl) hne
      | cons record records =>
          have hmem : record ∈ found.filter (·.revokedAt.isNone) := by
            rw [hvalid]
            exact List.mem_cons_self ..
          obtain ⟨hrecord, hrevoked⟩ := List.mem_filter.mp hmem
          exact ⟨record, hrecord, Option.isNone_iff_eq_none.mp hrevoked⟩

theorem revokeAll_settles {identity : String} :
    Settles host root (.revokeAll identity) (Cli.revokeAll host identity) := by
  refine prelude_openSession.settles_bind fun key => ?_
  intro acts error hruns haccepts _
  rcases runs_bind_iff.mp hruns with ⟨e, hlist, -⟩ | ⟨records, front, rest, rfl, hlist, hrest⟩
  · obtain ⟨reply, rfl, -⟩ := runs_ask_iff.mp hlist
    have hmute : ∀ act ∈ [(⟨.tokens (some identity), reply⟩ : CliAct u)], CliAct.mute act = true := by
      intro act hmem
      rw [List.mem_singleton.mp hmem]
      rfl
    exact iff_of_true (honest_of_mute hmute) (not_claimStays_of_mute hmute)
  · obtain ⟨reply, rfl, hreply⟩ := runs_ask_iff.mp hlist
    cases reply with
    | error error => cases hreply
    | ok found =>
        cases hreply
        have hrecorded := (trailAccepts_append.mp haccepts).2
        rcases runs_bind_iff.mp hrest with ⟨e, hloop, -⟩ | ⟨units, recorded, last, rfl, hloop, hlast⟩
        · obtain ⟨⟨_, hok⟩, -⟩ := runs_each_records (fun _ => records_record rfl) hloop hrecorded
          cases hok
        · obtain ⟨-, claims, hempty, hallowed, rfl⟩ := runs_each_records (fun _ => records_record rfl) hloop
            (trailAccepts_append.mp hrecorded).1
          rcases runs_bind_iff.mp hlast with ⟨e, hask, -⟩ | ⟨_, _, printed, -, -, hprint⟩
          · obtain ⟨refusal, rfl, hrefused⟩ := runs_ask_iff.mp hask
            obtain ⟨failed, rfl⟩ := mapError_store_error hrefused.symm
            exact revocation_honest_iff hempty hallowed
          · exact absurd hprint not_runs_print_error

/-- An import that fails: what was recorded of its last secret was refused. -/
theorem runs_importAll_error {key : RootKey} {rotation : Option Rotation}
    {targets : List (SecretPath u × String)} {error : CliError}
    (h : Runs (Cli.each (Cli.importOne host key rotation) targets) acts (.error error))
    (haccepts : TrailAccepts acts)
    (hcommand : ∀ path createdBy rotation encrypt error, command.Refused
      (⟨.putWithRotation path createdBy rotation encrypt, .error error⟩ : CliAct u)) :
    ¬ Honest host command secrets acts ∧ ∃ act ∈ acts, command.Refused act := by
  induction targets generalizing acts error with
  | nil => cases (runs_pure_iff.mp h).2
  | cons target targets ih =>
      rcases runs_bind_iff.mp h with ⟨e, hfirst, -⟩ | ⟨_, front, rest, rfl, -, hrest⟩
      · exact runs_change_error records_recordWrite (storeValue_refused (hcommand _ _ _))
          (fun _ _ _ => not_runs_print_error) hfirst haccepts
      · rcases runs_bind_iff.mp hrest with ⟨e, hloop, -⟩ | ⟨_, _, last, -, -, hlast⟩
        · obtain ⟨hnot, act, hmem, hrefused⟩ := ih hloop (trailAccepts_append.mp haccepts).2
          exact ⟨fun hhonest => hnot hhonest.of_append, act, List.mem_append_right _ hmem, hrefused⟩
        · cases (runs_pure_iff.mp hlast).2

theorem importDotenv_settles {fromDotenv : Option String} {start : String} {dryRun : Bool}
    {rotation : Option String} :
    Settles host root (.importDotenv fromDotenv start dryRun rotation)
      (Cli.importDotenv host fromDotenv start dryRun rotation) := by
  refine prelude_ofExcept.settles_bind fun start => prelude_parseRotationArg.settles_bind fun rotation =>
    (prelude_ask (fun _ => rfl) fun _ _ _ => rfl).settles_bind fun text =>
    prelude_ofExcept.settles_bind fun entries => prelude_ofExcept.settles_bind fun targets => ?_
  cases dryRun with
  | true => exact prelude_print.settles
  | false =>
      refine prelude_openSession.settles_bind fun key =>
        settles_of_refusal fun acts error hruns haccepts => ?_
      rcases runs_bind_iff.mp hruns with ⟨e, hloop, -⟩ | ⟨_, _, last, -, -, hlast⟩
      · exact runs_importAll_error hloop haccepts fun _ _ _ _ _ => trivial
      · cases (runs_pure_iff.mp hlast).2

/-! ### Values that are written out -/

namespace CliAct

/-- A call that reads, or records what was read. -/
def reading : CliAct u → Bool
  | ⟨.get _ _, _⟩ | ⟨.metadata _, _⟩ | ⟨.record _, _⟩ => true
  | _ => false

/-- A call that writes out. -/
def writing : CliAct u → Bool
  | ⟨.print _, _⟩ | ⟨.appendFile _ _, _⟩ => true
  | _ => false

/-- A read is no change, writes nothing out, and learns nothing of the environment file. -/
theorem of_reading {act : CliAct u} (h : act.reading = true) :
    act.refuses = false ∧ act.writing = false ∧ act.unsent = false := by
  obtain ⟨c, reply⟩ := act
  cases c with
  | get | metadata | record => exact ⟨rfl, rfl, rfl⟩
  | _ => cases h

theorem Tells.writing {secret : Exported u} {act : CliAct u} (h : Tells host secrets secret command act) :
    act.writing = true := by
  cases h
  all_goals rfl

/-- What a read claims is done by writing the value out, and by nothing else. -/
theorem does_read_iff {entry : Entry} {act : CliAct u} (hread : entry.action = .read) :
    act.Does host command secrets entry ↔ HandsOut host command secrets entry act := by
  constructor
  · intro h
    obtain ⟨c, reply⟩ := act
    cases c with
    | print | appendFile => exact h
    | putWithRotation path createdBy rotation encrypt =>
        cases reply with
        | error error => cases h
        | ok version =>
            obtain ⟨-, haction | ⟨haction, -⟩⟩ := h
            · rw [hread] at haction
              cases haction
            · rw [hread] at haction
              cases haction
    | setRotation | delete | undelete | destroy | issueToken | revokeToken | revokeIdentityTokens =>
        cases reply with
        | error error => cases h
        | ok found =>
            have haction := h.1
            rw [hread] at haction
            cases haction
    | _ => cases h
  · intro h
    have hwriting : act.writing = true := by
      obtain ⟨-, secret, -, -, htells⟩ := h
      exact htells.writing
    obtain ⟨c, reply⟩ := act
    cases c with
    | print | appendFile => exact h
    | _ => cases hwriting

end CliAct

theorem valueText_toOption {stored : StoredVersion u} {complaint : String} :
    (Cli.valueText host root stored complaint).toOption = plainText host root stored := by
  unfold Cli.valueText plainText
  cases decrypt host.aead root stored.path stored.version stored.value with
  | error error => rfl
  | ok plaintext =>
      dsimp only [Except.mapError, Except.bind, Bind.bind, Except.toOption, Option.bind]
      cases Rust.fromUtf8 plaintext with
      | none => rfl
      | some text => rfl

/-- The acts of a loop of reads: each value that was read is recorded, and nothing else is done. -/
structure ReadsOnly (host : CliHost u) (root : RootKey) (acts : List (CliAct u)) : Prop where
  reading : ∀ act ∈ acts, CliAct.reading act = true
  entries : ∀ entry ∈ cliEntries acts, entry.action = .read ∧ entry.allowed = true
  paths : (cliEntries acts).map (·.path) = (valuesRead host root acts).map (some ·.path.text)

theorem ReadsOnly.append {later : List (CliAct u)} (h : ReadsOnly host root acts)
    (h' : ReadsOnly host root later) : ReadsOnly host root (acts ++ later) where
  reading act hmem := (List.mem_append.mp hmem).elim (h.reading act) (h'.reading act)
  entries entry hmem := by
    rw [cliEntries_append] at hmem
    exact (List.mem_append.mp hmem).elim (h.entries entry) (h'.entries entry)
  paths := by
    rw [cliEntries_append, valuesRead_append, List.map_append, List.map_append, h.paths, h'.paths]

theorem readsOnly_nil : ReadsOnly host root ([] : List (CliAct u)) where
  reading := List.forall_mem_nil _
  entries := List.forall_mem_nil _
  paths := rfl

/-- How one read ends: it is recorded, and its value is as it is related to the result; or it has
failed before anything was recorded. -/
inductive ReadEnds (host : CliHost u) (root : RootKey) (rel : α → Exported u → Prop)
    (acts : List (CliAct u)) : Except CliError (List α) → Prop where
  | read (results : List α) (hreads : ReadsOnly host root acts)
      (hreadable : ∀ act ∈ acts, unreadable host root act = false)
      (hrel : List.Forall₂ rel results (valuesRead host root acts)) :
      ReadEnds host root rel acts (.ok results)
  | failed (error : CliError) (hreads : ReadsOnly host root acts)
      (hunreadable : ∃ act ∈ acts, unreadable host root act = true) :
      ReadEnds host root rel acts (.error error)

theorem readsOnly_get {path : SecretPath u} {reply : Except StoreError (StoredVersion u)}
    (h : unreadable host root (⟨.get path none, reply⟩ : CliAct u) = true) :
    ReadsOnly host root [⟨.get path none, reply⟩] where
  reading act hmem := by
    rw [List.mem_singleton.mp hmem]
    rfl
  entries := List.forall_mem_nil _
  paths := by
    have hnone : valueOf host root (⟨.get path none, reply⟩ : CliAct u) = none := by
      cases reply with
      | error error => rfl
      | ok stored =>
          have hplain : (plainText host root stored).isNone = true := h
          change (plainText host root stored).map _ = none
          rw [Option.isNone_iff_eq_none.mp hplain]
          rfl
    unfold valuesRead
    rw [List.filterMap_cons_none hnone]
    rfl

/-- A value that was read and recorded. -/
theorem readEnds_of_plain {path : SecretPath u} {stored : StoredVersion u} {value : String} {b : α}
    {rel : α → Exported u → Prop} (hplain : plainText host root stored = some value)
    (hrel : rel b ⟨stored.path, value⟩) :
    ReadEnds host root rel [⟨.get path none, .ok stored⟩, ⟨.record (Cli.readEntry host stored), .ok ()⟩]
      (.ok [b]) := by
  have hvalues : valuesRead host root [(⟨.get path none, .ok stored⟩ : CliAct u),
      ⟨.record (Cli.readEntry host stored), .ok ()⟩] = [⟨stored.path, value⟩] := by
    have hvalue : valueOf host root (⟨.get path none, .ok stored⟩ : CliAct u) =
        some ⟨stored.path, value⟩ := by
      change (plainText host root stored).map _ = _
      rw [hplain]
      rfl
    unfold valuesRead
    rw [List.filterMap_cons_some hvalue]
    rfl
  have hmem : ∀ act ∈ [(⟨.get path none, .ok stored⟩ : CliAct u),
      ⟨.record (Cli.readEntry host stored), .ok ()⟩],
      act = ⟨.get path none, .ok stored⟩ ∨ act = ⟨.record (Cli.readEntry host stored), .ok ()⟩ := by
    intro act hact
    simpa using hact
  refine .read [b] ⟨?_, ?_, ?_⟩ ?_ ?_
  · intro act hact
    rcases hmem act hact with rfl | rfl
    · rfl
    · rfl
  · intro entry hentry
    rw [List.mem_singleton.mp hentry]
    exact ⟨rfl, rfl⟩
  · rw [hvalues]
    rfl
  · intro act hact
    rcases hmem act hact with rfl | rfl
    · change (plainText host root stored).isNone = false
      rw [hplain]
      rfl
    · rfl
  · rw [hvalues]
    exact .cons hrel .nil

/-- One value that is read, checked and recorded. -/
theorem runs_readValue {path : SecretPath u} {complaint : String} {g : StoredVersion u → String → α}
    {rel : α → Exported u → Prop} (hrel : ∀ stored value, rel (g stored value) ⟨stored.path, value⟩)
    {result : Except CliError α}
    (h : Runs (do
      let stored ← ask (.get path none) (·.mapError .store)
      let value ← ofExcept (Cli.valueText host root stored complaint)
      Session.record (Cli.readEntry host stored)
      return g stored value : Cli u α) acts result) (haccepts : TrailAccepts acts) :
    ReadEnds host root rel acts (result.map ([·])) := by
  rcases runs_bind_iff.mp h with ⟨e, hget, rfl⟩ | ⟨stored, front, rest, rfl, hget, hrest⟩
  · obtain ⟨reply, rfl, hreply⟩ := runs_ask_iff.mp hget
    obtain ⟨error, rfl⟩ := mapError_store_error hreply.symm
    exact .failed _ (readsOnly_get rfl) ⟨_, List.mem_singleton_self _, rfl⟩
  · obtain ⟨reply, rfl, hreply⟩ := runs_ask_iff.mp hget
    cases reply with
    | error error => cases hreply
    | ok found =>
        cases hreply
        have htext : (Cli.valueText host root stored complaint).toOption = plainText host root stored :=
          valueText_toOption
        cases hvalue : Cli.valueText host root stored complaint with
        | error error =>
            rw [hvalue] at hrest htext
            obtain ⟨rfl, rfl⟩ := runs_ofExcept_iff.mp hrest
            have hunreadable : unreadable host root (⟨.get path none, .ok stored⟩ : CliAct u) = true := by
              change (plainText host root stored).isNone = true
              rw [← htext]
              rfl
            exact .failed _ (readsOnly_get hunreadable) ⟨_, List.mem_singleton_self _, hunreadable⟩
        | ok value =>
            rw [hvalue] at hrest htext
            have hplain : plainText host root stored = some value := htext.symm
            change Runs (Session.record (Cli.readEntry host stored) >>= fun _ => pure (g stored value))
              rest result at hrest
            rcases runs_bind_iff.mp hrest with ⟨e, hrecord, -⟩ | ⟨_, recorded, last, rfl, hrecord, hlast⟩
            · have hallowed : (Cli.readEntry host stored).allowed = true := rfl
              obtain ⟨hok, -⟩ := records_record hallowed rest _ hrecord (trailAccepts_append.mp haccepts).2
              cases hok
            · obtain ⟨rfl, rfl⟩ := runs_pure_iff.mp hlast
              obtain ⟨recording, rfl, hrecording⟩ := runs_ask_iff.mp hrecord
              cases recording with
              | error error => cases hrecording
              | ok => exact readEnds_of_plain hplain (hrel stored value)

/-- A loop of reads that stops at the first failure. -/
theorem runs_each_readEnds {one : SecretPath u → Cli u α} {rel : α → Exported u → Prop}
    (hone : ∀ path acts result, Runs (one path) acts result → TrailAccepts acts →
      ReadEnds host root rel acts (result.map ([·]))) {paths : List (SecretPath u)}
    {result : Except CliError (List α)} (h : Runs (Cli.each one paths) acts result)
    (haccepts : TrailAccepts acts) :
    ReadEnds host root rel acts result ∧ ∀ results, result = .ok results → results.length = paths.length := by
  induction paths generalizing acts result with
  | nil =>
      obtain ⟨rfl, rfl⟩ := runs_pure_iff.mp h
      refine ⟨.read [] readsOnly_nil (List.forall_mem_nil _) .nil, ?_⟩
      intro results hresults
      cases hresults
      rfl
  | cons path paths ih =>
      rcases runs_bind_iff.mp h with ⟨e, hfirst, rfl⟩ | ⟨b, front, rest, rfl, hfirst, hrest⟩
      · exact ⟨hone path acts _ hfirst haccepts, nofun⟩
      · obtain ⟨hfront, hback⟩ := trailAccepts_append.mp haccepts
        cases hone path front _ hfirst hfront with
        | read _ hreads hreadable hrel =>
            rcases runs_bind_iff.mp hrest with ⟨e, hloop, rfl⟩ | ⟨bs, more, last, rfl, hloop, hlast⟩
            · obtain ⟨hmore, -⟩ := ih hloop hback
              cases hmore with
              | failed _ hreads' hunreadable =>
                  obtain ⟨act, hmem, hact⟩ := hunreadable
                  exact ⟨.failed e (hreads.append hreads') ⟨act, List.mem_append_right _ hmem, hact⟩, nofun⟩
            · obtain ⟨rfl, rfl⟩ := runs_pure_iff.mp hlast
              rw [List.append_nil] at hback ⊢
              obtain ⟨hmore, hlength⟩ := ih hloop hback
              cases hmore with
              | read _ hreads' hreadable' hrel' =>
                  refine ⟨.read _ (hreads.append hreads') ?_ ?_, ?_⟩
                  · intro act hmem
                    exact (List.mem_append.mp hmem).elim (hreadable act) (hreadable' act)
                  · unfold valuesRead at hrel hrel' ⊢
                    rw [List.filterMap_append]
                    exact List.rel_append hrel hrel'
                  · intro results hresults
                    cases hresults
                    rw [List.length_cons, List.length_cons, hlength bs rfl]

theorem CliAct.not_does_of_silent {entry : Entry} {act : CliAct u} (hread : entry.action = .read)
    (hsilent : act.writing = false) : ¬ act.Does host command secrets entry := by
  intro h
  obtain ⟨-, secret, -, -, htells⟩ := (CliAct.does_read_iff hread).mp h
  rw [htells.writing] at hsilent
  cases hsilent

/-- A read whose value is not written out by what follows the reads is a claim that stays. -/
theorem ReadsOnly.not_honest {later : List (CliAct u)} {entry : Entry} (h : ReadsOnly host root acts)
    (hentry : entry ∈ cliEntries acts) (hmute : ∀ act ∈ later, CliAct.mute act = true)
    (hdone : ∀ act ∈ later, ¬ CliAct.Does host command secrets entry act) :
    ¬ Honest host command secrets (acts ++ later) := by
  obtain ⟨act, hact, hcommitted⟩ := List.mem_filterMap.mp hentry
  obtain ⟨front, rest, heq⟩ := List.append_of_mem hact
  have hrest : ∀ act ∈ rest, act ∈ acts := by
    intro act hmem
    rw [heq]
    exact List.mem_append_right _ (List.mem_cons_of_mem _ hmem)
  have hrecord : act = ⟨.record entry, .ok ()⟩ := by
    obtain ⟨c, reply⟩ := act
    cases c with
    | record other =>
        cases reply with
        | error error => cases hcommitted
        | ok =>
            cases hcommitted
            rfl
    | _ => cases hcommitted
  rw [heq, hrecord, List.append_assoc, List.cons_append]
  refine not_honest_of_claim (h.entries entry hentry).2 ?_ ?_
  · intro act hmem
    rcases List.mem_append.mp hmem with hmem | hmem
    · exact CliAct.not_does_of_silent (h.entries entry hentry).1
        (CliAct.of_reading (h.reading act (hrest act hmem))).2.1
    · exact hdone act hmem
  · intro other hother
    obtain ⟨act, hmem, hact⟩ := List.mem_filterMap.mp hother
    rcases List.mem_append.mp hmem with hmem | hmem
    · exact (h.entries other (List.mem_filterMap.mpr ⟨act, hrest act hmem, hact⟩)).2
    · rw [CliAct.committed_of_mute (hmute act hmem)] at hact
      cases hact

/-- Each entry of the reads has a value. -/
theorem ReadsOnly.exists_secret {entry : Entry} (h : ReadsOnly host root acts)
    (hentry : entry ∈ cliEntries acts) :
    ∃ secret ∈ valuesRead host root acts, entry.path = some secret.path.text := by
  have hmem : entry.path ∈ (cliEntries acts).map (·.path) := List.mem_map_of_mem hentry
  rw [h.paths] at hmem
  obtain ⟨secret, hsecret, hpath⟩ := List.mem_map.mp hmem
  exact ⟨secret, hsecret, hpath.symm⟩

theorem ReadsOnly.exists_entry {secret : Exported u} (h : ReadsOnly host root acts)
    (hsecret : secret ∈ valuesRead host root acts) :
    ∃ entry ∈ cliEntries acts, entry.path = some secret.path.text := by
  have hmem : some secret.path.text ∈ (valuesRead host root acts).map (some ·.path.text) :=
    List.mem_map_of_mem hsecret
  rw [← h.paths] at hmem
  exact List.mem_map.mp hmem

/-- Reads that nothing was written out of are claims that stay. -/
theorem ReadsOnly.honest_iff (h : ReadsOnly host root acts) :
    Honest host command secrets acts ↔ valuesRead host root acts = [] := by
  constructor
  · intro hhonest
    apply List.eq_nil_iff_forall_not_mem.mpr
    intro secret hsecret
    obtain ⟨entry, hentry, -⟩ := h.exists_entry hsecret
    have hnot : ¬ Honest host command secrets (acts ++ []) :=
      h.not_honest hentry (List.forall_mem_nil _) (List.forall_mem_nil _)
    rw [List.append_nil] at hnot
    exact hnot hhonest
  · intro hnone
    apply honest_of_silent
    have hpaths := h.paths
    rw [hnone] at hpaths
    exact List.map_eq_nil_iff.mp hpaths

/-- What stays of reads: a value that could not be read after others, values that could not be rendered,
or a value without a line to mask that did not get into the environment file. -/
theorem ReadsOnly.claimStays_iff {later : List (CliAct u)} (h : ReadsOnly host root acts)
    (hmute : ∀ act ∈ later, CliAct.mute act = true)
    (hreadable : ∀ act ∈ later, unreadable host root act = false) :
    ClaimStays host root (acts ++ later) command ↔
      (valuesRead host root acts ≠ [] ∧ ((∃ act ∈ acts, unreadable host root act = true) ∨
        ∃ args format error, command = .exportSecrets args ∧
          Cli.ExportFormat.parse args.format = some format ∧
          Cli.rendered host format (valuesRead host root acts) = .error error)) ∨
      ∃ args secret act, command = .exportSecrets args ∧ secret ∈ valuesRead host root acts ∧
        maskedLines secret.value = [] ∧ Cli.ExportFormat.parse args.format = some .actionsEnv ∧
        args.githubEnv = true ∧ act ∈ later ∧ CliAct.unsent act = true := by
  have hvalues : valuesRead host root (acts ++ later) = valuesRead host root acts := by
    rw [valuesRead_append, valuesRead_of_mute hmute, List.append_nil]
  constructor
  · intro hstays
    cases hstays with
    | change act hmem hrefused =>
        have hrefuses := CliCommand.refuses_of_refused hrefused
        rcases List.mem_append.mp hmem with hleft | hright
        · rw [(CliAct.of_reading (h.reading act hleft)).1] at hrefuses
          cases hrefuses
        · rw [CliAct.refuses_of_mute (hmute act hright)] at hrefuses
          cases hrefuses
    | revocation identity records error hlisted hvalid hrefused =>
        rcases List.mem_append.mp hrefused with hleft | hright
        · have hreading := h.reading _ hleft
          cases hreading
        · have hlast := hmute _ hright
          cases hlast
    | unread act hread hmem hunreadable =>
        rw [hvalues] at hread
        rcases List.mem_append.mp hmem with hleft | hright
        · exact .inl ⟨hread, .inl ⟨act, hleft, hunreadable⟩⟩
        · rw [hreadable act hright] at hunreadable
          cases hunreadable
    | unrendered args format error hread hformat hrender =>
        rw [hvalues] at hread hrender
        exact .inl ⟨hread, .inr ⟨args, format, error, rfl, hformat, hrender⟩⟩
    | unmasked args secret act hread hlines hformat henv hmem hunsent =>
        rw [hvalues] at hread
        rcases List.mem_append.mp hmem with hleft | hright
        · rw [(CliAct.of_reading (h.reading act hleft)).2.2] at hunsent
          cases hunsent
        · exact .inr ⟨args, secret, act, rfl, hread, hlines, hformat, henv, hright, hunsent⟩
  · rintro (⟨hread, ⟨act, hmem, hunreadable⟩ | ⟨args, format, error, rfl, hformat, hrender⟩⟩ |
      ⟨args, secret, act, rfl, hread, hlines, hformat, henv, hmem, hunsent⟩)
    · exact .unread act (by rwa [hvalues]) (List.mem_append_left _ hmem) hunreadable
    · exact .unrendered args format error (by rwa [hvalues]) hformat (by rwa [hvalues])
    · exact .unmasked args secret act (by rwa [hvalues]) hlines hformat henv
        (List.mem_append_right _ hmem) hunsent

/-- A loop of reads that fails, of a command that writes nothing else out. -/
theorem ReadEnds.failed_settles {rel : α → Exported u → Prop} {error : CliError}
    (h : ReadEnds host root rel acts (.error error)) :
    Honest host command secrets acts ↔ ¬ ClaimStays host root acts command := by
  cases h with
  | failed _ hreads hunreadable =>
      have hstays : ClaimStays host root (acts ++ []) command ↔ _ :=
        hreads.claimStays_iff (List.forall_mem_nil _) (List.forall_mem_nil _)
      rw [List.append_nil] at hstays
      rw [hreads.honest_iff, hstays, not_or, not_and_or, not_not]
      constructor
      · intro hnone
        refine ⟨.inl hnone, ?_⟩
        rintro ⟨_, _, act, -, -, -, -, -, hmem, -⟩
        cases hmem
      · rintro ⟨hnone | hnot, -⟩
        · exact hnone
        · exact absurd (.inl hunreadable) hnot

theorem readsOnly_metadata {path : SecretPath u} {reply : Except StoreError (SecretMetadata u)} :
    ReadsOnly host root [(⟨.metadata path, reply⟩ : CliAct u)] where
  reading act hmem := by
    rw [List.mem_singleton.mp hmem]
    rfl
  entries := List.forall_mem_nil _
  paths := rfl

theorem ReadEnds.cons_metadata {rel : α → Exported u → Prop} {path : SecretPath u}
    {found : SecretMetadata u} {result : Except CliError (List α)} (h : ReadEnds host root rel acts result) :
    ReadEnds host root rel (⟨.metadata path, .ok found⟩ :: acts) result := by
  cases h with
  | read results hreads hreadable hrel =>
      refine .read results (readsOnly_metadata.append hreads) ?_ hrel
      intro act hmem
      rcases List.mem_cons.mp hmem with rfl | hmem
      · rfl
      · exact hreadable act hmem
  | failed error hreads hunreadable =>
      obtain ⟨act, hmem, hact⟩ := hunreadable
      exact .failed error (readsOnly_metadata.append hreads) ⟨act, List.mem_cons_of_mem _ hmem, hact⟩

theorem dumpOne_readEnds (path : SecretPath u) (acts : List (CliAct u)) (result : Except CliError Dumped)
    (h : Runs (Cli.dumpOne host root path) acts result) (haccepts : TrailAccepts acts) :
    ReadEnds host root (fun _ _ => True) acts (result.map ([·])) := by
  rcases runs_bind_iff.mp h with ⟨e, hmetadata, rfl⟩ | ⟨metadata, front, rest, rfl, hmetadata, hrest⟩
  · obtain ⟨reply, rfl, hreply⟩ := runs_ask_iff.mp hmetadata
    obtain ⟨error, rfl⟩ := mapError_store_error hreply.symm
    exact .failed e readsOnly_metadata ⟨_, List.mem_singleton_self _, rfl⟩
  · obtain ⟨reply, rfl, hreply⟩ := runs_ask_iff.mp hmetadata
    cases reply with
    | error error => cases hreply
    | ok found =>
        cases hreply
        exact (runs_readValue (fun _ _ => trivial) hrest
          (trailAccepts_append.mp haccepts).2).cons_metadata

theorem exportOne_readEnds (path : SecretPath u) (acts : List (CliAct u))
    (result : Except CliError (Exported u)) (h : Runs (Cli.exportOne host root path) acts result)
    (haccepts : TrailAccepts acts) : ReadEnds host root (· = ·) acts (result.map ([·])) :=
  runs_readValue (fun _ _ => rfl) h haccepts

theorem prelude_list {start : Option (SecretPath u)} :
    Prelude (ask (.list start) (·.mapError .store) : Cli u (List (SecretPath u))) :=
  prelude_ask (fun _ => rfl) fun _ _ _ => rfl

theorem dump_settles {format : String} {force : Bool} :
    Settles host root command (Cli.dump host format force) := by
  unfold Cli.dump
  split
  · exact prelude_ofExcept.settles
  · refine prelude_guardSecretOutput.settles_bind fun _ =>
      settles_open_bind (fun _ _ h => h) (prelude_list.settles_bind fun paths => ?_)
    intro acts error hruns haccepts _
    rcases runs_bind_iff.mp hruns with ⟨e, hloop, -⟩ | ⟨secrets, front, rest, rfl, -, hrest⟩
    · exact (runs_each_readEnds dumpOne_readEnds hloop haccepts).1.failed_settles
    · rcases runs_bind_iff.mp hrest with ⟨e, hnow, -⟩ | ⟨now, _, last, -, -, hlast⟩
      · obtain ⟨_, -, hok⟩ := runs_ask_iff.mp hnow
        cases hok
      · exact absurd hlast not_runs_print_error

theorem prelude_exportedPaths {args : Cli.ExportArgs} :
    Prelude (Cli.exportedPaths args : Cli u (List (SecretPath u))) := by
  unfold Cli.exportedPaths
  split
  · exact prelude_ofExcept.bind fun _ => prelude_list
  · exact prelude_ofExcept

/-- Assignments that do not get into an environment file. -/
inductive Unsent (assignments : String) : List (CliAct u) → Prop
  | unset : Unsent assignments [⟨.githubEnv, none⟩]
  | unwritten (target error : String) :
      Unsent assignments [⟨.githubEnv, some target⟩, ⟨.appendFile target assignments, .error error⟩]

theorem Unsent.later {assignments : String} {rest : List (CliAct u)} (h : Unsent assignments rest)
    (host : CliHost u) (root : RootKey) (masks : String) :
    let later : List (CliAct u) := ⟨.print masks, ()⟩ :: rest
    (∀ act ∈ later, CliAct.mute act = true) ∧ (∀ act ∈ later, unreadable host root act = false) ∧
      ∃ act ∈ later, CliAct.unsent act = true := by
  cases h with
  | unset => exact ⟨by simp [CliAct.mute], by simp [unreadable], by simp [CliAct.unsent]⟩
  | unwritten target error =>
      exact ⟨by simp [CliAct.mute], by simp [unreadable], by simp [CliAct.unsent]⟩

/-- The values cannot be rendered; or they can, and nothing but their masks goes out. -/
theorem runs_writeOut_error {format : Cli.ExportFormat} {githubEnv : Bool} {secrets : List (Exported u)}
    {error : CliError} (h : Runs (Cli.writeOut host format githubEnv secrets) acts (.error error)) :
    (acts = [] ∧ ∃ failed, Cli.rendered host format secrets = .error failed) ∨
      ∃ masks assignments rest, format = .actionsEnv ∧ githubEnv = true ∧
        renderActionsEnv host.random secrets = .ok (masks, assignments) ∧
        acts = ⟨.print masks, ()⟩ :: rest ∧ Unsent assignments rest := by
  unfold Cli.writeOut at h
  cases hrendered : Cli.rendered host format secrets with
  | error failed =>
      rw [hrendered] at h
      exact .inl ⟨(runs_ofExcept_iff.mp h).1, failed, rfl⟩
  | ok texts =>
      obtain ⟨masks, assignments⟩ := texts
      rw [hrendered] at h
      obtain ⟨reply, rest, rfl, hrest⟩ := runs_asked_bind_iff.mp h
      refine .inr ⟨masks, assignments, rest, ?_⟩
      split at hrest
      · rename_i hformat
        obtain rfl := hformat
        split at hrest
        · rename_i henv
          refine ⟨rfl, henv, hrendered, rfl, ?_⟩
          rcases runs_bind_iff.mp hrest with ⟨e, hasked, -⟩ | ⟨target, front, last, rfl, hasked, happend⟩
          · obtain ⟨found, rfl, hfound⟩ := runs_ask_iff.mp hasked
            cases found with
            | none => exact .unset
            | some target => cases hfound
          · obtain ⟨found, rfl, hfound⟩ := runs_ask_iff.mp hasked
            obtain ⟨written, rfl, hwritten⟩ := runs_ask_iff.mp happend
            cases found with
            | none => cases hfound
            | some found =>
                cases hfound
                cases written with
                | ok => cases hwritten
                | error error => exact .unwritten target error
        · obtain ⟨printed, -, hok⟩ := runs_ask_iff.mp hrest
          cases hok
      · cases (runs_pure_iff.mp hrest).2

/-- Secrets that are given names are told apart by them. -/
theorem eq_of_path {masks assignments : String} {random : Entropy} {secrets : List (Exported u)}
    (hrender : renderActionsEnv random secrets = .ok (masks, assignments)) {secret other : Exported u}
    (hsecret : secret ∈ secrets) (hother : other ∈ secrets) (hpath : other.path.text = secret.path.text) :
    other = secret := by
  obtain ⟨names, hnames, -⟩ := Loop.bind_eq_ok hrender
  have hnodup := ((EnvVarName.assign_eq_ok_iff _).mp ⟨names, Loop.mapError_eq_ok hnames⟩).2
  rw [List.map_map] at hnodup
  apply List.inj_on_of_nodup_map hnodup hother hsecret
  exact congrArg SecretPath.lastSegment (SecretPath.ext hpath)

/-- Masks that went out: the reads of all values with a line to mask are done, and of no others. -/
theorem ReadsOnly.unsent_settles {args : Cli.ExportArgs} {front rest : List (CliAct u)}
    {masks assignments : String} (h : ReadsOnly host root front)
    (hreadable : ∀ act ∈ front, unreadable host root act = false)
    (hformat : Cli.ExportFormat.parse args.format = some .actionsEnv) (henv : args.githubEnv = true)
    (hrender : renderActionsEnv host.random (valuesRead host root front) = .ok (masks, assignments))
    (hrest : Unsent assignments rest) :
    let acts := front ++ ⟨.print masks, ()⟩ :: rest
    Honest host (.exportSecrets args) (valuesRead host root acts) acts ↔
      ¬ ClaimStays host root acts (.exportSecrets args) := by
  intro acts
  obtain ⟨hmute, hlater, act, hmem, hunsent⟩ := hrest.later host root masks
  have hvalues : valuesRead host root acts = valuesRead host root front := by
    rw [valuesRead_append, valuesRead_of_mute hmute, List.append_nil]
  have hstays : ClaimStays host root acts (.exportSecrets args) ↔ _ := h.claimStays_iff hmute hlater
  rw [hvalues, hstays]
  by_cases hlines : ∀ secret ∈ valuesRead host root front, maskedLines secret.value ≠ []
  · refine iff_of_true (honest_append_of_does ?_ (honest_of_mute hmute)) ?_
    · intro entry hentry
      have hread := (h.entries entry hentry).1
      obtain ⟨secret, hsecret, hpath⟩ := h.exists_secret hentry
      obtain ⟨line, hline⟩ := List.exists_mem_of_ne_nil _ (hlines secret hsecret)
      refine ⟨_, List.mem_cons_self .., (CliAct.does_read_iff hread).mpr ⟨hread, secret, hsecret, hpath, ?_⟩⟩
      exact .masked hformat hline (maskCommand_infix_masks hrender hsecret hline)
    · rintro (⟨-, ⟨act, hmem, hunreadable⟩ | ⟨args', format, error, hargs, hformat', hfailed⟩⟩ |
        ⟨args', secret, act, -, hsecret, hnone, -⟩)
      · rw [hreadable act hmem] at hunreadable
        cases hunreadable
      · cases hargs
        rw [hformat, Option.some.injEq] at hformat'
        rw [← hformat'] at hfailed
        exact absurd (hfailed.symm.trans hrender) (by simp)
      · exact hlines secret hsecret hnone
  · obtain ⟨secret, hsecret, hnone⟩ : ∃ secret ∈ valuesRead host root front, maskedLines secret.value = [] := by
      simpa using hlines
    obtain ⟨entry, hentry, hpath⟩ := h.exists_entry hsecret
    refine iff_of_false (h.not_honest hentry hmute fun act hact hdoes => ?_)
      (not_not_intro (.inr ⟨args, secret, act, rfl, hsecret, hnone, hformat, henv, hmem, hunsent⟩))
    obtain ⟨-, other, hother, hpath', htells⟩ := (CliAct.does_read_iff (h.entries entry hentry).1).mp hdoes
    rw [hpath, Option.some.injEq] at hpath'
    obtain rfl := eq_of_path hrender hsecret hother hpath'.symm
    rcases List.mem_cons.mp hact with rfl | hact
    · cases htells with
      | written hformat' hplain =>
          rw [hformat, Option.some.injEq] at hformat'
          exact hplain hformat'.symm
      | masked _ hline =>
          rw [hnone] at hline
          cases hline
      | printed _ henv' =>
          rw [henv] at henv'
          cases henv'
    · cases hrest with
      | unset =>
          rw [List.mem_singleton.mp hact] at htells
          cases htells
      | unwritten target error =>
          simp only [List.mem_cons, List.not_mem_nil, or_false] at hact
          rcases hact with rfl | rfl
          · cases htells
          · cases htells

theorem settles_ofExcept_bind {result : Except CliError α}
    (hk : ∀ a, result = .ok a → Settles host root command (k a)) :
    Settles host root command (ofExcept result >>= k) := by
  cases result with
  | error error =>
      have hended : Prelude (ofExcept (.error error) : Cli u β) := prelude_ofExcept
      exact hended.settles
  | ok a => exact hk a rfl

/-- An export from its paths on. -/
theorem exportPaths_settles {args : Cli.ExportArgs} {format : Cli.ExportFormat}
    (hformat : Cli.ExportFormat.parse args.format = some format) {paths : List (SecretPath u)}
    (hpaths : paths ≠ []) : Settles host root (.exportSecrets args) (do
      let secrets ← Cli.each (Cli.exportOne host root) paths
      Cli.writeOut host format args.githubEnv secrets) := by
  intro acts error hruns haccepts _
  rcases runs_bind_iff.mp hruns with ⟨e, hloop, -⟩ | ⟨secrets, front, rest, rfl, hloop, hrest⟩
  · exact (runs_each_readEnds exportOne_readEnds hloop haccepts).1.failed_settles
  · obtain ⟨hended, hlength⟩ := runs_each_readEnds exportOne_readEnds hloop (trailAccepts_append.mp haccepts).1
    cases hended with
    | read _ hreads hreadable hrel =>
        have hvalues : valuesRead host root front = secrets := by
          rw [List.forall₂_eq_eq_eq] at hrel
          exact hrel.symm
        have hread : valuesRead host root front ≠ [] := by
          intro hnone
          rw [hvalues] at hnone
          have hzero := hlength secrets rfl
          rw [hnone] at hzero
          exact hpaths (List.length_eq_zero_iff.mp hzero.symm)
        rcases runs_writeOut_error hrest with ⟨rfl, failed, hrender⟩ |
          ⟨masks, assignments, last, rfl, henv, hrender, rfl, hunsent⟩
        · have hstays : ClaimStays host root (front ++ []) (.exportSecrets args) ↔ _ :=
            hreads.claimStays_iff (List.forall_mem_nil _) (List.forall_mem_nil _)
          rw [List.append_nil] at hstays ⊢
          refine iff_of_false (fun hhonest => hread (hreads.honest_iff.mp hhonest)) (not_not_intro ?_)
          exact hstays.mpr (.inl ⟨hread, .inr ⟨args, format, failed, rfl, hformat, hvalues ▸ hrender⟩⟩)
        · exact hreads.unsent_settles hreadable hformat henv (hvalues ▸ hrender) hunsent

theorem openOrServed_settles {k : RootKey → Cli u β} {request : String}
    (hk : Settles host root command (k root)) :
    Settles host root command (Cli.openOrServed request >>= k) := by
  refine settles_open_bind ?_ hk
  intro opened key h
  cases opened with
  | ok found =>
      cases h
      rfl
  | error error => cases h

theorem exportSecrets_settles {args : Cli.ExportArgs} :
    Settles host root (.exportSecrets args) (Cli.exportSecrets host args) := by
  refine settles_ofExcept_bind fun format hformat => ?_
  have hparsed : Cli.ExportFormat.parse args.format = some format := by
    split at hformat
    · rename_i found hfound
      cases hformat
      exact hfound
    · cases hformat
  have hrest : Settles host root (.exportSecrets args) (do
      let key ← Cli.openOrServed "POST /v1/export (the bulk_export surface entry)"
      let paths ← Cli.exportedPaths args
      if paths.isEmpty then
        ofExcept (.error (.duration "nothing to export; pass --prefix or --path"))
      else do
        let secrets ← Cli.each (Cli.exportOne host key) paths
        Cli.writeOut host format args.githubEnv secrets) := by
    refine openOrServed_settles (prelude_exportedPaths.settles_bind fun paths => ?_)
    split
    · exact prelude_ofExcept.settles
    · rename_i hpaths
      exact exportPaths_settles hparsed (by simpa using hpaths)
  dsimp only
  split
  · exact prelude_guardSecretOutput.settles_bind fun _ => hrest
  · exact hrest

/-- **When the trail of the command line takes back what did not happen**: of a command that ends with
an error, every entry that allowed something speaks of what was done, or is corrected, exactly unless a
claim stays. `root` is the key that the store is sealed under. -/
theorem run_honest_iff {error : CliError} (h : Runs (command.run host) acts (.error error))
    (haccepts : TrailAccepts acts)
    (hroot : ∀ opened, (⟨.openSession, .ok opened⟩ : CliAct u) ∈ acts → opened = root) :
    Honest host command (valuesRead host root acts) acts ↔ ¬ ClaimStays host root acts command := by
  cases command with
  | put path newClass => exact put_settles acts error h haccepts hroot
  | delete path version => exact delete_settles acts error h haccepts hroot
  | undelete path version => exact undelete_settles acts error h haccepts hroot
  | destroy path version yes => exact destroy_settles acts error h haccepts hroot
  | rotation path newClass => exact rotation_settles acts error h haccepts hroot
  | importDotenv fromDotenv start dryRun newClass =>
      exact importDotenv_settles acts error h haccepts hroot
  | exportSecrets args => exact exportSecrets_settles acts error h haccepts hroot
  | dump format force => exact dump_settles acts error h haccepts hroot
  | issueToken identity ttl noExpiry force honeypot =>
      exact issueToken_settles acts error h haccepts hroot
  | revoke tokenId => exact revoke_settles acts error h haccepts hroot
  | revokeAll identity => exact revokeAll_settles acts error h haccepts hroot

end Steps

namespace Sample

/-- Whoever runs the commands below, on whatever they are linked with. -/
def operator : CliHost asciiUnicode where
  user := some "root"
  username := none
  aead := ⟨fun _ _ _ _ => none, fun _ _ _ _ => none⟩
  hmac := fun _ _ => Vector.replicate 32 0
  random := fun _ => none
  debug := plainDebug
  json := ⟨fun _ => none, fun _ => none⟩
  toStringPretty := fun _ => "\x7b\x7d"

def sealedRoot : RootKey := ⟨Vector.replicate 32 1⟩

def undisturbed : CliOutside :=
  ⟨.ok sealedRoot, true, .ok [], .ok "", .error .needsStdin, 1767225600000, .error .entropy,
    ⟨none, none, none, none⟩, none, .ok (), .ok (), fun _ => none, {}, none⟩

/-- What was sealed for the two values of the store below. -/
def exportedSeals : List (Sealed KeyBytes Nonce) := [
  ⟨sealedRoot.bytes, .replicate 12 2, dekAad ⟨.replicate 16 0xb0⟩, .replicate 32 0x33,
    [52, 229, 250, 122, 121, 100, 242, 206, 224, 255, 143, 251, 111, 148, 241, 129, 145, 134, 226, 220,
     216, 130, 190, 66, 238, 180, 211, 200, 75, 200, 71, 76, 87, 102, 185, 58, 50, 3, 237, 34, 224, 169,
     74, 30, 229, 44, 133, 75]⟩,
  ⟨.replicate 32 0x33, .replicate 12 3, valueAad dbPath .first ⟨.replicate 16 0xb0⟩, utf8 "hunter2",
    [112, 88, 78, 241, 228, 35, 8, 143, 119, 133, 166, 112, 59, 19, 95, 96, 189, 243, 207, 160, 103,
     252, 156]⟩,
  ⟨sealedRoot.bytes, .replicate 12 4, dekAad ⟨.replicate 16 0xb1⟩, .replicate 32 0x34,
    [219, 149, 111, 116, 173, 140, 143, 125, 147, 120, 170, 136, 164, 97, 152, 182, 65, 44, 221, 147,
     24, 24, 209, 0, 255, 183, 201, 137, 247, 12, 143, 33, 215, 21, 37, 107, 197, 129, 26, 16, 70, 226,
     175, 0, 116, 217, 45, 117]⟩,
  ⟨.replicate 32 0x34, .replicate 12 5, valueAad keyPath .first ⟨.replicate 16 0xb1⟩, utf8 "s3cret",
    [100, 6, 214, 223, 219, 63, 145, 205, 66, 159, 136, 139, 106, 224, 161, 191, 230, 77, 229, 77, 242,
     179]⟩]

/-- An operator who can open them. -/
def exporter : CliHost asciiUnicode :=
  { operator with
    aead :=
      { encrypt := fun _ _ _ _ => none
        decrypt := fun key nonce aad ciphertext =>
          (exportedSeals.find? fun s =>
            s.key = key ∧ s.nonce = nonce ∧ s.aad = aad ∧ s.ciphertext = ciphertext).map (·.plaintext) } }

/-- A store with two secrets of one version each. -/
def exportStore : CliStore :=
  ⟨⟨[⟨1, "infra/DB", 1, "rotatable", 0, 0, none⟩, ⟨2, "infra/KEY", 1, "rotatable", 0, 0, none⟩],
      [⟨1, 1, "b0b0b0b0b0b0b0b0b0b0b0b0b0b0b0b0", .replicate 12 2,
        [52, 229, 250, 122, 121, 100, 242, 206, 224, 255, 143, 251, 111, 148, 241, 129, 145, 134, 226,
         220, 216, 130, 190, 66, 238, 180, 211, 200, 75, 200, 71, 76, 87, 102, 185, 58, 50, 3, 237, 34,
         224, 169, 74, 30, 229, 44, 133, 75],
        .replicate 12 3,
        [112, 88, 78, 241, 228, 35, 8, 143, 119, 133, 166, 112, 59, 19, 95, 96, 189, 243, 207, 160, 103,
         252, 156], 0, "ci", none, none⟩,
       ⟨2, 1, "b1b1b1b1b1b1b1b1b1b1b1b1b1b1b1b1", .replicate 12 4,
        [219, 149, 111, 116, 173, 140, 143, 125, 147, 120, 170, 136, 164, 97, 152, 182, 65, 44, 221,
         147, 24, 24, 209, 0, 255, 183, 201, 137, 247, 12, 143, 33, 215, 21, 37, 107, 197, 129, 26, 16,
         70, 226, 175, 0, 116, 217, 45, 117],
        .replicate 12 5,
        [100, 6, 214, 223, 219, 63, 145, 205, 66, 159, 136, 139, 106, 224, 161, 191, 230, 77, 229, 77,
         242, 179], 0, "ci", none, none⟩]⟩,
    [], [], []⟩

/-- A store with one secret of one version. -/
def hostStore : CliStore :=
  ⟨⟨[⟨1, "infra/DB", 1, "rotatable", 0, 0, none⟩], [⟨1, 1, "0101", [], [], [], [], 0, "ci", none, none⟩]⟩,
    [], [], []⟩

def commandPlayed (command : CliCommand) :=
  play (CliStore.answer operator.hmac) (List.replicate 4 undisturbed) hostStore (command.run operator)

/-- `ciphr export --path infra/DB --path infra/KEY --format actions-env --github-env`. -/
def exportArgs : Cli.ExportArgs where
  start := none
  path := ["infra/DB", "infra/KEY"]
  format := "actions-env"
  force := false
  githubEnv := true

/-- The record was taken, and a session was opened with the key of the store. -/
def ordinary (act : CliAct asciiUnicode) : Bool :=
  match act with
  | ⟨.record _, .error _⟩ => false
  | ⟨.openSession, .ok opened⟩ => opened.bytes == sealedRoot.bytes
  | _ => true

theorem trailAccepts_of_ordinary {acts : List (CliAct asciiUnicode)} (h : acts.all ordinary = true) :
    TrailAccepts acts := by
  intro entry error hmem
  have hordinary := List.all_eq_true.mp h _ hmem
  cases hordinary

theorem opened_of_ordinary {acts : List (CliAct asciiUnicode)} (h : acts.all ordinary = true)
    (opened : RootKey) (hmem : (⟨.openSession, .ok opened⟩ : CliAct asciiUnicode) ∈ acts) :
    opened = sealedRoot := by
  have hordinary : (opened.bytes == sealedRoot.bytes) = true := List.all_eq_true.mp h _ hmem
  obtain ⟨bytes⟩ := opened
  exact congrArg RootKey.mk (eq_of_beq hordinary)

def readEntryOf (path : SecretPath asciiUnicode) : Entry :=
  ((Session.operatorEntry exporter .read true none).withPath path).withVersion 1

/-- No condition of a claim that stays is met by these acts of the export. -/
def masksAll (acts : List (CliAct asciiUnicode)) : Bool :=
  acts.all (fun act => ordinary act && !act.refuses && !unreadable exporter sealedRoot act) &&
    (valuesRead exporter sealedRoot acts).all (fun secret => !(maskedLines secret.value).isEmpty) &&
    (renderActionsEnv exporter.random (valuesRead exporter sealedRoot acts)).isOk

theorem not_claimStays_of_masksAll {acts : List (CliAct asciiUnicode)} (h : masksAll acts = true) :
    ¬ ClaimStays exporter sealedRoot acts (.exportSecrets exportArgs) := by
  simp only [masksAll, Bool.and_eq_true, List.all_eq_true, Bool.not_eq_true'] at h
  obtain ⟨⟨hacts, hlines⟩, hrendered⟩ := h
  intro hstays
  cases hstays with
  | change act hmem hrefused => exact hrefused
  | unread act hread hmem hunreadable =>
      rw [(hacts act hmem).2] at hunreadable
      cases hunreadable
  | unrendered args format error hread hformat hrender =>
      cases hformat
      change renderActionsEnv exporter.random (valuesRead exporter sealedRoot acts) = _ at hrender
      rw [hrender] at hrendered
      cases hrendered
  | unmasked args secret act hread hnone =>
      have hline := hlines secret hread
      rw [hnone] at hline
      cases hline

/-- Two values are read and recorded, and then there is no environment file: by then their masks are
printed. -/
theorem export_honest : ∃ turns error last,
    Plays (CliStore.answer exporter.hmac) (· = ·) exportStore
        (CliCommand.run exporter (.exportSecrets exportArgs)) turns (.error error) last ∧
      last.trail = [readEntryOf dbPath, readEntryOf keyPath] ∧
      last.printed = ["::add-mask::hunter2\n::add-mask::s3cret\n"] ∧
      Honest exporter (.exportSecrets exportArgs) (valuesRead exporter sealedRoot (turns.map (·.act)))
        (turns.map (·.act)) := by
  let played := play (CliStore.answer exporter.hmac) (List.replicate 7 undisturbed) exportStore
    (CliCommand.run exporter (.exportSecrets exportArgs))
  have hrun : played.map (fun played =>
      (played.2.1.toOption.isSome, played.2.2.trail, played.2.2.printed,
        (played.1.map (·.act)).all ordinary, masksAll (played.1.map (·.act)))) =
      some (false, [readEntryOf dbPath, readEntryOf keyPath], ["::add-mask::hunter2\n::add-mask::s3cret\n"],
        true, true) := by
    decide +kernel
  cases hplayed : played with
  | none =>
      rw [hplayed] at hrun
      cases hrun
  | some found =>
      obtain ⟨turns, result, last⟩ := found
      rw [hplayed, Option.map_some, Option.some.injEq, Prod.mk.injEq, Prod.mk.injEq,
        Prod.mk.injEq, Prod.mk.injEq] at hrun
      obtain ⟨hresult, htrail, hprinted, hordinary, hmasks⟩ := hrun
      cases result with
      | ok => cases hresult
      | error error =>
          have hplays : Plays (CliStore.answer exporter.hmac) (· = ·) exportStore
              (CliCommand.run exporter (.exportSecrets exportArgs)) turns (.error error) last :=
            plays_of_play (fun _ => rfl) hplayed
          refine ⟨turns, error, last, hplays, htrail, hprinted, ?_⟩
          exact (run_honest_iff hplays.runs (trailAccepts_of_ordinary hordinary)
            (opened_of_ordinary hordinary)).mpr (not_claimStays_of_masksAll hmasks)

def refusedDestroy (act : CliAct asciiUnicode) : Bool :=
  match act with
  | ⟨.destroy _ _, .error _⟩ => true
  | _ => false

theorem refused_of_refusedDestroy {act : CliAct asciiUnicode} (h : refusedDestroy act = true) :
    CliCommand.Refused (.destroy "infra/DB" 7 true) act := by
  unfold refusedDestroy at h
  split at h
  · trivial
  · cases h

def destroyedEntry : Entry :=
  ((Session.operatorEntry operator .destroy true none).withPath dbPath).withVersion 7

/-- `ciphr destroy infra/DB --version 7 --yes`, where there is no version 7. -/
theorem destroy_overclaims : ∃ turns error last,
    Plays (CliStore.answer operator.hmac) (· = ·) hostStore
        (CliCommand.run operator (.destroy "infra/DB" 7 true)) turns (.error error) last ∧
      last.trail = [destroyedEntry] ∧ last.secrets = hostStore.secrets ∧
      TrailAccepts (turns.map (·.act)) ∧
      ¬ Honest operator (.destroy "infra/DB" 7 true) (valuesRead operator sealedRoot (turns.map (·.act)))
        (turns.map (·.act)) := by
  have hrun : (commandPlayed (.destroy "infra/DB" 7 true)).map (fun played =>
      (played.2.1.toOption.isSome, played.2.2.trail, played.2.2.secrets,
        (played.1.map (·.act)).all ordinary, (played.1.map (·.act)).any refusedDestroy)) =
          some (false, [destroyedEntry], hostStore.secrets, true, true) := by
    decide +kernel
  cases hplayed : commandPlayed (.destroy "infra/DB" 7 true) with
  | none =>
      rw [hplayed] at hrun
      cases hrun
  | some played =>
      obtain ⟨turns, result, last⟩ := played
      rw [hplayed, Option.map_some, Option.some.injEq, Prod.mk.injEq, Prod.mk.injEq,
        Prod.mk.injEq, Prod.mk.injEq] at hrun
      obtain ⟨hresult, htrail, hsecrets, hordinary, hrefused⟩ := hrun
      cases result with
      | ok => cases hresult
      | error error =>
          have hplays : Plays (CliStore.answer operator.hmac) (· = ·) hostStore
              (CliCommand.run operator (.destroy "infra/DB" 7 true)) turns (.error error) last :=
            plays_of_play (fun _ => rfl) hplayed
          have haccepts := trailAccepts_of_ordinary hordinary
          obtain ⟨act, hmem, hact⟩ := List.any_eq_true.mp hrefused
          have hruns : Runs (Cli.destroy operator "infra/DB" 7 true) (turns.map (·.act))
              (.error error) := hplays.runs
          have hstays : ClaimStays operator sealedRoot (turns.map (·.act))
              (.destroy "infra/DB" 7 true) := .change act hmem (refused_of_refusedDestroy hact)
          refine ⟨turns, error, last, hplays, htrail, hsecrets, haccepts, fun hhonest => ?_⟩
          exact (destroy_settles (turns.map (·.act)) error hruns haccepts
            (opened_of_ordinary hordinary)).mp hhonest hstays

end Sample

end Ciphr
