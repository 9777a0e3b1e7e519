import Ciphr.ServerAnswers
import Ciphr.ServerFailClosed
import Ciphr.CliMasterKey

/-!
The service over whole runs: any number of requests, handled call by call beside one another, while
other processes do what they like to the same store and the same devices. What a client is told of a
version is true, and it is not behind anything that a client was told before.
-/

/-- What was sealed is opened. -/
def Aead.Opens {K N : Type} (aead : Aead K N) : Prop :=
  ∀ key nonce aad plaintext ciphertext, aead.encrypt key nonce aad plaintext = some ciphertext →
    aead.decrypt key nonce aad ciphertext = some plaintext

namespace Ciphr

open Script

variable {u : Unicode}

theorem decrypt_of_encrypt {aead : Aead KeyBytes Nonce} (hopens : aead.Opens) {root : RootKey}
    {path : SecretPath u} {version : SecretVersion} {plaintext : List UInt8} {draws : ValueDraws}
    {value : EncryptedValue} (h : encrypt aead root path version plaintext draws = .ok value) :
    decrypt aead root path version value = .ok plaintext := by
  obtain ⟨material, -, hwrapped, hciphertext, hid, hnonce, hvalueNonce⟩ := encrypt_ok.mp h
  refine decrypt_ok.mpr ⟨material.dek, ?_, ?_⟩
  · rw [hid, hnonce]
    exact hopens _ _ _ _ _ hwrapped
  · rw [hid, hvalueNonce]
    exact hopens _ _ _ _ _ hciphertext

theorem decryptToText_eq_ok {deployment : Deployment} {stored : StoredVersion u} {text : String}
    (h : decryptToText deployment stored = .ok text) :
    decrypt deployment.aead deployment.root stored.path stored.version stored.value = .ok (utf8 text) := by
  unfold decryptToText at h
  cases hplain : decrypt deployment.aead deployment.root stored.path stored.version stored.value with
  | error error =>
      rw [hplain] at h
      cases h
  | ok plaintext =>
      rw [hplain] at h
      cases htext : Rust.fromUtf8 plaintext with
      | none =>
          simp only [Bind.bind, Except.bind, Except.mapError, htext, reduceCtorEq] at h
      | some found =>
          simp only [Bind.bind, Except.bind, Except.mapError, htext, Except.ok.injEq] at h
          rw [Rust.fromUtf8_eq_some.mp htext, h]
          rfl

/-! ### The store and its parties -/

/-- The process, the versions that any party has written, and the values that other processes than
this one were asked to write. -/
structure SharedStore (δ ω : Type) (u : Unicode) where
  server : Server δ ω
  produced : List (Produced u)
  elsewhere : List (SecretPath u × List UInt8)

/-- What happens to the store beside the requests. -/
inductive StoreEvent (δ ω : Type) (u : Unicode) where
  /-- Another process writes a value. -/
  | put (path : SecretPath u) (createdBy : String) (rotation : Option Rotation) (value : List UInt8)
      (draws : ValueDraws) (now : Int) (fault : SecretFault)
  /-- Another process does something else to a secret. -/
  | perform (op : SecretOp u) (fault : SecretFault)
  /-- Anything that leaves the secrets alone: tokens, tripwires, devices, a restart. -/
  | otherwise (server : Server δ ω)

/-- The versions that a call has written. -/
def ApiCall.stored {φ : Type} (outside : ApiOutside φ) : (c : ApiCall u) → c.Reply → List (Produced u)
  | .putWithRotation path createdBy rotation encrypt, reply =>
      (SecretOp.put path createdBy rotation (encrypt outside.draws) outside.now).stored
        (reply.map .written)
  | _, _ => []

namespace SharedStore

variable {δ ω φ : Type}

/-- An operation of another process on the secrets. -/
def perform (s : SharedStore δ ω u) (op : SecretOp u) (fault : SecretFault) : SharedStore δ ω u :=
  let (answer, tables) := op.perform fault s.server.secrets
  { s with
    server := { s.server with secrets := tables }
    produced := s.produced ++ op.stored answer }

def serve (deployment : Deployment) (s : SharedStore δ ω u) : StoreEvent δ ω u → Option (SharedStore δ ω u)
  | .put path createdBy rotation value draws now fault =>
      let op := SecretOp.put path createdBy rotation
        (fun version => encrypt deployment.aead deployment.root path version value draws) now
      some { s.perform op fault with elsewhere := s.elsewhere ++ [(path, value)] }
  | .perform (.put ..) _ => none
  | .perform op fault => some (s.perform op fault)
  | .otherwise server => if server.secrets = s.server.secrets then some { s with server := server } else none

variable [AuditDevice δ ω φ]

def answer (deployment : Deployment) (codec : Codec) (json : JsonExtract) (database : ω → Database)
    (s : SharedStore δ ω u) (outside : ApiOutside φ) (c : ApiCall u) : SharedStore δ ω u × c.Reply :=
  let answered := Server.answer deployment codec json database s.server outside c
  ({ s with server := answered.1, produced := s.produced ++ c.stored outside answered.2 }, answered.2)

end SharedStore

/-- The service, with the requests of its clients and their headers. -/
def serving {δ ω φ : Type} [AuditDevice δ ω φ] [ReservedPaths u] (deployment : Deployment)
    (codec : Codec) (json : JsonExtract) (database : ω → Database) :
    Machine (Attending (SharedStore δ ω u) (ApiRequest × Headers) HttpError ApiResponse)
      (Stage (ApiCall u) (ApiRequest × Headers) HttpError ApiResponse) (Stage.Reply ApiCall.Reply)
      HttpError (StoreEvent δ ω u) (ApiOutside φ) (ApiRequest × Headers) :=
  service (SharedStore.serve deployment) (SharedStore.answer deployment codec json database)
    fun request => serve deployment request.2 request.1

/-- A store without secrets. -/
def SharedStore.Empty {δ ω : Type} (s : SharedStore δ ω u) : Prop :=
  s.server.secrets = ⟨[], []⟩ ∧ s.produced = [] ∧ s.elsewhere = []

/-- A service that has not yet been asked anything, on such a store. -/
def Fresh {δ ω : Type} (s : Running (Attending (SharedStore δ ω u) (ApiRequest × Headers) HttpError
    ApiResponse) (Stage (ApiCall u) (ApiRequest × Headers) HttpError ApiResponse)
    (Stage.Reply ApiCall.Reply) HttpError) : Prop :=
  s.shared.shared.Empty ∧ s.shared.arrived = [] ∧ s.shared.answered = [] ∧ s.scripts = []

/-! ### What is known of the store -/

/-- A version that was written, and what it was encrypted from. -/
structure Writing (u : Unicode) where
  produced : Produced u
  value : List UInt8

/-- The versions that were written so far, in order. -/
structure Writings (u : Unicode) where
  all : List (Writing u)

instance : Preorder (Writings u) where
  le w w' := w.all <+: w'.all
  le_refl w := List.prefix_refl _
  le_trans w w' w'' h h' := h.trans h'

theorem Writings.mem_of_le {w w' : Writings u} (h : w ≤ w') {one : Writing u} (hone : one ∈ w.all) :
    one ∈ w'.all :=
  List.IsPrefix.subset h hone

section Known

variable {δ ω φ : Type} {deployment : Deployment}

/-- Somebody has asked for the value to be written for the path. -/
def AskedToWrite (s : SharedStore δ ω u) (arrived : List (ApiRequest × Headers)) (path : SecretPath u)
    (value : List UInt8) : Prop :=
  (path, value) ∈ s.elsewhere ∨
    ∃ request ∈ arrived, ∃ text, request.1.AsksToWrite path text ∧ value = utf8 text

/-- The tables hold what was written, and nothing was written but what somebody asked for. -/
structure Knows (deployment : Deployment) (s : SharedStore δ ω u)
    (arrived : List (ApiRequest × Headers)) (w : Writings u) : Prop where
  sound : s.server.secrets.Sound (w.all.map (·.produced))
  produced : s.produced = w.all.map (·.produced)
  encrypted : ∀ one ∈ w.all, ∃ draws, encrypt deployment.aead deployment.root one.produced.path
    one.produced.version one.value draws = .ok one.produced.value
  asked : ∀ one ∈ w.all, AskedToWrite s arrived one.produced.path one.value

/-- What the replies of the store tell of the versions. -/
def storeContract : Contract (Writings u) (ApiCall u) ApiCall.Reply where
  requires _ _ := True
  answers
    | .get path version, .ok stored, w => stored.path = path ∧
        (∃ one ∈ w.all, one.produced =
          ⟨path, stored.version, stored.value, stored.createdAt, stored.createdBy⟩) ∧
        (version = none → ∀ one ∈ w.all, one.produced.path = path →
          one.produced.version.number ≤ stored.version.number)
    | .putWithRotation path _ _ _, .ok version, w =>
        ∃ one ∈ w.all, one.produced.path = path ∧ one.produced.version = version
    | _, _, _ => True

theorem AskedToWrite.mono {s s' : SharedStore δ ω u} {arrived arrived' : List (ApiRequest × Headers)}
    {path : SecretPath u} {value : List UInt8} (h : AskedToWrite s arrived path value)
    (helsewhere : s.elsewhere ⊆ s'.elsewhere) (harrived : arrived ⊆ arrived') :
    AskedToWrite s' arrived' path value := by
  rcases h with h | ⟨request, hrequest, text, hasks, rfl⟩
  · exact .inl (helsewhere h)
  · exact .inr ⟨request, harrived hrequest, text, hasks, rfl⟩

/-- The tables after an operation that writes no version. -/
theorem Knows.unwritten {s s' : SharedStore δ ω u} {arrived : List (ApiRequest × Headers)}
    {w : Writings u} (h : Knows deployment s arrived w) (op : SecretOp u) (fault : SecretFault)
    (htables : s'.server.secrets = (op.perform fault s.server.secrets).2)
    (hstored : op.stored (op.perform fault s.server.secrets).1 = [])
    (hproduced : s'.produced = s.produced) (helsewhere : s'.elsewhere = s.elsewhere) :
    Knows deployment s' arrived w where
  sound := by
    have heffect := SecretOp.perform_effect fault s.server.secrets op
    have hsound := heffect.sound h.sound
    rw [hstored, List.append_nil] at hsound
    rwa [htables]
  produced := hproduced.trans h.produced
  encrypted := h.encrypted
  asked := fun one hone => (h.asked one hone).mono (by rw [helsewhere]; exact List.Subset.refl _)
    (List.Subset.refl _)

/-- The tables after a `put` of a value that somebody asked for. -/
theorem Knows.written {s : SharedStore δ ω u} {arrived : List (ApiRequest × Headers)} {w : Writings u}
    (h : Knows deployment s arrived w) (s' : SharedStore δ ω u) {path : SecretPath u} {createdBy : String}
    {rotation : Option Rotation} {value : List UInt8} {draws : ValueDraws} {now : Int}
    (fault : SecretFault) {op : SecretOp u}
    (hop : op = .put path createdBy rotation
      (fun version => encrypt deployment.aead deployment.root path version value draws) now)
    (htables : s'.server.secrets = (op.perform fault s.server.secrets).2)
    (hproduced : s'.produced = s.produced ++ op.stored (op.perform fault s.server.secrets).1)
    (helsewhere : s.elsewhere ⊆ s'.elsewhere) (hasked : AskedToWrite s' arrived path value) :
    ∃ w', w ≤ w' ∧ Knows deployment s' arrived w' ∧
      ∀ version, (op.perform fault s.server.secrets).1 = .ok (.written version) →
        ∃ one ∈ w'.all, one.produced.path = path ∧ one.produced.version = version := by
  have heffect := SecretOp.perform_effect fault s.server.secrets op
  have hsound := heffect.sound h.sound
  have hstored : ∀ p ∈ op.stored (op.perform fault s.server.secrets).1, p.path = path ∧
      encrypt deployment.aead deployment.root p.path p.version value draws = .ok p.value := by
    intro p hp
    rw [hop] at hp
    unfold SecretOp.stored at hp
    split at hp
    · rename_i path' _ _ encrypt' _ next heq hanswer
      cases heq
      split at hp
      · rename_i encrypted hencrypted
        cases List.mem_singleton.mp hp
        exact ⟨rfl, hencrypted⟩
      · cases hp
    · cases hp
  let written := (op.stored (op.perform fault s.server.secrets).1).map fun p => Writing.mk p value
  have hmap : written.map (·.produced) = op.stored (op.perform fault s.server.secrets).1 := by
    simp [written, Function.comp_def]
  refine ⟨⟨w.all ++ written⟩, List.prefix_append _ _, ⟨?_, ?_, ?_, ?_⟩, ?_⟩
  · rw [htables, List.map_append, hmap]
    exact hsound
  · rw [hproduced, h.produced, List.map_append, hmap]
  · intro one hone
    rcases List.mem_append.mp hone with hold | hnew
    · exact h.encrypted one hold
    · obtain ⟨p, hp, rfl⟩ := List.mem_map.mp hnew
      exact ⟨draws, (hstored p hp).2⟩
  · intro one hone
    rcases List.mem_append.mp hone with hold | hnew
    · exact (h.asked one hold).mono helsewhere (List.Subset.refl _)
    · obtain ⟨p, hp, rfl⟩ := List.mem_map.mp hnew
      dsimp only
      rw [(hstored p hp).1]
      exact hasked
  · intro version hversion
    rw [hversion] at heffect
    subst hop
    cases heffect with
    | written _ _ _ _ _ _ secretId encrypted t' hfree hvalue hwritten =>
        refine ⟨⟨⟨path, version, encrypted, now, createdBy⟩, value⟩, ?_, rfl, rfl⟩
        refine List.mem_append_right _ (List.mem_map.mpr ⟨_, ?_, rfl⟩)
        simp only [hversion, SecretOp.stored, hvalue]
        exact List.mem_singleton_self _

/-- The current version of a path is the largest that was written. -/
theorem Knows.le_current {s : SharedStore δ ω u} {arrived : List (ApiRequest × Headers)}
    {w : Writings u} (h : Knows deployment s arrived w) {path : SecretPath u} {version : SecretVersion}
    (hcurrent : ∀ row ∈ s.server.secrets.secrets, row.path = path.text →
      (version.number : Int) = row.currentVersion)
    {other : Writing u} (hother : other ∈ w.all) (hpath : other.produced.path = path) :
    other.produced.version.number ≤ version.number := by
  obtain ⟨row, hrow, hrowPath, v, hv, hid, hholds⟩ := h.sound.held _ (List.mem_map_of_mem hother)
  obtain ⟨n, -, -, hn, hnumbered⟩ := h.sound.numbered row hrow
  have hle := (SecretTables.Sound.version_mem hv hid hnumbered).2
  have hnumber := hcurrent row hrow (by rw [hrowPath, hpath])
  rw [hholds.version] at hle
  omega

/-- Whatever other processes do is described by what was written in the end. -/
theorem Knows.serve {s s' : SharedStore δ ω u} {arrived : List (ApiRequest × Headers)}
    {w : Writings u} (h : Knows deployment s arrived w) {event : StoreEvent δ ω u}
    (hserve : s.serve deployment event = some s') : ∃ w', w ≤ w' ∧ Knows deployment s' arrived w' := by
  cases event with
  | put path createdBy rotation value draws now fault =>
      cases hserve
      obtain ⟨w', hle, hknows, -⟩ := h.written { s.perform _ fault with
        elsewhere := s.elsewhere ++ [(path, value)] } fault rfl rfl rfl (List.subset_append_left _ _)
        (.inl (List.mem_append_right _ (List.mem_singleton_self _)))
      exact ⟨w', hle, hknows⟩
  | perform op fault =>
      have hstep : ∀ op : SecretOp u, op.stored (op.perform fault s.server.secrets).1 = [] →
          Knows deployment (s.perform op fault) arrived w := by
        intro op hnone
        refine h.unwritten op fault rfl hnone ?_ rfl
        change s.produced ++ op.stored (op.perform fault s.server.secrets).1 = _
        rw [hnone, List.append_nil]
      cases op with
      | put => cases hserve
      | get | setRotation | delete | undelete | destroy =>
          cases hserve
          exact ⟨w, le_rfl, hstep _ rfl⟩
  | otherwise server =>
      change (if server.secrets = s.server.secrets then some { s with server := server } else none) =
        some s' at hserve
      split at hserve
      · rename_i hsame
        cases hserve
        refine ⟨w, le_rfl, ?_, h.produced, h.encrypted, h.asked⟩
        dsimp only
        rw [hsame]
        exact h.sound
      · cases hserve

variable [AuditDevice δ ω φ] {codec : Codec} {json : JsonExtract} {database : ω → Database}

/-- An answer to a request's call is described by what was written then, and tells so. -/
theorem Knows.answer {s : SharedStore δ ω u} {arrived : List (ApiRequest × Headers)}
    {w : Writings u} (h : Knows deployment s arrived w) (outside : ApiOutside φ)
    {request : ApiRequest × Headers} {c : ApiCall u} (harrived : request ∈ arrived)
    (hmay : c.MayFor deployment request.1) :
    ∃ w', w ≤ w' ∧ Knows deployment (s.answer deployment codec json database outside c).1 arrived w' ∧
      storeContract.answers c (s.answer deployment codec json database outside c).2 w' := by
  have hsame : (s.answer deployment codec json database outside c).1.server.secrets = s.server.secrets →
      c.stored outside (s.answer deployment codec json database outside c).2 = [] →
      Knows deployment (s.answer deployment codec json database outside c).1 arrived w := by
    intro htables hstored
    refine ⟨?_, ?_, h.encrypted, h.asked⟩
    · rw [htables]
      exact h.sound
    · have hproduced : (s.answer deployment codec json database outside c).1.produced =
          s.produced ++ c.stored outside (s.answer deployment codec json database outside c).2 := rfl
      rw [hproduced, hstored, List.append_nil]
      exact h.produced
  cases c with
  | putWithRotation path createdBy rotation encrypting =>
      obtain ⟨value, hasks, rfl⟩ := hmay
      have hop : SecretOp.put path createdBy rotation
          (encryptBody deployment path value outside.draws) outside.now = .put path createdBy rotation
          (fun version => encrypt deployment.aead deployment.root path version (utf8 value) outside.draws)
            outside.now := rfl
      obtain ⟨w', hle, hknows, hwritten⟩ := h.written
        (s.answer deployment codec json database outside
          (.putWithRotation path createdBy rotation (encryptBody deployment path value))).1
        outside.secret hop rfl rfl (List.Subset.refl _) (.inr ⟨request, harrived, value, hasks, rfl⟩)
      refine ⟨w', hle, hknows, ?_⟩
      cases hreply : (s.answer deployment codec json database outside
          (.putWithRotation path createdBy rotation (encryptBody deployment path value))).2 with
      | error error => trivial
      | ok version =>
          apply hwritten version
          change Except.map SecretAnswer.written (s.answer deployment codec json database outside
            (.putWithRotation path createdBy rotation (encryptBody deployment path value))).2 = _
          rw [hreply]
          rfl
  | get path version =>
      refine ⟨w, le_rfl, hsame rfl rfl, ?_⟩
      cases hreply : (s.answer deployment codec json database outside (.get path version)).2 with
      | error error => trivial
      | ok stored =>
          obtain ⟨hpath, hstored, -, hcurrent, v, hstanding, -, -⟩ := h.sound.get_ok hreply
          obtain ⟨one, hone, hproduced⟩ := List.mem_map.mp hstored
          refine ⟨hpath, ⟨one, hone, hproduced⟩, ?_⟩
          intro hnone other hother hsamePath
          exact h.le_current (fun row hrow hrowPath => hcurrent row hrow hrowPath hnone) hother hsamePath
  | delete path version =>
      refine ⟨w, le_rfl, ?_, trivial⟩
      exact h.unwritten (.delete path version outside.now) outside.secret rfl rfl
        (List.append_nil _) rfl
  | latchOffTheRequestPath kind reference identity tier =>
      refine ⟨w, le_rfl, hsame ?_ rfl, trivial⟩
      change (Server.answer deployment codec json database s.server outside
        (.latchOffTheRequestPath kind reference identity tier : ApiCall u)).1.secrets = _
      simp only [Server.answer]
      split
      · rfl
      · rfl
  | _ => exact ⟨w, le_rfl, hsame rfl rfl, trivial⟩

end Known

/-! ### Whole runs -/

section Runs

variable {δ ω φ : Type} [AuditDevice δ ω φ] [ReservedPaths u] {deployment : Deployment}
  {codec : Codec} {json : JsonExtract} {database : ω → Database}
  {s : Running (Attending (SharedStore δ ω u) (ApiRequest × Headers) HttpError ApiResponse)
    (Stage (ApiCall u) (ApiRequest × Headers) HttpError ApiResponse) (Stage.Reply ApiCall.Reply)
    HttpError}

/-- A run of the service has a history, in which each request was told the truth about the store. -/
theorem serving_described
    (hs : Transition.Reachable Fresh (serving (φ := φ) deployment codec json database).step
      (fun _ _ => True) s) :
    ∃ h, Describes (Knows deployment) (fun request => serve (u := u) deployment request.2 request.1)
      storeContract s.shared h := by
  have hservice : Transition.Reachable
      (fun s => SharedStore.Empty s.shared.shared ∧ s.shared.arrived = [] ∧ s.shared.answered = [] ∧
        s.scripts = [])
      (service (SharedStore.serve deployment) (SharedStore.answer (φ := φ) deployment codec json database)
        fun request : ApiRequest × Headers => serve (u := u) deployment request.2 request.1).step
      (fun _ _ => True) s := hs
  refine service_described (fun request => ApiCall.MayFor deployment request.1) _ _ ?_ ?_ ?_ ?_ ?_ hservice
  · rintro shared ⟨htables, hproduced, -⟩
    refine ⟨⟨[]⟩, ?_, hproduced, List.forall_mem_nil _, List.forall_mem_nil _⟩
    rw [htables]
    exact ⟨List.nodup_nil, List.nodup_nil, by simp, by simp, by simp, by simp, by simp, List.nodup_nil⟩
  · intro shared arrived request w hw
    exact ⟨hw.sound, hw.produced, hw.encrypted, fun one hone =>
      (hw.asked one hone).mono (List.Subset.refl _) (List.subset_append_left _ _)⟩
  · intro shared arrived w event shared' hw hserve
    exact hw.serve hserve
  · intro shared arrived w outside request c hw harrived hmay
    exact hw.answer outside harrived hmay
  · intro request
    exact may_serve

/-- The version behind a value that a request was answered with. -/
theorem value_written {h : History (Writings u) (ApiCall u) (ApiRequest × Headers) HttpError ApiResponse
      ApiCall.Reply}
    {one : Settled (Writings u) (ApiCall u) (ApiRequest × Headers) HttpError ApiResponse ApiCall.Reply}
    (hone : one.Sound (fun request => serve (u := u) deployment request.2 request.1) storeContract h)
    {response : ApiResponse} (hended : one.answered.ended = .ok response) {told : ToldValue}
    (htold : told ∈ response.values) :
    ∃ between, one.first ≤ between ∧ between ≤ h.world ∧ ∃ written ∈ between.all, ∃ stored,
      stored.path = written.produced.path ∧ stored.version = written.produced.version ∧
      stored.value = written.produced.value ∧ decryptToText deployment stored = .ok told.value ∧
      told.path = written.produced.path.text ∧ told.version = written.produced.version.number ∧
      (one.answered.request.1.takesCurrent = true → ∀ other ∈ between.all,
        other.produced.path = written.produced.path → other.produced.version.number ≤ told.version) := by
  have hruns := hone.runs
  rw [hended] at hruns
  obtain ⟨path, version, stored, hmem, hvalue, hpath, hversion, hcurrent⟩ :=
    (serve_rests hruns).values told htold
  obtain ⟨between, hafter, hbefore, rfl, ⟨written, hwritten, hproduced⟩, hlatest⟩ :=
    hone.told.answers hmem
  refine ⟨between, hafter, hbefore.trans hone.last, written, hwritten, stored, ?_⟩
  rw [hproduced]
  refine ⟨rfl, rfl, rfl, hvalue, hpath, hversion, fun htakes other hother hsame => ?_⟩
  rw [hversion]
  exact hlatest (hcurrent htakes) other hother hsame

/-- The version that an answer has named was written by the time it was given. -/
theorem version_written {h : History (Writings u) (ApiCall u) (ApiRequest × Headers) HttpError
      ApiResponse ApiCall.Reply}
    {one : Settled (Writings u) (ApiCall u) (ApiRequest × Headers) HttpError ApiResponse ApiCall.Reply}
    (hone : one.Sound (fun request => serve (u := u) deployment request.2 request.1) storeContract h)
    {response : ApiResponse} (hended : one.answered.ended = .ok response) {told : String × Nat}
    (htold : told ∈ response.versionsTold) :
    ∃ written ∈ one.last.all, told = (written.produced.path.text, written.produced.version.number) := by
  have hruns := hone.runs
  rw [hended] at hruns
  rcases (serve_rests hruns).versions told htold with ⟨path, version, stored, hmem, rfl⟩ |
    ⟨path, createdBy, rotation, encrypt, version, hmem, rfl⟩
  · obtain ⟨between, -, hbefore, rfl, ⟨written, hwritten, hproduced⟩, -⟩ := hone.told.answers hmem
    refine ⟨written, Writings.mem_of_le hbefore hwritten, ?_⟩
    rw [hproduced]
  · obtain ⟨between, -, hbefore, written, hwritten, rfl, rfl⟩ := hone.told.answers hmem
    exact ⟨written, Writings.mem_of_le hbefore hwritten, rfl⟩

/-- Whatever runs beside a request, a value that it is answered with is the one of the version that it
is said to be, somebody has asked for it to be written there, and no answer ever gives that version
another value. -/
theorem served_values (hopens : deployment.aead.Opens)
    (hs : Transition.Reachable Fresh (serving (φ := φ) deployment codec json database).step
      (fun _ _ => True) s) :
    ∀ one ∈ s.shared.answered, ∀ response, one.ended = .ok response → ∀ told ∈ response.values,
      (∃ p ∈ s.shared.shared.produced, p.path.text = told.path ∧ p.version.number = told.version ∧
        decrypt deployment.aead deployment.root p.path p.version p.value = .ok (utf8 told.value) ∧
        AskedToWrite s.shared.shared s.shared.arrived p.path (utf8 told.value)) ∧
      ∀ other ∈ s.shared.answered, ∀ response', other.ended = .ok response' →
        ∀ told' ∈ response'.values, told'.path = told.path → told'.version = told.version →
          told'.value = told.value := by
  obtain ⟨h, hdescribed⟩ := serving_described hs
  -- the version behind each value, with what it was encrypted from
  have hbehind : ∀ one ∈ s.shared.answered, ∀ response, one.ended = .ok response →
      ∀ told ∈ response.values, ∃ written ∈ h.world.all, told.path = written.produced.path.text ∧
        told.version = written.produced.version.number ∧ written.value = utf8 told.value ∧
        decrypt deployment.aead deployment.root written.produced.path written.produced.version
          written.produced.value = .ok (utf8 told.value) := by
    intro one hone response hended told htold
    rw [← hdescribed.answered] at hone
    obtain ⟨settled, hsettled, rfl⟩ := List.mem_map.mp hone
    obtain ⟨between, -, hbetween, written, hwritten, stored, hpath, hversion, hvalue, htext, hsame,
      hnumber, -⟩ := value_written (hdescribed.sound settled hsettled) hended htold
    have hworld := Writings.mem_of_le hbetween hwritten
    have hplain := decryptToText_eq_ok htext
    rw [hpath, hversion, hvalue] at hplain
    obtain ⟨draws, hencrypted⟩ := hdescribed.shared.encrypted written hworld
    have hopened := decrypt_of_encrypt hopens hencrypted
    rw [hplain, Except.ok.injEq] at hopened
    exact ⟨written, hworld, hsame, hnumber, hopened.symm, hplain⟩
  intro one hone response hended told htold
  obtain ⟨written, hwritten, hpath, hversion, hvalue, hplain⟩ := hbehind one hone response hended told htold
  constructor
  · refine ⟨written.produced, ?_, hpath.symm, hversion.symm, hplain, ?_⟩
    · rw [hdescribed.shared.produced]
      exact List.mem_map_of_mem hwritten
    · rw [← hvalue]
      exact hdescribed.shared.asked written hwritten
  · intro other hother response' hended' told' htold' hsamePath hsameVersion
    obtain ⟨written', hwritten', hpath', hversion', hvalue', -⟩ :=
      hbehind other hother response' hended' told' htold'
    -- a version is written once
    have honce := hdescribed.shared.sound.once
    rw [List.map_map] at honce
    have hsame : written' = written := by
      refine List.inj_on_of_nodup_map honce hwritten' hwritten ?_
      simp only [Function.comp_apply, Prod.mk.injEq]
      exact ⟨by rw [← hpath', hsamePath, hpath], by rw [← hversion', hsameVersion, hversion]⟩
    rw [hsame, hvalue] at hvalue'
    exact (utf8_injective hvalue').symm

/-- A request for whatever is current that came in after another one was answered is not answered
with less: not with a version older than one that was read, exported or written before it came in. -/
theorem answers_in_real_time
    (hs : Transition.Reachable Fresh (serving (φ := φ) deployment codec json database).step
      (fun _ _ => True) s) :
    ∀ one ∈ s.shared.answered, one.request.1.takesCurrent = true →
      ∀ earlier ∈ s.shared.answered.take one.since, ∀ response before, one.ended = .ok response →
        earlier.ended = .ok before → ∀ told ∈ response.values, ∀ known ∈ before.versionsTold,
          known.1 = told.path → known.2 ≤ told.version := by
  obtain ⟨h, hdescribed⟩ := serving_described hs
  intro one hone htakes earlier hearlier response before hended hbefore told htold known hknown hsame
  rw [← hdescribed.answered] at hone hearlier
  obtain ⟨settled, hsettled, rfl⟩ := List.mem_map.mp hone
  rw [← List.map_take] at hearlier
  obtain ⟨first, hfirst, rfl⟩ := List.mem_map.mp hearlier
  have hsound := hdescribed.sound settled hsettled
  obtain ⟨between, hafter, -, written, -, stored, -, -, -, -, hpath, -, hlatest⟩ :=
    value_written hsound hended htold
  obtain ⟨old, hold, rfl⟩ :=
    version_written (hdescribed.sound first (List.mem_of_mem_take hfirst)) hbefore hknown
  -- what was written by then had been when the request came in
  have hthen : old ∈ between.all := Writings.mem_of_le ((hsound.since first hfirst).trans hafter) hold
  exact hlatest htakes old hthen (SecretPath.ext (hsame.trans hpath))

end Runs

namespace Sample

theorem pinnedAead_opens : pinnedAead.Opens := by
  intro key nonce aad plaintext ciphertext h
  obtain ⟨s, hfind, rfl⟩ := Option.map_eq_some_iff.mp h
  have hmeets := List.find?_some hfind
  rw [decide_eq_true_eq] at hmeets
  obtain ⟨rfl, rfl, rfl, rfl⟩ := hmeets
  unfold pinnedAead
  dsimp only
  rw [find?_pinnedSeals (List.mem_of_find?_eq_some hfind) (by simp)]
  · rfl
  · intro s' hs'
    rw [decide_eq_true_eq] at hs'
    exact hs'.2.1

/-- The pepper of the root key that the seals were made with. -/
def pinnedPepper : TokenPepper :=
  ⟨#v[206, 185, 168, 182, 113, 96, 108, 18, 9, 34, 239, 223, 231, 111, 133, 182, 61, 248, 84, 233, 185,
    231, 42, 201, 91, 120, 107, 157, 215, 68, 191, 84]⟩

def pinnedHmac : Hmac := fun key message =>
  if key = pinnedRoot.bytes.toList ∧ message = "ciphr/token-pepper/v1".toUTF8.data.toList then
    pinnedPepper.key
  else if key = pinnedPepper.key.toList ∧ message = buildToken.secret.toList then
    #v[221, 174, 68, 250, 194, 68, 25, 177, 132, 21, 193, 171, 157, 62, 129, 88, 27, 27, 25, 90, 115, 250,
      86, 85, 168, 7, 61, 201, 107, 138, 108, 131]
  else Vector.replicate 32 0

def pinnedDeployment : Deployment :=
  { deployment with root := pinnedRoot, aead := pinnedAead, hmac := pinnedHmac }

def accessEntry (action : Action) (capability : Capability) : Entry :=
  decisionEntry (pinnedDeployment.callerOf ci) action dbPassword none headers.requestContext
    (pinnedDeployment.authorize (pinnedDeployment.callerOf ci) capability dbPassword) none

def accessPayload (seq previous action : String) : String :=
  "\x7b\"seq\":" ++ seq ++ ",\"ts\":\"2026-01-01T00:00:00.000Z\",\"prev_hash\":\"" ++ previous ++
    "\",\"entry\":\x7b\"principal\":\x7b\"name\":\"ci\",\"kind\":\"machine\"" ++
    ",\"token_id\":\"AQEBAQEB\"\x7d,\"subject\":null,\"action\":\"" ++ action ++
    "\",\"path\":\"infra/service-a/DB_PASSWORD\"" ++
    ",\"version\":null,\"allowed\":true,\"deny_reason\":null,\"rule\":\x7b\"policy\":\"infra\"" ++
    ",\"pattern\":\"infra/**\"\x7d,\"results\":null,\"detail\":null" ++
    ",\"request\":\x7b\"request_id\":null,\"client_ip\":null,\"user_agent\":null" ++
    ",\"http_status\":200,\"channel\":null\x7d\x7d\x7d"

def accessCodec : Codec :=
  codecFor [(1, accessEntry .write .write,
      accessPayload "1" ("00000000000000000000000000000000" ++ "00000000000000000000000000000000") "write",
      #v[0xe9, 0x5a, 0xcd, 0x10, 0x95, 0xd9, 0x3b, 0x87, 0x92, 0x7b, 0xc1, 0xb2, 0x3b, 0x9f, 0x66, 0x49,
        0x87, 0xf9, 0xa8, 0x75, 0x95, 0x40, 0x1f, 0x07, 0x5c, 0x19, 0x36, 0xf7, 0x3d, 0xb4, 0x35, 0x8f]),
    (2, accessEntry .read .read,
      accessPayload "2" ("e95acd1095d93b87927bc1b23b9f6649" ++ "87f9a87595401f075c1936f73db4358f") "read",
      #v[0x1e, 0xf6, 0xba, 0xd4, 0x8d, 0x11, 0xb4, 0x45, 0xd7, 0xc3, 0x22, 0x23, 0x5f, 0xa6, 0x9c, 0x4b,
        0x53, 0xd1, 0xff, 0x84, 0xc4, 0x62, 0x20, 0x4a, 0xec, 0x34, 0xcd, 0x23, 0xc4, 0x30, 0x7a, 0xd4])]

def pinnedServing := serving (u := asciiUnicode) (δ := Device) (φ := DeviceFault) pinnedDeployment
  accessCodec (fun _ => none) AuditWorld.db

/-- A store without secrets that knows one token. -/
def servedStart : Running (Attending (SharedStore Device AuditWorld asciiUnicode)
    (ApiRequest × Headers) HttpError ApiResponse)
    (Stage (ApiCall asciiUnicode) (ApiRequest × Headers) HttpError ApiResponse)
    (Stage.Reply ApiCall.Reply) HttpError where
  shared := ⟨⟨{ deploying with
    secrets := ⟨[], []⟩
    tokens := [⟨"AQEBAQEB", "ci",
      "ddae44fac24419b18415c1ab9d3e8158" ++ "1b1b195a73fa5655a8073dc96b8a6c83", 0, "cli:root", none,
      none, none, 0⟩] }, [], []⟩, [], []⟩
  scripts := []

def writing : ApiRequest × Headers :=
  (.writeSecret (.ok "infra/service-a/DB_PASSWORD") (.ok ⟨"the value of a secret", none⟩), headers)

def reading : ApiRequest × Headers :=
  (.readSecret (.ok "infra/service-a/DB_PASSWORD") (.ok ⟨none⟩), headers)

def drawing : ApiOutside DeviceFault := { calm with draws := pinnedDraws }

/-- A secret is written, and once that is answered it is read. -/
def servedEvents : List (Happens (StoreEvent Device AuditWorld asciiUnicode) (ApiOutside DeviceFault)
    (ApiRequest × Headers)) :=
  .start writing :: List.replicate 5 (.advance 0 drawing) ++
    .start reading :: List.replicate 5 (.advance 1 calm)

def servedRun := (Transition.run pinnedServing.step servedStart servedEvents).getD servedStart

theorem servedRun_answers :
    (Transition.run pinnedServing.step servedStart servedEvents).map (fun s =>
      s.shared.answered.map fun one => (one.since, one.ended.toOption)) =
    some [(0, some (.written ⟨"infra/service-a/DB_PASSWORD", 1⟩)),
      (1, some (.secret ⟨"infra/service-a/DB_PASSWORD", 1, "the value of a secret", 1767225600000,
        "ci"⟩))] := by
  decide +kernel

theorem servedRun_run :
    Transition.run pinnedServing.step servedStart servedEvents = some servedRun := by
  have hanswers := servedRun_answers
  unfold servedRun
  cases hrun : Transition.run pinnedServing.step servedStart servedEvents with
  | none =>
      rw [hrun] at hanswers
      cases hanswers
  | some s => rfl

theorem servedRun_told :
    servedRun.shared.answered.map (fun one => (one.since, one.ended.toOption)) =
      [(0, some (.written ⟨"infra/service-a/DB_PASSWORD", 1⟩)),
        (1, some (.secret ⟨"infra/service-a/DB_PASSWORD", 1, "the value of a secret", 1767225600000,
          "ci"⟩))] := by
  have hanswers := servedRun_answers
  rw [servedRun_run] at hanswers
  exact Option.some.inj hanswers

theorem servedRun_reachable :
    Transition.Reachable Fresh pinnedServing.step (fun _ _ => True) servedRun :=
  Transition.reachable_of_any_run servedEvents (.start ⟨⟨rfl, rfl, rfl⟩, rfl, rfl, rfl⟩) servedRun_run

theorem served_values_after_write :
    servedRun.shared.answered.map (fun one => (one.since, one.ended.toOption)) =
      [(0, some (.written ⟨"infra/service-a/DB_PASSWORD", 1⟩)),
        (1, some (.secret ⟨"infra/service-a/DB_PASSWORD", 1, "the value of a secret", 1767225600000,
          "ci"⟩))] ∧
      ∀ one ∈ servedRun.shared.answered, ∀ response, one.ended = .ok response →
        ∀ told ∈ response.values, ∃ p ∈ servedRun.shared.shared.produced,
          p.path.text = told.path ∧ p.version.number = told.version ∧
          decrypt pinnedAead pinnedRoot p.path p.version p.value = .ok (utf8 told.value) ∧
          AskedToWrite servedRun.shared.shared servedRun.shared.arrived p.path (utf8 told.value) := by
  refine ⟨servedRun_told, ?_⟩
  intro one hone response hended told htold
  exact (served_values pinnedAead_opens servedRun_reachable one hone response hended told htold).1

theorem answers_in_real_time_after_write :
    servedRun.shared.answered.map (fun one => (one.since, one.ended.toOption)) =
      [(0, some (.written ⟨"infra/service-a/DB_PASSWORD", 1⟩)),
        (1, some (.secret ⟨"infra/service-a/DB_PASSWORD", 1, "the value of a secret", 1767225600000,
          "ci"⟩))] ∧
      ∀ one ∈ servedRun.shared.answered, one.request.1.takesCurrent = true →
        ∀ earlier ∈ servedRun.shared.answered.take one.since, ∀ response before,
          one.ended = .ok response → earlier.ended = .ok before → ∀ told ∈ response.values,
            ∀ known ∈ before.versionsTold, known.1 = told.path → known.2 ≤ told.version := by
  exact ⟨servedRun_told, answers_in_real_time servedRun_reachable⟩

end Sample

end Ciphr
