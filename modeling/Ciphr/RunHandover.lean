import Ciphr.RunWrapper
import Ciphr.SdkServed

/-!
The wrapper and the service: what the process that `ciphr-run` becomes has in its environment, where the
service at the other end is this one and others use it as well.
-/

namespace Ciphr

open Script

namespace Run

variable {u : Unicode} [ReservedPaths u] {δ ω φ : Type} [AuditDevice δ ω φ] {deployment : Deployment}
  {codec : Codec} {json : JsonExtract} {database : ω → Database}
  {between : Server δ ω → Server δ ω → Prop} {headers : Client → Headers}
  {readings : List (Reading u δ ω)} {platform : Platform} {cli : Cli} {acts : List HostAct}

/-- A variable of the process: it is named after a path, and has a value that was granted for it. -/
def Handed (deployment : Deployment) (readings : List (Reading u δ ω)) (token : String)
    (path : SecretPath u) (entry : EnvVarName × List UInt8) : Prop :=
  entry.1.text = path.lastSegment ∧
    ∃ text, entry.2 = utf8 text ∧ GrantedValue deployment readings token path text

/-- **The environment that is handed over.** Where the process was replaced, it has one variable for each
path that was asked for and no other. -/
theorem replaced_served (hstable : u.Stable)
    (hheaders : ∀ client, (headers client).authorization = some (utf8 client.authorization)) {plan : Plan}
    (hgenuine : GenuineHost deployment codec json database between headers readings acts)
    (h : Runs (main u platform cli) acts (.ok (.replaced plan))) :
    ∃ token credential rest paths, acts = credential ++ rest ∧
      TokenRead platform cli.tokenFile token credential ∧ Wanted cli.start cli.path readings paths ∧
      List.Forall₂ (Handed deployment readings token) paths plan.entries := by
  obtain ⟨before, rfl, hlaunch⟩ := replaced_iff.mp h
  obtain ⟨token, pem, client, script, credential, requests, inner, rfl, htoken, hbuild, hfetches, hasked,
    hruns⟩ := hlaunch.steps
  have hinner := hgenuine.asked hasked (by
    intro act hact
    simp [hact])
  have hclient : client.authorization = "Bearer " ++ Rust.trim token :=
    (ClientBuilder.build_ok hbuild).2.1
  have hhanded : ∀ (path : SecretPath u) entry, ServedVariable deployment (headers client) readings path
      entry → Handed deployment readings token path entry := by
    intro path entry hserved
    obtain ⟨hname, secret, hsecret, hentry⟩ := hserved
    obtain ⟨text, htext, hgranted⟩ := hsecret.granted (hheaders client) hclient
    exact ⟨hname, text, hentry.trans htext, hgranted⟩
  rw [List.append_assoc]
  cases hfetches with
  | path hcli hparse =>
      exact ⟨token, credential, _, _, rfl, htoken, .path hcli hparse,
        (Client.environmentOf_served hstable hinner hruns).imp hhanded⟩
  | start hcli hparse =>
      obtain ⟨paths, hne, hlisted, hentries⟩ := Client.environment_served hstable hinner hruns
      exact ⟨token, credential, _, paths, rfl, htoken, .start hcli hparse hne hlisted,
        hentries.imp hhanded⟩

end Run

namespace Sample

/-- The value of a process's one variable is read of the store of a service that nobody else uses. -/
theorem replaced_served_launched : ∃ readings token credential rest paths,
    launched ++ [⟨.exec handedOver, .ok ()⟩] = credential ++ rest ∧
      TokenRead host wrapped.tokenFile token credential ∧
      Wanted wrapped.start wrapped.path readings paths ∧
      List.Forall₂ (Run.Handed (ω := AuditWorld) (δ := Device) (u := asciiUnicode) readable readings token) paths
        handedOver.entries := by
  obtain ⟨readings, hreadings⟩ := exported_genuine
  have hgenuine : GenuineHost readable bulkCodec (fun _ => none) AuditWorld.db (· = ·) sent readings
      (launched ++ [⟨.exec handedOver, .ok ()⟩]) := by
    apply hreadings
    intro client request answered hact
    simp [launched] at hact
    obtain ⟨⟨rfl, rfl⟩, hanswered⟩ := hact
    exact ⟨rfl, congrArg (Sigma.mk exportedAct.1) hanswered⟩
  obtain ⟨token, credential, rest, paths, hsplit, htoken, hwanted, hhanded⟩ :=
    Run.replaced_served asciiUnicode_stable (fun _ => rfl) hgenuine
      (Run.replaced_iff.mpr ⟨launched, rfl, launched_launch⟩)
  exact ⟨readings, token, credential, rest, paths, hsplit, htoken, hwanted, hhanded⟩

end Sample

end Ciphr
