import Ciphr.ServerHandlers

/-!
The handlers on a process that others use too: what an answer does to the rows of the store and to
the trail, whatever the devices, the database and the clock make of it.
-/

namespace Ciphr

open Script

namespace AppState

variable {δ ω φ : Type} [AuditDevice δ ω φ] {codec : Codec} {moments : Nat → Moment φ} {entry : Entry}
  {s : AppState δ ω}

theorem trail_writeSink : s.trail <+: (s.writeSink codec moments entry).2.trail := by
  unfold writeSink
  exact List.prefix_append _ _

theorem trail_explainTheGap {quarantined : List Quarantined} {failures : List DeviceFailure} :
    s.trail <+: (explainTheGap codec moments quarantined failures s).trail := by
  induction failures generalizing s with
  | nil => exact List.prefix_refl _
  | cons failure failures ih =>
      have hfirst : s.trail <+: (s.writeSink codec moments (gapEntry quarantined failure)).2.trail :=
        trail_writeSink
      exact hfirst.trans ih

/-- What the explanation of a gap leaves of the trail. -/
theorem trail_explained {written : Written} (h : (s.writeSink codec moments entry).1 = .ok written) :
    (s.writeSink codec moments entry).2.trail <+: ((record codec moments entry).exec s).2.trail := by
  rw [record_of_ok h]
  have hgap : ((s.writeSink codec moments entry).2.noteDeviceOutcome written.failures
      written.quarantined).trail <+: (explainTheGap codec moments written.quarantined written.failures
        ((s.writeSink codec moments entry).2.noteDeviceOutcome written.failures
          written.quarantined)).trail := trail_explainTheGap
  exact hgap

/-- A record that is answered well is on the trail, whatever else is. -/
theorem trail_record_ok (h : ((record codec moments entry).exec s).1 = .ok ()) :
    s.trail ++ [entry] <+: ((record codec moments entry).exec s).2.trail := by
  cases hwrite : (s.writeSink codec moments entry).1 with
  | error error =>
      obtain ⟨devices, hrecord, -⟩ := record_of_error hwrite
      rw [hrecord] at h
      cases h
  | ok written =>
      have hgap := trail_explained hwrite
      have htrail : (s.writeSink codec moments entry).2.trail = s.trail ++ [entry] := by
        unfold writeSink at hwrite ⊢
        dsimp only at hwrite ⊢
        rw [hwrite]
      rwa [htrail] at hgap

theorem trail_record : s.trail <+: ((record codec moments entry).exec s).2.trail := by
  cases hwrite : (s.writeSink codec moments entry).1 with
  | error error =>
      obtain ⟨devices, hrecord, -⟩ := record_of_error hwrite
      rw [hrecord]
      exact trail_writeSink
  | ok written =>
      have hfirst : s.trail <+: (s.writeSink codec moments entry).2.trail := trail_writeSink
      exact hfirst.trans (trail_explained hwrite)

end AppState

namespace TokenTable

/-- The rows without what the use of a token changes. -/
def withoutUse (table : TokenTable) : TokenTable :=
  table.map fun row => { row with lastUsedAt := none }

theorem withoutUse_update_lastUsedAt {table : TokenTable} {cond : TokenRow → Bool} {now : Int} :
    (table.update cond fun row => { row with lastUsedAt := some now }).withoutUse =
      table.withoutUse := by
  unfold withoutUse update
  rw [List.map_map]
  apply List.map_congr_left
  intro row _
  change TokenRow.mk .. = _
  dsimp only [Function.comp]
  split
  · rfl
  · rfl

/-- Authenticating changes no row but for the last use of a token. -/
theorem withoutUse_authenticate {table : TokenTable} {hmac : Hmac} {presented : String}
    {pepper : TokenPepper} {now : Int} {fault : TokenFault} :
    (table.authenticate hmac presented pepper now fault).1.withoutUse = table.withoutUse := by
  fun_cases authenticate hmac table presented pepper now fault
  case case9 =>
    rename_i used _ _ _
    dsimp only [used]
    split
    · rfl
    · exact withoutUse_update_lastUsedAt
  all_goals rfl

end TokenTable

namespace Server

variable {δ ω φ : Type} [AuditDevice δ ω φ] {u : Unicode}

/-- The rows that a request answers for: not the last use of a token, and not what the tripwires
derive. -/
def rows (s : Server δ ω) : SecretTables × TokenTable := (s.secrets, s.tokens.withoutUse)

/-- The trail only grows. -/
def Extends (s s' : Server δ ω) : Prop := s.app.trail <+: s'.app.trail

variable {deployment : Deployment} {codec : Codec} {json : JsonExtract} {database : ω → Database}
  {s : Server δ ω} {outside : ApiOutside φ}

theorem answer_rows {c : ApiCall u}
    (h : ApiAct.changesRows ⟨c, (answer deployment codec json database s outside c).2⟩ = false) :
    (answer deployment codec json database s outside c).1.rows = s.rows := by
  cases c with
  | putWithRotation | delete | revokeToken | issueToken => cases h
  | authenticate presented =>
      unfold rows answer
      rw [TokenTable.withoutUse_authenticate]
  | latchOffTheRequestPath =>
      simp only [answer]
      split
      · rfl
      · rfl
  | _ => rfl

/-- The trail that an answer leaves holds what it committed, at the end of what was there before. -/
theorem answer_trail {c : ApiCall u} :
    s.app.trail ++ entries [⟨c, (answer deployment codec json database s outside c).2⟩] <+:
      (answer deployment codec json database s outside c).1.app.trail := by
  have hquiet : ∀ trail : List Entry, trail ++ [] <+: trail := by
    intro trail
    rw [List.append_nil]
  cases c with
  | record entry =>
      cases hreply : (answer (u := u) deployment codec json database s outside (.record entry)).2 with
      | ok => exact AppState.trail_record_ok hreply
      | error error =>
          change s.app.trail ++ [] <+: _
          rw [List.append_nil]
          exact AppState.trail_record
  | latchOffTheRequestPath =>
      simp only [answer]
      split
      · exact hquiet _
      · exact hquiet _
  | _ => exact hquiet _

/-- What a request has committed so far is on the trail, in order, whatever others wrote there. -/
theorem plays_trail {ε α : Type} {script : Script (ApiCall u) ApiCall.Reply ε α}
    {turns : List (Turn (Server δ ω) (ApiCall u) ApiCall.Reply)} {result : Except ε α}
    {last : Server δ ω}
    (h : Plays (answer deployment codec json database) Extends s script turns result last) :
    (s.app.trail ++ entries (turns.map (·.act))).Sublist last.app.trail ∧
      ∀ front turn later, turns = front ++ turn :: later →
        (s.app.trail ++ entries (front.map (·.act))).Sublist turn.before.app.trail := by
  apply h.since (R := fun acts s' => (s.app.trail ++ entries acts).Sublist s'.app.trail)
  · intro acts s s' hacts hothers
    exact hacts.trans hothers.sublist
  · intro acts s' outside c hacts
    rw [entries_append, ← List.append_assoc]
    exact (hacts.append_right _).trans answer_trail.sublist
  · rw [entries_nil, List.append_nil]

end Server

end Ciphr
