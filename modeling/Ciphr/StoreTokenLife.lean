import Ciphr.StoreTokens

/-!
The life of a token over every interleaving of the operations on the table.
-/

namespace Ciphr

/-- The table, and the identifiers for which a `revoke_token` has answered that it was the one to
revoke. -/
structure TokenLife where
  table : TokenTable
  revoked : List String
  deriving DecidableEq, Repr

inductive TokenEvent where
  | issue (identity : String) (token : Token) (createdBy : String) (expiresAt : Option Int)
      (purpose : TokenPurpose) (now : Int) (fault : Option String)
  | authenticate (presented : String) (now : Int) (fault : TokenFault)
  | revoke (tokenId : String) (now : Int) (fault : TokenFault)
  | revokeIdentity (identity : String) (now : Int) (fault : Option String)

namespace TokenLife

def step (hmac : Hmac) (pepper : TokenPepper) (s : TokenLife) : TokenEvent → Option TokenLife
  | .issue identity token createdBy expiresAt purpose now fault =>
      let issued := s.table.issueToken hmac identity token pepper createdBy expiresAt purpose now fault
      some { s with table := issued.1 }
  | .authenticate presented now fault =>
      some { s with table := (s.table.authenticate hmac presented pepper now fault).1 }
  | .revoke tokenId now fault =>
      let revoked := s.table.revokeToken tokenId now fault
      some ⟨revoked.1, if revoked.2 = .ok true then s.revoked ++ [tokenId] else s.revoked⟩
  | .revokeIdentity identity now fault =>
      some { s with table := (s.table.revokeIdentityTokens identity now fault).1 }

end TokenLife

/-! ### Updates -/

/-- A row and the same token's row later on: it is marked as used or revoked and else unchanged, and
a revocation stands. -/
structure TokenRow.Later (row row' : TokenRow) : Prop where
  tokenId : row'.tokenId = row.tokenId
  verifier : row'.verifier = row.verifier
  honeypot : row'.honeypot = row.honeypot
  revoked : ∀ t, row.revokedAt = some t → row'.revokedAt = some t

theorem TokenRow.Later.refl (row : TokenRow) : row.Later row := ⟨rfl, rfl, rfl, fun _ h => h⟩

theorem TokenRow.Later.trans {row row' row'' : TokenRow} (h : row.Later row') (h' : row'.Later row'') :
    row.Later row'' :=
  ⟨h'.tokenId.trans h.tokenId, h'.verifier.trans h.verifier, h'.honeypot.trans h.honeypot,
    fun t ht => h'.revoked t (h.revoked t ht)⟩

namespace TokenTable

/-- Every token of a table has a row in the table later on. -/
def Later (table table' : TokenTable) : Prop := ∀ row ∈ table, ∃ row' ∈ table', row.Later row'

theorem Later.refl (table : TokenTable) : Later table table := fun row h => ⟨row, h, .refl row⟩

theorem Later.trans {table table' table'' : TokenTable} (h : Later table table')
    (h' : Later table' table'') : Later table table'' := by
  intro row hrow
  obtain ⟨row', hrow', hlater⟩ := h row hrow
  obtain ⟨row'', hrow'', hlater'⟩ := h' row' hrow'
  exact ⟨row'', hrow'', hlater.trans hlater'⟩

/-- What an operation can have done to the table: nothing, issued one token, or marked some rows. -/
inductive Change (hmac : Hmac) (pepper : TokenPepper) (table : TokenTable) : TokenTable → Prop
  | same : Change hmac pepper table table
  | issued (row : TokenRow) (token : Token) (hverifier : row.verifier = (token.verifier hmac pepper).toHex)
      (hnew : ∀ other ∈ table, other.tokenId ≠ row.tokenId) :
      Change hmac pepper table (table ++ [row])
  | marked (cond : TokenRow → Bool) (set : TokenRow → TokenRow)
      (hset : ∀ row ∈ table, cond row = true → row.Later (set row)) :
      Change hmac pepper table (table.update cond set)

variable {hmac : Hmac} {pepper : TokenPepper} {table table' : TokenTable}

theorem Change.later (h : Change hmac pepper table table') : Later table table' := by
  cases h with
  | same => exact .refl table
  | issued row token hverifier hnew =>
      intro other hother
      exact ⟨other, List.mem_append_left _ hother, .refl other⟩
  | marked cond set hset =>
      intro row hrow
      refine ⟨_, List.mem_map_of_mem hrow, ?_⟩
      split
      · rename_i hcond
        exact hset row hrow hcond
      · exact .refl row

/-- One row for each token, with a verifier that can be read. -/
structure WellFormed (hmac : Hmac) (pepper : TokenPepper) (table : TokenTable) : Prop where
  unique : (table.map (·.tokenId)).Nodup
  readable : ∀ row ∈ table, ∃ verifier : TokenVerifier, row.verifier = verifier.toHex

theorem update_tokenIds {cond : TokenRow → Bool} {set : TokenRow → TokenRow}
    (hset : ∀ row ∈ table, cond row = true → row.Later (set row)) :
    (table.update cond set).map (·.tokenId) = table.map (·.tokenId) := by
  unfold update
  rw [List.map_map]
  apply List.map_congr_left
  intro row hmem
  simp only [Function.comp_apply]
  split
  · rename_i hcond
    exact (hset row hmem hcond).tokenId
  · rfl

theorem Change.wellFormed (h : Change hmac pepper table table') (hwf : WellFormed hmac pepper table) :
    WellFormed hmac pepper table' := by
  cases h with
  | same => exact hwf
  | issued row token hverifier hnew =>
      constructor
      · rw [List.map_append, List.map_singleton, List.nodup_append]
        refine ⟨hwf.unique, by simp, ?_⟩
        intro id hid other hother
        rw [List.mem_singleton] at hother
        obtain ⟨kept, hmem, rfl⟩ := List.mem_map.mp hid
        exact hother ▸ hnew kept hmem
      · intro other hmem
        rcases List.mem_append.mp hmem with hold | hrow
        · exact hwf.readable other hold
        · rw [List.mem_singleton] at hrow
          exact ⟨_, hrow ▸ hverifier⟩
  | marked cond set hset =>
      constructor
      · rw [update_tokenIds hset]
        exact hwf.unique
      · intro other hmem
        obtain ⟨row, hrow, rfl⟩ := List.mem_map.mp hmem
        obtain ⟨verifier, hverifier⟩ := hwf.readable row hrow
        split
        · rename_i hcond
          exact ⟨verifier, (hset row hrow hcond).verifier.trans hverifier⟩
        · exact ⟨verifier, hverifier⟩

/-- The one row of a token is the one that is found. -/
theorem WellFormed.find?_eq (hwf : WellFormed hmac pepper table) {row : TokenRow} (h : row ∈ table) :
    table.find? (·.tokenId == row.tokenId) = some row := by
  cases hfind : table.find? (·.tokenId == row.tokenId) with
  | none => simpa using List.find?_eq_none.mp hfind row h
  | some other =>
      have hid : other.tokenId = row.tokenId := by
        simpa using List.find?_some (p := fun r : TokenRow => r.tokenId == row.tokenId) hfind
      rw [List.inj_on_of_nodup_map hwf.unique (List.mem_of_find?_eq_some hfind) h hid]

/-! ### One operation -/

theorem issueToken_change (identity : String) (token : Token) (createdBy : String)
    (expiresAt : Option Int) (purpose : TokenPurpose) (now : Int) (fault : Option String) :
    Change hmac pepper table
      (table.issueToken hmac identity token pepper createdBy expiresAt purpose now fault).1 := by
  unfold issueToken
  split
  · exact .same
  · split
    · exact .same
    · rename_i hany
      refine .issued _ token rfl ?_
      intro other hmem heq
      exact hany (List.any_eq_true.mpr ⟨other, hmem, beq_iff_eq.mpr heq⟩)

/-- A row that authenticates a presented text. -/
structure Admits (hmac : Hmac) (pepper : TokenPepper) (presented : String) (now : Int)
    (row : TokenRow) : Prop where
  names : ∃ token, Token.parse presented = some (.ok token) ∧ row.tokenId = token.id.asText ∧
    TokenVerifier.fromHex row.verifier = .ok (token.verifier hmac pepper)
  credential : row.honeypot = 0
  standing : row.revokedAt = none
  current : ∀ t, row.expiresAt = some t → now < t

/-- A text that names a row is admitted by no other. -/
theorem Admits.eq_of_names (hwf : WellFormed hmac pepper table) {presented : String} {now : Int}
    {row other : TokenRow} {token : Token} (hadmits : Admits hmac pepper presented now other)
    (hother : other ∈ table) (hrow : row ∈ table) (hparse : Token.parse presented = some (.ok token))
    (hid : row.tokenId = token.id.asText) : other = row := by
  obtain ⟨token', hparse', hid', -⟩ := hadmits.names
  rw [hparse, Option.some.injEq, Except.ok.injEq] at hparse'
  exact List.inj_on_of_nodup_map hwf.unique hother hrow (by rw [hid, hid', hparse'])

theorem isUsableAt_iff (record : TokenRecord) (now : Int) :
    record.isUsableAt now = true ↔
      record.revokedAt = none ∧ ∀ t, record.expiresAt = some t → now < t := by
  unfold TokenRecord.isUsableAt
  rw [Bool.and_eq_true, Option.isNone_iff_eq_none]
  refine and_congr Iff.rfl ?_
  cases record.expiresAt with
  | none => simp
  | some t => simp

/-- What `authenticate` answers once it has found the row of the presented token. -/
theorem authenticate_of_row {presented : String} {now : Int} {fault : TokenFault} {token : Token}
    {row : TokenRow} {verifier : TokenVerifier} (hparse : Token.parse presented = some (.ok token))
    (htoken : fault.token = none) (hverifier : fault.verifier = none)
    (hfind : table.find? (·.tokenId == token.id.asText) = some row)
    (hread : TokenVerifier.fromHex row.verifier = .ok verifier) :
    table.authenticate hmac presented pepper now fault =
      if !verifier.matchesBytes (token.verifier hmac pepper) then (table, some (.ok .invalid))
      else if row.honeypot != 0 then (table, some (.ok (.bait row.tokenId row.identityName)))
      else if !row.record.isUsableAt now then (table, some (.ok .invalid))
      else
        (match fault.update with
          | some _ => table
          | none => table.update (·.tokenId == row.tokenId) fun row =>
              { row with lastUsedAt := some now },
          some (.ok (.valid ⟨row.identityName, row.tokenId⟩))) := by
  have hid : row.tokenId = token.id.asText := by
    simpa using List.find?_some (p := fun r : TokenRow => r.tokenId == token.id.asText) hfind
  unfold authenticate
  cases fault.update with
  | none =>
      simp only [hparse, TokenTable.token, htoken, hfind, Option.map_some, verifierFor, hverifier,
        TokenRow.record, hid, hread, Option.getD_some]
  | some error =>
      simp only [hparse, TokenTable.token, htoken, hfind, Option.map_some, verifierFor, hverifier,
        TokenRow.record, hid, hread, Option.getD_some]

/-- Without a row of the presented token, nothing is authenticated and nothing changes. -/
theorem authenticate_of_no_row {presented : String} {now : Int} {fault : TokenFault}
    (h : ∀ token row, Token.parse presented = some (.ok token) → fault.token = none →
      fault.verifier = none → table.find? (·.tokenId == token.id.asText) ≠ some row) :
    (table.authenticate hmac presented pepper now fault).1 = table ∧
      ∀ a, (table.authenticate hmac presented pepper now fault).2 ≠ some (.ok (.valid a)) := by
  unfold authenticate
  cases hparse : Token.parse presented with
  | none => exact ⟨rfl, by simp⟩
  | some parsed =>
      cases parsed with
      | error error => exact ⟨rfl, by simp⟩
      | ok token =>
          cases hfault : fault.token with
          | some error => exact ⟨rfl, by simp [TokenTable.token]⟩
          | none =>
              simp only [TokenTable.token]
              cases hfind : table.find? (·.tokenId == token.id.asText) with
              | none => exact ⟨rfl, by simp⟩
              | some row =>
                  cases hfault' : fault.verifier with
                  | some error => exact ⟨rfl, by simp [verifierFor]⟩
                  | none => exact absurd hfind (h token row hparse hfault hfault')

/-- What `authenticate` does with a text, in a table whose verifiers can be read. -/
theorem authenticate_cases (hwf : WellFormed hmac pepper table) (presented : String) (now : Int)
    (fault : TokenFault) :
    (∃ row ∈ table, Admits hmac pepper presented now row ∧ fault.token = none ∧
        fault.verifier = none ∧
        (table.authenticate hmac presented pepper now fault).2 =
          some (.ok (.valid ⟨row.identityName, row.tokenId⟩)) ∧
        ((table.authenticate hmac presented pepper now fault).1 = table ∨
          (table.authenticate hmac presented pepper now fault).1 =
            table.update (·.tokenId == row.tokenId) fun row => { row with lastUsedAt := some now })) ∨
      ((fault.token = none → fault.verifier = none →
          ∀ row ∈ table, ¬ Admits hmac pepper presented now row) ∧
        (table.authenticate hmac presented pepper now fault).1 = table ∧
        ∀ a, (table.authenticate hmac presented pepper now fault).2 ≠ some (.ok (.valid a))) := by
  by_cases hrow : ∃ token row, Token.parse presented = some (.ok token) ∧ fault.token = none ∧
      fault.verifier = none ∧ table.find? (·.tokenId == token.id.asText) = some row
  · obtain ⟨token, row, hparse, htoken, hverifier, hfind⟩ := hrow
    have hmem := List.mem_of_find?_eq_some hfind
    have hid : row.tokenId = token.id.asText := by
      simpa using List.find?_some (p := fun r : TokenRow => r.tokenId == token.id.asText) hfind
    obtain ⟨verifier, hhex⟩ := hwf.readable row hmem
    have hread : TokenVerifier.fromHex row.verifier = .ok verifier := by
      rw [hhex, TokenVerifier.fromHex_toHex]
    -- a row that admits the text is this one, and this one admits it when it passes the three checks
    have hadmits : ∀ other ∈ table, Admits hmac pepper presented now other →
        verifier = token.verifier hmac pepper ∧ row.honeypot = 0 ∧
          row.record.isUsableAt now = true := by
      intro other hother h
      rw [h.eq_of_names hwf hother hmem hparse hid] at h
      obtain ⟨token', htoken', -, hverifier'⟩ := h.names
      rw [hparse, Option.some.injEq, Except.ok.injEq] at htoken'
      rw [hread, ← htoken', Except.ok.injEq] at hverifier'
      exact ⟨hverifier', h.credential, (isUsableAt_iff _ now).mpr ⟨h.standing, h.current⟩⟩
    rw [authenticate_of_row hparse htoken hverifier hfind hread]
    by_cases hmatched : verifier = token.verifier hmac pepper
    · by_cases hhoneypot : row.honeypot = 0
      · by_cases husable : row.record.isUsableAt now = true
        · refine .inl ⟨row, hmem, ⟨⟨token, hparse, hid, hmatched ▸ hread⟩, hhoneypot,
            ((isUsableAt_iff _ now).mp husable).1, ((isUsableAt_iff _ now).mp husable).2⟩,
            htoken, hverifier, ?_⟩
          simp only [TokenVerifier.matchesBytes, hmatched, hhoneypot, husable, BEq.rfl, bne_self_eq_false,
            Bool.not_true, if_false, true_and, Bool.false_eq_true]
          cases fault.update with
          | some _ => exact .inl rfl
          | none => exact .inr rfl
        · refine .inr ⟨fun _ _ other hother h => husable (hadmits other hother h).2.2, ?_⟩
          simp [TokenVerifier.matchesBytes, hmatched, hhoneypot, husable]
      · refine .inr ⟨fun _ _ other hother h => hhoneypot (hadmits other hother h).2.1, ?_⟩
        simp [TokenVerifier.matchesBytes, hmatched, hhoneypot]
    · refine .inr ⟨fun _ _ other hother h => hmatched (hadmits other hother h).1, ?_⟩
      simp [TokenVerifier.matchesBytes, hmatched]
  · refine .inr ⟨?_, authenticate_of_no_row ?_⟩
    · rintro htoken hverifier row hmem ⟨⟨token, hparse, hid, -⟩, -⟩
      exact hrow ⟨token, row, hparse, htoken, hverifier, hid ▸ hwf.find?_eq hmem⟩
    · intro token row hparse htoken hverifier hfind
      exact hrow ⟨token, row, hparse, htoken, hverifier, hfind⟩

theorem authenticate_change (hwf : WellFormed hmac pepper table) (presented : String) (now : Int)
    (fault : TokenFault) :
    Change hmac pepper table (table.authenticate hmac presented pepper now fault).1 := by
  rcases authenticate_cases hwf presented now fault with
    ⟨row, -, -, -, -, -, hsame | hmarked⟩ | ⟨-, hsame, -⟩
  · rw [hsame]
    exact .same
  · rw [hmarked]
    exact .marked _ _ fun _ _ _ => ⟨rfl, rfl, rfl, fun _ h => h⟩
  · rw [hsame]
    exact .same

/-- `revoke_token` answers that it has revoked the token when there was a row to mark, and else
changes nothing. -/
theorem revokeToken_cases (table : TokenTable) (tokenId : String) (now : Int) (fault : TokenFault) :
    ((table.revokeToken tokenId now fault).2 = .ok true ∧
        (∃ row ∈ table, row.tokenId = tokenId ∧ row.revokedAt = none) ∧
        (table.revokeToken tokenId now fault).1 =
          table.update (fun row => row.tokenId == tokenId && row.revokedAt.isNone) fun row =>
            { row with revokedAt := some now }) ∨
      ((table.revokeToken tokenId now fault).2 ≠ .ok true ∧
        (table.revokeToken tokenId now fault).1 = table) := by
  unfold revokeToken
  split
  · exact .inr ⟨by simp, rfl⟩
  · dsimp only
    split
    · rename_i hcount
      obtain ⟨row, hmem, hrow⟩ := List.countP_pos_iff.mp hcount
      rw [Bool.and_eq_true, beq_iff_eq, Option.isNone_iff_eq_none] at hrow
      exact .inl ⟨rfl, ⟨row, hmem, hrow⟩, rfl⟩
    · split
      · exact .inr ⟨by simp, rfl⟩
      · exact .inr ⟨by simp, rfl⟩
      · exact .inr ⟨by simp, rfl⟩

theorem revokeToken_change (tokenId : String) (now : Int) (fault : TokenFault) :
    Change hmac pepper table (table.revokeToken tokenId now fault).1 := by
  rcases revokeToken_cases table tokenId now fault with ⟨-, -, hmarked⟩ | ⟨-, hsame⟩
  · rw [hmarked]
    refine .marked _ _ ?_
    intro row _ hrow
    rw [Bool.and_eq_true, Option.isNone_iff_eq_none] at hrow
    exact ⟨rfl, rfl, rfl, fun t ht => by simp [hrow.2] at ht⟩
  · rw [hsame]
    exact .same

theorem revokeIdentityTokens_change (identity : String) (now : Int) (fault : Option String) :
    Change hmac pepper table (table.revokeIdentityTokens identity now fault).1 := by
  unfold revokeIdentityTokens
  split
  · exact .same
  · refine .marked _ _ ?_
    intro row _ _
    exact ⟨rfl, rfl, rfl, fun t ht => by simp [ht]⟩

end TokenTable

/-! ### Every run -/

namespace TokenLife

variable {hmac : Hmac} {pepper : TokenPepper} {s s' : TokenLife} {event : TokenEvent}

structure LifeInv (hmac : Hmac) (pepper : TokenPepper) (s : TokenLife) : Prop where
  wellFormed : TokenTable.WellFormed hmac pepper s.table
  once : s.revoked.Nodup
  revoked : ∀ id ∈ s.revoked, ∃ row ∈ s.table, row.tokenId = id ∧ row.revokedAt.isSome = true

theorem step_change (hwf : TokenTable.WellFormed hmac pepper s.table)
    (h : step hmac pepper s event = some s') : TokenTable.Change hmac pepper s.table s'.table := by
  cases event with
  | issue identity token createdBy expiresAt purpose now fault =>
      cases h
      exact TokenTable.issueToken_change identity token createdBy expiresAt purpose now fault
  | authenticate presented now fault =>
      cases h
      exact TokenTable.authenticate_change hwf presented now fault
  | revoke tokenId now fault =>
      cases h
      exact TokenTable.revokeToken_change tokenId now fault
  | revokeIdentity identity now fault =>
      cases h
      exact TokenTable.revokeIdentityTokens_change identity now fault

theorem LifeInv.kept (h : LifeInv hmac pepper s) {table : TokenTable}
    (hlater : TokenTable.Later s.table table) :
    ∀ id ∈ s.revoked, ∃ row ∈ table, row.tokenId = id ∧ row.revokedAt.isSome = true := by
  intro id hid
  obtain ⟨row, hmem, hrow, hrevoked⟩ := h.revoked id hid
  obtain ⟨row', hmem', hlater'⟩ := hlater row hmem
  obtain ⟨t, ht⟩ := Option.isSome_iff_exists.mp hrevoked
  exact ⟨row', hmem', hlater'.tokenId.trans hrow, by simp [hlater'.revoked t ht]⟩

/-- A token that is revoked here was in force before. -/
theorem LifeInv.not_revoked (h : LifeInv hmac pepper s) {row : TokenRow} (hmem : row ∈ s.table)
    (hstanding : row.revokedAt = none) : row.tokenId ∉ s.revoked := by
  intro hid
  obtain ⟨other, hmem', hid', hrevoked⟩ := h.revoked _ hid
  rw [List.inj_on_of_nodup_map h.wellFormed.unique hmem' hmem hid', hstanding] at hrevoked
  simp at hrevoked

theorem LifeInv.step (h : LifeInv hmac pepper s) (hstep : TokenLife.step hmac pepper s event = some s') :
    LifeInv hmac pepper s' := by
  have hchange := step_change h.wellFormed hstep
  have hwf := hchange.wellFormed h.wellFormed
  have hkept := h.kept hchange.later
  cases event with
  | issue identity token createdBy expiresAt purpose now fault =>
      cases hstep
      exact ⟨hwf, h.once, hkept⟩
  | authenticate presented now fault =>
      cases hstep
      exact ⟨hwf, h.once, hkept⟩
  | revokeIdentity identity now fault =>
      cases hstep
      exact ⟨hwf, h.once, hkept⟩
  | revoke tokenId now fault =>
      rw [← Option.some.inj hstep] at hwf hkept ⊢
      rcases TokenTable.revokeToken_cases s.table tokenId now fault with
        ⟨htrue, ⟨row, hmem, hid, hstanding⟩, hmarked⟩ | ⟨hfalse, -⟩
      · refine ⟨hwf, ?_, ?_⟩
        · simp only [htrue, if_true]
          rw [List.nodup_append]
          refine ⟨h.once, List.nodup_singleton _, ?_⟩
          intro id hold other hother
          rw [List.mem_singleton] at hother
          rintro rfl
          exact h.not_revoked hmem hstanding (by rwa [hid, ← hother])
        · simp only [htrue, if_true]
          intro id hold
          rcases List.mem_append.mp hold with hold | hnew
          · exact hkept id hold
          · rw [List.mem_singleton] at hnew
            refine ⟨{ row with revokedAt := some now }, ?_, by rw [hnew, ← hid], rfl⟩
            rw [hmarked]
            exact List.mem_map.mpr ⟨row, hmem, by simp [hid, hstanding]⟩
      · simp only [hfalse, if_false] at hwf hkept ⊢
        exact ⟨hwf, h.once, hkept⟩

/-- Once revoked, a token is revoked at that time after any further operations. -/
theorem run_later (events : List TokenEvent) {s s' : TokenLife} (h : LifeInv hmac pepper s)
    (hrun : Transition.run (TokenLife.step hmac pepper) s events = some s') :
    LifeInv hmac pepper s' ∧ TokenTable.Later s.table s'.table := by
  induction events generalizing s with
  | nil =>
      cases hrun
      exact ⟨h, .refl _⟩
  | cons event events ih =>
      obtain ⟨next, hstep, hrun⟩ := Option.bind_eq_some_iff.mp hrun
      obtain ⟨hinv, hlater⟩ := ih (h.step hstep) hrun
      exact ⟨hinv, (step_change h.wellFormed hstep).later.trans hlater⟩

theorem life_inv (h : Transition.Reachable (· = ⟨[], []⟩) (TokenLife.step hmac pepper)
    (fun _ _ => True) s) : LifeInv hmac pepper s := by
  refine h.invariant ?_ ?_
  · rintro s rfl
    exact ⟨⟨List.nodup_nil, by simp⟩, List.nodup_nil, by simp⟩
  · intro s event s' hinv _ hstep
    exact hinv.step hstep

end TokenLife

namespace TokenTable

variable {hmac : Hmac} {pepper : TokenPepper} {table : TokenTable}

theorem authenticate_valid_iff (hwf : WellFormed hmac pepper table) (presented : String) (now : Int)
    (fault : TokenFault) (a : Authenticated) :
    (table.authenticate hmac presented pepper now fault).2 = some (.ok (.valid a)) ↔
      fault.token = none ∧ fault.verifier = none ∧
        ∃ row ∈ table, Admits hmac pepper presented now row ∧
          a = ⟨row.identityName, row.tokenId⟩ := by
  rcases authenticate_cases hwf presented now fault with
    ⟨row, hmem, hadmits, htoken, hverifier, hvalid, -⟩ | ⟨hnone, -, hinvalid⟩
  · rw [hvalid, Option.some.injEq, Except.ok.injEq, Authentication.valid.injEq]
    constructor
    · rintro rfl
      exact ⟨htoken, hverifier, row, hmem, hadmits, rfl⟩
    · rintro ⟨-, -, other, hmem', hadmits', rfl⟩
      obtain ⟨token, hparse, hid, -⟩ := hadmits.names
      rw [hadmits'.eq_of_names hwf hmem' hmem hparse hid]
  · constructor
    · intro hvalid
      exact absurd hvalid (hinvalid a)
    · rintro ⟨htoken, hverifier, row, hmem, hadmits, -⟩
      exact absurd hadmits (hnone htoken hverifier row hmem)

/-- A text whose row does not admit it is not authenticated, and changes nothing. -/
theorem authenticate_of_not_admits (hwf : WellFormed hmac pepper table) {presented : String}
    {now : Int} {fault : TokenFault} {row : TokenRow} {token : Token} (hrow : row ∈ table)
    (hparse : Token.parse presented = some (.ok token)) (hid : row.tokenId = token.id.asText)
    (hnot : ¬ Admits hmac pepper presented now row) :
    (table.authenticate hmac presented pepper now fault).1 = table ∧
      ∀ a, (table.authenticate hmac presented pepper now fault).2 ≠ some (.ok (.valid a)) := by
  rcases authenticate_cases hwf presented now fault with ⟨other, hmem, hadmits, -⟩ | ⟨-, hsame⟩
  · rw [hadmits.eq_of_names hwf hmem hrow hparse hid] at hadmits
    exact absurd hadmits hnot
  · exact hsame

end TokenTable

theorem TokenRecord.stateAt_valid_iff (record : TokenRecord) (now : Int) :
    record.stateAt now = .valid ↔ record.isUsableAt now = true := by
  unfold stateAt isUsableAt
  cases record.revokedAt with
  | some t => simp
  | none =>
      cases record.expiresAt with
      | none => simp
      | some t =>
          simp only [Option.isSome_none, Bool.false_eq_true, if_false, Option.any_some, Option.all_some,
            Option.isNone_none, Bool.true_and, decide_eq_true_eq]
          split <;> simp <;> omega

namespace TokenLife

variable {hmac : Hmac} {pepper : TokenPepper}

/-- The life of a token, over every interleaving of `issue_token`, `authenticate`, `revoke_token` and
`revoke_identity_tokens` at any times. -/
theorem token_lifecycle {s : TokenLife}
    (h : Transition.Reachable (· = ⟨[], []⟩) (TokenLife.step hmac pepper) (fun _ _ => True) s) :
    -- valid exactly for the text of a stored credential in force
    (∀ presented now fault a,
      (s.table.authenticate hmac presented pepper now fault).2 = some (.ok (.valid a)) ↔
        fault.token = none ∧ fault.verifier = none ∧
          ∃ row ∈ s.table, TokenTable.Admits hmac pepper presented now row ∧
            a = ⟨row.identityName, row.tokenId⟩) ∧
    -- a revocation stands, at its time, and the token is not accepted again
    (∀ row ∈ s.table, ∀ t, row.revokedAt = some t → ∀ events s',
      Transition.run (TokenLife.step hmac pepper) s events = some s' →
        (∃ row' ∈ s'.table, row'.tokenId = row.tokenId) ∧
        (∀ row' ∈ s'.table, row'.tokenId = row.tokenId → row'.revokedAt = some t) ∧
        ∀ presented token now fault a, Token.parse presented = some (.ok token) →
          token.id.asText = row.tokenId →
            (s'.table.authenticate hmac presented pepper now fault).2 ≠ some (.ok (.valid a))) ∧
    -- one call at most is told that it revoked a token
    s.revoked.Nodup ∧
    -- bait
    (∀ row ∈ s.table, row.honeypot ≠ 0 → ∀ presented token now fault,
      Token.parse presented = some (.ok token) → token.id.asText = row.tokenId →
        (s.table.authenticate hmac presented pepper now fault).1 = s.table ∧
          ∀ a, (s.table.authenticate hmac presented pepper now fault).2 ≠ some (.ok (.valid a))) ∧
    ∀ (record : TokenRecord) now, record.stateAt now = .valid ↔ record.isUsableAt now = true := by
  have hinv := life_inv h
  refine ⟨TokenTable.authenticate_valid_iff hinv.wellFormed, ?_, hinv.once, ?_,
    TokenRecord.stateAt_valid_iff⟩
  · intro row hmem t ht events s' hrun
    obtain ⟨hinv', hlater⟩ := run_later events hinv hrun
    obtain ⟨row', hmem', hrow'⟩ := hlater row hmem
    have hrevoked := hrow'.revoked t ht
    refine ⟨⟨row', hmem', hrow'.tokenId⟩, ?_, ?_⟩
    · intro other hother hid
      rwa [List.inj_on_of_nodup_map hinv'.wellFormed.unique hother hmem' (hid.trans hrow'.tokenId.symm)]
    · intro presented token now fault a hparse hid
      apply (TokenTable.authenticate_of_not_admits hinv'.wellFormed hmem' hparse
        (hrow'.tokenId.trans hid.symm) _).2
      intro hadmits
      rw [hadmits.standing] at hrevoked
      simp at hrevoked
  · intro row hmem hbait presented token now fault hparse hid
    apply TokenTable.authenticate_of_not_admits hinv.wellFormed hmem hparse hid.symm
    intro hadmits
    exact hbait hadmits.credential

end TokenLife

namespace Sample

/-- The pepper of the root key of zero bytes. -/
def pepper : TokenPepper :=
  ⟨#v[234, 119, 62, 79, 96, 246, 161, 93, 71, 30, 102, 140, 65, 155, 255, 45, 77, 188, 0, 228, 232, 78,
    114, 236, 245, 21, 58, 197, 56, 136, 173, 211]⟩

def buildToken : Token := ⟨⟨Vector.replicate 6 1⟩, Vector.replicate 32 7⟩

def baitToken : Token := ⟨⟨Vector.replicate 6 2⟩, Vector.replicate 32 9⟩

/-- HMAC-SHA256 on the secrets of the two tokens. -/
def hmac : Hmac := fun key message =>
  if key = pepper.key.toList ∧ message = buildToken.secret.toList then
    #v[238, 103, 174, 40, 29, 182, 87, 96, 175, 100, 242, 143, 154, 232, 252, 252, 144, 92, 248, 88, 51,
      76, 17, 30, 150, 135, 164, 26, 177, 23, 4, 20]
  else if key = pepper.key.toList ∧ message = baitToken.secret.toList then
    #v[88, 243, 36, 66, 16, 29, 124, 106, 55, 173, 125, 179, 232, 254, 124, 220, 26, 87, 97, 205, 165,
      183, 129, 2, 204, 51, 194, 15, 254, 71, 52, 230]
  else Vector.replicate 32 0

/-- Two tokens are issued, the credential is used, and it is revoked twice. -/
def tokenEvents : List TokenEvent :=
  [.issue "ci" buildToken "root" (some 100) .credential 1 none,
    .issue "ops" baitToken "root" none .honeypot 2 none,
    .authenticate "cph_AQEBAQEBBwcHBwcHBwcHBwcHBwcHBwcHBwcHBwcHBwcHBwcHBwc" 5 {},
    .revoke "AQEBAQEB" 10 {},
    .revoke "AQEBAQEB" 11 {}]

def tokenLife : TokenLife :=
  ((Transition.run (TokenLife.step hmac pepper) ⟨[], []⟩ tokenEvents)).getD ⟨[], []⟩

theorem tokenLife_run :
    Transition.run (TokenLife.step hmac pepper) ⟨[], []⟩ tokenEvents = some tokenLife := by
  decide +kernel

theorem tokenLife_reachable :
    Transition.Reachable (· = ⟨[], []⟩) (TokenLife.step hmac pepper) (fun _ _ => True) tokenLife :=
  Transition.reachable_of_steps tokenEvents (.start rfl) (fun _ _ _ _ _ => trivial) tokenLife_run

/-- The second call was told that the token was revoked already, the first time stands, and the text
that authenticated before does so no more. -/
theorem token_lifecycle_of_revoked :
    tokenLife.revoked = ["AQEBAQEB"] ∧ tokenLife.revoked.Nodup ∧
      tokenLife.table.map (·.revokedAt) = [some 10, none] ∧
      ∀ now fault a, (tokenLife.table.authenticate hmac
        "cph_AQEBAQEBBwcHBwcHBwcHBwcHBwcHBwcHBwcHBwcHBwcHBwcHBwc" pepper now fault).2 ≠
          some (.ok (.valid a)) := by
  obtain ⟨-, hrevoked, honce, -⟩ := TokenLife.token_lifecycle tokenLife_reachable
  refine ⟨by decide +kernel, honce, by decide +kernel, ?_⟩
  intro now fault a
  obtain ⟨row, hmem, t, ht, hid⟩ : ∃ row ∈ tokenLife.table, ∃ t, row.revokedAt = some t ∧
      buildToken.id.asText = row.tokenId :=
    ⟨tokenLife.table.get ⟨0, by decide +kernel⟩, List.get_mem _ _, 10, by decide +kernel,
      by decide +kernel⟩
  exact (hrevoked row hmem t ht [] tokenLife rfl).2.2 _ buildToken now fault a (by decide +kernel) hid

end Sample

end Ciphr
