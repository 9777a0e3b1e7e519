import Ciphr.LibTransition
import Ciphr.CryptoToken
import Ciphr.Errors

/-!
`ciphr-store/src/tokens.rs`: token storage and authentication. The table is the list of its rows in
the order of their insertion; what the database answers instead of performing a statement is an
input.
-/

namespace Ciphr

structure Authenticated where
  identity : String
  tokenId : String
  deriving DecidableEq, Repr

inductive TokenPurpose where
  | credential
  | honeypot
  deriving DecidableEq, Repr

inductive Authentication where
  | valid (authenticated : Authenticated)
  | invalid
  | bait (tokenId identity : String)
  deriving DecidableEq, Repr

inductive TokenState where
  | valid
  | expired
  | revoked
  deriving DecidableEq, Repr

def TokenState.asStr : TokenState → String
  | .valid => "valid"
  | .expired => "expired"
  | .revoked => "revoked"

structure TokenRecord where
  tokenId : String
  identity : String
  createdAt : Int
  createdBy : String
  expiresAt : Option Int
  lastUsedAt : Option Int
  revokedAt : Option Int
  honeypot : Bool
  deriving DecidableEq, Repr

namespace TokenRecord

def isUsableAt (record : TokenRecord) (now : Int) : Bool :=
  record.revokedAt.isNone && record.expiresAt.all (· > now)

def stateAt (record : TokenRecord) (now : Int) : TokenState :=
  if record.revokedAt.isSome then .revoked
  else if record.expiresAt.any (· ≤ now) then .expired
  else .valid

end TokenRecord

/-- A row of `tokens`. -/
structure TokenRow where
  tokenId : String
  identityName : String
  verifier : String
  createdAt : Int
  createdBy : String
  expiresAt : Option Int
  lastUsedAt : Option Int
  revokedAt : Option Int
  honeypot : Int
  deriving DecidableEq, Repr

def TokenRow.record (row : TokenRow) : TokenRecord :=
  ⟨row.tokenId, row.identityName, row.createdAt, row.createdBy, row.expiresAt, row.lastUsedAt,
    row.revokedAt, row.honeypot != 0⟩

/-- What the database answers instead of the statements of `authenticate` and `revoke_token`. -/
structure TokenFault where
  token : Option String := none
  verifier : Option String := none
  update : Option String := none
  deriving DecidableEq, Repr

/-- The rows of `tokens`. -/
abbrev TokenTable := List TokenRow

namespace TokenTable

variable (hmac : Hmac) (table : TokenTable)

/-- `token_id` is the primary key. -/
def issueToken (identity : String) (token : Token) (pepper : TokenPepper) (createdBy : String)
    (expiresAt : Option Int) (purpose : TokenPurpose) (now : Int) (fault : Option String) :
    TokenTable × Except StoreError Unit :=
  match fault with
  | some error => (table, .error (.sqlite error))
  | none =>
      if table.any (·.tokenId == token.id.asText) then
        (table, .error (.sqlite "UNIQUE constraint failed: tokens.token_id"))
      else
        (table ++ [⟨token.id.asText, identity, (token.verifier hmac pepper).toHex, now, createdBy,
          expiresAt, none, none, if purpose = .honeypot then 1 else 0⟩], .ok ())

def token (tokenId : String) (fault : Option String) : Except StoreError (Option TokenRecord) :=
  match fault with
  | some error => .error (.sqlite error)
  | none => .ok ((table.find? (·.tokenId == tokenId)).map (·.record))

def verifierFor (tokenId : String) (fault : Option String) :
    Except StoreError (Option TokenVerifier) :=
  match fault with
  | some error => .error (.sqlite error)
  | none =>
      match table.find? (·.tokenId == tokenId) with
      | none => .ok none
      | some row =>
          match TokenVerifier.fromHex row.verifier with
          | .ok verifier => .ok (some verifier)
          | .error _ => .error (.corrupt "a stored token verifier is not readable")

def absentVerifier : TokenVerifier := ⟨Vector.replicate 32 0⟩

/-- `UPDATE tokens SET … WHERE` on the rows that meet a condition. -/
def update (cond : TokenRow → Bool) (set : TokenRow → TokenRow) : TokenTable :=
  table.map fun row => if cond row then set row else row

/-- Nothing where the source panics: the presented text has the length and the prefix of a token, and
a character across its eighth byte. -/
def authenticate (presented : String) (pepper : TokenPepper) (now : Int) (fault : TokenFault) :
    TokenTable × Option (Except StoreError Authentication) :=
  match Token.parse presented with
  | none => (table, none)
  | some (.error _) => (table, some (.ok .invalid))
  | some (.ok presentedToken) =>
      match table.token presentedToken.id.asText fault.token with
      | .error error => (table, some (.error error))
      | .ok record =>
          let stored : Except StoreError (Option TokenVerifier) :=
            match record with
            | some record => table.verifierFor record.tokenId fault.verifier
            | none => .ok none
          match stored with
          | .error error => (table, some (.error error))
          | .ok stored =>
              let expected := stored.getD absentVerifier
              let matched := expected.matchesBytes (presentedToken.verifier hmac pepper)
              match record with
              | none => (table, some (.ok .invalid))
              | some record =>
                  if !matched then (table, some (.ok .invalid))
                  else if record.honeypot then
                    (table, some (.ok (.bait record.tokenId record.identity)))
                  else if !record.isUsableAt now then (table, some (.ok .invalid))
                  else
                    -- best effort: a failure to note the use is not looked at
                    let used := match fault.update with
                      | some _ => table
                      | none =>
                          table.update (·.tokenId == record.tokenId) fun row =>
                            { row with lastUsedAt := some now }
                    (used, some (.ok (.valid ⟨record.identity, record.tokenId⟩)))

def revokeToken (tokenId : String) (now : Int) (fault : TokenFault) :
    TokenTable × Except StoreError Bool :=
  match fault.update with
  | some error => (table, .error (.sqlite error))
  | none =>
      let revocable : TokenRow → Bool := fun row => row.tokenId == tokenId && row.revokedAt.isNone
      if table.countP revocable > 0 then
        (table.update revocable fun row => { row with revokedAt := some now }, .ok true)
      else
        match table.token tokenId fault.token with
        | .error error => (table, .error error)
        | .ok (some _) => (table, .ok false)
        | .ok none => (table, .error (.tokenNotFound tokenId))

/-- The table afterwards, and how many tokens were revoked. -/
def revokeIdentityTokens (identity : String) (now : Int) (fault : Option String) :
    TokenTable × Except StoreError Nat :=
  match fault with
  | some error => (table, .error (.sqlite error))
  | none =>
      let revocable : TokenRow → Bool := fun row =>
        row.identityName == identity && row.revokedAt.isNone
      (table.update revocable fun row => { row with revokedAt := row.revokedAt <|> some now },
        .ok (table.countP revocable))

end TokenTable

end Ciphr
