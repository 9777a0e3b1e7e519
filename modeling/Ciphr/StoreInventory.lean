import Mathlib.Data.List.Lex
import Mathlib.Data.List.Sort
import Ciphr.StoreSecrets
import Ciphr.StoreTokens

/-!
`ciphr-store/src/sqlite.rs`, `tokens.rs` and `honeypots.rs`: the queries that tell of many rows, or of
one row without its value. Text is compared the way SQLite compares it, byte by byte.
-/

namespace Ciphr

/-- The bytes of a text, as `memcmp` orders them. -/
def collate (text : String) : List Nat := (utf8 text).map (·.toNat)

/-- What a secret is, without its value. -/
structure SecretMetadata (u : Unicode) where
  path : SecretPath u
  currentVersion : Option SecretVersion
  rotation : Rotation
  createdAt : Int
  updatedAt : Int

structure VersionSummary where
  version : SecretVersion
  createdAt : Int
  createdBy : String
  deletedAt : Option Int
  destroyedAt : Option Int
  deriving DecidableEq

structure ListedSecret (u : Unicode) where
  path : SecretPath u
  rotation : Rotation

inductive HoneypotTier where
  | alert
  deriving DecidableEq, Repr

namespace HoneypotTier

def asStr : HoneypotTier → String
  | .alert => "alert"

def parse (text : String) : Except StoreError HoneypotTier :=
  if text = "alert" then .ok .alert
  else .error (.corrupt ("unknown honeypot tier \"" ++ text ++ "\"; only 'alert' is built"))

end HoneypotTier

variable {u : Unicode}

/-- The half-open range of everything below a prefix: `0` is the byte after `/`. -/
def subtreeBounds (start : SecretPath u) : String × String := (start.text ++ "/", start.text ++ "0")

/-- The condition of the two listings. -/
def inSubtree : Option (SecretPath u) → SecretRow → Bool
  | none, _ => true
  | some start, row =>
      let bounds := subtreeBounds start
      row.path == start.text ||
        decide (collate bounds.1 ≤ collate row.path) && decide (collate row.path < collate bounds.2)

def parseStored (u : Unicode) (text : String) : Except StoreError (SecretPath u) :=
  (SecretPath.parse u text).mapError .path

namespace SecretTables

variable (fault : SecretFault) (tables : SecretTables)

def metadata (path : SecretPath u) : Except StoreError (SecretMetadata u) := do
  let (_, current, rotation) ← tables.requireSecret fault path
  answer fault .selectSecret
  match tables.secrets.find? (·.path == path.text) with
  | none => .error (.sqlite "Query returned no rows")
  | some row => .ok ⟨path, SecretVersion.new current, rotation, row.createdAt, row.updatedAt⟩

/-- One turn of the loop of `versions`. -/
def summarize (path : SecretPath u) (row : VersionRow) : Except StoreError VersionSummary :=
  match (u32TryFrom row.version).bind SecretVersion.new with
  | none => .error (.corrupt ("'" ++ path.text ++ "' has a version number out of range"))
  | some version => .ok ⟨version, row.createdAt, row.createdBy, row.deletedAt, row.destroyedAt⟩

def versionSummaries (path : SecretPath u) : Except StoreError (List VersionSummary) := do
  let (secretId, _, _) ← tables.requireSecret fault path
  answer fault .selectVersion
  ((tables.versions.filter (·.secretId == secretId)).insertionSort
    fun row other => row.version ≤ other.version).mapM (summarize path)

/-- The rows of a listing, `ORDER BY path`. -/
def listedRows (start : Option (SecretPath u)) : List SecretRow :=
  (tables.secrets.filter (inSubtree start)).insertionSort
    fun row other => collate row.path ≤ collate other.path

def list (start : Option (SecretPath u)) : Except StoreError (List (SecretPath u)) := do
  answer fault .selectSecret
  (tables.listedRows start).mapM fun row => parseStored u row.path

def listWithRotation (start : Option (SecretPath u)) :
    Except StoreError (List (ListedSecret u)) := do
  answer fault .selectSecret
  (tables.listedRows start).mapM fun row => do
    let path ← parseStored u row.path
    let rotation ← (Rotation.parse row.rotation).mapError .rotation
    .ok ⟨path, rotation⟩

def honeypotTier (path : SecretPath u) : Except StoreError (Option HoneypotTier) := do
  answer fault .selectSecret
  match (tables.secrets.find? (·.path == path.text)).bind (·.honeypotTier) with
  | none => .ok none
  | some text => (HoneypotTier.parse text).map some

end SecretTables

/-- Every token, or every token of one identity, newest first. -/
def TokenTable.tokens (table : TokenTable) (identity : Option String) (fault : Option String) :
    Except StoreError (List TokenRecord) :=
  match fault with
  | some error => .error (.sqlite error)
  | none =>
      .ok (((table.filter fun row => identity.all (row.identityName == ·)).insertionSort
        fun row other => other.createdAt < row.createdAt ∨
          row.createdAt = other.createdAt ∧ collate row.tokenId ≤ collate other.tokenId).map (·.record))

/-! ### Bait and the trips it has produced -/

inductive BaitKind where
  | secret
  | token
  deriving DecidableEq, Repr

def BaitKind.asStr : BaitKind → String
  | .secret => "secret"
  | .token => "token"

/-- A row of `tripwire`. -/
structure TripRow where
  id : Nat
  trippedAt : Int
  kind : String
  path : Option String
  tokenId : Option String
  identity : Option String
  tier : String
  clearedAt : Option Int
  deriving DecidableEq, Repr

/-- One piece of bait. -/
structure Honeypot where
  kind : BaitKind
  path : Option String
  tokenId : Option String
  identity : Option String
  tier : HoneypotTier
  tripped : Bool
  deriving DecidableEq, Repr

structure Trip where
  trippedAt : Int
  kind : BaitKind
  path : Option String
  tokenId : Option String
  identity : Option String
  tier : HoneypotTier
  clearedAt : Option Int
  deriving DecidableEq, Repr

/-- The rows of `tripwire`. -/
abbrev TripTable := List TripRow

namespace TripTable

variable (trips : TripTable)

def secretTripped (path : String) : Bool :=
  trips.any fun trip => trip.kind == "secret" && trip.path == some path && trip.clearedAt.isNone

def tokenTripped (tokenId : String) : Bool :=
  trips.any fun trip => trip.kind == "token" && trip.tokenId == some tokenId && trip.clearedAt.isNone

def honeypots (secrets : SecretTables) (tokens : TokenTable) (fault : Option String) :
    Except StoreError (List Honeypot) :=
  match fault with
  | some error => .error (.sqlite error)
  | none => do
      let planted := (secrets.secrets.filter (·.honeypotTier.isSome)).insertionSort
        fun row other => collate row.path ≤ collate other.path
      let secrets ← planted.mapM fun row => do
        let tier ← HoneypotTier.parse (row.honeypotTier.getD "")
        .ok (⟨.secret, some row.path, none, none, tier, trips.secretTripped row.path⟩ : Honeypot)
      let issued := (tokens.filter (·.honeypot == 1)).insertionSort
        fun row other => other.createdAt < row.createdAt ∨
          row.createdAt = other.createdAt ∧ collate row.tokenId ≤ collate other.tokenId
      .ok (secrets ++ issued.map fun row =>
        ⟨.token, none, some row.tokenId, some row.identityName, .alert,
          trips.tokenTripped row.tokenId⟩)

def openRows : List TripRow :=
  (trips.filter (·.clearedAt.isNone)).insertionSort
    fun row other => other.trippedAt < row.trippedAt ∨
      row.trippedAt = other.trippedAt ∧ other.id ≤ row.id

def openTrips (fault : Option String) : Except StoreError (List Trip) :=
  match fault with
  | some error => .error (.sqlite error)
  | none =>
      trips.openRows.mapM fun row => do
        let kind ← match row.kind with
          | "secret" => .ok .secret
          | "token" => .ok .token
          | other => .error (.corrupt ("unknown tripwire kind \"" ++ other ++ "\""))
        let tier ← HoneypotTier.parse row.tier
        .ok (⟨row.trippedAt, kind, row.path, row.tokenId, row.identity, tier, row.clearedAt⟩ : Trip)

def openTripCount (fault : Option String) : Except StoreError Nat :=
  match fault with
  | some error => .error (.sqlite error)
  | none => .ok (trips.countP (·.clearedAt.isNone))

end TripTable

end Ciphr
