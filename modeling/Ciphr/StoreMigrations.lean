import Mathlib.Data.List.Forall2
import Ciphr.LibProgram
import Ciphr.LibTables
import Ciphr.Errors

/-!
`ciphr-store/src/migrations.rs` and the statements of its migrations. The database file is its tables
and the number that `PRAGMA user_version` keeps in it.
-/

namespace Ciphr

open Program
open Tables (Statement Schema Row)

inductive Cell where
  | null
  | integer (value : Int)
  | text (value : String)
  | blob (bytes : List UInt8)
  deriving DecidableEq, Repr

/-- `CASE WHEN rotation_before_005 = 'rotatable' THEN 'unclassified' ELSE rotation_before_005 END`. -/
def resetRotatable (cell : Cell) : Cell := if cell = .text "rotatable" then .text "unclassified" else cell

structure Migration where
  version : Nat
  name : String
  sql : List (Statement Cell)

def schemaVersion : Nat := 6

namespace Migration

def init : Migration where
  version := 1
  name := "init"
  sql :=
    [.createTable "meta" ["key", "value"] ["key"],
      .createTable "secrets"
        ["id", "path", "current_version", "rotation", "created_at", "updated_at"] ["id", "path"],
      .createTable "secret_versions"
        ["secret_id", "version", "dek_id", "dek_nonce", "wrapped_dek", "value_nonce", "ciphertext",
          "created_at", "created_by", "deleted_at", "destroyed_at"] ["secret_id", "version"]]

def audit : Migration where
  version := 2
  name := "audit"
  sql :=
    [.createTable "audit_log" ["seq", "ts", "prev_hash", "hash", "payload"] ["seq"],
      .createIndex ⟨"audit_log_ts", "audit_log", ["ts"]⟩]

def tokens : Migration where
  version := 3
  name := "tokens"
  sql :=
    [.createTable "tokens"
        ["token_id", "identity_name", "verifier", "created_at", "created_by", "expires_at",
          "last_used_at", "revoked_at"] ["token_id"],
      .createIndex ⟨"tokens_identity", "tokens", ["identity_name"]⟩]

def auditCut : Migration where
  version := 4
  name := "audit_cut"
  sql := [.createTable "audit_cut" ["id", "cut_at", "seq", "hash", "removed", "anchor"] ["id"]]

/-- The column is swapped: a default cannot be changed in place. -/
def rotationUnclassified : Migration where
  version := 5
  name := "rotation_unclassified"
  sql :=
    [.renameColumn "secrets" "rotation" "rotation_before_005",
      .addColumn "secrets" "rotation" (.text "unclassified"),
      .setColumn "secrets" "rotation" "rotation_before_005" resetRotatable,
      .dropColumn "secrets" "rotation_before_005"]

def honeypots : Migration where
  version := 6
  name := "honeypots"
  sql :=
    [.addColumn "secrets" "honeypot_tier" .null,
      .addColumn "tokens" "honeypot" (.integer 0),
      .createTable "tripwire"
        ["id", "tripped_at", "kind", "path", "token_id", "identity", "tier", "cleared_at"] ["id"],
      .createIndex ⟨"tripwire_open_secret", "tripwire", ["path"]⟩,
      .createIndex ⟨"tripwire_open_token", "tripwire", ["token_id"]⟩,
      .createIndex ⟨"tripwire_open", "tripwire", ["tripped_at"]⟩]

end Migration

def migrations : List Migration :=
  [.init, .audit, .tokens, .auditCut, .rotationUnclassified, .honeypots]

/-- A database file. -/
structure StoreFile where
  db : Tables.Database Cell
  userVersion : Nat

/-- One migration with its marker, in one transaction. -/
def Migration.migrate (migration : Migration) (file : StoreFile) : Except StoreError StoreFile :=
  match file.db.execBatch migration.sql with
  | .error source => .error (.migration migration.version migration.name source)
  | .ok db => .ok ⟨db, migration.version⟩

/-- What `apply` does with the version that it has read. -/
def pendingMigrations (current : Nat) : Except StoreError (List Migration) :=
  if schemaVersion < current then .error (.schemaTooNew current schemaVersion)
  else .ok (migrations.filter (current < ·.version))

def applyPending : List Migration → Program StoreFile StoreError Unit
  | [] => pure ()
  | migration :: rest => do
      let file ← get
      let next ← Program.ofExcept (migration.migrate file)
      set next
      applyPending rest

/-- `migrations::apply`: every migration commits by itself. -/
def applyMigrations : Program StoreFile StoreError Unit := do
  let file ← get
  let pending ← Program.ofExcept (pendingMigrations file.userVersion)
  applyPending pending

/-! ### The schema at each version -/

def emptySchema : Schema := ⟨[], []⟩

/-- The schema that the first migrations make. -/
def schemaAt (version : Nat) : Except String Schema :=
  (migrations.take version).foldlM (fun schema migration => Tables.alterAll schema migration.sql) emptySchema

/-- A database of one of the versions of the schema, with any contents. -/
structure StoreFile.WellFormed (file : StoreFile) : Prop where
  version : file.userVersion ≤ schemaVersion
  schema : schemaAt file.userVersion = .ok file.db.schema

/-! ### What the migrations keep -/

/-- A secret is bait when it has a tier. -/
def SecretBait (row : Row Cell) : Prop := ∃ tier, row.get "honeypot_tier" = some tier ∧ tier ≠ .null

def TokenBait (row : Row Cell) : Prop := ∃ mark, row.get "honeypot" = some mark ∧ mark ≠ .integer 0

/-- A row of `secrets` and what it has become; `crossed` says whether migration 5 has been applied. -/
structure SecretKept (crossed : Bool) (row next : Row Cell) : Prop where
  columns : row.Keeps ["rotation"] next
  rotation : next.get "rotation" = (row.get "rotation").map (if crossed then resetRotatable else id)
  bait : SecretBait next ↔ SecretBait row

/-- A row of `tokens` and what it has become. -/
structure TokenKept (row next : Row Cell) : Prop where
  columns : row.Keeps [] next
  bait : TokenBait next ↔ TokenBait row

/-- A database file and what migrations have made of it. -/
structure StoreFile.Migrated (before after : StoreFile) : Prop where
  version : before.userVersion ≤ after.userVersion
  secrets :
    List.Forall₂ (SecretKept (before.userVersion < 5 && 5 ≤ after.userVersion))
      (before.db.rows "secrets") (after.db.rows "secrets")
  tokens : List.Forall₂ TokenKept (before.db.rows "tokens") (after.db.rows "tokens")
  others : ∀ table, table ≠ "secrets" → table ≠ "tokens" → after.db.rows table = before.db.rows table

theorem SecretKept.refl (row : Row Cell) : SecretKept false row row where
  columns := Row.Keeps.refl _ row
  rotation := Option.map_id_apply.symm
  bait := Iff.rfl

theorem SecretKept.trans {first second : Bool} (hnot : (first && second) = false) {row middle next : Row Cell}
    (h : SecretKept first row middle) (h' : SecretKept second middle next) :
    SecretKept (first || second) row next where
  columns := h.columns.trans h'.columns
  rotation := by
    rw [h'.rotation, h.rotation, Option.map_map]
    cases first with
    | false =>
        rw [Bool.false_or]
        rfl
    | true =>
        rw [Bool.true_and] at hnot
        rw [hnot]
        rfl
  bait := h'.bait.trans h.bait

theorem TokenKept.refl (row : Row Cell) : TokenKept row row where
  columns := Row.Keeps.refl _ row
  bait := Iff.rfl

theorem TokenKept.trans {row middle next : Row Cell} (h : TokenKept row middle) (h' : TokenKept middle next) :
    TokenKept row next where
  columns := h.columns.trans h'.columns
  bait := h'.bait.trans h.bait

theorem StoreFile.Migrated.refl (file : StoreFile) : file.Migrated file where
  version := Nat.le_refl _
  secrets := by
    have hcrossed : (decide (file.userVersion < 5) && decide (5 ≤ file.userVersion)) = false := by
      rw [Bool.and_eq_false_imp, decide_eq_true_eq, decide_eq_false_iff_not]
      omega
    rw [hcrossed]
    exact List.forall₂_same.mpr fun row _ => SecretKept.refl row
  tokens := List.forall₂_same.mpr fun row _ => TokenKept.refl row
  others := fun _ _ _ => rfl

theorem StoreFile.Migrated.trans {before middle after : StoreFile} (h : before.Migrated middle)
    (h' : middle.Migrated after) : before.Migrated after where
  version := h.version.trans h'.version
  secrets := by
    have hversion := h.version
    have hversion' := h'.version
    have hnot : ((decide (before.userVersion < 5) && decide (5 ≤ middle.userVersion)) &&
        (decide (middle.userVersion < 5) && decide (5 ≤ after.userVersion))) = false := by
      rw [Bool.eq_false_iff]
      simp only [ne_eq, Bool.and_eq_true, decide_eq_true_eq]
      omega
    have hcrossed : (decide (before.userVersion < 5) && decide (5 ≤ after.userVersion)) =
        ((decide (before.userVersion < 5) && decide (5 ≤ middle.userVersion)) ||
          (decide (middle.userVersion < 5) && decide (5 ≤ after.userVersion))) := by
      rw [Bool.eq_iff_iff]
      simp only [Bool.or_eq_true, Bool.and_eq_true, decide_eq_true_eq]
      omega
    rw [hcrossed]
    exact Tables.forall₂_trans (fun _ _ _ first second => first.trans hnot second) h.secrets h'.secrets
  tokens := Tables.forall₂_trans (fun _ _ _ first second => first.trans second) h.tokens h'.tokens
  others := fun table hsecrets htokens =>
    (h'.others table hsecrets htokens).trans (h.others table hsecrets htokens)

/-! ### One migration -/

theorem schemaAt_succ {version : Nat} {migration : Migration} (h : migrations[version]? = some migration) :
    schemaAt (version + 1) = schemaAt version >>= fun schema => Tables.alterAll schema migration.sql := by
  unfold schemaAt
  rw [List.take_add_one, h, Option.toList_some, List.foldlM_append]
  congr 1
  funext schema
  rw [List.foldlM_cons]
  exact bind_pure _

theorem schemaAt_ok {version : Nat} (h : version ≤ schemaVersion) : ∃ schema, schemaAt version = .ok schema := by
  have hall : ∀ version ∈ List.range (schemaVersion + 1), (schemaAt version).isOk = true := by
    decide +kernel
  have hok := hall version (List.mem_range.mpr (Nat.lt_succ_of_le h))
  cases hschema : schemaAt version with
  | ok schema => exact ⟨schema, rfl⟩
  | error e =>
      rw [hschema] at hok
      cases hok

theorem version_of_getElem {version : Nat} {migration : Migration}
    (h : migrations[version]? = some migration) :
    version < schemaVersion ∧ migration.version = version + 1 := by
  have hlt : version < migrations.length := (List.getElem?_eq_some_iff.mp h).1
  have hall : ∀ version < migrations.length, (migrations[version]?).map (·.version) = some (version + 1) := by
    decide
  have hversion := hall version hlt
  rw [h, Option.map_some, Option.some.injEq] at hversion
  exact ⟨hlt, hversion⟩

/-- The next migration of a well formed file is performed, on each row by itself. -/
theorem Migration.migrate_ok {file : StoreFile} (hfile : file.WellFormed) {migration : Migration}
    (h : migrations[file.userVersion]? = some migration) :
    ∃ next, migration.migrate file = .ok next ∧ next.WellFormed ∧
      next.userVersion = file.userVersion + 1 ∧
      ∀ table, next.db.rows table = (file.db.rows table).map (Tables.onRowAll migration.sql table) := by
  obtain ⟨hlt, hversion⟩ := version_of_getElem h
  obtain ⟨schema, hschema⟩ := schemaAt_ok (Nat.succ_le_of_lt hlt)
  have halter : Tables.alterAll file.db.schema migration.sql = .ok schema := by
    rw [← hschema, schemaAt_succ h, hfile.schema]
    rfl
  obtain ⟨db, hexec, hdb, hrows⟩ := Tables.Database.execBatch_ok halter
  refine ⟨⟨db, migration.version⟩, ?_, ⟨?_, ?_⟩, hversion, hrows⟩
  · unfold migrate
    rw [hexec]
  · rw [hversion]
    exact Nat.succ_le_of_lt hlt
  · rw [hversion, hdb]
    exact hschema

/-- The names of the columns of a table are those of the version. -/
theorem StoreFile.WellFormed.names {file : StoreFile} (hfile : file.WellFormed) {table : String}
    {row : Row Cell} (hrow : row ∈ file.db.rows table) {columns : List String}
    (hcolumns : (schemaAt file.userVersion).map (fun schema => (schema.find table).map (·.columns)) =
      .ok (some columns)) : row.names = columns := by
  obtain ⟨found, hfound, hnames⟩ := file.db.fits table row hrow
  rw [hfile.schema, Except.map, hfound, Option.map_some, Except.ok.injEq, Option.some.injEq] at hcolumns
  rw [hnames, hcolumns]

/-- The first four migrations create tables and indexes; the other two alter tables. -/
theorem migration_cases {version : Nat} {migration : Migration} (h : migrations[version]? = some migration) :
    (version < 4 ∧ migration ∈ [.init, .audit, .tokens, .auditCut]) ∨
      (version = 4 ∧ migration = .rotationUnclassified) ∨ (version = 5 ∧ migration = .honeypots) := by
  have hmem : ∀ version < 4, migrations[version]? = some migration →
      migration ∈ [Migration.init, .audit, .tokens, .auditCut] := by
    intro version hlt hat
    have htake : (migrations.take 4)[version]? = some migration := by
      rw [List.getElem?_take_of_lt hlt]
      exact hat
    exact List.mem_of_getElem? htake
  obtain ⟨hversion, -⟩ := version_of_getElem h
  unfold schemaVersion at hversion
  by_cases hlt : version < 4
  · exact .inl ⟨hlt, hmem version hlt h⟩
  · by_cases hfour : version = 4
    · subst hfour
      exact .inr (.inl ⟨rfl, (Option.some.inj h).symm⟩)
    · obtain rfl : version = 5 := by omega
      exact .inr (.inr ⟨rfl, (Option.some.inj h).symm⟩)

theorem onRowAll_creates {migration : Migration}
    (h : migration ∈ [Migration.init, .audit, .tokens, .auditCut]) (table : String) (row : Row Cell) :
    Tables.onRowAll migration.sql table row = row := by
  simp only [List.mem_cons, List.not_mem_nil, or_false] at h
  rcases h with rfl | rfl | rfl | rfl
  · rfl
  · rfl
  · rfl
  · rfl

theorem crossed_eq_false {version : Nat} (h : version ≠ 4) :
    (decide (version < 5) && decide (5 ≤ version + 1)) = false := by
  rw [Bool.eq_false_iff]
  simp only [ne_eq, Bool.and_eq_true, decide_eq_true_eq]
  omega

/-- What a migration does to the row of a secret. -/
theorem Migration.secretKept {file : StoreFile} (hfile : file.WellFormed) {migration : Migration}
    (h : migrations[file.userVersion]? = some migration) {row : Row Cell}
    (hrow : row ∈ file.db.rows "secrets") :
    SecretKept (file.userVersion < 5 && 5 ≤ file.userVersion + 1) row
      (Tables.onRowAll migration.sql "secrets" row) := by
  rcases migration_cases h with ⟨hversion, hmem⟩ | ⟨hversion, rfl⟩ | ⟨hversion, rfl⟩
  · rw [onRowAll_creates hmem, crossed_eq_false (Nat.ne_of_lt hversion)]
    exact SecretKept.refl row
  · have hnames : row.names =
        ["id", "path", "current_version", "rotation", "created_at", "updated_at"] :=
      hfile.names hrow (by rw [hversion]; decide +kernel)
    have hcolumn : "rotation" ∈ row.names := by rw [hnames]; decide
    have hfresh : "rotation_before_005" ∉ row.names := by rw [hnames]; decide
    rw [hversion]
    have hother : ∀ column ∈ row.names, column ≠ "rotation" →
        Row.get (Tables.onRowAll rotationUnclassified.sql "secrets" row) column = row.get column :=
      fun column hmem hne => Tables.get_swap_other hne fun heq => hfresh (heq ▸ hmem)
    exact {
      columns := by
        intro column value hne hvalue
        rw [hother column (Row.mem_names_of_get hvalue) (List.ne_of_not_mem_cons hne)]
        exact hvalue
      rotation := Tables.get_swap hcolumn hfresh
      bait := by
        unfold SecretBait
        have htier : Row.get (Tables.onRowAll rotationUnclassified.sql "secrets" row) "honeypot_tier" =
            row.get "honeypot_tier" := Tables.get_swap_other (by decide) (by decide)
        rw [htier] }
  · have hnames : row.names =
        ["id", "path", "current_version", "created_at", "updated_at", "rotation"] :=
      hfile.names hrow (by rw [hversion]; decide +kernel)
    have hfresh : "honeypot_tier" ∉ row.names := by rw [hnames]; decide
    rw [crossed_eq_false (by omega)]
    exact {
      columns := Row.keeps_append _ _ _
      rotation := by
        show Row.get (row ++ [("honeypot_tier", .null)]) "rotation" = _
        rw [Row.get_append, if_neg (by decide), Option.or_none]
        exact Option.map_id_apply.symm
      bait := by
        unfold SecretBait
        have htier : Row.get (Tables.onRowAll honeypots.sql "secrets" row) "honeypot_tier" = some .null := by
          show Row.get (row ++ [("honeypot_tier", .null)]) "honeypot_tier" = _
          rw [Row.get_append, Row.get_eq_none hfresh, if_pos rfl]
          rfl
        rw [htier, Row.get_eq_none hfresh]
        simp }

theorem Migration.tokenKept {file : StoreFile} (hfile : file.WellFormed) {migration : Migration}
    (h : migrations[file.userVersion]? = some migration) {row : Row Cell}
    (hrow : row ∈ file.db.rows "tokens") :
    TokenKept row (Tables.onRowAll migration.sql "tokens" row) := by
  rcases migration_cases h with ⟨_, hmem⟩ | ⟨_, rfl⟩ | ⟨hversion, rfl⟩
  · rw [onRowAll_creates hmem]
    exact TokenKept.refl row
  · exact TokenKept.refl row
  · have hnames : row.names =
        ["token_id", "identity_name", "verifier", "created_at", "created_by", "expires_at",
          "last_used_at", "revoked_at"] := hfile.names hrow (by rw [hversion]; decide +kernel)
    have hfresh : "honeypot" ∉ row.names := by rw [hnames]; decide
    exact {
      columns := Row.keeps_append _ _ _
      bait := by
        unfold TokenBait
        have hmark : Row.get (Tables.onRowAll honeypots.sql "tokens" row) "honeypot" = some (.integer 0) := by
          show Row.get (row ++ [("honeypot", .integer 0)]) "honeypot" = _
          rw [Row.get_append, Row.get_eq_none hfresh, if_pos rfl]
          rfl
        rw [hmark, Row.get_eq_none hfresh]
        simp }

theorem Migration.otherKept {version : Nat} {migration : Migration}
    (h : migrations[version]? = some migration) {table : String} (hsecrets : table ≠ "secrets")
    (htokens : table ≠ "tokens") (row : Row Cell) :
    Tables.onRowAll migration.sql table row = row := by
  rcases migration_cases h with ⟨_, hmem⟩ | ⟨_, rfl⟩ | ⟨_, rfl⟩
  · exact onRowAll_creates hmem table row
  · simp only [rotationUnclassified, Tables.onRowAll, List.foldl_cons, List.foldl_nil,
      Tables.Statement.onRow, if_neg (Ne.symm hsecrets)]
  · simp only [honeypots, Tables.onRowAll, List.foldl_cons, List.foldl_nil,
      Tables.Statement.onRow, if_neg (Ne.symm hsecrets), if_neg (Ne.symm htokens)]

theorem Migration.migrated {file : StoreFile} (hfile : file.WellFormed) {migration : Migration}
    (h : migrations[file.userVersion]? = some migration) :
    ∃ next, migration.migrate file = .ok next ∧ next.WellFormed ∧
      next.userVersion = file.userVersion + 1 ∧ file.Migrated next := by
  obtain ⟨next, hmigrate, hnext, hversion, hrows⟩ := migrate_ok hfile h
  refine ⟨next, hmigrate, hnext, hversion, ?_⟩
  exact {
    version := by omega
    secrets := by
      rw [hrows, hversion]
      exact Tables.forall₂_map fun row hrow => secretKept hfile h hrow
    tokens := by
      rw [hrows]
      exact Tables.forall₂_map fun row hrow => tokenKept hfile h hrow
    others := by
      intro table hsecrets htokens
      rw [hrows]
      exact (List.map_congr_left fun row _ => otherKept h hsecrets htokens row).trans (List.map_id _) }

/-! ### All of them -/

theorem pendingMigrations_eq {current : Nat} (h : current ≤ schemaVersion) :
    pendingMigrations current = .ok (migrations.drop current) := by
  have hfilter : migrations.filter (current < ·.version) = migrations.drop current := by
    match current, h with
    | 0, _ | 1, _ | 2, _ | 3, _ | 4, _ | 5, _ | 6, _ => rfl
    | version + 7, h => exact absurd h (by unfold schemaVersion; omega)
  unfold pendingMigrations
  rw [if_neg (Nat.not_lt.mpr h), hfilter]

theorem applyPending_keeps {file : StoreFile} (hfile : file.WellFormed) {pending : List Migration}
    (hpending : pending = migrations.drop file.userVersion) :
    ∃ file', exec (applyPending pending) file = (.ok (), file') ∧ file'.WellFormed ∧
      file'.userVersion = schemaVersion ∧ file.Migrated file' := by
  induction pending generalizing file with
  | nil =>
      have hall : schemaVersion ≤ file.userVersion := List.drop_eq_nil_iff.mp hpending.symm
      exact ⟨file, rfl, hfile, Nat.le_antisymm hfile.version hall, .refl file⟩
  | cons migration rest ih =>
      have hat : migrations[file.userVersion]? = some migration := by
        rw [← List.head?_drop, ← hpending, List.head?_cons]
      have hrest : rest = migrations.drop (file.userVersion + 1) := by
        rw [← List.drop_drop, ← hpending]
        rfl
      obtain ⟨next, hmigrate, hnext, hversion, hmigrated⟩ := Migration.migrated hfile hat
      obtain ⟨file', hexec, hfile', hversion', hmigrated'⟩ := ih hnext (by rw [hversion]; exact hrest)
      refine ⟨file', ?_, hfile', hversion', hmigrated.trans hmigrated'⟩
      have hstep : exec (applyPending (migration :: rest)) file = exec (applyPending rest) next := by
        rw [applyPending, exec_bind_ok (exec_get file), hmigrate, exec_bind_ok (exec_ofExcept _ _)]
        rfl
      rw [hstep]
      exact hexec

theorem exec_applyMigrations {file : StoreFile} (h : file.userVersion ≤ schemaVersion) :
    exec applyMigrations file = exec (applyPending (migrations.drop file.userVersion)) file := by
  unfold applyMigrations
  rw [exec_bind_ok (exec_get file), pendingMigrations_eq h, exec_bind_ok (exec_ofExcept _ _)]

/-- From any version and any contents, `migrations::apply` reaches the schema of this build and keeps
the data; applied again it changes nothing. -/
theorem applyMigrations_keeps_data {file : StoreFile} (hfile : file.WellFormed) :
    ∃ file', exec applyMigrations file = (.ok (), file') ∧ file'.WellFormed ∧
      file'.userVersion = schemaVersion ∧ file.Migrated file' ∧
      exec applyMigrations file' = (.ok (), file') := by
  obtain ⟨file', hexec, hfile', hversion, hmigrated⟩ := applyPending_keeps hfile rfl
  refine ⟨file', ?_, hfile', hversion, hmigrated, ?_⟩
  · rw [exec_applyMigrations hfile.version]
    exact hexec
  · rw [exec_applyMigrations hfile'.version, hversion]
    rfl

namespace Sample

def rotatableSecret : Row Cell :=
  [("id", .integer 7), ("path", .text "prod/db"), ("current_version", .integer 2),
    ("rotation", .text "rotatable"), ("created_at", .integer 100), ("updated_at", .integer 200)]

/-- A database of the version before the rotation classes became honest, with one secret. -/
def versionFour : StoreFile where
  db := {
    schema := ((schemaAt 4).toOption).getD emptySchema
    rows := fun table => if table = "secrets" then [rotatableSecret] else []
    fits := by
      intro table row hrow
      by_cases htable : table = "secrets"
      · rw [if_pos htable, List.mem_singleton] at hrow
        subst hrow htable
        exact ⟨⟨["id", "path", "current_version", "rotation", "created_at", "updated_at"],
          ["id", "path"]⟩, by decide +kernel, by decide⟩
      · rw [if_neg htable] at hrow
        cases hrow }
  userVersion := 4

theorem versionFour_wellFormed : versionFour.WellFormed where
  version := by decide
  schema := by decide +kernel

/-- Two secrets of two classes, a version of each, a token and a record of the audit log. -/
def filledRows : List (String × List (Row Cell)) :=
  [("secrets", [rotatableSecret,
      [("id", .integer 8), ("path", .text "prod/key"), ("current_version", .integer 1),
        ("rotation", .text "seed-only"), ("created_at", .integer 110), ("updated_at", .integer 110)]]),
    ("secret_versions",
      [[("secret_id", .integer 7), ("version", .integer 2), ("dek_id", .blob [1]), ("dek_nonce", .blob [2]),
          ("wrapped_dek", .blob [3]), ("value_nonce", .blob [4]), ("ciphertext", .blob [5]),
          ("created_at", .integer 200), ("created_by", .text "ci"), ("deleted_at", .null),
          ("destroyed_at", .null)],
        [("secret_id", .integer 8), ("version", .integer 1), ("dek_id", .blob [6]), ("dek_nonce", .blob [7]),
          ("wrapped_dek", .blob [8]), ("value_nonce", .blob [9]), ("ciphertext", .blob [10]),
          ("created_at", .integer 110), ("created_by", .text "root"), ("deleted_at", .integer 120),
          ("destroyed_at", .null)]]),
    ("tokens",
      [[("token_id", .text "AQEBAQEB"), ("identity_name", .text "ci"), ("verifier", .text "00"),
        ("created_at", .integer 90), ("created_by", .text "cli:root"), ("expires_at", .null),
        ("last_used_at", .integer 200), ("revoked_at", .null)]]),
    ("audit_log",
      [[("seq", .integer 1), ("ts", .integer 90), ("prev_hash", .text "00"), ("hash", .text "01"),
        ("payload", .text "\x7b\x7d")]])]

/-- A database of the version before the rotation classes became honest, with rows in four tables. -/
def filledFour : StoreFile where
  db := {
    schema := ((schemaAt 4).toOption).getD emptySchema
    rows := fun table => ((filledRows.find? (·.1 == table)).map (·.2)).getD []
    fits := by
      intro table row hrow
      have hfit : ∀ entry ∈ filledRows, ∀ row ∈ entry.2,
          ((((schemaAt 4).toOption).getD emptySchema).find entry.1).any (fun s => row.names = s.columns) =
            true := by
        decide +kernel
      cases hentry : filledRows.find? (·.1 == table) with
      | none =>
          rw [hentry] at hrow
          cases hrow
      | some entry =>
          rw [hentry] at hrow
          have hname : entry.1 = table := by simpa using List.find?_some hentry
          have hany := hfit entry (List.mem_of_find?_eq_some hentry) row hrow
          rw [hname, Option.any_eq_true] at hany
          obtain ⟨schema, hschema, hcolumns⟩ := hany
          exact ⟨schema, hschema, of_decide_eq_true hcolumns⟩ }
  userVersion := 4

theorem filledFour_keeps_data :
    ∃ file', exec applyMigrations filledFour = (.ok (), file') ∧ file'.WellFormed ∧
      file'.userVersion = schemaVersion ∧ filledFour.Migrated file' ∧
      exec applyMigrations file' = (.ok (), file') :=
  applyMigrations_keeps_data ⟨by decide, by decide +kernel⟩

end Sample

end Ciphr
