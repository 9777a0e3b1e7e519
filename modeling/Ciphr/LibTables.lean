import Mathlib.Data.List.Basic

/-!
Tables of a relational database and the statements that change their schema. Whether a statement is
performed is decided by the schema alone; what it does to the contents it does to each row by itself.
-/

namespace Tables

variable {V : Type}

/-- The values of a row under the names of the columns. -/
abbrev Row (V : Type) := List (String × V)

namespace Row

def get (row : Row V) (column : String) : Option V := (row.find? (·.1 == column)).map (·.2)

def names (row : Row V) : List String := row.map (·.1)

end Row

structure TableSchema where
  columns : List String
  /-- The columns of the primary key and of the unique constraints. -/
  keys : List String
  deriving DecidableEq, Repr

structure Index where
  name : String
  table : String
  columns : List String
  deriving DecidableEq, Repr

structure Schema where
  tables : List (String × TableSchema)
  indexes : List Index
  deriving DecidableEq, Repr

namespace Schema

def find (schema : Schema) (table : String) : Option TableSchema :=
  (schema.tables.find? (·.1 == table)).map (·.2)

/-- The schema with another schema for the tables of this name. -/
def replace (schema : Schema) (table : String) (next : TableSchema) : Schema :=
  { schema with
    tables := schema.tables.map fun entry => if entry.1 = table then (entry.1, next) else entry }

end Schema

inductive Statement (V : Type) where
  | createTable (table : String) (columns keys : List String)
  | createIndex (index : Index)
  | renameColumn (table source target : String)
  | addColumn (table column : String) (default : V)
  /-- `UPDATE table SET column = value(source)`. -/
  | setColumn (table column source : String) (value : V → V)
  | dropColumn (table column : String)

namespace Statement

def rename (source target name : String) : String := if name = source then target else name

/-- What a statement makes of a schema. -/
def alter (schema : Schema) : Statement V → Except String Schema
  | .createTable table columns keys =>
      match schema.find table with
      | some _ => .error ("table " ++ table ++ " already exists")
      | none => .ok { schema with tables := schema.tables ++ [(table, ⟨columns, keys⟩)] }
  | .createIndex index =>
      if schema.indexes.any (·.name == index.name) then
        .error ("index " ++ index.name ++ " already exists")
      else
        match schema.find index.table with
        | none => .error ("no such table: main." ++ index.table)
        | some found =>
            if index.columns.all found.columns.contains then
              .ok { schema with indexes := schema.indexes ++ [index] }
            else .error ("no such column in table " ++ index.table)
  | .renameColumn table source target =>
      match schema.find table with
      | none => .error ("no such table: " ++ table)
      | some found =>
          if !found.columns.contains source then .error ("no such column: \"" ++ source ++ "\"")
          else if found.columns.contains target then .error ("duplicate column name: " ++ target)
          else
            .ok { schema.replace table
                  ⟨found.columns.map (rename source target), found.keys.map (rename source target)⟩ with
                indexes := schema.indexes.map fun index =>
                  if index.table = table then
                    { index with columns := index.columns.map (rename source target) }
                  else index }
  | .addColumn table column _ =>
      match schema.find table with
      | none => .error ("no such table: " ++ table)
      | some found =>
          if found.columns.contains column then .error ("duplicate column name: " ++ column)
          else .ok (schema.replace table ⟨found.columns ++ [column], found.keys⟩)
  | .setColumn table column source _ =>
      match schema.find table with
      | none => .error ("no such table: " ++ table)
      | some found =>
          if found.columns.contains column && found.columns.contains source then .ok schema
          else .error ("no such column in table " ++ table)
  | .dropColumn table column =>
      match schema.find table with
      | none => .error ("no such table: " ++ table)
      | some found =>
          if !found.columns.contains column then .error ("no such column: \"" ++ column ++ "\"")
          else if found.keys.contains column ||
              schema.indexes.any fun index => index.table == table && index.columns.contains column then
            .error ("cannot drop column \"" ++ column ++ "\"")
          else .ok (schema.replace table ⟨found.columns.filter (· ≠ column), found.keys⟩)

/-- What a statement makes of a row of a table. -/
def onRow (statement : Statement V) (table : String) (row : Row V) : Row V :=
  match statement with
  | .createTable _ _ _ => row
  | .createIndex _ => row
  | .renameColumn altered source target =>
      if altered = table then row.map fun field => (rename source target field.1, field.2) else row
  | .addColumn altered column default =>
      if altered = table then row ++ [(column, default)] else row
  | .setColumn altered column source value =>
      if altered = table then
        row.map fun field =>
          if field.1 = column then (column, ((row.get source).map value).getD field.2) else field
      else row
  | .dropColumn altered column =>
      if altered = table then row.filter (·.1 ≠ column) else row

end Statement

/-! ### Statements in a row -/

/-- What the statements of a batch make of a schema. -/
def alterAll (schema : Schema) (batch : List (Statement V)) : Except String Schema :=
  batch.foldlM (fun schema statement => statement.alter schema) schema

/-- What they make of a row of a table. -/
def onRowAll (batch : List (Statement V)) (table : String) (row : Row V) : Row V :=
  batch.foldl (fun row statement => statement.onRow table row) row

/-! ### The values of a row -/

namespace Row

variable {row : Row V} {column : String}

theorem get_cons (field : String × V) (row : Row V) (column : String) :
    get (field :: row) column = if field.1 = column then some field.2 else row.get column := by
  unfold get
  rw [List.find?_cons]
  by_cases h : field.1 = column
  · rw [if_pos h, beq_iff_eq.mpr h]
    rfl
  · have hne : (field.1 == column) = false := beq_eq_false_iff_ne.mpr h
    rw [if_neg h, hne]

theorem get_eq_none (h : column ∉ row.names) : row.get column = none := by
  unfold get
  rw [Option.map_eq_none_iff, List.find?_eq_none]
  intro field hfield heq
  exact h (List.mem_map.mpr ⟨field, hfield, eq_of_beq heq⟩)

theorem get_append (front : Row V) (field : String × V) (column : String) :
    get (front ++ [field]) column =
      (front.get column).or (if field.1 = column then some field.2 else none) := by
  induction front with
  | nil =>
      rw [List.nil_append, get_cons]
      rfl
  | cons first front ih =>
      rw [List.cons_append, get_cons, get_cons, ih]
      split
      · rfl
      · rfl

theorem get_rename_other {source target : String} (hsource : column ≠ source) (htarget : column ≠ target) :
    get (row.map fun field => (Statement.rename source target field.1, field.2)) column =
      row.get column := by
  induction row with
  | nil => rfl
  | cons field row ih =>
      rw [List.map_cons, get_cons, get_cons, ih]
      unfold Statement.rename
      by_cases h : field.1 = source
      · rw [if_pos h, if_neg (Ne.symm htarget), if_neg (by rw [h]; exact Ne.symm hsource)]
      · rw [if_neg h]

theorem get_rename_target {source target : String} (hfresh : target ∉ row.names) :
    get (row.map fun field => (Statement.rename source target field.1, field.2)) target =
      row.get source := by
  induction row with
  | nil => rfl
  | cons field row ih =>
      have hrest : target ∉ names row := fun h => hfresh (List.mem_cons_of_mem _ h)
      have hne : field.1 ≠ target := fun h => hfresh (h ▸ List.mem_cons_self)
      rw [List.map_cons, get_cons, get_cons, ih hrest]
      unfold Statement.rename
      by_cases h : field.1 = source
      · rw [if_pos h, if_pos rfl, if_pos h]
      · rw [if_neg h, if_neg hne, if_neg h]

theorem get_filter_other {dropped : String} (h : column ≠ dropped) :
    get (row.filter (·.1 ≠ dropped)) column = row.get column := by
  induction row with
  | nil => rfl
  | cons field row ih =>
      rw [List.filter_cons, get_cons]
      by_cases hfield : field.1 = dropped
      · rw [if_neg (by simpa using hfield), ih, if_neg (by rw [hfield]; exact Ne.symm h)]
      · rw [if_pos (by simpa using hfield), get_cons, ih]

theorem get_set_other {target : String} {f : String × V → V} (h : column ≠ target) :
    get (row.map fun field => if field.1 = target then (target, f field) else field) column =
      row.get column := by
  induction row with
  | nil => rfl
  | cons field row ih =>
      rw [List.map_cons, get_cons, get_cons, ih]
      by_cases hfield : field.1 = target
      · rw [if_pos hfield, if_neg (Ne.symm h), if_neg (by rw [hfield]; exact Ne.symm h)]
      · rw [if_neg hfield]

theorem get_set {target : String} {value : V} (h : target ∈ row.names) :
    get (row.map fun field => if field.1 = target then (target, value) else field) target =
      some value := by
  induction row with
  | nil => cases h
  | cons field row ih =>
      rw [List.map_cons, get_cons]
      by_cases hfield : field.1 = target
      · rw [if_pos hfield, if_pos rfl]
      · rw [if_neg hfield, if_neg hfield]
        rcases List.mem_cons.mp h with heq | hrest
        · exact absurd heq.symm hfield
        · exact ih hrest

/-- What `next` has of `row`: the value of each of its columns, those apart that are `changed`. -/
def Keeps (changed : List String) (row next : Row V) : Prop :=
  ∀ column value, column ∉ changed → row.get column = some value → next.get column = some value

theorem Keeps.refl (changed : List String) (row : Row V) : Keeps changed row row :=
  fun _ _ _ h => h

theorem Keeps.trans {changed : List String} {row middle next : Row V} (h : Keeps changed row middle)
    (h' : Keeps changed middle next) : Keeps changed row next :=
  fun column value hcolumn hvalue => h' column value hcolumn (h column value hcolumn hvalue)

theorem mem_names_of_get {value : V} (h : row.get column = some value) : column ∈ row.names := by
  by_contra hnot
  rw [get_eq_none hnot] at h
  cases h

theorem exists_get_of_mem (h : column ∈ row.names) : ∃ value, row.get column = some value := by
  obtain ⟨field, hfield, rfl⟩ := List.mem_map.mp h
  unfold get
  cases hfound : row.find? (·.1 == field.1) with
  | none => exact absurd (beq_self_eq_true _) (List.find?_eq_none.mp hfound field hfield)
  | some found => exact ⟨found.2, rfl⟩

theorem keeps_append (changed : List String) (row : Row V) (field : String × V) :
    Keeps changed row (row ++ [field]) := by
  intro column value _ h
  rw [get_append, h]
  rfl

end Row

/-- The statements that put another column of the same name in the place of one, under a temporary
name: its values are computed from those that the column had. -/
def swapColumn (table column temporary : String) (default : V) (value : V → V) : List (Statement V) :=
  [.renameColumn table column temporary, .addColumn table column default,
    .setColumn table column temporary value, .dropColumn table temporary]

section Swap

variable {row : Row V} {column temporary : String}

/-- The row between the new column's coming and the old one's going. -/
def swapped (column temporary : String) (default : V) (row : Row V) : Row V :=
  row.map (fun field => (Statement.rename column temporary field.1, field.2)) ++ [(column, default)]

theorem onRowAll_swap (table : String) (default : V) (value : V → V) :
    onRowAll (swapColumn table column temporary default value) table row =
      ((swapped column temporary default row).map fun field =>
          if field.1 = column then
            (column, (((swapped column temporary default row).get temporary).map value).getD field.2)
          else field).filter (·.1 ≠ temporary) := by
  unfold onRowAll swapColumn swapped
  simp only [List.foldl_cons, List.foldl_nil, Statement.onRow, if_pos]

/-- The columns besides the swapped one. -/
theorem get_swap_other {other table : String} {default : V} {value : V → V} (hcolumn : other ≠ column)
    (htemporary : other ≠ temporary) :
    Row.get (onRowAll (swapColumn table column temporary default value) table row) other =
      row.get other := by
  rw [onRowAll_swap, Row.get_filter_other htemporary, Row.get_set_other hcolumn]
  unfold swapped
  rw [Row.get_append, Row.get_rename_other hcolumn htemporary, if_neg (Ne.symm hcolumn), Option.or_none]

theorem get_swapped_temporary {default : V} (hcolumn : column ∈ row.names)
    (hfresh : temporary ∉ row.names) : (swapped column temporary default row).get temporary = row.get column := by
  have hne : column ≠ temporary := fun h => hfresh (h ▸ hcolumn)
  unfold swapped
  rw [Row.get_append, Row.get_rename_target hfresh, if_neg hne, Option.or_none]

theorem get_swap {table : String} {default : V} {value : V → V} (hcolumn : column ∈ row.names)
    (hfresh : temporary ∉ row.names) :
    Row.get (onRowAll (swapColumn table column temporary default value) table row) column =
      (row.get column).map value := by
  have hne : column ≠ temporary := fun h => hfresh (h ▸ hcolumn)
  have hadded : column ∈ Row.names (swapped column temporary default row) := by
    unfold swapped Row.names
    rw [List.map_append]
    exact List.mem_append_right _ List.mem_cons_self
  obtain ⟨old, hold⟩ := Row.exists_get_of_mem hcolumn
  rw [onRowAll_swap, Row.get_filter_other hne, get_swapped_temporary hcolumn hfresh, hold]
  exact Row.get_set hadded

end Swap

/-! ### The rows of a table before and after -/

theorem forall₂_trans {α : Type} {r s t : α → α → Prop} (h : ∀ a b c, r a b → s b c → t a c) :
    ∀ {xs ys zs : List α}, List.Forall₂ r xs ys → List.Forall₂ s ys zs → List.Forall₂ t xs zs
  | _, _, _, .nil, .nil => .nil
  | _, _, _, .cons hxy hxys, .cons hyz hyzs => .cons (h _ _ _ hxy hyz) (forall₂_trans h hxys hyzs)

theorem forall₂_map {α : Type} {r : α → α → Prop} {f : α → α} :
    ∀ {xs : List α}, (∀ x ∈ xs, r x (f x)) → List.Forall₂ r xs (xs.map f)
  | [], _ => .nil
  | x :: _, h => .cons (h x List.mem_cons_self) (forall₂_map fun y hy => h y (List.mem_cons_of_mem _ hy))

/-! ### Databases -/

namespace Schema

theorem find_replace (schema : Schema) (table other : String) (next : TableSchema) :
    (schema.replace table next).find other =
      if other = table then (schema.find other).map fun _ => next else schema.find other := by
  unfold replace find
  dsimp only
  induction schema.tables with
  | nil => simp
  | cons entry tables ih =>
      rw [List.map_cons, List.find?_cons, List.find?_cons]
      by_cases hentry : entry.1 = table
      · rw [if_pos hentry]
        by_cases hother : other = table
        · have hmeets : (entry.1 == other) = true := by rw [hentry, hother, beq_self_eq_true]
          rw [hmeets, if_pos hother]
          rfl
        · have hmiss : (entry.1 == other) = false :=
            beq_eq_false_iff_ne.mpr fun heq => hother (heq ▸ hentry)
          rw [hmiss]
          exact ih
      · rw [if_neg hentry]
        by_cases hmeets : (entry.1 == other) = true
        · have hother : other ≠ table := fun heq => hentry ((eq_of_beq hmeets).trans heq)
          rw [hmeets, if_neg hother]
        · rw [Bool.not_eq_true] at hmeets
          rw [hmeets]
          exact ih

/-- What the columns of an altered table become. -/
theorem columns_replace {schema : Schema} {altered table : String} {found old : TableSchema}
    (change : List String → List String) {keys : List String} {names : List String}
    (hold : schema.find altered = some old) (hfound : schema.find table = some found)
    (hnames : names = found.columns) :
    ∃ found', (schema.replace altered ⟨change old.columns, keys⟩).find table = some found' ∧
      (if altered = table then change names else names) = found'.columns := by
  rw [find_replace]
  by_cases h : altered = table
  · rw [← h] at hfound ⊢
    rw [hold, Option.some.injEq] at hfound
    rw [if_pos rfl, if_pos rfl, hold, hnames, hfound]
    exact ⟨_, rfl, by rw [← hfound]⟩
  · rw [if_neg h, if_neg (Ne.symm h), hnames]
    exact ⟨found, hfound, rfl⟩

end Schema

theorem Row.names_map_fst {row : Row V} (f : String → String) :
    Row.names (row.map fun field => (f field.1, field.2)) = row.names.map f := by
  unfold Row.names
  rw [List.map_map, List.map_map]
  rfl

theorem Row.names_set {row : Row V} {column : String} (f : String × V → V) :
    Row.names (row.map fun field => if field.1 = column then (column, f field) else field) =
      row.names := by
  unfold Row.names
  rw [List.map_map]
  apply List.map_congr_left
  intro field _
  rw [Function.comp_apply]
  split
  · rename_i heq
    exact heq.symm
  · rfl

theorem Row.names_filter {row : Row V} {column : String} :
    Row.names (row.filter (·.1 ≠ column)) = row.names.filter (· ≠ column) := by
  unfold Row.names
  rw [List.filter_map]
  rfl

/-- A row under the columns of its table is one under the columns that a statement gives the table. -/
theorem Statement.names_onRow {statement : Statement V} {schema schema' : Schema}
    (h : statement.alter schema = .ok schema') {table : String} {found : TableSchema}
    (hfound : schema.find table = some found) {row : Row V} (hrow : row.names = found.columns) :
    ∃ found', schema'.find table = some found' ∧ (statement.onRow table row).names = found'.columns := by
  cases statement with
  | createTable created columns keys =>
      unfold alter at h
      dsimp only at h
      split at h
      · cases h
      · cases h
        refine ⟨found, ?_, hrow⟩
        unfold Schema.find at hfound ⊢
        dsimp only
        obtain ⟨entry, hentry, rfl⟩ := Option.map_eq_some_iff.mp hfound
        rw [List.find?_append, hentry]
        rfl
  | createIndex index =>
      unfold alter at h
      dsimp only at h
      split at h
      · cases h
      · split at h
        · cases h
        · split at h
          · cases h
            exact ⟨found, hfound, hrow⟩
          · cases h
  | renameColumn altered source target =>
      unfold alter at h
      dsimp only at h
      split at h
      · cases h
      · rename_i old hold
        split at h
        · cases h
        · split at h
          · cases h
          · cases h
            obtain ⟨found', hfind, hcolumns⟩ := Schema.columns_replace (List.map (rename source target))
              hold hfound hrow
            refine ⟨found', hfind, ?_⟩
            rw [← hcolumns]
            unfold onRow
            dsimp only
            split
            · exact Row.names_map_fst _
            · rfl
  | addColumn altered column default =>
      unfold alter at h
      dsimp only at h
      split at h
      · cases h
      · rename_i old hold
        split at h
        · cases h
        · cases h
          obtain ⟨found', hfind, hcolumns⟩ := Schema.columns_replace (· ++ [column])
              hold hfound hrow
          refine ⟨found', hfind, ?_⟩
          rw [← hcolumns]
          unfold onRow
          dsimp only
          split
          · unfold Row.names
            rw [List.map_append]
            rfl
          · rfl
  | setColumn altered column source value =>
      unfold alter at h
      dsimp only at h
      split at h
      · cases h
      · split at h
        · cases h
          refine ⟨found, hfound, ?_⟩
          rw [← hrow]
          unfold onRow
          dsimp only
          split
          · exact Row.names_set _
          · rfl
        · cases h
  | dropColumn altered column =>
      unfold alter at h
      dsimp only at h
      split at h
      · cases h
      · rename_i old hold
        split at h
        · cases h
        · split at h
          · cases h
          · cases h
            obtain ⟨found', hfind, hcolumns⟩ := Schema.columns_replace (List.filter (· ≠ column))
              hold hfound hrow
            refine ⟨found', hfind, ?_⟩
            rw [← hcolumns]
            unfold onRow
            dsimp only
            split
            · exact Row.names_filter
            · rfl

/-- A database: its schema, and the rows of each of its tables under the columns of the table. -/
structure Database (V : Type) where
  schema : Schema
  rows : String → List (Row V)
  fits : ∀ table, ∀ row ∈ rows table, ∃ found, schema.find table = some found ∧ row.names = found.columns

namespace Database

/-- A statement on a database. -/
def exec (db : Database V) (statement : Statement V) : Except String (Database V) :=
  match h : statement.alter db.schema with
  | .error error => .error error
  | .ok schema =>
      .ok {
        schema
        rows := fun table => (db.rows table).map (statement.onRow table)
        fits := by
          intro table row hrow
          obtain ⟨before, hbefore, rfl⟩ := List.mem_map.mp hrow
          obtain ⟨found, hfound, hnames⟩ := db.fits table before hbefore
          exact statement.names_onRow h hfound hnames }

def execBatch (db : Database V) (batch : List (Statement V)) : Except String (Database V) :=
  batch.foldlM exec db

variable {db db' : Database V} {batch : List (Statement V)}

theorem exec_ok {statement : Statement V} {schema : Schema} (h : statement.alter db.schema = .ok schema) :
    ∃ next, db.exec statement = .ok next ∧ next.schema = schema ∧
      ∀ table, next.rows table = (db.rows table).map (statement.onRow table) := by
  unfold exec
  split
  · rename_i error herror
    rw [h] at herror
    cases herror
  · rename_i schema' hschema
    rw [h, Except.ok.injEq] at hschema
    exact ⟨_, rfl, hschema.symm, fun _ => rfl⟩

theorem exec_error {statement : Statement V} {error : String}
    (h : statement.alter db.schema = .error error) : db.exec statement = .error error := by
  unfold exec
  split
  · rename_i error' herror
    rw [h, Except.error.injEq] at herror
    rw [herror]
  · rename_i schema hschema
    rw [h] at hschema
    cases hschema

/-- The schema decides whether a batch is performed, and each row goes its own way. -/
theorem execBatch_ok {schema : Schema} (h : alterAll db.schema batch = .ok schema) :
    ∃ next, db.execBatch batch = .ok next ∧ next.schema = schema ∧
      ∀ table, next.rows table = (db.rows table).map (onRowAll batch table) := by
  induction batch generalizing db with
  | nil =>
      cases h
      exact ⟨db, rfl, rfl, fun table => (List.map_id _).symm⟩
  | cons statement batch ih =>
      unfold alterAll at h
      rw [List.foldlM_cons] at h
      cases hfirst : statement.alter db.schema with
      | error error =>
          rw [hfirst] at h
          cases h
      | ok middle =>
          rw [hfirst] at h
          obtain ⟨between, hexec, hschema, hrows⟩ := exec_ok hfirst
          obtain ⟨next, hnext, hschema', hrows'⟩ := @ih between (by rw [hschema]; exact h)
          refine ⟨next, ?_, hschema', ?_⟩
          · unfold execBatch
            rw [List.foldlM_cons, hexec]
            exact hnext
          · intro table
            rw [hrows', hrows, List.map_map]
            rfl

theorem execBatch_error {error : String} (h : alterAll db.schema batch = .error error) :
    db.execBatch batch = .error error := by
  induction batch generalizing db with
  | nil => cases h
  | cons statement batch ih =>
      unfold alterAll at h
      rw [List.foldlM_cons] at h
      unfold execBatch
      rw [List.foldlM_cons]
      cases hfirst : statement.alter db.schema with
      | error first =>
          rw [hfirst] at h
          cases h
          rw [exec_error hfirst]
          rfl
      | ok middle =>
          rw [hfirst] at h
          obtain ⟨between, hexec, hschema, -⟩ := exec_ok hfirst
          rw [hexec]
          exact @ih between (by rw [hschema]; exact h)

end Database

end Tables
