import Ciphr.StoreHoneypots
import Ciphr.StoreListing

/-!
The rows at or below a prefix. The store asks for a half-open range of texts; the range is the subtree,
and a listing of it is in one order whatever order the rows are in.
-/

namespace Ciphr

/-! ### Ranges of texts -/

/-- What lies from one list up to the list whose last element is the next one, begins with the first. -/
theorem between_iff_prefix {front : List Nat} {last : Nat} {l : List Nat} :
    front ++ [last] ≤ l ∧ l < front ++ [last + 1] ↔ front ++ [last] <+: l := by
  rw [← not_lt]
  induction front generalizing l with
  | nil =>
      cases l with
      | nil => simp
      | cons first rest =>
          simp only [List.nil_append, List.cons_lt_cons_iff, List.not_lt_nil, and_false, or_false,
            List.cons_prefix_cons, List.nil_prefix, and_true]
          omega
  | cons head front ih =>
      cases l with
      | nil => simp
      | cons first rest =>
          simp only [List.cons_append, List.cons_lt_cons_iff, List.cons_prefix_cons, ← ih]
          constructor
          · rintro ⟨hnot, hlt | ⟨rfl, hlt⟩⟩
            · exact absurd (.inl hlt) hnot
            · exact ⟨rfl, fun h => hnot (.inr ⟨rfl, h⟩), hlt⟩
          · rintro ⟨rfl, hnot, hlt⟩
            exact ⟨fun h => h.elim (lt_irrefl _) fun h => hnot h.2, .inr ⟨rfl, hlt⟩⟩

theorem utf8_append (front rest : String) : utf8 (front ++ rest) = utf8 front ++ utf8 rest := by
  unfold utf8
  simp

theorem utf8_cons (c : Char) (chars : List Char) :
    utf8 (String.ofList (c :: chars)) = String.utf8EncodeChar c ++ utf8 (String.ofList chars) := by
  rw [← List.singleton_append, String.ofList_append, utf8_append]
  simp [utf8, List.utf8Encode]

/-- The bytes of a text say what its first character is. -/
theorem utf8EncodeChar_append_inj {c d : Char} {bytes bytes' : List UInt8}
    (h : String.utf8EncodeChar c ++ bytes = String.utf8EncodeChar d ++ bytes') : c = d := by
  have hdecode : ∀ (c : Char) (bytes : List UInt8),
      (String.utf8EncodeChar c ++ bytes).toByteArray.utf8DecodeChar? 0 = some c := by
    intro c bytes
    rw [List.toByteArray_append]
    exact ByteArray.utf8DecodeChar?_utf8EncodeChar_append
  have hsame := congrArg (fun bytes => bytes.toByteArray.utf8DecodeChar? 0) h
  rw [hdecode, hdecode] at hsame
  exact Option.some.inj hsame

/-- Bytes that begin with those of a text are those of a text that begins with it. -/
theorem exists_append_of_utf8_prefix : ∀ (front text : List Char),
    utf8 (String.ofList front) <+: utf8 (String.ofList text) → ∃ rest, text = front ++ rest
  | [], text, _ => ⟨text, rfl⟩
  | c :: front, [], h => by
      have hempty : utf8 (String.ofList ([] : List Char)) = [] := rfl
      rw [hempty, List.prefix_nil, utf8_cons, List.append_eq_nil_iff] at h
      exact absurd h.1 String.utf8EncodeChar_ne_nil
  | c :: front, d :: text, h => by
      obtain ⟨bytes, hbytes⟩ := id h
      rw [utf8_cons, utf8_cons, List.append_assoc] at hbytes
      have hsame := utf8EncodeChar_append_inj hbytes
      subst hsame
      rw [utf8_cons, utf8_cons, List.prefix_append_right_inj] at h
      obtain ⟨rest, rfl⟩ := exists_append_of_utf8_prefix front text h
      exact ⟨rest, rfl⟩

/-! ### Subtrees -/

variable {u : Unicode}

/-- The path is the other one, or stands below it. -/
def SecretPath.Covers (start path : SecretPath u) : Prop :=
  path.text = start.text ∨ ∃ rest, path.text = start.text ++ "/" ++ rest

theorem collate_injective {text text' : String} (h : collate text = collate text') : text = text' :=
  utf8_injective (List.map_injective_iff.mpr (fun _ _ => UInt8.toNat_inj.mp) h)

theorem collate_append (front rest : String) : collate (front ++ rest) = collate front ++ collate rest := by
  unfold collate
  rw [utf8_append, List.map_append]

/-- The test of a path against a prefix is made on segments. -/
theorem startsWith_iff {start path : SecretPath u} : path.startsWith start = true ↔ start.Covers path := by
  unfold SecretPath.startsWith SecretPath.Covers
  by_cases hsame : path.text = start.text
  · simp [hsame]
  rw [if_neg (by simpa using hsame), Bool.and_eq_true, Bool.and_eq_true, decide_eq_true_eq,
    beq_iff_eq, List.isPrefixOf_iff_prefix]
  show (_ ∧ (utf8 path.text)[start.text.utf8ByteSize]? = some 47) ∧ utf8 start.text <+: utf8 path.text ↔ _
  have hsize : (utf8 start.text).length = start.text.utf8ByteSize := rfl
  constructor
  · rintro ⟨⟨-, hslash⟩, bytes, hbytes⟩
    rw [← hbytes, ← hsize, List.getElem?_append_right (Nat.le_refl _), Nat.sub_self] at hslash
    obtain ⟨rest, rfl⟩ : ∃ rest, bytes = 47 :: rest := by
      cases bytes with
      | nil => cases hslash
      | cons byte rest => exact ⟨rest, by rw [Option.some.inj hslash]⟩
    have hprefix : utf8 (String.ofList (start.text ++ "/").toList) <+:
        utf8 (String.ofList path.text.toList) := by
      rw [String.ofList_toList, String.ofList_toList, utf8_append]
      exact ⟨rest, by rw [← hbytes, List.append_assoc]; rfl⟩
    obtain ⟨rest', hrest'⟩ := exists_append_of_utf8_prefix _ _ hprefix
    refine .inr ⟨String.ofList rest', String.toList_inj.mp ?_⟩
    rw [String.toList_append, String.toList_ofList, hrest']
  · rintro (heq | ⟨rest, hrest⟩)
    · exact absurd heq hsame
    have hbytes : utf8 path.text = utf8 start.text ++ 47 :: utf8 rest := by
      rw [hrest, utf8_append, utf8_append, List.append_assoc]
      rfl
    have hlength : path.text.utf8ByteSize = (utf8 path.text).length := rfl
    refine ⟨⟨?_, ?_⟩, ⟨47 :: utf8 rest, hbytes.symm⟩⟩
    · rw [hlength, hbytes, List.length_append, hsize, List.length_cons]
      omega
    · rw [hbytes, ← hsize, List.getElem?_append_right (Nat.le_refl _), Nat.sub_self]
      rfl

/-- The range of the store is the subtree. -/
theorem inSubtree_iff {start path : SecretPath u} {row : SecretRow} (hpath : row.path = path.text) :
    inSubtree (some start) row = true ↔ start.Covers path := by
  have hrange : collate (start.text ++ "/") ≤ collate path.text ∧
      collate path.text < collate (start.text ++ "0") ↔ ∃ rest, path.text = start.text ++ "/" ++ rest := by
    have hslash : collate (start.text ++ "/") = collate start.text ++ [47] := collate_append _ _
    have hzero : collate (start.text ++ "0") = collate start.text ++ [47 + 1] := collate_append _ _
    rw [hslash, hzero, between_iff_prefix, ← hslash]
    constructor
    · intro hprefix
      have hbytes : utf8 (String.ofList (start.text ++ "/").toList) <+:
          utf8 (String.ofList path.text.toList) := by
        rw [String.ofList_toList, String.ofList_toList]
        exact (List.prefix_map_iff_of_injective fun _ _ => UInt8.toNat_inj.mp).mp hprefix
      obtain ⟨rest, hrest⟩ := exists_append_of_utf8_prefix _ _ hbytes
      refine ⟨String.ofList rest, String.toList_inj.mp ?_⟩
      rw [String.toList_append, String.toList_ofList, hrest]
    · rintro ⟨rest, hrest⟩
      rw [hrest, collate_append _ rest]
      exact List.prefix_append _ _
  unfold inSubtree SecretPath.Covers subtreeBounds
  dsimp only
  rw [← hrange, hpath, Bool.or_eq_true, beq_iff_eq, Bool.and_eq_true, decide_eq_true_eq, decide_eq_true_eq]

/-! ### Listings -/

namespace SecretTables

/-- A secret that is stored, with its class. -/
def Stores (t : SecretTables) (secret : ListedSecret u) : Prop :=
  ∃ row ∈ t.secrets, row.path = secret.path.text ∧ row.rotation = secret.rotation.asStr

/-- The order of a listing. -/
def ListedBefore (secret other : ListedSecret u) : Prop :=
  collate secret.path.text < collate other.path.text

instance : Std.Irrefl (ListedBefore (u := u)) := ⟨fun _ => lt_irrefl _⟩

instance : Std.Antisymm (ListedBefore (u := u)) := ⟨fun _ _ h h' => absurd h' (List.lt_asymm h)⟩

variable {t : SecretTables} {produced : List (Produced u)} {fault : SecretFault}

/-- What a row of a listing is read as. -/
def listedOf (u : Unicode) (row : SecretRow) : Except StoreError (ListedSecret u) := do
  let path ← parseStored u row.path
  let rotation ← (Rotation.parse row.rotation).mapError .rotation
  .ok ⟨path, rotation⟩

/-- The rows of a listing stand for secrets, each for its own. -/
theorem Sound.listedOf_ok (h : Sound t produced) (hstable : u.Stable) {row : SecretRow}
    (hrow : row ∈ t.secrets) :
    ∃ secret : ListedSecret u, listedOf u row = .ok secret ∧ row.path = secret.path.text ∧
      row.rotation = secret.rotation.asStr := by
  obtain ⟨path, hpath, -⟩ := h.named row hrow
  obtain ⟨rotation, hrotation⟩ := h.classified row hrow
  refine ⟨⟨path, rotation⟩, ?_, hpath, hrotation⟩
  unfold listedOf parseStored
  rw [hpath, SecretPath.parse_text hstable, hrotation, Rotation.parse_asStr]
  rfl

theorem mem_listedRows {start : Option (SecretPath u)} {row : SecretRow} :
    row ∈ t.listedRows start ↔ row ∈ t.secrets ∧ inSubtree start row = true := by
  unfold listedRows
  rw [(List.perm_insertionSort _ _).mem_iff, List.mem_filter]

/-- The rows of a listing come in the order of their paths, and no path comes twice. -/
theorem Sound.pairwise_listedRows (h : Sound t produced) (start : Option (SecretPath u)) :
    (t.listedRows start).Pairwise fun row other => collate row.path < collate other.path := by
  have hsorted : (t.listedRows start).Pairwise fun row other => collate row.path ≤ collate other.path :=
    List.pairwise_insertionSort _ _
  have hpaths : (t.secrets.filter (inSubtree start)).Pairwise fun row other => row.path ≠ other.path :=
    (List.pairwise_map.mp h.paths).filter _
  have hdistinct : (t.listedRows start).Pairwise fun row other => row.path ≠ other.path :=
    (List.perm_insertionSort _ _).pairwise_iff (fun hne => Ne.symm hne) |>.mpr hpaths
  refine (hsorted.and hdistinct).imp fun hboth => ?_
  obtain ⟨hle, hne⟩ := hboth
  exact lt_of_le_of_ne hle fun hsame => hne (collate_injective hsame)

/-- A listing of the store names what stands at or below the prefix, in order. -/
theorem Sound.listWithRotation_ok (h : Sound t produced) (hstable : u.Stable) (start : SecretPath u) :
    ∃ listed, t.listWithRotation noFault (some start) = .ok listed ∧ listed.Pairwise ListedBefore ∧
      ∀ secret, secret ∈ listed ↔ t.Stores secret ∧ start.Covers secret.path := by
  have hall : ∀ rows : List SecretRow, (∀ row ∈ rows, row ∈ t.secrets) → ∃ listed : List (ListedSecret u),
      rows.mapM (listedOf u) = .ok listed ∧ listed.map (·.path.text) = rows.map (·.path) := by
    intro rows hrows
    induction rows with
    | nil => exact ⟨[], rfl, rfl⟩
    | cons row rows ih =>
        obtain ⟨secret, hsecret, hpath, -⟩ := h.listedOf_ok hstable (hrows row (List.mem_cons_self ..))
        obtain ⟨listed, hlisted, hpaths⟩ := ih fun other hother => hrows other (List.mem_cons_of_mem _ hother)
        refine ⟨secret :: listed, ?_, ?_⟩
        · rw [List.mapM_cons, hsecret, hlisted]
          rfl
        · rw [List.map_cons, List.map_cons, hpaths, hpath]
  obtain ⟨listed, hlisted, hpaths⟩ := hall (t.listedRows (some start)) fun row hrow => (mem_listedRows.mp hrow).1
  have hok : t.listWithRotation noFault (some start) = .ok listed := hlisted
  refine ⟨listed, hok, ?_, fun secret => ?_⟩
  · have hordered : (listed.map (·.path.text)).Pairwise fun text other => collate text < collate other := by
      rw [hpaths, List.pairwise_map]
      exact h.pairwise_listedRows (some start)
    rw [List.pairwise_map] at hordered
    exact hordered
  · constructor
    · intro hmem
      obtain ⟨row, hrow, hread⟩ := Loop.exists_of_mem_mapM hlisted hmem
      obtain ⟨hrow, hbelow⟩ := mem_listedRows.mp hrow
      obtain ⟨own, hown, hpath, hrotation⟩ := h.listedOf_ok hstable hrow
      cases hown.symm.trans hread
      exact ⟨⟨row, hrow, hpath, hrotation⟩, (inSubtree_iff hpath).mp hbelow⟩
    · rintro ⟨⟨row, hrow, hpath, hrotation⟩, hcovers⟩
      have hlistedRow : row ∈ t.listedRows (some start) :=
        mem_listedRows.mpr ⟨hrow, (inSubtree_iff hpath).mpr hcovers⟩
      obtain ⟨found, hfound, hread⟩ := Loop.exists_of_mem_of_mapM hlisted hlistedRow
      obtain ⟨own, hown, hpath', hrotation'⟩ := h.listedOf_ok hstable hrow
      cases hown.symm.trans hread
      have hclass : found.rotation = secret.rotation := by
        have hparsed := Rotation.parse_asStr found.rotation
        rw [← hrotation', hrotation, Rotation.parse_asStr] at hparsed
        exact (Except.ok.inj hparsed).symm
      have hsame : found = secret := by
        obtain ⟨path, rotation⟩ := found
        obtain ⟨path', rotation'⟩ := secret
        cases SecretPath.ext (hpath'.symm.trans hpath)
        cases hclass
        rfl
      rwa [← hsame]

/-- The paths of a listing are those of the listing with classes. -/
theorem list_of_listWithRotation {start : Option (SecretPath u)} {listed : List (ListedSecret u)}
    (h : t.listWithRotation noFault start = .ok listed) :
    t.list noFault start = .ok (listed.map (·.path)) := by
  have hrows : ∀ rows : List SecretRow, ∀ listed : List (ListedSecret u),
      rows.mapM (listedOf u) = .ok listed →
        rows.mapM (fun row => parseStored u row.path) = .ok (listed.map (·.path)) := by
    intro rows
    induction rows with
    | nil =>
        intro listed h
        cases h
        rfl
    | cons row rows ih =>
        intro listed h
        rw [List.mapM_cons] at h ⊢
        obtain ⟨first, hfirst, h⟩ := Loop.bind_eq_ok h
        obtain ⟨others, hothers, h⟩ := Loop.bind_eq_ok h
        cases h
        obtain ⟨path, hpath, hfirst⟩ := Loop.bind_eq_ok hfirst
        obtain ⟨rotation, -, hfirst⟩ := Loop.bind_eq_ok hfirst
        cases hfirst
        rw [hpath, ih others hothers]
        rfl
  exact hrows _ _ h

end SecretTables

/-- A listing of a prefix has the stored paths that start with it, each once and in the order of their
bytes, whether it comes with the classes or without. -/
theorem list_exact (hstable : u.Stable) (s : Versioning u) (hs : s.Stocked) (start : SecretPath u) :
    ∃ paths listed, s.tables.list SecretTables.noFault (some start) = .ok paths ∧
      s.tables.listWithRotation SecretTables.noFault (some start) = .ok listed ∧
      listed.map (·.path) = paths ∧
      paths.Pairwise (fun path other => collate path.text < collate other.text) ∧
      ∀ path, path ∈ paths ↔ (∃ row ∈ s.tables.secrets, row.path = path.text) ∧
        path.startsWith start = true := by
  obtain ⟨listed, hlisted, hordered, hmem⟩ := hs.sound.listWithRotation_ok hstable start
  refine ⟨_, listed, SecretTables.list_of_listWithRotation hlisted, hlisted, rfl, ?_, ?_⟩
  · rw [List.pairwise_map]
    exact hordered
  · intro path
    rw [List.mem_map, startsWith_iff]
    constructor
    · rintro ⟨secret, hsecret, rfl⟩
      obtain ⟨⟨row, hrow, hpath, -⟩, hcovers⟩ := (hmem secret).mp hsecret
      exact ⟨⟨row, hrow, hpath⟩, hcovers⟩
    · rintro ⟨⟨row, hrow, hpath⟩, hcovers⟩
      obtain ⟨rotation, hrotation⟩ := hs.sound.classified row hrow
      exact ⟨⟨path, rotation⟩, (hmem _).mpr ⟨⟨row, hrow, hpath, hrotation⟩, hcovers⟩, rfl⟩

namespace Sample

def siblingPath (text : String) (h : asciiUnicode.parsePath text = .ok text) : SecretPath asciiUnicode :=
  ⟨text, text, h⟩

def infraA : SecretPath asciiUnicode := siblingPath "infra/a" (by decide +kernel)

/-- A secret, one below it, and some whose paths only begin with the same text. -/
def siblings : List (SecretPath asciiUnicode) :=
  [siblingPath "infra/ab" (by decide +kernel), siblingPath "infra/a0" (by decide +kernel),
    siblingPath "infra/a/b" (by decide +kernel), siblingPath "infra/a-b" (by decide +kernel), infraA,
    siblingPath "infra/a.b" (by decide +kernel)]

def siblingEvents : List (StoreOp asciiUnicode × SecretFault) :=
  siblings.map fun path =>
    (.secret (.put path "ci" none (fun _ => .ok pinnedValue) 10), SecretTables.noFault)

def siblingStore : Versioning asciiUnicode :=
  (Transition.run Versioning.stockStep ⟨⟨[], []⟩, []⟩ siblingEvents).getD ⟨⟨[], []⟩, []⟩

theorem siblings_left_out : ∃ paths listed,
    siblingStore.tables.list SecretTables.noFault (some infraA) = .ok paths ∧
      siblingStore.tables.listWithRotation SecretTables.noFault (some infraA) = .ok listed ∧
      listed.map (·.path) = paths ∧
      paths.Pairwise (fun path other => collate path.text < collate other.text) ∧
      (∀ path, path ∈ paths ↔ (∃ row ∈ siblingStore.tables.secrets, row.path = path.text) ∧
        path.startsWith infraA = true) ∧
      paths.map (·.text) = ["infra/a", "infra/a/b"] ∧ siblingStore.tables.secrets.length = 6 := by
  have hs : siblingStore.Stocked :=
    Transition.reachable_of_steps siblingEvents (.start rfl) (fun _ _ _ _ _ => trivial)
      (by decide +kernel : Transition.run Versioning.stockStep ⟨⟨[], []⟩, []⟩ siblingEvents =
        some siblingStore)
  obtain ⟨paths, listed, hpaths, hlisted, hsame, hordered, hmem⟩ :=
    list_exact asciiUnicode_stable siblingStore hs infraA
  have htexts : (siblingStore.tables.list SecretTables.noFault (some infraA)).toOption.map
      (·.map (·.text)) = some ["infra/a", "infra/a/b"] := by
    decide +kernel
  rw [hpaths] at htexts
  exact ⟨paths, listed, hpaths, hlisted, hsame, hordered, hmem, Option.some.inj htexts,
    by decide +kernel⟩

end Sample

end Ciphr
