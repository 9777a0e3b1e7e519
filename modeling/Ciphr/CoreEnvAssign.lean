import Ciphr.CoreEnvName

/-!
The names of a set of paths are assigned exactly where every last segment is a name and no two of them
are equal; a refusal is about the first path that stands in the way.
-/

namespace Ciphr

/-- An ASCII letter or an underscore. -/
def NameStart (c : Char) : Prop := ('A' ≤ c ∧ c ≤ 'Z') ∨ ('a' ≤ c ∧ c ≤ 'z') ∨ c = '_'

/-- `[A-Za-z_][A-Za-z0-9_]*`. -/
def IsName (text : String) : Prop :=
  ∃ first rest, text.toList = first :: rest ∧ NameStart first ∧
    ∀ c ∈ rest, NameStart c ∨ ('0' ≤ c ∧ c ≤ '9')

theorem isDigit_iff {c : Char} : c.isDigit = true ↔ '0' ≤ c ∧ c ≤ '9' := by
  unfold Char.isDigit
  rw [Bool.and_eq_true, decide_eq_true_eq, decide_eq_true_eq]
  rfl

theorem isNameChar_iff {c : Char} :
    isNameChar c = true ↔ NameStart c ∨ ('0' ≤ c ∧ c ≤ '9') := by
  have hupper : c.isUpper = true ↔ 'A' ≤ c ∧ c ≤ 'Z' := by
    unfold Char.isUpper
    rw [decide_eq_true_eq]
    rfl
  have hlower : c.isLower = true ↔ 'a' ≤ c ∧ c ≤ 'z' := by
    unfold Char.isLower
    rw [Bool.and_eq_true, decide_eq_true_eq, decide_eq_true_eq]
    rfl
  unfold isNameChar Char.isAlphanum Char.isAlpha NameStart
  rw [Bool.or_eq_true, Bool.or_eq_true, Bool.or_eq_true, beq_iff_eq, hupper, hlower, isDigit_iff]
  tauto

/-- A digit does not begin a name. -/
theorem not_digit_of_nameStart {c : Char} (h : NameStart c) : ¬('0' ≤ c ∧ c ≤ '9') := by
  rintro ⟨-, hhigh⟩
  have hhigh : c.toNat ≤ 57 := hhigh
  rcases h with ⟨hlow, -⟩ | ⟨hlow, -⟩ | rfl
  · have hlow : 65 ≤ c.toNat := hlow
    omega
  · have hlow : 97 ≤ c.toNat := hlow
    omega
  · exact absurd hhigh (by decide)

theorem nameFault_eq_none_iff {text : String} : nameFault text = none ↔ IsName text := by
  unfold nameFault IsName
  cases htext : text.toList with
  | nil => simp
  | cons first rest =>
      dsimp only
      constructor
      · intro h
        split at h
        · cases h
        · rename_i hdigit
          rw [isDigit_iff] at hdigit
          rw [Option.map_eq_none_iff, List.find?_eq_none] at h
          have hall : ∀ c ∈ first :: rest, NameStart c ∨ ('0' ≤ c ∧ c ≤ '9') := by
            intro c hc
            rw [← isNameChar_iff]
            simpa using h c hc
          exact ⟨first, rest, rfl, (hall first List.mem_cons_self).resolve_right hdigit,
            fun c hc => hall c (List.mem_cons_of_mem first hc)⟩
      · rintro ⟨first', rest', hsame, hfirst, hrest⟩
        rw [List.cons.injEq] at hsame
        obtain ⟨rfl, rfl⟩ := hsame
        rw [if_neg fun hdigit => not_digit_of_nameStart hfirst (isDigit_iff.mp hdigit),
          Option.map_eq_none_iff, List.find?_eq_none]
        intro c hc
        have hname : isNameChar c = true := by
          rw [isNameChar_iff]
          rcases List.mem_cons.mp hc with rfl | hmem
          · exact .inl hfirst
          · exact hrest c hmem
        rw [hname]
        decide

namespace SecretPath

variable {u : Unicode}

theorem segments_ne_nil (path : SecretPath u) : path.segments ≠ [] := by
  unfold segments Rust.splitChar
  rw [ne_eq, List.map_eq_nil_iff]
  exact List.splitOn_ne_nil _ _

/-- What stands after the last slash. -/
def lastSegment (path : SecretPath u) : String := path.segments.getLast path.segments_ne_nil

end SecretPath

namespace EnvVarName

variable {u : Unicode}

theorem eq_of_text {left right : EnvVarName} (h : left.text = right.text) : left = right := by
  cases left
  cases right
  cases h
  rfl

theorem forPath_eq (path : SecretPath u) : forPath path = parse path.lastSegment := by
  unfold forPath
  rw [List.getLast?_eq_some_getLast path.segments_ne_nil]
  rfl

theorem parse_eq_ok_iff {text : String} {name : EnvVarName} :
    parse text = .ok name ↔ name.text = text := by
  constructor
  · intro h
    unfold parse at h
    split at h
    · cases h
    · cases h
      rfl
  · rintro rfl
    exact parse_text name

theorem exists_parse_iff {text : String} : (∃ name, parse text = .ok name) ↔ IsName text := by
  rw [← nameFault_eq_none_iff]
  constructor
  · rintro ⟨name, hname⟩
    rw [← parse_eq_ok_iff.mp hname]
    exact name.usable
  · intro h
    exact ⟨⟨text, h⟩, parse_eq_ok_iff.mpr rfl⟩

/-- What a refusal of one name says. -/
theorem parse_eq_error {text : String} {error : EnvNameError} (h : parse text = .error error) :
    ¬IsName text ∧ ∃ reason, nameFault text = some reason ∧ error = .notAName text reason := by
  have hnot : ¬IsName text := by
    intro hname
    obtain ⟨name, hok⟩ := exists_parse_iff.mpr hname
    rw [hok] at h
    cases h
  refine ⟨hnot, ?_⟩
  unfold parse at h
  split at h
  · rename_i reason hreason
    cases h
    exact ⟨reason, hreason, rfl⟩
  · cases h

/-- The loop collects the names under the last segments. -/
theorem assignNext_collects : Loop.Collector (assignNext (u := u)) (fun assigned items => assigned = items)
    (fun path => IsName path.lastSegment)
    (fun path item => item.1.text = path.lastSegment ∧ item.2 = path)
    SecretPath.lastSegment (fun item => item.1.text) where
  sound := by
    rintro assigned items path after rfl h
    obtain ⟨name, hname, h⟩ := Loop.bind_eq_ok h
    rw [forPath_eq] at hname
    have htext := parse_eq_ok_iff.mp hname
    split at h
    · cases h
    · rename_i hfind
      cases h
      refine ⟨exists_parse_iff.mp ⟨name, hname⟩, ?_, (name, path), ⟨htext, rfl⟩, rfl⟩
      intro hmem
      obtain ⟨item, hitem, hsame⟩ := List.mem_map.mp hmem
      rw [List.find?_eq_none] at hfind
      apply hfind item hitem
      rw [beq_iff_eq]
      exact eq_of_text (hsame.trans htext.symm)
  complete := by
    rintro assigned items path rfl hvalid hnew
    obtain ⟨name, hname⟩ := exists_parse_iff.mpr hvalid
    refine ⟨assigned ++ [(name, path)], ?_⟩
    have hfind : assigned.find? (fun item => item.1 == name) = none := by
      rw [List.find?_eq_none]
      intro item hitem hsame
      rw [beq_iff_eq] at hsame
      apply hnew
      rw [← parse_eq_ok_iff.mp hname, ← hsame]
      exact List.mem_map_of_mem hitem
    unfold assignNext
    rw [forPath_eq, hname]
    dsimp only [bind, Except.bind]
    rw [hfind]
  same := fun h => h.1

theorem assign_eq_ok_iff (paths : List (SecretPath u)) :
    (∃ names, assign paths = .ok names) ↔
      (∀ path ∈ paths, IsName path.lastSegment) ∧ (paths.map SecretPath.lastSegment).Nodup := by
  have hrun : (∃ assigned, paths.foldlM assignNext [] = .ok assigned) ↔
      (∀ path ∈ paths, IsName path.lastSegment) ∧ (paths.map SecretPath.lastSegment).Nodup :=
    assignNext_collects.run_iff rfl
  rw [← hrun]
  constructor
  · rintro ⟨names, hnames⟩
    obtain ⟨assigned, hassigned, -⟩ := Loop.bind_eq_ok hnames
    exact ⟨assigned, hassigned⟩
  · rintro ⟨assigned, hassigned⟩
    refine ⟨assigned.map (·.1), ?_⟩
    unfold assign
    rw [hassigned]
    rfl

theorem text_of_assign {paths : List (SecretPath u)} {names : List EnvVarName}
    (h : assign paths = .ok names) :
    names.map (·.text) = paths.map SecretPath.lastSegment := by
  obtain ⟨assigned, hassigned, hnames⟩ := Loop.bind_eq_ok h
  cases hnames
  obtain ⟨built, hbuilt, rfl⟩ := assignNext_collects.run_gives rfl hassigned
  rw [List.map_map, eq_comm, ← List.forall₂_eq_eq_eq, List.forall₂_map_left_iff,
    List.forall₂_map_right_iff]
  exact hbuilt.imp fun _ _ hitem => hitem.1.symm

/-- What stands in the way of a path, after the paths before it were given their names. -/
def Obstructs (front : List (SecretPath u)) (path : SecretPath u) (error : EnvNameError) : Prop :=
  (¬IsName path.lastSegment ∧
    ∃ reason, nameFault path.lastSegment = some reason ∧ error = .notAName path.lastSegment reason) ∨
  IsName path.lastSegment ∧ ∃ earlier ∈ front, earlier.lastSegment = path.lastSegment ∧
    error = .collision path.lastSegment earlier.text path.text

theorem obstructs_of_assignNext {front : List (SecretPath u)} {path : SecretPath u}
    {assigned built : List (EnvVarName × SecretPath u)} {error : EnvNameError}
    (hbuilt : List.Forall₂ (fun path item => item.1.text = path.lastSegment ∧ item.2 = path) front
      built)
    (hheld : assigned = built) (h : assignNext assigned path = .error error) :
    Obstructs front path error := by
  unfold assignNext at h
  rw [forPath_eq] at h
  cases hname : parse path.lastSegment with
  | error other =>
      rw [hname] at h
      cases h
      exact .inl (parse_eq_error hname)
  | ok name =>
      rw [hname] at h
      dsimp only [bind, Except.bind] at h
      split at h
      · rename_i found first hfind
        cases h
        have hitem : (found, first) ∈ built := hheld ▸ List.mem_of_find?_eq_some hfind
        obtain ⟨earlier, hearlier, htext, rfl⟩ := Loop.forall₂_mem_right hbuilt hitem
        have hsame : found = name := by
          simpa using List.find?_some hfind
        have hown := parse_eq_ok_iff.mp hname
        refine .inr ⟨exists_parse_iff.mp ⟨name, hname⟩, first, hearlier, ?_, ?_⟩
        · rw [← htext, hsame, hown]
        · rw [hown]
      · cases h

/-- Names are assigned to a set of paths exactly where every last segment is a name and no two are
equal: each path is given its last segment, in the order of the paths. A refusal is about the first
path whose last segment is no name or is that of an earlier one, which it then names. -/
theorem assign_exact (paths : List (SecretPath u)) :
    ((∃ names, assign paths = .ok names) ↔
      (∀ path ∈ paths, IsName path.lastSegment) ∧ (paths.map SecretPath.lastSegment).Nodup) ∧
    (∀ names, assign paths = .ok names → names.length = paths.length ∧
      names.map (·.text) = paths.map SecretPath.lastSegment ∧ names.Nodup) ∧
    ∀ error, assign paths = .error error → ∃ front path rest, paths = front ++ path :: rest ∧
      (∀ earlier ∈ front, IsName earlier.lastSegment) ∧
      (front.map SecretPath.lastSegment).Nodup ∧ Obstructs front path error := by
  refine ⟨assign_eq_ok_iff paths, ?_, ?_⟩
  · intro names hnames
    have htexts := text_of_assign hnames
    obtain ⟨-, hnodup⟩ := (assign_eq_ok_iff paths).mp ⟨names, hnames⟩
    rw [← htexts] at hnodup
    exact ⟨assign_length hnames, htexts, hnodup.of_map _⟩
  · intro error herror
    unfold assign at herror
    cases hloop : paths.foldlM assignNext [] with
    | ok assigned =>
        rw [hloop] at herror
        cases herror
    | error other =>
        rw [hloop] at herror
        cases herror
        obtain ⟨front, path, rest, assigned, hsplit, hfront, hfails⟩ := Loop.foldlM_eq_error hloop
        obtain ⟨hvalid, hnodup, built, hbuilt, hheld⟩ :=
          assignNext_collects.run_sound (@rfl _ []) List.nodup_nil hfront
        exact ⟨front, path, rest, hsplit, hvalid, hnodup, obstructs_of_assignNext hbuilt hheld hfails⟩

end EnvVarName

end Ciphr
