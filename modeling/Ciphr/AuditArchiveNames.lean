import Mathlib.Tactic.IntervalCases
import Ciphr.AuditArchive
import Ciphr.AuditExactlyOnce
import Ciphr.AuditTimeText

/-!
The names of the archives, as the rotation writes them and as the reader of archives recognises them.
-/

namespace Ciphr

open FixedWidth (DigitBlock)

/-- The timestamp in the name of an archive, with `0` for a digit: `0000-00-00T00-00-00.000Z`. -/
def stampTemplate : List Char :=
  ['0', '0', '0', '0', '-', '0', '0', '-', '0', '0', 'T', '0', '0', '-', '0', '0', '-', '0', '0', '.',
    '0', '0', '0', 'Z']

/-- Whether a character may stand where the template has this one. -/
def FitsTemplate (place character : Char) : Prop :=
  if place = '0' then character.isDigit = true else character = place

def Stamp (stamp : List Char) : Prop := List.Forall₂ FitsTemplate stampTemplate stamp

/-- One or more digits. -/
def DigitRun (chars : List Char) : Prop := chars ≠ [] ∧ ∀ c ∈ chars, c.isDigit = true

/-- Nothing, a sequence number, or a sequence number and an attempt. -/
inductive ArchiveTail : List Char → Prop
  | bare : ArchiveTail []
  | sequence {sequence : List Char} (hsequence : DigitRun sequence) : ArchiveTail ('-' :: sequence)
  | counter {sequence counter : List Char} (hsequence : DigitRun sequence)
      (hcounter : DigitRun counter) : ArchiveTail ('-' :: (sequence ++ '.' :: counter))

/-- What follows the name of the live file and a dot in the name of one of its archives. -/
def ArchiveSuffix (suffix : List Char) : Prop :=
  ∃ stamp tail, suffix = stamp ++ tail ∧ Stamp stamp ∧ ArchiveTail tail

/-! ### The reader -/

theorem isDigits_iff {text : String} : isDigits text = true ↔ DigitRun text.toList := by
  unfold isDigits DigitRun
  rw [Bool.and_eq_true, Bool.not_eq_true', List.all_eq_true, String.isEmpty_eq_false_iff]
  exact and_congr_left' (not_congr String.toList_eq_nil_iff.symm)

theorem not_mem_of_digits {c : Char} {chars : List Char} (hchars : ∀ d ∈ chars, d.isDigit = true)
    (hc : c.isDigit = false) : c ∉ chars := by
  intro hmem
  rw [hchars c hmem] at hc
  cases hc

theorem splitOnce_of_not_mem {text : String} (h : '.' ∉ text.toList) :
    Rust.splitOnce '.' text = none := by
  unfold Rust.splitOnce
  rw [if_neg]
  rw [List.contains_iff_mem]
  exact h

theorem splitOnce_append {front back : List Char} (h : '.' ∉ front) :
    Rust.splitOnce '.' (String.ofList (front ++ '.' :: back)) =
      some (String.ofList front, String.ofList back) := by
  have hfront : ∀ c ∈ front, (c != '.') = true := by
    intro c hc
    rw [bne_iff_ne]
    rintro rfl
    exact h hc
  unfold Rust.splitOnce
  rw [String.toList_ofList, if_pos (by simp), List.takeWhile_append_of_pos hfront,
    List.dropWhile_append_of_pos hfront, List.takeWhile_cons_of_neg (by simp),
    List.dropWhile_cons_of_neg (by simp), List.append_nil]
  rfl

theorem splitOnce_eq_some {text first second : String}
    (h : Rust.splitOnce '.' text = some (first, second)) :
    text.toList = first.toList ++ '.' :: second.toList := by
  unfold Rust.splitOnce at h
  split at h
  · rename_i hmem
    rw [List.contains_iff_mem] at hmem
    obtain ⟨hfirst, hsecond⟩ := Prod.mk.inj (Option.some.inj h)
    rw [← hfirst, ← hsecond, String.toList_ofList, String.toList_ofList]
    have hrest : text.toList.dropWhile (· != '.') ≠ [] := by
      intro hnil
      rw [List.dropWhile_eq_nil_iff] at hnil
      have := hnil '.' hmem
      simp at this
    obtain ⟨c, rest, hcons⟩ := List.exists_cons_of_ne_nil hrest
    have hhead := List.head_dropWhile_not (· != '.') hrest
    have hc : c = '.' := by
      simp only [hcons, List.head_cons, bne_eq_false_iff_eq] at hhead
      exact hhead
    calc text.toList
        = text.toList.takeWhile (· != '.') ++ text.toList.dropWhile (· != '.') :=
          List.takeWhile_append_dropWhile.symm
      _ = text.toList.takeWhile (· != '.') ++ '.' :: (text.toList.dropWhile (· != '.')).drop 1 := by
          rw [hcons, hc]
          rfl
  · cases h

theorem isArchiveTail_iff {tail : List Char} :
    isArchiveTail (String.ofList tail) = true ↔ ArchiveTail tail := by
  constructor
  · intro h
    unfold isArchiveTail at h
    split at h
    · rename_i hempty
      rw [String.isEmpty_iff, ← String.toList_eq_nil_iff, String.toList_ofList] at hempty
      rw [hempty]
      exact .bare
    · split at h
      · cases h
      · rename_i rest hrest
        have htail : tail = '-' :: rest.toList := by
          have htext := congrArg String.toList (Rust.stripPrefix_eq_some.mp hrest)
          rw [String.toList_ofList, String.toList_append] at htext
          exact htext
        rw [htail]
        split at h
        · rename_i sequence counter hsplit
          rw [Bool.and_eq_true, isDigits_iff, isDigits_iff] at h
          rw [splitOnce_eq_some hsplit]
          exact .counter h.1 h.2
        · exact .sequence (isDigits_iff.mp h)
  · intro h
    unfold isArchiveTail
    cases h with
    | bare => rfl
    | @sequence sequence hsequence =>
        have hstrip : Rust.stripPrefix "-" (String.ofList ('-' :: sequence)) =
            some (String.ofList sequence) := by
          rw [Rust.stripPrefix_eq_some]
          exact @String.ofList_append ['-'] sequence
        have hdots : '.' ∉ (String.ofList sequence).toList := by
          rw [String.toList_ofList]
          exact not_mem_of_digits hsequence.2 (by decide)
        rw [if_neg (by simp), hstrip]
        dsimp only
        rw [splitOnce_of_not_mem hdots]
        dsimp only
        rw [isDigits_iff, String.toList_ofList]
        exact hsequence
    | @counter sequence counter hsequence hcounter =>
        have hstrip : Rust.stripPrefix "-"
            (String.ofList ('-' :: (sequence ++ '.' :: counter))) =
            some (String.ofList (sequence ++ '.' :: counter)) := by
          rw [Rust.stripPrefix_eq_some]
          exact @String.ofList_append ['-'] (sequence ++ '.' :: counter)
        rw [if_neg (by simp), hstrip]
        dsimp only
        rw [splitOnce_append (not_mem_of_digits hsequence.2 (by decide))]
        dsimp only
        rw [Bool.and_eq_true, isDigits_iff, isDigits_iff, String.toList_ofList,
          String.toList_ofList]
        exact ⟨hsequence, hcounter⟩

/-! ### The timestamp -/

/-- What the reader asks of the timestamp character by character is what the template says. -/
theorem stampChar_iff {place : Char} {index : Nat} (h : stampTemplate[index]? = some place)
    (character : Char) : stampChar character index = true ↔ FitsTemplate place character := by
  have hlt : index < 24 := (List.getElem?_eq_some_iff.mp h).1
  interval_cases index <;>
    · obtain rfl := Option.some.inj h
      simp [FitsTemplate, stampChar]

theorem forall₂_of_zipIdx {template stamp : List Char} {start : Nat}
    (htemplate : ∀ index place, template[index]? = some place → ∀ character,
      stampChar character (start + index) = true ↔ FitsTemplate place character)
    (hlength : stamp.length = template.length) :
    (stamp.zipIdx start).all (fun (character, index) => stampChar character index) = true ↔
      List.Forall₂ FitsTemplate template stamp := by
  induction template generalizing stamp start with
  | nil =>
      obtain rfl := List.length_eq_zero_iff.mp hlength
      exact ⟨fun _ => .nil, fun _ => rfl⟩
  | cons place template ih =>
      cases stamp with
      | nil => cases hlength
      | cons c stamp =>
          rw [List.zipIdx_cons, List.all_cons, Bool.and_eq_true, List.forall₂_cons]
          apply and_congr
          · exact htemplate 0 place rfl c
          · apply ih
            · intro index other hother character
              have hnext := htemplate (index + 1) other hother character
              rw [← Nat.add_assoc, Nat.add_right_comm] at hnext
              exact hnext
            · exact Nat.succ.inj hlength

theorem stamp_iff {stamp : List Char} (hlength : stamp.length = stampLen) :
    stamp.zipIdx.all (fun (character, index) => stampChar character index) = true ↔ Stamp stamp := by
  apply forall₂_of_zipIdx
  · intro index place hplace character
    rw [Nat.zero_add]
    exact stampChar_iff hplace character
  · exact hlength

theorem utf8Size_of_isDigit {c : Char} (h : c.isDigit = true) : c.utf8Size = 1 := by
  have hranges : (decide (48 ≤ c.val) && decide (c.val ≤ 57)) = true := h
  rw [Bool.and_eq_true, decide_eq_true_eq, decide_eq_true_eq] at hranges
  unfold Char.utf8Size
  dsimp only
  rw [if_pos (UInt32.le_trans hranges.2 (by decide))]

theorem utf8Size_of_stampChar {character : Char} {index : Nat}
    (h : stampChar character index = true) : character.utf8Size = 1 := by
  unfold stampChar at h
  split at h
  · rw [eq_of_beq h]
    rfl
  · rw [eq_of_beq h]
    rfl
  · rw [eq_of_beq h]
    rfl
  · rw [eq_of_beq h]
    rfl
  · rw [eq_of_beq h]
    rfl
  · rw [eq_of_beq h]
    rfl
  · rw [eq_of_beq h]
    rfl
  · exact utf8Size_of_isDigit h

/-- Characters of one byte take up as many bytes as they are. -/
theorem utf8ByteSize_of_forall {chars : List Char} (h : ∀ c ∈ chars, c.utf8Size = 1) :
    (String.ofList chars).utf8ByteSize = chars.length := by
  induction chars with
  | nil => rfl
  | cons c chars ih =>
      rw [Rust.utf8ByteSize_ofList_cons, h c List.mem_cons_self,
        ih fun d hd => h d (List.mem_cons_of_mem c hd), List.length_cons, Nat.add_comm]

theorem isRotationStamp_iff {suffix : String} :
    isRotationStamp suffix = true ↔ ArchiveSuffix suffix.toList := by
  have hsize : ∀ {stamp : List Char},
      stamp.zipIdx.all (fun (character, index) => stampChar character index) = true →
      (String.ofList stamp).utf8ByteSize = stamp.length := by
    intro stamp hall
    apply utf8ByteSize_of_forall
    intro c hc
    obtain ⟨index, hindex⟩ := List.mem_iff_getElem?.mp hc
    have hmem : (c, index) ∈ stamp.zipIdx := List.mem_zipIdx_iff_getElem?.mpr hindex
    exact utf8Size_of_stampChar (List.all_eq_true.mp hall (c, index) hmem)
  constructor
  · intro h
    unfold isRotationStamp at h
    split at h
    · cases h
    · rename_i stamp tail hsplit
      obtain ⟨hsuffix, hbytes⟩ := Rust.splitAtBytes_eq_some.mp hsplit
      split at h
      · cases h
      · dsimp only at h
        rw [Bool.and_eq_true, isArchiveTail_iff] at h
        have hlength : stamp.length = stampLen := by
          rw [← hsize h.1, hbytes]
        exact ⟨stamp, tail, hsuffix, (stamp_iff hlength).mp h.1, h.2⟩
  · rintro ⟨stamp, tail, hsuffix, hstamp, htail⟩
    have hlength : stamp.length = stampLen := hstamp.length_eq.symm
    have hall := (stamp_iff hlength).mpr hstamp
    have hsplit : Rust.splitAtBytes suffix.toList stampLen = some (stamp, tail) := by
      rw [Rust.splitAtBytes_eq_some]
      refine ⟨hsuffix, ?_⟩
      rw [hsize hall, hlength]
    have hlast : stamp.getLast? = some 'Z' := by
      obtain ⟨c, hc⟩ : ∃ c, stamp[23]? = some c :=
        ⟨_, List.getElem?_eq_getElem (by rw [hlength]; decide)⟩
      have hfits := List.all_eq_true.mp hall (c, 23) (List.mem_zipIdx_iff_getElem?.mpr hc)
      rw [List.getLast?_eq_getElem?, hlength]
      rw [eq_of_beq hfits] at hc
      exact hc
    unfold isRotationStamp
    rw [hsplit]
    dsimp only
    rw [hlast, if_neg (by simp), Bool.and_eq_true, isArchiveTail_iff]
    exact ⟨hall, htail⟩

/-! ### The writer -/

theorem fits_digitBlock {width : Nat} {chars : List Char} (h : DigitBlock width chars) :
    List.Forall₂ FitsTemplate (List.replicate width '0') chars := by
  obtain ⟨rfl, hdigits⟩ := h
  induction chars with
  | nil => exact .nil
  | cons c chars ih =>
      rw [List.length_cons, List.replicate_succ]
      refine .cons ?_ (ih fun d hd => hdigits d (List.mem_cons_of_mem c hd))
      unfold FitsTemplate
      rw [if_pos rfl]
      exact hdigits c List.mem_cons_self

/-- Colons replaced by dashes, where there are no colons. -/
theorem replaced_digitBlock {width : Nat} {chars : List Char} (h : DigitBlock width chars) :
    chars.map (fun c => if c = ':' then '-' else c) = chars := by
  calc chars.map (fun c => if c = ':' then '-' else c)
      = chars.map id := by
        apply List.map_congr_left
        intro c hc
        rw [if_neg, id]
        rintro rfl
        exact absurd (h.2 ':' hc) (by decide)
    _ = chars := List.map_id chars

theorem digitRun_toString (n : Nat) : DigitRun (toString n).toList :=
  ⟨Rust.toList_toString_ne_nil n, fun _ hc => Rust.isDigit_of_mem_toString hc⟩

/-- What a rotation appends to the name of the live file in the years 0000 to 9999. -/
theorem archiveSuffix_text {nowMillis : Int} (hmin : -62167219200000 ≤ nowMillis)
    (hmax : nowMillis ≤ 253402300799999) (nextSeq : Nat) :
    ∃ stamp, Stamp stamp ∧ FileDevice.archiveSuffix nowMillis nextSeq =
      "." ++ String.ofList (stamp ++ '-' :: (toString (nextSeq - 1)).toList) := by
  obtain ⟨year, month, day, hour, minute, second, milli, hyear, hmonth, hday, hhour, hminute,
    hsecond, hmilli, htext⟩ := rfc3339Millis_text hmin hmax
  refine ⟨year ++ '-' :: (month ++ '-' :: (day ++ 'T' :: (hour ++ '-' :: (minute ++ '-' :: (second ++
    '.' :: (milli ++ ['Z'])))))), ?_, ?_⟩
  · have hplace : ∀ {place : Char}, place ≠ '0' → FitsTemplate place place := by
      intro place hne
      unfold FitsTemplate
      rw [if_neg hne]
    have htemplate : stampTemplate = List.replicate 4 '0' ++ '-' :: (List.replicate 2 '0' ++
        '-' :: (List.replicate 2 '0' ++ 'T' :: (List.replicate 2 '0' ++ '-' :: (List.replicate 2 '0' ++
        '-' :: (List.replicate 2 '0' ++ '.' :: (List.replicate 3 '0' ++ ['Z'])))))) := rfl
    unfold Stamp
    rw [htemplate]
    apply List.rel_append (fits_digitBlock hyear)
    apply List.Forall₂.cons (hplace (by decide))
    apply List.rel_append (fits_digitBlock hmonth)
    apply List.Forall₂.cons (hplace (by decide))
    apply List.rel_append (fits_digitBlock hday)
    apply List.Forall₂.cons (hplace (by decide))
    apply List.rel_append (fits_digitBlock hhour)
    apply List.Forall₂.cons (hplace (by decide))
    apply List.rel_append (fits_digitBlock hminute)
    apply List.Forall₂.cons (hplace (by decide))
    apply List.rel_append (fits_digitBlock hsecond)
    apply List.Forall₂.cons (hplace (by decide))
    apply List.rel_append (fits_digitBlock hmilli)
    exact .cons (hplace (by decide)) .nil
  · unfold FileDevice.archiveSuffix
    rw [htext]
    simp only [List.map_append, List.map_cons, List.map_nil, replaced_digitBlock hyear,
      replaced_digitBlock hmonth, replaced_digitBlock hday, replaced_digitBlock hhour,
      replaced_digitBlock hminute, replaced_digitBlock hsecond, replaced_digitBlock hmilli]
    apply String.toList_inj.mp
    simp [String.toList_append]

/-- The name a rotation chooses is the first one or one with an attempt behind it. -/
theorem archivePath_cases (volume : Volume) (base : String) (fuel attempt : Nat) (rotated : String) :
    FileDevice.archivePath volume base fuel attempt rotated = rotated ∨
      ∃ other : Nat, FileDevice.archivePath volume base fuel attempt rotated =
        base ++ "." ++ toString other := by
  induction fuel generalizing attempt rotated with
  | zero => exact .inl rfl
  | succ fuel ih =>
      unfold FileDevice.archivePath
      split
      · rcases ih (attempt + 1) (base ++ "." ++ toString attempt) with h | h
        · exact .inr ⟨attempt, h⟩
        · exact .inr h
      · exact .inl rfl

/-! ### The set -/

/-- The name of an archive of the live file. -/
def ArchiveName (live name : String) : Prop :=
  ∃ suffix : String, name = live ++ "." ++ suffix ∧ ArchiveSuffix suffix.toList

theorem isArchiveOf_iff {live : String} {entry : DirEntry} :
    isArchiveOf (bytesOf live) entry = true ↔
      entry.isFile = true ∧ ∃ name, entry.fileName = bytesOf name ∧ ArchiveName live name := by
  have hstart : Rust.fromUtf8 (bytesOf live ++ bytesOf ".") = some (live ++ ".") := by
    rw [← bytesOf_append]
    exact Rust.fromUtf8_toUTF8 _
  unfold isArchiveOf
  rw [hstart]
  constructor
  · intro h
    cases hname : Rust.fromUtf8 entry.fileName with
    | none =>
        rw [hname] at h
        cases h
    | some name =>
        rw [hname] at h
        dsimp only at h
        split at h
        · rename_i suffix hstrip
          rw [Bool.and_eq_true, isRotationStamp_iff] at h
          exact ⟨h.2, name, Rust.fromUtf8_eq_some.mp hname, suffix,
            Rust.stripPrefix_eq_some.mp hstrip, h.1⟩
        · cases h
  · rintro ⟨hfile, name, hname, suffix, htext, hsuffix⟩
    rw [Rust.fromUtf8_eq_some.mpr hname]
    dsimp only
    rw [Rust.stripPrefix_eq_some.mpr htext]
    dsimp only
    rw [Bool.and_eq_true, isRotationStamp_iff]
    exact ⟨hsuffix, hfile⟩

/-- What the set is where the directory can be read. -/
theorem rotationSet_eq {place : Surroundings} {name : List UInt8} {entries : List DirEntry}
    (hname : place.fileName = some name) (hdir : place.isDir = true)
    (hentries : place.readDir = .ok (entries.map .ok)) :
    ∃ set, rotationSet place = .ok set ∧ (.live ∈ set ↔ place.isFile = true) ∧
      ∀ fileName, .rotated fileName ∈ set ↔
        ∃ entry ∈ entries, entry.fileName = fileName ∧ isArchiveOf name entry = true := by
  have hmap : (entries.map Except.ok).mapM (id : Except String DirEntry → _) = .ok entries := by
    rw [Loop.mapM_eq_ok_iff, List.forall₂_map_left_iff]
    exact List.forall₂_same.mpr fun entry _ => rfl
  unfold rotationSet
  dsimp only
  rw [hname]
  dsimp only
  rw [if_pos hdir, hentries]
  simp only [bind, Except.bind, hmap]
  refine ⟨_, rfl, ?_, ?_⟩
  · rw [List.mem_append]
    constructor
    · rintro (hlive | hrotated)
      · split at hlive
        · assumption
        · cases hlive
      · obtain ⟨fileName, -, heq⟩ := List.mem_map.mp hrotated
        cases heq
    · intro hfile
      rw [if_pos hfile]
      exact .inl List.mem_cons_self
  · intro fileName
    rw [List.mem_append, List.mem_map_of_injective (fun _ _ h => by cases h; rfl),
      List.mem_mergeSort, List.mem_map]
    constructor
    · rintro (hlive | ⟨entry, hentry, heq⟩)
      · split at hlive
        · cases List.mem_singleton.mp hlive
        · cases hlive
      · obtain ⟨hmem, harchive⟩ := List.mem_filter.mp hentry
        exact ⟨entry, hmem, heq, harchive⟩
    · rintro ⟨entry, hmem, heq, harchive⟩
      exact .inr ⟨entry, List.mem_filter.mpr ⟨hmem, harchive⟩, heq⟩

/-! ### What is no archive of the live file -/

/-- A character that may follow the timestamp. -/
def TailChar (c : Char) : Prop := c.isDigit = true ∨ c = '-' ∨ c = '.'

theorem ArchiveTail.tailChar {tail : List Char} (h : ArchiveTail tail) : ∀ c ∈ tail, TailChar c := by
  cases h with
  | bare => simp
  | sequence hsequence =>
      rw [List.forall_mem_cons]
      exact ⟨.inr (.inl rfl), fun c hc => .inl (hsequence.2 c hc)⟩
  | counter hsequence hcounter =>
      rw [List.forall_mem_cons, List.forall_mem_append, List.forall_mem_cons]
      exact ⟨.inr (.inl rfl), fun c hc => .inl (hsequence.2 c hc), .inr (.inr rfl),
        fun c hc => .inl (hcounter.2 c hc)⟩

theorem FitsTemplate.eq_T {place character : Char} (h : FitsTemplate place character) :
    character = 'T' ↔ place = 'T' := by
  unfold FitsTemplate at h
  split at h
  · rename_i hzero
    constructor
    · rintro rfl
      exact absurd h (by decide)
    · rintro rfl
      exact absurd hzero (by decide)
  · rw [h]

/-- The only `T` is the one between date and time. -/
theorem ArchiveSuffix.getElem?_eq_T {suffix : List Char} (h : ArchiveSuffix suffix) (i : Nat) :
    suffix[i]? = some 'T' ↔ i = 10 := by
  obtain ⟨stamp, tail, rfl, hstamp, htail⟩ := h
  have hlength : stamp.length = 24 := hstamp.length_eq.symm
  have htemplate : ∀ i (hi : i < 24), stampTemplate.get ⟨i, hi⟩ = 'T' ↔ i = 10 := by decide
  by_cases hi : i < 24
  · have hfits := (List.forall₂_iff_get.mp hstamp).2 i hi (by rw [hlength]; exact hi)
    rw [List.getElem?_append_left (by rw [hlength]; exact hi),
      List.getElem?_eq_getElem (by rw [hlength]; exact hi), Option.some.injEq, ← htemplate i hi]
    exact hfits.eq_T
  · constructor
    · intro hT
      rw [List.getElem?_append_right (by rw [hlength]; exact Nat.le_of_not_lt hi)] at hT
      rcases htail.tailChar 'T' (List.mem_of_getElem? hT) with hdigit | hdash | hdot
      · exact absurd hdigit (by decide)
      · exact absurd hdash (by decide)
      · exact absurd hdot (by decide)
    · rintro rfl
      exact absurd (by decide) hi

/-- No archive of a live file is one of another live file whose name goes on. -/
theorem ArchiveName.not_of_longer {live more name : String} (hmore : more ≠ "")
    (h : ArchiveName (live ++ more) name) : ¬ArchiveName live name := by
  obtain ⟨suffix, rfl, hsuffix⟩ := h
  rintro ⟨suffix', heq, hsuffix'⟩
  have htext : more.toList ++ '.' :: suffix.toList = '.' :: suffix'.toList := by
    have hlists := congrArg String.toList heq
    simp only [String.toList_append, List.append_assoc] at hlists
    exact List.append_cancel_left hlists
  cases hchars : more.toList with
  | nil => exact hmore (String.toList_eq_nil_iff.mp hchars)
  | cons c rest =>
      rw [hchars, List.cons_append, List.cons.injEq] at htext
      have hT := (hsuffix.getElem?_eq_T 10).mpr rfl
      have hlater : suffix'.toList[rest.length + 11]? = some 'T' := by
        rw [← htext.2, List.getElem?_append_right (by omega)]
        have hindex : rest.length + 11 - rest.length = 10 + 1 := by omega
        rw [hindex, List.getElem?_cons_succ]
        exact hT
      have := (hsuffix'.getElem?_eq_T _).mp hlater
      omega

/-- No name of an archive with something behind it that is not made of digits, dashes and dots, such
as the suffix of a compressed file, is the name of an archive. -/
theorem ArchiveName.not_append {live name more : String} (h : ArchiveName live name)
    {c : Char} (hc : c ∈ more.toList) (hother : ¬TailChar c) : ¬ArchiveName live (name ++ more) := by
  obtain ⟨suffix, rfl, stamp, tail, hsuffix, hstamp, htail⟩ := h
  rintro ⟨suffix', heq, stamp', tail', hsuffix', hstamp', htail'⟩
  have htext : stamp ++ (tail ++ more.toList) = stamp' ++ tail' := by
    have hlists := congrArg String.toList heq
    simp only [String.toList_append, List.append_assoc] at hlists
    rw [← List.append_assoc, ← hsuffix, ← hsuffix']
    exact List.append_cancel_left (List.append_cancel_left hlists)
  have hlength : stamp.length = stamp'.length :=
    hstamp.length_eq.symm.trans hstamp'.length_eq
  obtain ⟨-, htails⟩ := List.append_inj htext hlength
  apply hother
  apply htail'.tailChar c
  rw [← htails]
  exact List.mem_append_right tail hc

/-! ### The finder -/

/-- The first name a rotation tries in the years 0000 to 9999, and the names with an attempt. -/
def WrittenName (live : String) (nowMillis : Int) (nextSeq : Nat) (name : String) : Prop :=
  name = live ++ FileDevice.archiveSuffix nowMillis nextSeq ∨
    ∃ attempt : Nat, name = live ++ FileDevice.archiveSuffix nowMillis nextSeq ++ "." ++
      toString attempt

theorem WrittenName.archiveName {live name : String} {nowMillis : Int} {nextSeq : Nat}
    (hmin : -62167219200000 ≤ nowMillis) (hmax : nowMillis ≤ 253402300799999)
    (h : WrittenName live nowMillis nextSeq name) : ArchiveName live name := by
  obtain ⟨stamp, hstamp, hsuffix⟩ := archiveSuffix_text hmin hmax nextSeq
  have hsequence := digitRun_toString (nextSeq - 1)
  rcases h with rfl | ⟨attempt, rfl⟩
  · refine ⟨String.ofList (stamp ++ '-' :: (toString (nextSeq - 1)).toList), ?_, stamp, _, ?_,
      hstamp, .sequence hsequence⟩
    · rw [hsuffix, String.append_assoc]
    · rw [String.toList_ofList]
  · refine ⟨String.ofList (stamp ++ '-' :: (toString (nextSeq - 1)).toList) ++ "." ++
      toString attempt, ?_, stamp, _, ?_, hstamp, .counter hsequence (digitRun_toString attempt)⟩
    · rw [hsuffix]
      simp only [String.append_assoc]
    · simp [String.toList_append]

theorem archiveName_written {directory live : String} {device : FileDevice}
    (hpath : device.path = directory ++ live) (volume : Volume) (nowMillis : Int) (nextSeq : Nat) :
    ∃ name, FileDevice.archiveName volume device nowMillis nextSeq = directory ++ name ∧
      WrittenName live nowMillis nextSeq name := by
  unfold FileDevice.archiveName
  rw [hpath]
  rcases archivePath_cases volume (directory ++ live ++ FileDevice.archiveSuffix nowMillis nextSeq)
    attemptsPerStamp 1 (directory ++ live ++ FileDevice.archiveSuffix nowMillis nextSeq) with
    h | ⟨attempt, h⟩
  · refine ⟨_, ?_, .inl rfl⟩
    rw [h, String.append_assoc]
  · refine ⟨_, ?_, .inr ⟨attempt, rfl⟩⟩
    rw [h]
    simp only [String.append_assoc]

/-- The directory lists the files of a volume under their names. -/
def ListsVolume (directory : String) (volume : Volume) (entries : List DirEntry) : Prop :=
  ∀ name, volume.exists? (directory ++ name) = true →
    ∃ entry ∈ entries, entry.fileName = bytesOf name ∧ entry.isFile = true

/-- What the set of a live file has to be for the reader and the rotation to agree. -/
structure Recognises (live : String) (place : Surroundings) (entries : List DirEntry)
    (set : List SetFile) : Prop where
  live_iff : .live ∈ set ↔ place.isFile = true
  archive_iff : ∀ fileName, .rotated fileName ∈ set ↔
    ∃ entry ∈ entries, entry.fileName = fileName ∧ entry.isFile = true ∧
      ∃ name, fileName = bytesOf name ∧ ArchiveName live name
  /-- Whatever the time, the sequence number and the attempt are. -/
  written : ∀ nowMillis nextSeq name, -62167219200000 ≤ nowMillis → nowMillis ≤ 253402300799999 →
    WrittenName live nowMillis nextSeq name → ∀ entry ∈ entries, entry.fileName = bytesOf name →
    entry.isFile = true → .rotated (bytesOf name) ∈ set
  /-- Whatever a rotation finds in the directory, which lists its archive afterwards. -/
  rotated : ∀ directory volume device nowMillis nextSeq fault volume' device' outcome,
    device.path = directory ++ live → -62167219200000 ≤ nowMillis → nowMillis ≤ 253402300799999 →
    FileDevice.rotate volume device nowMillis nextSeq fault = (volume', device', outcome) →
    ListsVolume directory volume' entries →
    ∀ archive ∈ FileDevice.addedArchive volume volume'
        (FileDevice.archiveName volume device nowMillis nextSeq),
      ∃ name, archive = directory ++ name ∧ .rotated (bytesOf name) ∈ set
  not_compressed : ∀ name more c, ArchiveName live name → c ∈ more.toList → ¬TailChar c →
    .rotated (bytesOf (name ++ more)) ∉ set
  not_of_longer : ∀ more name, more ≠ "" → ArchiveName (live ++ more) name →
    .rotated (bytesOf name) ∉ set

/-- The finder recognises what the rotation writes, and besides the live file nothing else. -/
theorem rotationSet_recognises (live : String) (place : Surroundings) (entries : List DirEntry)
    (hname : place.fileName = some (bytesOf live)) (hdir : place.isDir = true)
    (hentries : place.readDir = .ok (entries.map .ok)) :
    ∃ set, rotationSet place = .ok set ∧ Recognises live place entries set := by
  obtain ⟨set, hset, hlive, hrotated⟩ := rotationSet_eq hname hdir hentries
  have harchive : ∀ fileName, .rotated fileName ∈ set ↔
      ∃ entry ∈ entries, entry.fileName = fileName ∧ entry.isFile = true ∧
        ∃ name, fileName = bytesOf name ∧ ArchiveName live name := by
    intro fileName
    rw [hrotated]
    constructor
    · rintro ⟨entry, hentry, rfl, harchive⟩
      obtain ⟨hfile, hname⟩ := isArchiveOf_iff.mp harchive
      exact ⟨entry, hentry, rfl, hfile, hname⟩
    · rintro ⟨entry, hentry, rfl, hfile, hname⟩
      exact ⟨entry, hentry, rfl, isArchiveOf_iff.mpr ⟨hfile, hname⟩⟩
  have honly : ∀ name, .rotated (bytesOf name) ∈ set → ArchiveName live name := by
    intro name hmem
    obtain ⟨-, -, -, -, other, hother, hname⟩ := (harchive _).mp hmem
    rw [bytesOf_injective hother]
    exact hname
  have hwritten : ∀ nowMillis nextSeq name, -62167219200000 ≤ nowMillis →
      nowMillis ≤ 253402300799999 → WrittenName live nowMillis nextSeq name →
      ∀ entry ∈ entries, entry.fileName = bytesOf name → entry.isFile = true →
      .rotated (bytesOf name) ∈ set := by
    intro nowMillis nextSeq name hmin hmax hname entry hentry hfileName hfile
    exact (harchive _).mpr ⟨entry, hentry, hfileName, hfile, name, rfl,
      hname.archiveName hmin hmax⟩
  refine ⟨set, hset, hlive, harchive, hwritten, ?_, ?_, ?_⟩
  · intro directory volume device nowMillis nextSeq fault volume' device' outcome hpath hmin hmax _
      hlists archive hadded
    obtain ⟨name, heq, hname⟩ := archiveName_written hpath volume nowMillis nextSeq
    unfold FileDevice.addedArchive at hadded
    split at hadded
    · rename_i hexists
      rw [Bool.and_eq_true, heq] at hexists
      rw [List.mem_singleton, heq] at hadded
      obtain ⟨entry, hentry, hfileName, hfile⟩ := hlists name hexists.1
      exact ⟨name, hadded, hwritten _ _ _ hmin hmax hname entry hentry hfileName hfile⟩
    · cases hadded
  · intro name more c hname hc hother hmem
    exact hname.not_append hc hother (honly _ hmem)
  · intro more name hmore hname hmem
    exact hname.not_of_longer hmore (honly _ hmem)

def rotatedEntry : DirEntry :=
  ⟨bytesOf ("audit.jsonl" ++ FileDevice.archiveSuffix 0 2 ++ "." ++ toString 1), true⟩

def compressedEntry : DirEntry :=
  ⟨bytesOf ("audit.jsonl" ++ FileDevice.archiveSuffix 0 2 ++ ".gz"), true⟩

def logDirectory : Surroundings where
  isFile := true
  fileName := some (bytesOf "audit.jsonl")
  isDir := true
  readDir := .ok [.ok rotatedEntry, .ok compressedEntry]

theorem logDirectory_recognised :
    ∃ set, rotationSet logDirectory = .ok set ∧ .live ∈ set ∧
      .rotated rotatedEntry.fileName ∈ set ∧ .rotated compressedEntry.fileName ∉ set := by
  obtain ⟨set, hset, hset'⟩ := rotationSet_recognises "audit.jsonl" logDirectory
    [rotatedEntry, compressedEntry] rfl rfl rfl
  refine ⟨set, hset, hset'.live_iff.mpr rfl, ?_, ?_⟩
  · exact hset'.written 0 2 _ (by decide) (by decide) (.inr ⟨1, rfl⟩) rotatedEntry
      List.mem_cons_self rfl rfl
  · have hfirst : ArchiveName "audit.jsonl" ("audit.jsonl" ++ FileDevice.archiveSuffix 0 2) :=
      WrittenName.archiveName (by decide) (by decide) (.inl rfl)
    refine hset'.not_compressed _ ".gz" 'g' hfirst (by decide) ?_
    rintro (hdigit | hdash | hdot)
    · exact absurd hdigit (by decide)
    · exact absurd hdash (by decide)
    · exact absurd hdot (by decide)

end Ciphr
