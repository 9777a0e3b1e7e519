import Ciphr.AuditArchive
import Ciphr.AuditAnchor

/-!
Archive coverage is exact. The records of a verified run have different hashes and are no blank lines,
so that what is outstanding after every line of every file is exactly what equals none of them.
-/

namespace Ciphr

/-! ### Lines -/

/-- The only byte of a character's encoding that is ASCII is an ASCII character itself. -/
theorem toNat_eq_of_mem_utf8EncodeChar {c : Char} {byte : UInt8} (h : byte ∈ String.utf8EncodeChar c)
    (hascii : byte.toNat < 128) : byte.toNat = c.toNat := by
  unfold String.utf8EncodeChar at h
  dsimp only at h
  have hvalue : c.val.toNat = c.toNat := rfl
  rw [hvalue] at h
  split at h
  · rw [List.mem_singleton] at h
    rw [h, UInt8.toNat_ofNat']
    omega
  · exfalso
    split at h
    · simp only [List.mem_cons, List.not_mem_nil, or_false] at h
      rcases h with rfl | rfl <;> rw [UInt8.toNat_ofNat'] at hascii <;> omega
    · split at h
      · simp only [List.mem_cons, List.not_mem_nil, or_false] at h
        rcases h with rfl | rfl | rfl <;> rw [UInt8.toNat_ofNat'] at hascii <;> omega
      · simp only [List.mem_cons, List.not_mem_nil, or_false] at h
        rcases h with rfl | rfl | rfl | rfl <;> rw [UInt8.toNat_ofNat'] at hascii <;> omega

theorem newline_not_mem_utf8EncodeChar {c : Char} (h : c ≠ '\n') :
    newline ∉ String.utf8EncodeChar c := by
  intro hmem
  apply h
  have hvalue := toNat_eq_of_mem_utf8EncodeChar hmem (by decide)
  exact Char.toNat_inj.mp hvalue.symm

theorem splitBytes_cons (byte : UInt8) (rest : List UInt8) :
    splitBytes (byte :: rest) =
      if byte = newline then [byte] :: splitBytes rest
      else
        match splitBytes rest with
        | [] => [[byte]]
        | piece :: pieces => (byte :: piece) :: pieces := rfl

/-- Bytes without a line feed belong to the first piece. -/
theorem splitBytes_append {front : List UInt8} (hfront : newline ∉ front) (rest : List UInt8)
    {piece : List UInt8} {pieces : List (List UInt8)} (h : splitBytes rest = piece :: pieces) :
    splitBytes (front ++ rest) = (front ++ piece) :: pieces := by
  induction front with
  | nil => exact h
  | cons byte front ih =>
      rw [List.mem_cons, not_or] at hfront
      rw [List.cons_append, splitBytes_cons, if_neg (Ne.symm hfront.1), ih hfront.2]
      rfl

theorem splitBytes_of_not_mem {front : List UInt8} (hfront : newline ∉ front) (hne : front ≠ []) :
    splitBytes front = [front] := by
  induction front with
  | nil => exact absurd rfl hne
  | cons byte front ih =>
      rw [List.mem_cons, not_or] at hfront
      rw [splitBytes_cons, if_neg (Ne.symm hfront.1)]
      by_cases hrest : front = []
      · rw [hrest]
        rfl
      · rw [ih hfront.2 hrest]

/-- A text is split at its line feeds, whether it is looked at as characters or as bytes. -/
theorem splitBytes_bytesOf (chars : List Char) :
    splitBytes (bytesOf (String.ofList chars)) =
      (Rust.splitInclusive '\n' chars).map fun piece => bytesOf (String.ofList piece) := by
  induction chars with
  | nil => rfl
  | cons c rest ih =>
      rw [bytesOf_ofList_cons, Rust.splitInclusive_cons]
      by_cases hc : c = '\n'
      · have hencode : String.utf8EncodeChar '\n' = [newline] := by decide
        rw [if_pos hc, hc, hencode, List.singleton_append, splitBytes_cons, if_pos rfl, ih]
        rfl
      · rw [if_neg hc]
        have hfront := newline_not_mem_utf8EncodeChar hc
        have hne : String.utf8EncodeChar c ≠ [] := String.utf8EncodeChar_ne_nil
        cases hpieces : Rust.splitInclusive '\n' rest with
        | nil =>
            -- only the empty text has no piece
            have hrest : rest = [] := by
              cases rest with
              | nil => rfl
              | cons d rest =>
                  rw [Rust.splitInclusive_cons] at hpieces
                  split at hpieces
                  · cases hpieces
                  · split at hpieces <;> cases hpieces
            rw [hrest]
            have hempty : bytesOf (String.ofList []) = [] := rfl
            rw [hempty, List.append_nil, splitBytes_of_not_mem hfront hne, List.map_singleton,
              bytesOf_ofList_cons, hempty, List.append_nil]
        | cons piece pieces =>
            rw [hpieces, List.map_cons] at ih
            rw [splitBytes_append hfront _ ih, List.map_cons, bytesOf_ofList_cons]

/-- The lines of a file that is a text are the lines of the text. -/
theorem archiveLines_bytesOf (text : String) :
    archiveLines (bytesOf text) = (Rust.lines text).map .ok := by
  have hsplit := splitBytes_bytesOf text.toList
  rw [String.ofList_toList] at hsplit
  unfold archiveLines Rust.lines
  rw [hsplit, List.map_map, List.map_map]
  apply List.map_congr_left
  intro piece _
  unfold Function.comp readLine
  rw [Rust.fromUtf8_eq_some.mpr (show bytesOf (String.ofList piece) = _ from rfl)]
  dsimp only
  rw [String.toList_ofList]

/-! ### What is outstanding -/

section Outstanding

variable {codec : Codec}

/-- Whether none of these lines is the one that is asked for; blank lines are not looked at. -/
def Unmet (codec : Codec) (lines : List String) (entry : Hash × Nat) : Bool :=
  lines.all fun line => (Rust.trim line).isEmpty || decide (entry.1 ≠ codec.hashPayload line)

theorem filter_unmet_nil (outstanding : Outstanding) :
    outstanding.filter (Unmet codec []) = outstanding := by
  rw [List.filter_eq_self]
  intro entry _
  rfl

theorem filter_unmet_append (first second : List String) (outstanding : Outstanding) :
    outstanding.filter (Unmet codec (first ++ second)) =
      (outstanding.filter (Unmet codec first)).filter (Unmet codec second) := by
  rw [List.filter_filter]
  apply List.filter_congr
  intro entry _
  unfold Unmet
  rw [List.all_append, Bool.and_comm]

theorem filter_unmet_blank {line : String} (h : (Rust.trim line).isEmpty = true) (lines : List String)
    (outstanding : Outstanding) :
    outstanding.filter (Unmet codec (line :: lines)) = outstanding.filter (Unmet codec lines) := by
  apply List.filter_congr
  intro entry _
  unfold Unmet
  rw [List.all_cons, h, Bool.true_or, Bool.true_and]

theorem filter_unmet_line {line : String} (h : ¬(Rust.trim line).isEmpty = true)
    (lines : List String) (outstanding : Outstanding) :
    outstanding.filter (Unmet codec (line :: lines)) =
      (outstanding.filter (·.1 ≠ codec.hashPayload line)).filter (Unmet codec lines) := by
  rw [List.filter_filter]
  apply List.filter_congr
  intro entry _
  unfold Unmet
  rw [Bool.not_eq_true] at h
  rw [List.all_cons, h, Bool.false_or, Bool.and_comm]

/-- The loop over the lines leaves what no line was; ending early leaves nothing either way. -/
theorem coverLines_eq (lines : List String) (outstanding : Outstanding) (count : Nat) :
    ∃ count', coverLines codec (lines.map .ok) (outstanding, count) =
      .ok (outstanding.filter (Unmet codec lines), count') := by
  induction lines generalizing outstanding count with
  | nil =>
      refine ⟨count, ?_⟩
      rw [filter_unmet_nil]
      rfl
  | cons line lines ih =>
      rw [List.map_cons]
      unfold coverLines
      split
      · rename_i hblank
        rw [filter_unmet_blank hblank]
        exact ih outstanding count
      · rename_i hline
        rw [filter_unmet_line hline]
        dsimp only
        split
        · rename_i hempty
          rw [List.isEmpty_iff] at hempty
          refine ⟨count + 1, ?_⟩
          rw [hempty]
          rfl
        · exact ih _ (count + 1)

theorem foldlM_coverLines {read : SetFile → Except String (List UInt8)} {files : List SetFile}
    {texts : List String}
    (hread : List.Forall₂ (fun file text => read file = .ok (bytesOf text)) files texts)
    (outstanding : Outstanding) (count : Nat) :
    ∃ count', files.foldlM (fun state file => do
        let bytes ← read file
        coverLines codec (archiveLines bytes) state) (outstanding, count) =
      .ok (outstanding.filter (Unmet codec (texts.flatMap Rust.lines)), count') := by
  induction hread generalizing outstanding count with
  | nil =>
      refine ⟨count, ?_⟩
      rw [List.flatMap_nil, filter_unmet_nil]
      rfl
  | @cons file text files texts hfile _ ih =>
      obtain ⟨mid, hmid⟩ := @coverLines_eq codec (Rust.lines text) outstanding count
      obtain ⟨count', hrest⟩ := ih (outstanding.filter (Unmet codec (Rust.lines text))) mid
      refine ⟨count', ?_⟩
      rw [List.foldlM_cons, hfile]
      simp only [bind, Except.bind] at hrest ⊢
      rw [archiveLines_bytesOf, hmid, List.flatMap_cons, filter_unmet_append]
      exact hrest

/-- Records of which no two have the same hash are all outstanding at first. -/
theorem outstandingOf_eq {wanted : List StoredRecord}
    (hnodup : (wanted.map fun record => codec.hashPayload record.payload).Nodup) :
    outstandingOf codec wanted =
      wanted.map fun record => (codec.hashPayload record.payload, record.seq) := by
  have hfold : ∀ (more : List StoredRecord) (outstanding : Outstanding),
      (outstanding.map (·.1) ++ more.map fun record => codec.hashPayload record.payload).Nodup →
      more.foldl (fun outstanding record =>
        let hash := codec.hashPayload record.payload
        outstanding.filter (·.1 ≠ hash) ++ [(hash, record.seq)]) outstanding =
      outstanding ++ more.map fun record => (codec.hashPayload record.payload, record.seq) := by
    intro more
    induction more with
    | nil =>
        intro outstanding _
        rw [List.map_nil, List.append_nil]
        rfl
    | cons record more ih =>
        intro outstanding hnodup
        have hkept : outstanding.filter (·.1 ≠ codec.hashPayload record.payload) = outstanding := by
          rw [List.filter_eq_self]
          intro entry hentry
          rw [decide_eq_true_eq]
          intro heq
          apply List.disjoint_of_nodup_append hnodup (List.mem_map_of_mem hentry)
          rw [heq]
          exact List.mem_cons_self
        rw [List.foldl_cons]
        dsimp only
        rw [hkept, ih, List.map_cons, List.append_assoc, List.singleton_append]
        rw [List.map_append, List.map_singleton, List.append_assoc, List.singleton_append]
        exact hnodup
  have hall := hfold wanted [] hnodup
  rw [List.nil_append] at hall
  exact hall

end Outstanding

/-! ### Coverage -/

/-- What the reader of archives relies on `serde_json` for: whitespace is no document. -/
def Codec.RejectsBlank (codec : Codec) : Prop :=
  ∀ text, (Rust.trim text).isEmpty = true → ∃ error, codec.headerFromStr text = .error error

/-- The text is a line of one of the files. -/
def InArchive (read : SetFile → Except String (List UInt8)) (files : List SetFile) (line : String) :
    Prop :=
  ∃ file ∈ files, ∃ text, read file = .ok (bytesOf text) ∧ line ∈ Rust.lines text

theorem exists_texts {read : SetFile → Except String (List UInt8)} {files : List SetFile}
    (h : ∀ file ∈ files, ∃ text, read file = .ok (bytesOf text)) :
    ∃ texts, List.Forall₂ (fun file text => read file = .ok (bytesOf text)) files texts := by
  induction files with
  | nil => exact ⟨[], .nil⟩
  | cons file files ih =>
      obtain ⟨text, htext⟩ := h file List.mem_cons_self
      obtain ⟨texts, htexts⟩ := ih fun other hother => h other (List.mem_cons_of_mem file hother)
      exact ⟨text :: texts, .cons htext htexts⟩

theorem inArchive_iff {read : SetFile → Except String (List UInt8)} {files : List SetFile}
    {texts : List String}
    (hread : List.Forall₂ (fun file text => read file = .ok (bytesOf text)) files texts)
    (line : String) : InArchive read files line ↔ line ∈ texts.flatMap Rust.lines := by
  induction hread with
  | nil => simp [InArchive]
  | @cons file text files texts hfile _ ih =>
      rw [List.flatMap_cons, List.mem_append, ← ih]
      unfold InArchive
      rw [List.exists_mem_cons_iff]
      apply or_congr_left
      constructor
      · rintro ⟨text', htext', hline⟩
        rw [hfile, Except.ok.injEq] at htext'
        rw [bytesOf_injective htext']
        exact hline
      · intro hline
        exact ⟨text, hfile, hline⟩

/-- The texts whose hashes are compared. -/
def Compared (read : SetFile → Except String (List UInt8)) (files : List SetFile)
    (wanted : List StoredRecord) : Set String :=
  {text | (∃ record ∈ wanted, record.payload = text) ∨ InArchive read files text}

section Exact

variable {codec : Codec} {read : SetFile → Except String (List UInt8)} {files : List SetFile}
  {wanted : List StoredRecord} {start : Start} {verified : Verified}

/-- The records of a verified run have different numbers. -/
theorem seq_pairwise (hlength : wanted.length < 2 ^ 63)
    (hverified : codec.verifyFrom start wanted = .ok verified) :
    wanted.Pairwise fun left right => left.seq ≠ right.seq := by
  obtain ⟨hcounts, -, -⟩ := Codec.verifyFrom_eq_ok hverified
  rw [List.pairwise_iff_getElem]
  intro i j hi hj hlt heq
  have hleft := hcounts i wanted[i] (List.getElem?_eq_getElem hi)
  have hright := hcounts j wanted[j] (List.getElem?_eq_getElem hj)
  have hfirst := Codec.firstSeq_lt start
  omega

/-- And so they have different payloads. -/
theorem payload_pairwise (hlength : wanted.length < 2 ^ 63)
    (hverified : codec.verifyFrom start wanted = .ok verified) :
    wanted.Pairwise fun left right => left.payload ≠ right.payload := by
  obtain ⟨-, -, hconsistent⟩ := Codec.verifyFrom_eq_ok hverified
  refine (seq_pairwise hlength hverified).imp_of_mem ?_
  intro left right hleft hright hseq hpayload
  obtain ⟨header, hheader, hleftSeq⟩ := (hconsistent left hleft).1
  obtain ⟨header', hheader', hrightSeq⟩ := (hconsistent right hright).1
  rw [hpayload, hheader', Except.ok.injEq] at hheader
  rw [← hleftSeq, ← hrightSeq, hheader] at hseq
  exact hseq rfl

theorem hashes_nodup (hlength : wanted.length < 2 ^ 63)
    (hverified : codec.verifyFrom start wanted = .ok verified)
    (hinj : Set.InjOn codec.hashPayload (Compared read files wanted)) :
    (wanted.map fun record => codec.hashPayload record.payload).Nodup := by
  rw [List.Nodup, List.pairwise_map]
  refine (payload_pairwise hlength hverified).imp_of_mem ?_
  intro left right hleft hright hpayload hhash
  exact hpayload (hinj (.inl ⟨left, hleft, rfl⟩) (.inl ⟨right, hright, rfl⟩) hhash)

/-- What is outstanding at the end is what no line equals. -/
theorem unmet_iff (hcodec : codec.RejectsBlank)
    (hverified : codec.verifyFrom start wanted = .ok verified)
    (hinj : Set.InjOn codec.hashPayload (Compared read files wanted)) {texts : List String}
    (hread : List.Forall₂ (fun file text => read file = .ok (bytesOf text)) files texts)
    {record : StoredRecord} (hrecord : record ∈ wanted) :
    Unmet codec (texts.flatMap Rust.lines) (codec.hashPayload record.payload, record.seq) = true ↔
      ¬InArchive read files record.payload := by
  obtain ⟨-, -, hconsistent⟩ := Codec.verifyFrom_eq_ok hverified
  obtain ⟨header, hheader, -⟩ := (hconsistent record hrecord).1
  unfold Unmet
  rw [List.all_eq_true]
  constructor
  · intro hall hmem
    have hline := hall record.payload ((inArchive_iff hread _).mp hmem)
    rw [Bool.or_eq_true, decide_eq_true_eq] at hline
    rcases hline with hblank | hne
    · obtain ⟨error, herror⟩ := hcodec record.payload hblank
      rw [hheader] at herror
      cases herror
    · exact hne rfl
  · intro hnot line hline
    rw [Bool.or_eq_true, decide_eq_true_eq]
    right
    intro hhash
    have hmem := (inArchive_iff hread line).mpr hline
    apply hnot
    rw [hinj (.inl ⟨record, hrecord, rfl⟩) (.inr hmem) hhash]
    exact hmem

/-- What is outstanding at the end, as a coverage. -/
theorem coverageOf_eq (hcodec : codec.RejectsBlank) (hlength : wanted.length < 2 ^ 63)
    (hverified : codec.verifyFrom start wanted = .ok verified)
    (hinj : Set.InjOn codec.hashPayload (Compared read files wanted)) {texts : List String}
    (hread : List.Forall₂ (fun file text => read file = .ok (bytesOf text)) files texts) :
    ∃ (coverage : Coverage) (unmet : List StoredRecord),
      coverageOf codec read files wanted = .ok coverage ∧
      coverage.missing = (unmet.map (·.seq)).mergeSort (fun left right => decide (left ≤ right)) ∧
      unmet.Sublist wanted ∧
      ∀ record, record ∈ unmet ↔ record ∈ wanted ∧ ¬InArchive read files record.payload := by
  have hnodup := hashes_nodup hlength hverified hinj
  obtain ⟨count, hloop⟩ := @foldlM_coverLines codec _ _ _ hread (outstandingOf codec wanted) 0
  have hunmet : ((outstandingOf codec wanted).filter
      (Unmet codec (texts.flatMap Rust.lines))).map (·.2) =
      (wanted.filter fun record => Unmet codec (texts.flatMap Rust.lines)
        (codec.hashPayload record.payload, record.seq)).map (·.seq) := by
    rw [outstandingOf_eq hnodup, List.filter_map, List.map_map]
    rfl
  unfold coverageOf
  dsimp only
  simp only [bind, Except.bind] at hloop ⊢
  rw [hloop]
  dsimp only
  rw [hunmet]
  refine ⟨_, _, rfl, rfl, List.filter_sublist, ?_⟩
  intro record
  rw [List.mem_filter]
  apply and_congr_right
  intro hrecord
  exact unmet_iff hcodec hverified hinj hread hrecord

/-- Coverage names, in ascending order, exactly the records that are no line of any file. -/
theorem coverageOf_exact (hcodec : codec.RejectsBlank) (hlength : wanted.length < 2 ^ 63)
    (hverified : codec.verifyFrom start wanted = .ok verified)
    (hinj : Set.InjOn codec.hashPayload (Compared read files wanted))
    (hread : ∀ file ∈ files, ∃ text, read file = .ok (bytesOf text)) :
    ∃ coverage, coverageOf codec read files wanted = .ok coverage ∧
      (coverage.isComplete = true ↔ ∀ record ∈ wanted, InArchive read files record.payload) ∧
      coverage.missing.Pairwise (· < ·) ∧
      ∀ seq, seq ∈ coverage.missing ↔
        ∃ record ∈ wanted, record.seq = seq ∧ ¬InArchive read files record.payload := by
  obtain ⟨texts, htexts⟩ := exists_texts hread
  obtain ⟨coverage, unmet, hcoverage, hmissing, hsub, hunmet⟩ :=
    coverageOf_eq hcodec hlength hverified hinj htexts
  have hmem : ∀ seq, seq ∈ coverage.missing ↔
      ∃ record ∈ wanted, record.seq = seq ∧ ¬InArchive read files record.payload := by
    intro seq
    rw [hmissing, List.mem_mergeSort, List.mem_map]
    constructor
    · rintro ⟨record, hrecord, rfl⟩
      obtain ⟨hwanted, hnot⟩ := (hunmet record).mp hrecord
      exact ⟨record, hwanted, rfl, hnot⟩
    · rintro ⟨record, hwanted, rfl, hnot⟩
      exact ⟨record, (hunmet record).mpr ⟨hwanted, hnot⟩, rfl⟩
  refine ⟨coverage, hcoverage, ?_, ?_, hmem⟩
  · unfold Coverage.isComplete
    rw [List.isEmpty_iff, List.eq_nil_iff_forall_not_mem]
    constructor
    · intro hnone record hrecord
      by_contra hnot
      exact hnone record.seq ((hmem _).mpr ⟨record, hrecord, rfl, hnot⟩)
    · intro hall seq hseq
      obtain ⟨record, hrecord, -, hnot⟩ := (hmem seq).mp hseq
      exact hnot (hall record hrecord)
  · have hsorted : coverage.missing.Pairwise (· ≤ ·) := by
      rw [hmissing]
      refine (List.pairwise_mergeSort ?_ ?_ _).imp ?_
      · intro a b c hab hbc
        rw [decide_eq_true_eq] at hab hbc ⊢
        exact le_trans hab hbc
      · intro a b
        rw [Bool.or_eq_true, decide_eq_true_eq, decide_eq_true_eq]
        exact le_total a b
      · intro a b hab
        exact of_decide_eq_true hab
    have hdistinct : coverage.missing.Nodup := by
      rw [hmissing, (List.mergeSort_perm _ _).nodup_iff, List.Nodup, List.pairwise_map]
      exact (seq_pairwise hlength hverified).sublist hsub
    exact hsorted.imp₂ (fun a b hle hne => lt_of_le_of_ne hle hne) hdistinct

end Exact

end Ciphr
