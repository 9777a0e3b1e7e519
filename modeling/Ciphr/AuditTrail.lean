import Ciphr.AuditIssued

/-!
The table of a trail while the service appends to it, restarts, and somebody cuts it. What the table
has ever held is one chain from its beginning; the table holds an end of it, and the record of the
last cut says where that end begins and which hash it continues.
-/

namespace Ciphr

open SqliteAuditDevice (rowOf columnSeq)

/-! ### Tables that hold an end of a chain -/

/-- The records are a chain from its beginning, the first `k` of them were cut off, and the table that
records cuts says so. -/
structure Database.TrailOf (codec : Codec) (db : Database) (records : List EncodedRecord)
    (k : Nat) : Prop where
  continues : Chain.new.Continues codec records
  fits : records.length < 2 ^ 63
  log : db.auditLog = (records.drop k).map rowOf
  live : k < records.length ∨ k = 0 ∧ records = []
  uncut : k = 0 → db.auditCut.bind (·.getLast?) = none
  cut : ∀ last, 0 < k → records[k - 1]? = some last →
    ∃ row, db.auditCut.bind (·.getLast?) = some row ∧ row.seq = k ∧
      row.hash = Hex.encode last.hash.toList ∧ 0 ≤ row.removed
  increasing : ∀ cuts, db.auditCut = some cuts → cuts.Pairwise (·.seq < ·.seq)

namespace Database

variable {codec : Codec} {db : Database} {records : List EncodedRecord} {k : Nat}

theorem rowOf_seq {record : EncodedRecord} (h : record.seq < 2 ^ 63) :
    (rowOf record).seq = record.seq :=
  AuditLife.columnSeq_of_lt h

/-- The rows of a chain stand in the order of their numbers. -/
theorem pairwise_rows {chain : Chain} (h : chain.Continued records)
    (hfits : ∀ record ∈ records, record.seq < 2 ^ 63) :
    (records.map rowOf).Pairwise (·.seq < ·.seq) := by
  rw [List.pairwise_map, List.pairwise_iff_getElem]
  intro i j hi hj hij
  have hrow := h.seq (List.getElem?_eq_getElem hi)
  have hrow' := h.seq (List.getElem?_eq_getElem hj)
  rw [rowOf_seq (hfits _ (List.getElem_mem hi)), rowOf_seq (hfits _ (List.getElem_mem hj))]
  omega

theorem decodeRow_rowOf {record : EncodedRecord} (h : record.seq < 2 ^ 63) :
    decodeRow (rowOf record) = .ok ⟨record.seq, record.hash, record.payload⟩ := by
  have hhash : decodeHash (rowOf record).hash = .ok record.hash := decodeHash_encode record.hash
  unfold decodeRow
  rw [rowOf_seq h, if_pos (Int.natCast_nonneg _), Int.toNat_natCast, hhash]
  rfl

/-- What verification reads of rows that are those of records. -/
theorem mapM_decodeRow (hfits : ∀ record ∈ records, record.seq < 2 ^ 63) :
    (records.map rowOf).mapM decodeRow =
      .ok (records.map fun record => ⟨record.seq, record.hash, record.payload⟩) := by
  rw [Loop.mapM_eq_ok_iff, List.forall₂_map_left_iff, List.forall₂_map_right_iff,
    List.forall₂_same]
  intro record hmem
  exact decodeRow_rowOf (hfits record hmem)

theorem copies_of_rows (records : List EncodedRecord) :
    List.Forall₂ StoredRecord.CopyOf records
      ((records.map fun record => (⟨record.seq, record.hash, record.payload⟩ : Row)).map
        Row.asStored) := by
  rw [List.forall₂_map_right_iff, List.forall₂_map_right_iff, List.forall₂_same]
  intro record _
  exact ⟨rfl, rfl, fun hash h => (Option.some.inj h).symm⟩

namespace TrailOf

variable (h : TrailOf codec db records k)
include h

theorem seq {i : Nat} {record : EncodedRecord} (hi : records[i]? = some record) :
    record.seq = i + 1 := by
  rw [h.continues.continued.seq hi, Nat.add_comm]
  rfl

theorem seq_lt {record : EncodedRecord} (hmem : record ∈ records) : record.seq < 2 ^ 63 := by
  obtain ⟨i, hi⟩ := List.mem_iff_getElem?.mp hmem
  have hlt := (List.getElem?_eq_some_iff.mp hi).1
  have hseq := h.seq hi
  have hfits := h.fits
  omega

theorem seq_lt_of_mem_drop {record : EncodedRecord} (hmem : record ∈ records.drop k) :
    record.seq < 2 ^ 63 :=
  h.seq_lt (List.mem_of_mem_drop hmem)

theorem le_length : k ≤ records.length := by
  rcases h.live with hlt | ⟨hk, -⟩
  · exact hlt.le
  · omega

/-- What remains continues the chain of what was cut off. -/
theorem continues_drop :
    (Chain.new.after (records.take k)).Continues codec (records.drop k) := by
  have hall := h.continues.continued
  rw [← List.take_append_drop k records, Chain.continued_append] at hall
  exact ⟨hall.2, fun record hmem => h.continues.wellEncoded record (List.mem_of_mem_drop hmem)⟩

theorem orderedRows : db.orderedRows = (records.drop k).map rowOf := by
  unfold Database.orderedRows
  rw [h.log]
  apply List.Pairwise.insertionSort_eq
  exact (pairwise_rows h.continues_drop.continued fun record hmem => h.seq_lt_of_mem_drop hmem).imp
    fun hlt => le_of_lt hlt

theorem records_eq : db.records =
    .ok ((records.drop k).map fun record => ⟨record.seq, record.hash, record.payload⟩) := by
  unfold Database.records
  rw [h.orderedRows]
  exact mapM_decodeRow fun record hmem => h.seq_lt_of_mem_drop hmem

theorem latestCutOf_zero (hk : k = 0) : db.latestCutOf = .ok none := by
  unfold Database.latestCutOf
  rw [h.uncut hk]

/-- The recorded cut is that of the last record that was cut off. -/
theorem latestCutOf_pos {last : EncodedRecord} (hk : 0 < k) (hlast : records[k - 1]? = some last) :
    ∃ cut, db.latestCutOf = .ok (some cut) ∧ cut.seq = k ∧ cut.hash = last.hash := by
  obtain ⟨row, hrow, hseq, hhash, hremoved⟩ := h.cut last hk hlast
  have hcount : decodeCount row.seq = .ok k := by
    rw [hseq, decodeCount, if_pos (Int.natCast_nonneg _), Int.toNat_natCast]
  have hremovedCount : decodeCount row.removed = .ok row.removed.toNat := by
    rw [decodeCount, if_pos hremoved]
  unfold Database.latestCutOf
  rw [hrow]
  dsimp only
  rw [hcount, hhash, decodeHash_encode, hremovedCount]
  exact ⟨_, rfl, rfl, rfl⟩

theorem exists_last (hk : 0 < k) : ∃ last, records[k - 1]? = some last := by
  have hle := h.le_length
  exact ⟨_, List.getElem?_eq_getElem (by omega)⟩

/-- The verification begins where the cut has left the chain. -/
theorem startOf_eq :
    ∃ start, db.startOf = .ok start ∧ start.chain = Chain.new.after (records.take k) := by
  unfold Database.startOf
  rcases Nat.eq_zero_or_pos k with hk | hk
  · rw [h.latestCutOf_zero hk, hk]
    exact ⟨.genesis, rfl, rfl⟩
  · obtain ⟨last, hlast⟩ := h.exists_last hk
    obtain ⟨cut, hcut, hseq, hhash⟩ := h.latestCutOf_pos hk hlast
    rw [hcut]
    refine ⟨cut.asStart, rfl, ?_⟩
    have htake : records.take k = records.take (k - 1) ++ [last] := by
      have hsucc : k - 1 + 1 = k := by omega
      rw [← hsucc, List.take_add_one, hlast, Option.toList_some, hsucc]
    have hlastSeq := h.seq hlast
    rw [htake, Chain.after_concat, hlastSeq, ← hhash]
    have hsucc : k - 1 + 1 = cut.seq := by omega
    rw [hsucc]
    rfl

/-- The first rows verify from the recorded cut. -/
theorem verifyFrom_take {start : Start} (hstart : start.chain = Chain.new.after (records.take k))
    (n : Nat) :
    ∃ verified, codec.verifyFrom start ((((records.drop k).take n).map fun record =>
        (⟨record.seq, record.hash, record.payload⟩ : Row)).map Row.asStored) = .ok verified := by
  have hle := h.le_length
  have hfits := h.fits
  have hchain : (Chain.new.after (records.take k)).nextSeq = k + 1 := by
    have hall := h.continues.continued
    rw [← List.take_append_drop k records, Chain.continued_append] at hall
    rw [hall.1.after_nextSeq, List.length_take, Nat.min_eq_left hle, Nat.add_comm]
    rfl
  have hcontinues : start.chain.Continues codec ((records.drop k).take n) :=
    hstart ▸ h.continues_drop.take n
  have hroom : start.chain.nextSeq + ((records.drop k).take n).length < 2 ^ 64 := by
    rw [hstart, hchain, List.length_take, List.length_drop]
    omega
  obtain ⟨verified, hverified, -⟩ :=
    Codec.verifyFrom_continues (copies_of_rows ((records.drop k).take n)) hcontinues hroom
  exact ⟨verified, hverified⟩

/-- The rows verify from the recorded cut, to the head of the chain. -/
theorem verifyFrom {start : Start} (hstart : start.chain = Chain.new.after (records.take k)) :
    ∃ verified, codec.verifyFrom start (((records.drop k).map fun record =>
        (⟨record.seq, record.hash, record.payload⟩ : Row)).map Row.asStored) = .ok verified := by
  have hall := h.verifyFrom_take hstart (records.drop k).length
  rwa [List.take_length] at hall

theorem latestRow {last : EncodedRecord} (hlast : records.getLast? = some last) :
    Database.latestRow db.auditLog = some (rowOf last) := by
  have hlive : k < records.length := by
    rcases h.live with hlt | ⟨-, hnil⟩
    · exact hlt
    · rw [hnil] at hlast
      cases hlast
  have hmem : last ∈ records.drop k := by
    have hdrop : (records.drop k).getLast? = some last := by
      rw [List.getLast?_drop, if_neg (by omega), hlast]
    exact List.mem_of_getLast? hdrop
  refine Database.latestRow_eq ?_ ?_
  · rw [h.log]
    exact List.mem_map_of_mem hmem
  · rw [h.log]
    intro row hrow
    obtain ⟨record, hrecord, rfl⟩ := List.mem_map.mp hrow
    have hin := List.mem_of_mem_drop hrecord
    have hle := h.continues.continued.seq_le_last hin hlast
    rw [rowOf_seq (h.seq_lt hin), rowOf_seq (h.seq_lt_of_mem_drop hmem)]
    refine ⟨by omega, ?_⟩
    intro hseq
    rw [h.continues.continued.eq_of_seq_eq hin (List.mem_of_mem_drop hmem) (by omega)]

theorem headOf_eq {last : EncodedRecord} (hlast : records.getLast? = some last) :
    db.headOf = .ok (some (last.seq, last.hash)) := by
  have hseq := h.seq_lt (List.mem_of_getLast? hlast)
  have hcount : decodeCount (rowOf last).seq = .ok last.seq := by
    rw [rowOf_seq hseq, decodeCount, if_pos (Int.natCast_nonneg _), Int.toNat_natCast]
  unfold Database.headOf
  rw [h.latestRow hlast]
  dsimp only
  rw [hcount, show decodeHash (rowOf last).hash = .ok last.hash from decodeHash_encode last.hash]
  rfl

/-- A restart continues the chain of everything that the table has held. -/
theorem chainToContinue_eq : db.chainToContinue = .ok (Chain.new.after records) := by
  unfold Database.chainToContinue
  rcases List.eq_nil_or_concat' records with hnil | ⟨front, last, hconcat⟩
  · have hk : k = 0 := by
      have hle := h.le_length
      rw [hnil, List.length_nil] at hle
      omega
    have hhead : db.headOf = .ok none := by
      unfold Database.headOf
      rw [h.log, hnil, List.drop_nil]
      rfl
    rw [hhead, h.latestCutOf_zero hk, hnil]
    rfl
  · have hlast : records.getLast? = some last := by rw [hconcat, List.getLast?_concat]
    have hafter : Chain.new.after records = .resume last.seq last.hash := by
      rw [hconcat, Chain.after_concat]
    rw [h.headOf_eq hlast, hafter]
    rcases Nat.eq_zero_or_pos k with hk | hk
    · rw [h.latestCutOf_zero hk]
      rfl
    · obtain ⟨gone, hgone⟩ := h.exists_last hk
      obtain ⟨cut, hcut, hseq, -⟩ := h.latestCutOf_pos hk hgone
      have hlive : k < records.length := by
        rcases h.live with hlt | ⟨hzero, -⟩
        · exact hlt
        · omega
      have hlastSeq : last.seq = records.length := by
        rw [List.getLast?_eq_getElem?] at hlast
        rw [h.seq hlast]
        omega
      rw [hcut]
      simp only [bind, Except.bind]
      rw [if_neg (by omega)]

end TrailOf

/-! ### What a cut and an append do to it -/

/-- What a cut that is performed has found, and what it makes of the tables. -/
structure Cuts (db : Database) (throughSeq : Nat) (throughHash : Hash) (cut : AuditCut) : Prop where
  seq : cut.seq = throughSeq
  hash : cut.hash = throughHash
  table : db.auditCut.isSome = true
  through : ∃ row, db.auditLog.find? (·.seq == (throughSeq : Int)) = some row ∧
    decodeHash row.hash = .ok throughHash
  remaining : (db.auditLog.filter fun row => (throughSeq : Int) < row.seq) ≠ []
  forwards : ∀ previous, db.latestCutOf = .ok (some previous) → previous.seq < throughSeq

theorem cuts_of_cutTransaction {throughSeq : Nat} {throughHash : Hash} {nowMillis : Int}
    {anchor : Option String} {fault : Nat → Option String} {cut : AuditCut}
    (h : db.cutTransaction throughSeq throughHash nowMillis anchor fault = .ok cut) :
    db.Cuts throughSeq throughHash cut := by
  unfold cutTransaction at h
  split at h
  · cases h
  · obtain ⟨-, -, h⟩ := Loop.bind_eq_ok h
    obtain ⟨⟨⟩, htable, h⟩ := Loop.bind_eq_ok h
    obtain ⟨-, -, h⟩ := Loop.bind_eq_ok h
    obtain ⟨-, -, h⟩ := Loop.bind_eq_ok h
    obtain ⟨⟨⟩, hthrough, h⟩ := Loop.bind_eq_ok h
    obtain ⟨-, -, h⟩ := Loop.bind_eq_ok h
    obtain ⟨⟨⟩, hremaining, h⟩ := Loop.bind_eq_ok h
    obtain ⟨-, -, h⟩ := Loop.bind_eq_ok h
    obtain ⟨previous, hprevious, h⟩ := Loop.bind_eq_ok h
    obtain ⟨⟨⟩, hforwards, h⟩ := Loop.bind_eq_ok h
    obtain ⟨-, -, h⟩ := Loop.bind_eq_ok h
    obtain ⟨-, -, h⟩ := Loop.bind_eq_ok h
    obtain ⟨-, -, h⟩ := Loop.bind_eq_ok h
    cases h
    refine ⟨rfl, rfl, ?_, ?_, ?_, ?_⟩
    · unfold requireCutTable at htable
      split at htable
      · assumption
      · cases htable
    · unfold checkThrough at hthrough
      split at hthrough
      · cases hthrough
      · rename_i row hrow
        obtain ⟨stored, hstored, hsame⟩ := Loop.bind_eq_ok hthrough
        split at hsame
        · cases hsame
        · rename_i heq
          exact ⟨row, hrow, not_not.mp heq ▸ hstored⟩
    · unfold checkRemaining at hremaining
      split at hremaining
      · cases hremaining
      · rename_i hlength
        intro hnil
        rw [hnil] at hlength
        exact hlength rfl
    · intro other hother
      rw [hprevious, Except.ok.injEq] at hother
      rw [hother] at hforwards
      unfold checkPrevious at hforwards
      dsimp only at hforwards
      split at hforwards
      · cases hforwards
      · omega

/-- A cut is refused and leaves the tables alone, or it is performed. -/
theorem cut_cases (db : Database) (throughSeq : Nat) (throughHash : Hash) (nowMillis : Int)
    (anchor : Option String) (fault : Nat → Option String) :
    (∃ error, db.cut throughSeq throughHash nowMillis anchor fault = (db, .error error)) ∨
      ∃ cut, db.Cuts throughSeq throughHash cut ∧
        db.cut throughSeq throughHash nowMillis anchor fault = (db.afterCut cut, .ok cut) := by
  unfold Database.cut
  cases hcut : db.cutTransaction throughSeq throughHash nowMillis anchor fault with
  | error error => exact .inl ⟨error, rfl⟩
  | ok cut => exact .inr ⟨cut, cuts_of_cutTransaction hcut, rfl⟩

namespace TrailOf

theorem filter_log {throughSeq : Nat} {cut : AuditCut} (h : TrailOf codec db records k)
    (hk : k ≤ throughSeq) (hseq : cut.seq = throughSeq) :
    (db.afterCut cut).auditLog = (records.drop throughSeq).map rowOf := by
  unfold Database.afterCut
  dsimp only
  rw [h.log, List.filter_map, hseq]
  congr 1
  -- the records up to the cut, and those past it
  have hsplit : records.drop k = (records.drop k).take (throughSeq - k) ++ records.drop throughSeq := by
    have hrest : records.drop throughSeq = (records.drop k).drop (throughSeq - k) := by
      rw [List.drop_drop, Nat.add_sub_cancel' hk]
    rw [hrest]
    exact (List.take_append_drop _ _).symm
  have hbefore : ∀ record ∈ (records.drop k).take (throughSeq - k), record.seq ≤ throughSeq := by
    intro record hmem
    obtain ⟨i, hi⟩ := List.mem_iff_getElem?.mp hmem
    have hlt := (List.getElem?_eq_some_iff.mp hi).1
    rw [List.length_take] at hlt
    rw [List.getElem?_take, if_pos (by omega), List.getElem?_drop] at hi
    have hrecord := h.seq hi
    omega
  have hpast : ∀ record ∈ records.drop throughSeq, throughSeq < record.seq := by
    intro record hmem
    obtain ⟨i, hi⟩ := List.mem_iff_getElem?.mp hmem
    rw [List.getElem?_drop] at hi
    have hrecord := h.seq hi
    omega
  rw [hsplit, List.filter_append, List.filter_eq_nil_iff.mpr ?_, List.filter_eq_self.mpr ?_,
    List.nil_append]
  · intro record hmem
    have hlt := hpast record hmem
    have hfits := h.seq_lt (List.mem_of_mem_drop hmem)
    simp only [Function.comp_apply, rowOf_seq hfits, decide_eq_true_eq]
    omega
  · intro record hmem
    have hle := hbefore record hmem
    have hfits := h.seq_lt_of_mem_drop (List.mem_of_mem_take hmem)
    simp only [Function.comp_apply, rowOf_seq hfits, decide_eq_true_eq]
    omega

theorem cut_le {cuts : List AuditCutRow} {row : AuditCutRow} (h : TrailOf codec db records k)
    (hcuts : db.auditCut = some cuts) (hmem : row ∈ cuts) : row.seq ≤ k := by
  obtain ⟨front, last, rfl⟩ := (List.eq_nil_or_concat' cuts).resolve_left (List.ne_nil_of_mem hmem)
  have hlatest : db.auditCut.bind (·.getLast?) = some last := by
    rw [hcuts, Option.bind_some, List.getLast?_concat]
  have hlast : last.seq = k := by
    rcases Nat.eq_zero_or_pos k with hk | hk
    · rw [h.uncut hk] at hlatest
      cases hlatest
    · obtain ⟨gone, hgone⟩ := h.exists_last hk
      obtain ⟨found, hfound, hseq, -⟩ := h.cut gone hk hgone
      rw [hlatest, Option.some.injEq] at hfound
      rw [hfound, hseq]
  rcases List.mem_append.mp hmem with hfront | hnew
  · have hlt := (List.pairwise_append.mp (h.increasing _ hcuts)).2.2 row hfront last (by simp)
    omega
  · rw [List.mem_singleton.mp hnew, hlast]

/-- A cut takes the trail further on. -/
theorem afterCut {throughSeq : Nat} {throughHash : Hash} {cut : AuditCut}
    (h : TrailOf codec db records k) (hcut : db.Cuts throughSeq throughHash cut) :
    k < throughSeq ∧ TrailOf codec (db.afterCut cut) records throughSeq := by
  obtain ⟨row, hrow, hhash⟩ := hcut.through
  have hmem : row ∈ db.auditLog := List.mem_of_find?_eq_some hrow
  have hrowSeq : row.seq = throughSeq := by
    simpa using List.find?_some (p := fun row : AuditLogRow => row.seq == (throughSeq : Int)) hrow
  rw [h.log] at hmem
  obtain ⟨last, hlastMem, rfl⟩ := List.mem_map.mp hmem
  obtain ⟨i, hi⟩ := List.mem_iff_getElem?.mp hlastMem
  rw [List.getElem?_drop] at hi
  have hseq := h.seq hi
  have hlastSeq : last.seq = throughSeq := by
    rw [rowOf_seq (h.seq_lt_of_mem_drop hlastMem)] at hrowSeq
    omega
  have hkthrough : k < throughSeq := by omega
  have hlive : throughSeq < records.length := by
    obtain ⟨other, hother⟩ := List.exists_mem_of_ne_nil _ hcut.remaining
    obtain ⟨hother, hlt⟩ := List.mem_filter.mp hother
    rw [h.log] at hother
    obtain ⟨record, hrecord, rfl⟩ := List.mem_map.mp hother
    obtain ⟨j, hj⟩ := List.mem_iff_getElem?.mp (List.mem_of_mem_drop hrecord)
    have hjlt := (List.getElem?_eq_some_iff.mp hj).1
    have hjseq := h.seq hj
    rw [decide_eq_true_eq, rowOf_seq (h.seq_lt_of_mem_drop hrecord)] at hlt
    omega
  have hdecoded : last.hash = throughHash := by
    rw [show decodeHash (rowOf last).hash = .ok last.hash from decodeHash_encode last.hash,
      Except.ok.injEq] at hhash
    exact hhash
  have hlast : records[throughSeq - 1]? = some last := by
    have hindex : throughSeq - 1 = k + i := by omega
    rw [hindex]
    exact hi
  refine ⟨hkthrough, h.continues, h.fits, ?_, .inl hlive, ?_, ?_, ?_⟩
  · exact h.filter_log hkthrough.le hcut.seq
  · intro hzero
    omega
  · intro other _ hother
    rw [hlast, Option.some.injEq] at hother
    obtain ⟨cuts, hcuts⟩ := Option.isSome_iff_exists.mp hcut.table
    refine ⟨⟨cut.cutAt, cut.seq, Hex.encode cut.hash.toList, min cut.removed (2 ^ 63 - 1),
      cut.anchor⟩, ?_, ?_, ?_, ?_⟩
    · simp [Database.afterCut, hcuts]
    · simp [hcut.seq]
    · rw [hcut.hash, ← hdecoded, hother]
    · simp
  · intro cuts' hcuts'
    obtain ⟨cuts, hcuts⟩ := Option.isSome_iff_exists.mp hcut.table
    rw [Database.afterCut, hcuts, Option.map_some, Option.some.injEq] at hcuts'
    rw [← hcuts', List.pairwise_append]
    refine ⟨h.increasing cuts hcuts, List.pairwise_singleton _ _, ?_⟩
    intro earlier hearlier new hnew
    rw [List.mem_singleton.mp hnew]
    have hle := h.cut_le hcuts hearlier
    simp only [hcut.seq]
    omega

/-- The next record of the chain is appended. Its number is one that the column can hold: the last
number of the column is taken before a greater one is stored under it. -/
theorem append {record : EncodedRecord} (h : TrailOf codec db records k)
    (hnext : (Chain.new.after records).Next codec record)
    (hnew : ∀ row ∈ db.auditLog, row.seq ≠ (rowOf record).seq) :
    TrailOf codec { db with auditLog := db.auditLog ++ [rowOf record] } (records ++ [record]) k := by
  have hle := h.le_length
  have hlength : (records ++ [record]).length = records.length + 1 := by simp
  have hfits := h.fits
  have hroom : records.length + 1 < 2 ^ 63 := by
    by_contra hfull
    have hcount : records.length = 2 ^ 63 - 1 := by omega
    obtain ⟨last, hlast⟩ : ∃ last, records.getLast? = some last := by
      rcases List.eq_nil_or_concat' records with hnil | ⟨front, last, hconcat⟩
      · rw [hnil, List.length_nil] at hcount
        omega
      · exact ⟨last, by rw [hconcat, List.getLast?_concat]⟩
    have hrow := Database.mem_of_latestRow (h.latestRow hlast)
    have hlastSeq : last.seq = records.length := by
      rw [List.getLast?_eq_getElem?] at hlast
      rw [h.seq hlast]
      omega
    have hrecord : record.seq = records.length + 1 := by
      rw [hnext.seq, h.continues.continued.after_nextSeq, Nat.add_comm]
      rfl
    apply hnew (rowOf last) hrow
    rw [rowOf_seq (h.seq_lt (List.mem_of_getLast? hlast)), hlastSeq, hcount]
    change _ = columnSeq record.seq
    rw [columnSeq, if_neg (by omega)]
    rfl
  refine ⟨h.continues.concat hnext, by rw [hlength]; exact hroom, ?_, ?_, h.uncut, ?_, h.increasing⟩
  · rw [List.drop_append_of_le_length hle, List.map_append, ← h.log]
    rfl
  · rw [hlength]
    omega
  · intro last hk hlast
    rw [List.getElem?_append_left (by omega)] at hlast
    exact h.cut last hk hlast

end TrailOf

theorem trailOf_empty (hlog : db.auditLog = [])
    (hcut : db.auditCut = none ∨ db.auditCut = some []) : TrailOf codec db [] 0 := by
  have hnone : db.auditCut.bind (·.getLast?) = none := by
    rcases hcut with h | h
    · rw [h]
      rfl
    · rw [h]
      rfl
  refine ⟨Chain.continues_nil, by simp, by simpa using hlog, .inr ⟨rfl, rfl⟩, fun _ => hnone, ?_, ?_⟩
  · intro last hk
    omega
  · intro cuts hcuts
    rcases hcut with h | h
    · rw [h] at hcuts
      cases hcuts
    · rw [h] at hcuts
      cases hcuts
      exact .nil

end Database

/-! ### What one call of the service does to the table -/

def Device.isStore : Device → Bool
  | .sqlite _ => true
  | .file _ => false

/-- The device of the slot appends to the table, and is written to. -/
def Slot.Stores (slot : Slot Device) : Prop :=
  slot.device.isStore = true ∧ slot.quarantined = none

section Attempts

variable (record : EncodedRecord) (io : Nat → DeviceFault)

theorem Device.write_isStore (world : AuditWorld) (device : Device) (fault : DeviceFault) :
    (Device.write world device record fault).2.1.isStore = device.isStore := by
  cases device with
  | sqlite table => rfl
  | file log => rfl

theorem Device.write_db_of_ok (world : AuditWorld) {device : Device} {fault : DeviceFault}
    (hstore : device.isStore = true) (hok : (Device.write world device record fault).2.2 = .ok ()) :
    (Device.write world device record fault).1.db =
      { world.db with auditLog := world.db.auditLog ++ [rowOf record] } := by
  cases device with
  | file log => cases hstore
  | sqlite table =>
      change (SqliteAuditDevice.write world.db record fault.database).2 = .ok () at hok
      change (SqliteAuditDevice.write world.db record fault.database).1 = _
      unfold SqliteAuditDevice.write Database.insertAuditLog at hok ⊢
      cases hfault : fault.database with
      | some error =>
          rw [hfault] at hok
          cases hok
      | none =>
          rw [hfault] at hok
          dsimp only at hok ⊢
          split at hok
          · rename_i db' hinsert
            split at hinsert
            · cases hinsert
            · cases hinsert
              rfl
          · cases hok

theorem attemptAll_isStore (slots : List (Slot Device)) (n : Nat) (world : AuditWorld) {i : Nat}
    {attempt : Attempt Device} {slot : Slot Device} (hslot : slots[i]? = some slot)
    (hattempt : (attemptAll record io n world slots).2[i]? = some attempt) :
    attempt.slot.device.isStore = slot.device.isStore := by
  induction slots generalizing n world i with
  | nil => cases hslot
  | cons first slots ih =>
      unfold attemptAll at hattempt
      split at hattempt
      · cases i with
        | zero =>
            cases hslot
            cases hattempt
            rfl
        | succ i => exact ih (n + 1) world hslot hattempt
      · cases i with
        | zero =>
            rw [List.getElem?_cons_zero, Option.some.injEq] at hslot hattempt
            rw [← hattempt, ← hslot]
            exact Device.write_isStore record world first.device (io n)
        | succ i => exact ih (n + 1) _ hslot hattempt

/-- The table gains a row only where a device that appends to it is written to. -/
theorem exists_stores_of_attemptAll (slots : List (Slot Device)) (n : Nat) (world : AuditWorld)
    (h : (attemptAll record io n world slots).1.db ≠ world.db) : ∃ slot ∈ slots, slot.Stores := by
  induction slots generalizing n world with
  | nil => exact absurd rfl h
  | cons slot slots ih =>
      unfold attemptAll at h
      split at h
      · obtain ⟨other, hmem, hstores⟩ := ih (n + 1) world h
        exact ⟨other, List.mem_cons_of_mem _ hmem, hstores⟩
      · rename_i hquarantined
        rw [Bool.not_eq_true, Option.isSome_eq_false_iff, Option.isNone_iff_eq_none] at hquarantined
        cases hdevice : slot.device with
        | sqlite table => exact ⟨slot, List.mem_cons_self, by rw [hdevice]; rfl, hquarantined⟩
        | file log =>
            have hsame : (Device.write world slot.device record (io n)).1.db = world.db := by
              rw [hdevice]
              rfl
            obtain ⟨other, hmem, hstores⟩ := ih (n + 1) _ (by
              rw [hsame]
              exact h)
            exact ⟨other, List.mem_cons_of_mem _ hmem, hstores⟩

/-- A record that a device which appends to the table accepts is in the table. -/
theorem attemptAll_db_of_accepted (slots : List (Slot Device)) (n : Nat) (world : AuditWorld)
    {attempt : Attempt Device} (hmem : attempt ∈ (attemptAll record io n world slots).2)
    (hstore : attempt.slot.device.isStore = true) (hok : attempt.outcome = some (.ok ())) :
    (attemptAll record io n world slots).1.db =
      { world.db with auditLog := world.db.auditLog ++ [rowOf record] } := by
  induction slots generalizing n world with
  | nil => cases hmem
  | cons slot slots ih =>
      unfold attemptAll at hmem ⊢
      by_cases hquarantined : slot.quarantined.isSome = true
      · rw [if_pos hquarantined] at hmem ⊢
        rcases List.mem_cons.mp hmem with rfl | hrest
        · cases hok
        · exact ih (n + 1) world hrest
      · rw [if_neg hquarantined] at hmem ⊢
        have hwrite := Device.write_db_cases record world slot.device (io n)
        have hgained : (Device.write world slot.device record (io n)).1.db =
            { world.db with auditLog := world.db.auditLog ++ [rowOf record] } →
            (attemptAll record io (n + 1) (Device.write world slot.device record (io n)).1 slots).1.db =
              { world.db with auditLog := world.db.auditLog ++ [rowOf record] } := by
          intro hrow
          have hin : rowOf record ∈ (Device.write world slot.device record (io n)).1.db.auditLog := by
            rw [hrow]
            exact List.mem_append_right _ (List.mem_singleton.mpr rfl)
          exact (attemptAll_db_of_mem record io slots (n + 1) _ hin rfl).trans hrow
        rcases List.mem_cons.mp hmem with rfl | hrest
        · apply hgained
          have hdevice : slot.device.isStore = true :=
            (Device.write_isStore record world slot.device (io n)).symm.trans hstore
          exact Device.write_db_of_ok record world hdevice (Option.some.inj hok)
        · rcases hwrite with hsame | ⟨-, hrow, -⟩
          · have hrow := ih (n + 1) (Device.write world slot.device record (io n)).1 hrest
            rw [hsame] at hrow
            exact hrow
          · exact hgained hrow

end Attempts

end Ciphr
