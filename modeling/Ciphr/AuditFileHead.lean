import Mathlib.Data.List.TakeWhile
import Ciphr.AuditFileWrites

/-!
The head of a file. `head_seq` reads the file backwards in blocks; what it finds is the last line of
the whole file, however the blocks fall.
-/

namespace Ciphr

namespace FileDevice

/-- What is left of bytes without the newlines they end with. -/
def trimmed (bytes : List UInt8) : List UInt8 := (bytes.reverse.dropWhile (· == newline)).reverse

theorem last_eq (bytes : List UInt8) :
    Lines.last newline bytes = ((trimmed bytes).reverse.takeWhile (· != newline)).reverse := by
  unfold Lines.last trimmed
  rw [List.reverse_reverse]

/-- Cutting at the last byte that is no newline. -/
theorem take_stop (bytes : List UInt8) :
    bytes.take (((rposition (· != newline) bytes).map (· + 1)).getD 0) = trimmed bytes := by
  have hdrop : trimmed bytes = bytes.take (bytes.length - bytes.reverse.findIdx (· != newline)) := by
    unfold trimmed
    rw [List.dropWhile_eq_drop_findIdx_not, List.reverse_drop, List.reverse_reverse,
      List.length_reverse]
    rfl
  rw [hdrop]
  unfold rposition
  cases hfind : bytes.reverse.findIdx? (· != newline) with
  | none =>
      rw [List.findIdx?_eq_none_iff_findIdx_eq, List.length_reverse] at hfind
      rw [hfind, Nat.sub_self]
      rfl
  | some k =>
      rw [List.findIdx?_eq_some_iff_findIdx_eq, List.length_reverse] at hfind
      rw [hfind.2]
      simp only [Option.map_some, Option.getD_some]
      congr 1
      omega

/-- What follows the last newline. -/
theorem drop_start {bytes : List UInt8} {start : Nat}
    (h : rposition (· == newline) bytes = some start) :
    newline ∈ bytes ∧
      bytes.drop (start + 1) = (bytes.reverse.takeWhile (· != newline)).reverse := by
  unfold rposition at h
  obtain ⟨k, hfind, hstart⟩ := Option.map_eq_some_iff.mp h
  have hmem : newline ∈ bytes := by
    obtain ⟨hlt, hk, -⟩ := List.findIdx?_eq_some_iff_getElem.mp hfind
    rw [beq_iff_eq] at hk
    rw [← hk]
    exact List.mem_reverse.mp (List.getElem_mem hlt)
  rw [List.findIdx?_eq_some_iff_findIdx_eq, List.length_reverse] at hfind
  refine ⟨hmem, ?_⟩
  have hnot : (fun byte : UInt8 => !(byte != newline)) = (· == newline) := by
    funext byte
    rw [bne, Bool.not_not]
  rw [List.takeWhile_eq_take_findIdx_not, hnot, hfind.2, List.reverse_take, List.reverse_reverse,
    List.length_reverse, ← hstart]
  congr 1
  omega

theorem not_mem_of_rposition {bytes : List UInt8} (h : rposition (· == newline) bytes = none) :
    newline ∉ bytes := by
  unfold rposition at h
  rw [Option.map_eq_none_iff, List.findIdx?_eq_none_iff] at h
  intro hmem
  have := h newline (List.mem_reverse.mpr hmem)
  simp at this

/-- Bytes in front of a part that holds the last line and the newline before it do not matter. -/
theorem last_append {before bytes : List UInt8} (h : newline ∈ trimmed bytes) :
    Lines.last newline (before ++ bytes) = Lines.last newline bytes := by
  have hne : (bytes.reverse.dropWhile (· == newline)).isEmpty = false := by
    rw [List.isEmpty_eq_false_iff]
    intro hnil
    unfold trimmed at h
    rw [hnil] at h
    cases h
  have htake : ¬ ((bytes.reverse.dropWhile (· == newline)).takeWhile (· != newline)).length =
      (bytes.reverse.dropWhile (· == newline)).length := by
    intro hlength
    have hall : (bytes.reverse.dropWhile (· == newline)).takeWhile (· != newline) =
        bytes.reverse.dropWhile (· == newline) :=
      (List.takeWhile_prefix _).eq_of_length hlength
    have hmem : newline ∈ bytes.reverse.dropWhile (· == newline) := List.mem_reverse.mp h
    rw [← hall] at hmem
    have := List.mem_takeWhile_imp hmem
    simp at this
  unfold Lines.last
  rw [List.reverse_append, List.dropWhile_append, hne, if_neg (by simp), List.takeWhile_append,
    if_neg htake]

/-- The loop ends with the last line of the file. -/
theorem lastLine_eq (content : List UInt8) (fuel readFrom : Nat) (hread : 0 < readFrom)
    (hlength : readFrom ≤ content.length) (hfuel : readFrom ≤ fuel) :
    lastLine content fuel readFrom (content.drop readFrom) = Lines.last newline content := by
  induction fuel generalizing readFrom with
  | zero => omega
  | succ fuel ih =>
      have htaken : min block readFrom ≤ readFrom := Nat.min_le_right _ _
      have hpos : 0 < min block readFrom := by
        unfold block
        omega
      have htail : (content.drop (readFrom - min block readFrom)).take (min block readFrom) ++
          content.drop readFrom = content.drop (readFrom - min block readFrom) := by
        conv_rhs => rw [← List.take_append_drop (min block readFrom)
          (content.drop (readFrom - min block readFrom))]
        rw [List.drop_drop, Nat.sub_add_cancel htaken]
      unfold lastLine
      dsimp only
      rw [htail, take_stop]
      split
      · rename_i start hstart
        obtain ⟨hmem, hdrop⟩ := drop_start hstart
        rw [hdrop, ← last_eq, ← last_append hmem, List.take_append_drop]
      · rename_i hnone
        split
        · rename_i hzero
          -- the whole file is one line
          have hall : ∀ byte ∈ (trimmed content).reverse, (byte != newline) = true := by
            intro byte hmem
            rw [bne_iff_ne]
            rintro rfl
            rw [hzero, List.drop_zero] at hnone
            exact not_mem_of_rposition hnone (List.mem_reverse.mp hmem)
          rw [hzero, List.drop_zero, last_eq, List.takeWhile_eq_self_iff.mpr hall, List.reverse_reverse]
        · exact ih _ (by omega) (by omega) (by omega)

/-- The head of a file whose last line is a record. -/
theorem headSeq_of_last {codec : Codec} {volume : Volume} {device : FileDevice} {fault : FileFault}
    {content : List UInt8} {text : String} {seq : Nat} (hfault : fault.read = none)
    (hcontent : volume.read device.path = some content)
    (hlast : Lines.last newline content = bytesOf text) (htext : bytesOf text ≠ [])
    (hseq : codec.valueSeq text = .ok (some seq)) :
    headSeq codec volume device fault = .ok (some seq) := by
  have hlength : content.length ≠ 0 := by
    intro hzero
    rw [List.length_eq_zero_iff] at hzero
    rw [hzero] at hlast
    exact htext hlast.symm
  have hline : lastLine content content.length content.length [] = bytesOf text := by
    have := lastLine_eq content content.length content.length (by omega) (Nat.le_refl _) (Nat.le_refl _)
    rw [List.drop_length] at this
    rw [this, hlast]
  unfold headSeq
  rw [hfault, hcontent]
  dsimp only
  rw [if_neg hlength, hline, if_neg (by simpa using htext)]
  rw [show Rust.fromUtf8 (bytesOf text) = some text from Rust.fromUtf8_toUTF8 text]
  dsimp only
  rw [hseq]

end FileDevice

end Ciphr
