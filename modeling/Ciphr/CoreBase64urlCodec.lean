import Mathlib.Data.Fintype.Basic
import Ciphr.CoreBase64url
import Ciphr.LibFold

/-!
Unpadded base64url is a code: every buffer is read back from its text, and a text that is read is the
text of what was read. A group is a number of twenty-four bits, three bytes on one side and four
sextets on the other.
-/

namespace Ciphr.Base64url

/-! ### Sextets -/

theorem sextet_ofNat : ∀ n : Fin 256, (match sextet (.ofNat n) with
    | .ok six => decide (six < 64 ∧ String.utf8EncodeChar (alphabet.getD six 'A') = [.ofNat n])
    | .error _ => true) = true := by
  decide +kernel

/-- A byte that is read is the character of what it is read as. -/
theorem sextet_eq_ok {byte : UInt8} {six : Nat} (h : sextet byte = .ok six) :
    six < 64 ∧ String.utf8EncodeChar (alphabet.getD six 'A') = [byte] := by
  have hbyte := sextet_ofNat ⟨byte.toNat, byte.toNat_lt⟩
  rw [UInt8.ofNat_toNat, h] at hbyte
  exact of_decide_eq_true hbyte

/-- The byte of a character of the alphabet. -/
def alphabetByte (six : Nat) : UInt8 := (String.utf8EncodeChar (alphabet.getD six 'A')).headD 0

theorem sextet_alphabet : ∀ six : Fin 64,
    String.utf8EncodeChar (alphabet.getD six 'A') = [alphabetByte six] ∧
      sextet (alphabetByte six) = .ok six := by
  decide +kernel

theorem character_eq (group shift : Nat) :
    character group shift = alphabet.getD (group / 2 ^ shift % 64) 'A' := by
  unfold character
  rw [Nat.shiftRight_eq_div_pow]
  congr 1
  exact Nat.and_two_pow_sub_one_eq_mod _ 6

/-- The character of six bits is one byte, and that is read as the six bits. -/
theorem sextet_character (group shift : Nat) :
    ∃ byte, String.utf8EncodeChar (character group shift) = [byte] ∧
      sextet byte = .ok (group / 2 ^ shift % 64) := by
  have hbyte := sextet_alphabet ⟨group / 2 ^ shift % 64, Nat.mod_lt _ (by decide)⟩
  rw [character_eq]
  exact ⟨_, hbyte.1, hbyte.2⟩

/-! ### Groups -/

/-- What the sextets of a group weigh, from number `index` on. -/
def weigh : Nat → List Nat → Nat
  | _, [] => 0
  | index, six :: rest => six * 2 ^ (18 - 6 * index) + weigh (index + 1) rest

theorem or_shiftLeft {bits six k : Nat} (hbits : 2 ^ (k + 6) ∣ bits) (hsix : six < 64) :
    bits ||| six <<< k = bits + six * 2 ^ k := by
  obtain ⟨high, rfl⟩ := hbits
  have hlt : six * 2 ^ k < 2 ^ (k + 6) := by
    rw [Nat.pow_add, Nat.mul_comm]
    exact Nat.mul_lt_mul_of_pos_left hsix (Nat.two_pow_pos k)
  rw [Nat.shiftLeft_eq, ← Nat.two_pow_add_eq_or_of_lt hlt]

theorem groupBits_eq_ok {chunk : List UInt8} {index bits value : Nat}
    (hbits : 2 ^ (24 - 6 * index) ∣ bits) (hsize : index + chunk.length ≤ 4) :
    groupBits index bits chunk = .ok value ↔
      ∃ sextets, List.Forall₂ (fun byte six => sextet byte = .ok six) chunk sextets ∧
        value = bits + weigh index sextets := by
  induction chunk generalizing index bits with
  | nil =>
      rw [groupBits]
      constructor
      · intro h
        cases h
        exact ⟨[], .nil, rfl⟩
      · rintro ⟨sextets, hread, rfl⟩
        cases hread
        rfl
  | cons byte chunk ih =>
      rw [List.length_cons] at hsize
      rw [groupBits]
      cases hsix : sextet byte with
      | error error =>
          constructor
          · intro h
            cases h
          · rintro ⟨sextets, hread, -⟩
            cases hread with
            | cons hfirst _ =>
                rw [hsix] at hfirst
                cases hfirst
      | ok six =>
          have hplace : 24 - 6 * index = 18 - 6 * index + 6 := by omega
          have hsum : bits ||| six <<< (18 - 6 * index) = bits + six * 2 ^ (18 - 6 * index) :=
            or_shiftLeft (hplace ▸ hbits) (sextet_eq_ok hsix).1
          have hnext : 2 ^ (24 - 6 * (index + 1)) ∣ bits + six * 2 ^ (18 - 6 * index) := by
            have hsame : 24 - 6 * (index + 1) = 18 - 6 * index := by omega
            rw [hsame]
            exact Nat.dvd_add (Nat.dvd_trans (Nat.pow_dvd_pow 2 (by omega)) hbits) (Nat.dvd_mul_left _ _)
          change groupBits (index + 1) (bits ||| six <<< (18 - 6 * index)) chunk = .ok value ↔ _
          rw [hsum, ih hnext (by omega)]
          constructor
          · rintro ⟨sextets, hread, rfl⟩
            exact ⟨six :: sextets, .cons hsix hread, by rw [weigh, Nat.add_assoc]⟩
          · rintro ⟨sextets, hread, rfl⟩
            cases hread with
            | cons hfirst hrest =>
                rw [hsix] at hfirst
                cases hfirst
                exact ⟨_, hrest, by rw [weigh, Nat.add_assoc]⟩

/-- The bits that a short group does not carry. -/
def carried : Nat → Nat
  | 2 => 2 ^ 16
  | 3 => 2 ^ 8
  | _ => 1

theorem and_unused (bits length : Nat) :
    (bits &&& match length with
      | 2 => 0xffff
      | 3 => 0xff
      | _ => 0) = bits % carried length := by
  unfold carried
  split
  · exact Nat.and_two_pow_sub_one_eq_mod bits 16
  · exact Nat.and_two_pow_sub_one_eq_mod bits 8
  · rw [Nat.and_zero, Nat.mod_one]

theorem group_of_bits {chunk : List UInt8} {bits : Nat} (h : groupBits 0 0 chunk = .ok bits) :
    group chunk = if bits % carried chunk.length ≠ 0 then .error .trailingBits else .ok bits := by
  have hsame : ∀ unused, unused = bits % carried chunk.length →
      (if unused ≠ 0 then Except.error Base64Error.trailingBits else .ok bits) =
        if bits % carried chunk.length ≠ 0 then .error .trailingBits else .ok bits := by
    rintro unused rfl
    rfl
  unfold group
  rw [h]
  exact hsame _ (and_unused _ _)

theorem group_eq_ok {chunk : List UInt8} {value : Nat} (hsize : chunk.length ≤ 4) :
    group chunk = .ok value ↔
      (∃ sextets, List.Forall₂ (fun byte six => sextet byte = .ok six) chunk sextets ∧
        value = weigh 0 sextets) ∧ value % carried chunk.length = 0 := by
  have hbits : ∀ bits, groupBits 0 0 chunk = .ok bits ↔
      ∃ sextets, List.Forall₂ (fun byte six => sextet byte = .ok six) chunk sextets ∧
        bits = weigh 0 sextets := by
    intro bits
    rw [groupBits_eq_ok (Nat.dvd_zero _) (by omega)]
    simp only [Nat.zero_add]
  rw [← hbits]
  cases hread : groupBits 0 0 chunk with
  | error error =>
      have hgroup : group chunk = .error error := by
        unfold group
        rw [hread]
        rfl
      rw [hgroup]
      constructor
      · intro h
        cases h
      · rintro ⟨h, -⟩
        cases h
  | ok bits =>
      rw [group_of_bits hread]
      split
      · rename_i hnonzero
        constructor
        · intro h
          cases h
        · rintro ⟨h, hzero⟩
          cases h
          exact absurd hzero hnonzero
      · rename_i hzero
        constructor
        · intro h
          cases h
          exact ⟨rfl, not_not.mp hzero⟩
        · rintro ⟨h, -⟩
          cases h
          rfl

/-! ### A group and its bytes -/

/-- The number of a group of up to three bytes. -/
def word : List UInt8 → Nat
  | [b0] => b0.toNat * 2 ^ 16
  | [b0, b1] => b0.toNat * 2 ^ 16 + b1.toNat * 2 ^ 8
  | b0 :: b1 :: b2 :: _ => b0.toNat * 2 ^ 16 + b1.toNat * 2 ^ 8 + b2.toNat
  | [] => 0

/-- The bytes of the text of a group. -/
def encodedChunk (chunk : List UInt8) : List UInt8 := (encodeChunk chunk).flatMap String.utf8EncodeChar

theorem or_bytes (b0 b1 b2 : UInt8) :
    b0.toNat <<< 16 ||| b1.toNat <<< 8 = b0.toNat * 2 ^ 16 + b1.toNat * 2 ^ 8 ∧
      b0.toNat <<< 16 ||| b1.toNat <<< 8 ||| b2.toNat =
        b0.toNat * 2 ^ 16 + b1.toNat * 2 ^ 8 + b2.toNat := by
  have h1 := b1.toNat_lt
  have h2 := b2.toNat_lt
  have hfirst : b0.toNat <<< 16 ||| b1.toNat <<< 8 = b0.toNat * 2 ^ 16 + b1.toNat * 2 ^ 8 := by
    rw [← Nat.shiftLeft_add_eq_or_of_lt, Nat.shiftLeft_eq, Nat.shiftLeft_eq]
    rw [Nat.shiftLeft_eq]
    omega
  refine ⟨hfirst, ?_⟩
  have hword : b0.toNat * 2 ^ 16 + b1.toNat * 2 ^ 8 = 2 ^ 8 * (b0.toNat * 2 ^ 8 + b1.toNat) := by omega
  rw [hfirst, hword, ← Nat.two_pow_add_eq_or_of_lt h2]

/-- The characters of a group stand for its sextets, from the most significant one on. -/
theorem encodeChunk_eq {chunk : List UInt8} (hpos : 0 < chunk.length) (hsize : chunk.length ≤ 3) :
    encodeChunk chunk = ([18, 12, 6, 0].take (chunk.length + 1)).map (character (word chunk)) := by
  match chunk, hsize with
  | [b0], _ =>
      simp only [encodeChunk, word]
      rw [Nat.shiftLeft_eq]
      rfl
  | [b0, b1], _ =>
      simp only [encodeChunk, word]
      rw [(or_bytes b0 b1 0).1]
      rfl
  | [b0, b1, b2], _ =>
      simp only [encodeChunk, word]
      rw [(or_bytes b0 b1 b2).2]
      rfl

theorem slotsOf_word {chunk slots : List UInt8} (hpos : 0 < chunk.length) (hsize : chunk.length ≤ 3)
    (hslots : slots.length = chunk.length) : slotsOf (word chunk) slots = chunk := by
  have hbyte : ∀ (bits shift : Nat) (b : UInt8), bits / 2 ^ shift % 256 = b.toNat →
      UInt8.ofNat (bits >>> shift &&& 0xff) = b := by
    intro bits shift b h
    have hmod : bits >>> shift &&& 0xff = bits >>> shift % 256 :=
      Nat.and_two_pow_sub_one_eq_mod _ 8
    rw [hmod, Nat.shiftRight_eq_div_pow, h, UInt8.ofNat_toNat]
  match chunk, hsize, slots, hslots with
  | [b0], _, [_], _ =>
      have h0 := b0.toNat_lt
      simp only [slotsOf, word, List.mapIdx_cons, List.mapIdx_nil]
      rw [hbyte _ _ b0 (by omega)]
  | [b0, b1], _, [_, _], _ =>
      have h0 := b0.toNat_lt
      have h1 := b1.toNat_lt
      simp only [slotsOf, word, List.mapIdx_cons, List.mapIdx_nil]
      rw [hbyte _ _ b0 (by omega), hbyte _ _ b1 (by omega)]
  | [b0, b1, b2], _, [_, _, _], _ =>
      have h0 := b0.toNat_lt
      have h1 := b1.toNat_lt
      have h2 := b2.toNat_lt
      simp only [slotsOf, word, List.mapIdx_cons, List.mapIdx_nil]
      rw [hbyte _ _ b0 (by omega), hbyte _ _ b1 (by omega), hbyte _ _ b2 (by omega)]

/-- The bytes of characters of a group, and what they are read as. -/
theorem characters_read (group : Nat) (shifts : List Nat) :
    List.Forall₂ (fun byte six => sextet byte = .ok six)
      ((shifts.map (character group)).flatMap String.utf8EncodeChar)
      (shifts.map fun shift => group / 2 ^ shift % 64) := by
  induction shifts with
  | nil => exact .nil
  | cons shift shifts ih =>
      obtain ⟨byte, hencoded, hread⟩ := sextet_character group shift
      rw [List.map_cons, List.map_cons, List.flatMap_cons, hencoded]
      exact .cons hread ih

/-- The text of a group is read as the group. -/
theorem group_encodedChunk {chunk : List UInt8} (hpos : 0 < chunk.length) (hsize : chunk.length ≤ 3) :
    (encodedChunk chunk).length = chunk.length + 1 ∧ group (encodedChunk chunk) = .ok (word chunk) := by
  have hread := characters_read (word chunk) ([18, 12, 6, 0].take (chunk.length + 1))
  unfold encodedChunk
  rw [encodeChunk_eq hpos hsize]
  have hlength := hread.length_eq
  rw [List.length_map, List.length_take] at hlength
  have hsame : min (chunk.length + 1) [18, 12, 6, 0].length = chunk.length + 1 := by
    rw [List.length_cons, List.length_cons, List.length_cons, List.length_cons, List.length_nil]
    omega
  rw [hsame] at hlength
  refine ⟨hlength, (group_eq_ok (by omega)).mpr ⟨⟨_, hread, ?_⟩, ?_⟩⟩
  · match chunk, hsize with
    | [b0], _ =>
        have h0 := b0.toNat_lt
        simp only [word, weigh, List.length_cons, List.length_nil, List.take, List.map]
        omega
    | [b0, b1], _ =>
        have h0 := b0.toNat_lt
        have h1 := b1.toNat_lt
        simp only [word, weigh, List.length_cons, List.length_nil, List.take, List.map]
        omega
    | [b0, b1, b2], _ =>
        have h0 := b0.toNat_lt
        have h1 := b1.toNat_lt
        have h2 := b2.toNat_lt
        simp only [word, weigh, List.length_cons, List.length_nil, List.take, List.map]
        omega
  · rw [hlength]
    match chunk, hsize with
    | [b0], _ =>
        simp only [word, carried, List.length_cons, List.length_nil]
        omega
    | [b0, b1], _ =>
        simp only [word, carried, List.length_cons, List.length_nil]
        omega
    | [b0, b1, b2], _ => exact Nat.mod_one _

/-- The text of a group whose sextets were read is what they were read from. -/
theorem characters_of_read {chunk : List UInt8} {sextets : List Nat}
    (h : List.Forall₂ (fun byte six => sextet byte = .ok six) chunk sextets) :
    (∀ six ∈ sextets, six < 64) ∧
      (sextets.map fun six => alphabet.getD six 'A').flatMap String.utf8EncodeChar = chunk := by
  induction h with
  | nil => exact ⟨List.forall_mem_nil _, rfl⟩
  | cons hfirst _ ih =>
      obtain ⟨hlt, hencoded⟩ := sextet_eq_ok hfirst
      refine ⟨List.forall_mem_cons.mpr ⟨hlt, ih.1⟩, ?_⟩
      rw [List.map_cons, List.flatMap_cons, hencoded, ih.2]
      rfl

/-- A group that is read is the text of the bytes it is read as. -/
theorem encodedChunk_slotsOf {chunk slots : List UInt8} {value : Nat} (hgroup : group chunk = .ok value)
    (hpos : 0 < slots.length) (hsize : slots.length ≤ 3) (hlength : chunk.length = slots.length + 1) :
    encodedChunk (slotsOf value slots) = chunk := by
  obtain ⟨⟨sextets, hread, hvalue⟩, hcarried⟩ := (group_eq_ok (by omega)).mp hgroup
  obtain ⟨hlt, hchunk⟩ := characters_of_read hread
  have hcount := hread.length_eq
  have hslots : (slotsOf value slots).length = slots.length := List.length_mapIdx
  have hbyte : ∀ shift, (UInt8.ofNat (value >>> shift &&& 0xff)).toNat = value / 2 ^ shift % 256 := by
    intro shift
    have hmod : value >>> shift &&& 0xff = value >>> shift % 256 :=
      Nat.and_two_pow_sub_one_eq_mod _ 8
    rw [hmod, Nat.shiftRight_eq_div_pow, UInt8.toNat_ofNat', Nat.mod_mod]
  have hword : word (slotsOf value slots) = value ∧
      ([18, 12, 6, 0].take (slots.length + 1)).map (fun shift => value / 2 ^ shift % 64) = sextets := by
    rw [hlength] at hcarried hcount
    match slots, hsize, sextets, hcount with
    | [_], _, [s0, s1], _ =>
        have h0 := hlt s0 (by simp)
        have h1 := hlt s1 (by simp)
        simp only [weigh] at hvalue
        simp only [carried, List.length_cons, List.length_nil] at hcarried
        refine ⟨?_, ?_⟩
        · simp only [slotsOf, word, List.mapIdx_cons, List.mapIdx_nil, hbyte]
          omega
        · simp only [List.length_cons, List.length_nil, List.take, List.map, List.cons.injEq, and_true]
          omega
    | [_, _], _, [s0, s1, s2], _ =>
        have h0 := hlt s0 (by simp)
        have h1 := hlt s1 (by simp)
        have h2 := hlt s2 (by simp)
        simp only [weigh] at hvalue
        simp only [carried, List.length_cons, List.length_nil] at hcarried
        refine ⟨?_, ?_⟩
        · simp only [slotsOf, word, List.mapIdx_cons, List.mapIdx_nil, hbyte]
          omega
        · simp only [List.length_cons, List.length_nil, List.take, List.map, List.cons.injEq, and_true]
          omega
    | [_, _, _], _, [s0, s1, s2, s3], _ =>
        have h0 := hlt s0 (by simp)
        have h1 := hlt s1 (by simp)
        have h2 := hlt s2 (by simp)
        have h3 := hlt s3 (by simp)
        simp only [weigh] at hvalue
        refine ⟨?_, ?_⟩
        · simp only [slotsOf, word, List.mapIdx_cons, List.mapIdx_nil, hbyte]
          omega
        · simp only [List.length_cons, List.length_nil, List.take, List.map, List.cons.injEq, and_true]
          omega
  unfold encodedChunk
  rw [encodeChunk_eq (by omega) (by omega), hslots, hword.1]
  have hcharacters : ([18, 12, 6, 0].take (slots.length + 1)).map (character value) =
      sextets.map fun six => alphabet.getD six 'A' := by
    rw [← hword.2, List.map_map]
    exact List.map_congr_left fun shift _ => character_eq value shift
  rw [hcharacters, hchunk]

/-! ### Whole texts -/

theorem threes_length : ∀ (bytes : List UInt8), ∀ chunk ∈ threes bytes,
    0 < chunk.length ∧ chunk.length ≤ 3
  | [], chunk, h => by cases h
  | [_], chunk, h => by
      cases List.mem_singleton.mp h
      exact ⟨by simp, by simp⟩
  | [_, _], chunk, h => by
      cases List.mem_singleton.mp h
      exact ⟨by simp, by simp⟩
  | _ :: _ :: _ :: rest, chunk, h => by
      rcases List.mem_cons.mp h with rfl | hrest
      · exact ⟨Nat.zero_lt_succ _, Nat.le_refl _⟩
      · exact threes_length rest chunk hrest

theorem utf8_encode (bytes : List UInt8) :
    (encode bytes).toUTF8.data.toList = (threes bytes).flatMap encodedChunk := by
  unfold encode String.toUTF8 String.ofList encodedChunk
  simp only [List.utf8Encode, List.flatMap_assoc]
  simp

/-- The text of a buffer falls into the texts of its groups. -/
theorem fours_encoded : ∀ bytes : List UInt8,
    fours ((threes bytes).flatMap encodedChunk) = (threes bytes).map encodedChunk
  | [] => rfl
  | [b0] => by
      have hlength : (encodedChunk [b0]).length = 2 := (group_encodedChunk (by simp) (by simp)).1
      obtain ⟨c0, c1, hchunk⟩ := List.length_eq_two.mp hlength
      have hall : (threes [b0]).flatMap encodedChunk = encodedChunk [b0] := List.flatMap_singleton ..
      have hmap : (threes [b0]).map encodedChunk = [encodedChunk [b0]] := rfl
      rw [hall, hmap, hchunk]
      rfl
  | [b0, b1] => by
      have hlength : (encodedChunk [b0, b1]).length = 3 := (group_encodedChunk (by simp) (by simp)).1
      obtain ⟨c0, c1, c2, hchunk⟩ := List.length_eq_three.mp hlength
      have hall : (threes [b0, b1]).flatMap encodedChunk = encodedChunk [b0, b1] :=
        List.flatMap_singleton ..
      have hmap : (threes [b0, b1]).map encodedChunk = [encodedChunk [b0, b1]] := rfl
      rw [hall, hmap, hchunk]
      rfl
  | b0 :: b1 :: b2 :: rest => by
      have hlength : (encodedChunk [b0, b1, b2]).length = 4 := (group_encodedChunk (by simp) (by simp)).1
      rw [threes, List.flatMap_cons, List.map_cons]
      obtain ⟨c0, tail, hchunk⟩ := List.exists_of_length_succ _ hlength
      rw [hchunk, List.length_cons, Nat.succ_inj] at hlength
      obtain ⟨c1, c2, c3, rfl⟩ := List.length_eq_three.mp hlength
      have ih := fours_encoded rest
      rw [hchunk, List.cons_append, List.cons_append, List.cons_append, List.cons_append,
        List.nil_append, fours, ih]

/-- A whole group is three bytes more. -/
theorem decodedLen_add_four (length : Nat) : decodedLen (length + 4) = (decodedLen length).map (· + 3) := by
  have hmod : (length + 4) % 4 = length % 4 := by omega
  have hdiv : (length + 4) / 4 * 3 = length / 4 * 3 + 3 := by omega
  unfold decodedLen
  dsimp only
  rw [hmod, hdiv]
  split
  · rfl
  · rw [Option.map_some, Option.some.injEq]
  · rw [Option.map_some, Option.some.injEq]
  · rfl

theorem decodedLen_encoded : ∀ bytes : List UInt8,
    decodedLen ((threes bytes).flatMap encodedChunk).length = some bytes.length
  | [] => rfl
  | [b0] => by
      have hlength : (encodedChunk [b0]).length = 2 := (group_encodedChunk (by simp) (by simp)).1
      have hall : (threes [b0]).flatMap encodedChunk = encodedChunk [b0] := List.flatMap_singleton ..
      rw [hall, hlength]
      rfl
  | [b0, b1] => by
      have hlength : (encodedChunk [b0, b1]).length = 3 := (group_encodedChunk (by simp) (by simp)).1
      have hall : (threes [b0, b1]).flatMap encodedChunk = encodedChunk [b0, b1] :=
        List.flatMap_singleton ..
      rw [hall, hlength]
      rfl
  | b0 :: b1 :: b2 :: rest => by
      have hlength : (encodedChunk [b0, b1, b2]).length = 4 := (group_encodedChunk (by simp) (by simp)).1
      rw [threes, List.flatMap_cons, List.length_append, hlength, Nat.add_comm, decodedLen_add_four,
        decodedLen_encoded rest]
      rfl

theorem checkGroups_encoded {chunks : List (List UInt8)}
    (h : ∀ chunk ∈ chunks, 0 < chunk.length ∧ chunk.length ≤ 3) :
    checkGroups (chunks.map encodedChunk) = .ok () := by
  induction chunks with
  | nil => rfl
  | cons chunk chunks ih =>
      obtain ⟨⟨hpos, hsize⟩, hrest⟩ := List.forall_mem_cons.mp h
      rw [List.map_cons, checkGroups, (group_encodedChunk hpos hsize).2]
      exact ih hrest

theorem fillSlots_encoded : ∀ (bytes out : List UInt8), out.length = bytes.length →
    fillSlots ((threes bytes).map encodedChunk) (threes out) = .ok bytes
  | [], [], _ => rfl
  | [b0], [o0], _ => by
      have hgroup : group (encodedChunk [b0]) = .ok (word [b0]) :=
        (group_encodedChunk (by simp) (by simp)).2
      have hslots : slotsOf (word [b0]) [o0] = [b0] := slotsOf_word (by simp) (by simp) rfl
      simp only [threes, List.map_cons, List.map_nil, fillSlots, hgroup, bind, Except.bind, hslots]
      rfl
  | [b0, b1], [o0, o1], _ => by
      have hgroup : group (encodedChunk [b0, b1]) = .ok (word [b0, b1]) :=
        (group_encodedChunk (by simp) (by simp)).2
      have hslots : slotsOf (word [b0, b1]) [o0, o1] = [b0, b1] := slotsOf_word (by simp) (by simp) rfl
      simp only [threes, List.map_cons, List.map_nil, fillSlots, hgroup, bind, Except.bind, hslots]
      rfl
  | b0 :: b1 :: b2 :: rest, o0 :: o1 :: o2 :: out, h => by
      have hgroup : group (encodedChunk [b0, b1, b2]) = .ok (word [b0, b1, b2]) :=
        (group_encodedChunk (by simp) (by simp)).2
      have hslots : slotsOf (word [b0, b1, b2]) [o0, o1, o2] = [b0, b1, b2] :=
        slotsOf_word (by simp) (by simp) rfl
      have ih := fillSlots_encoded rest out (by simpa using h)
      simp only [threes, List.map_cons, fillSlots, hgroup, bind, Except.bind, hslots, ih]
      rfl

/-- A buffer is read back from its text. -/
theorem decodeInto_encode (bytes out : List UInt8) (h : out.length = bytes.length) :
    decodeInto (encode bytes) out = (bytes, .ok ()) := by
  unfold decodeInto
  dsimp only
  rw [utf8_encode, decodedLen_encoded, h, if_neg (by simp), fours_encoded,
    checkGroups_encoded (threes_length bytes)]
  dsimp only
  rw [fillSlots_encoded bytes out h]

/-- What the bytes of a text are read as has that text. -/
theorem encoded_of_fillSlots : ∀ (bytes out : List UInt8) {filled : List UInt8},
    decodedLen bytes.length = some out.length → fillSlots (fours bytes) (threes out) = .ok filled →
    (threes filled).flatMap encodedChunk = bytes
  | [], out, filled, hlength, h => by
      have hout : out = [] := List.length_eq_zero_iff.mp (Option.some.inj hlength).symm
      rw [hout] at h
      cases h
      rfl
  | [b0], out, filled, hlength, _ => by cases hlength
  | [b0, b1], out, filled, hlength, h => by
      have hone : decodedLen 2 = some out.length := hlength
      obtain ⟨o0, rfl⟩ := List.length_eq_one_iff.mp (Option.some.inj hone).symm
      obtain ⟨bits, hbits, h⟩ := Loop.bind_eq_ok h
      cases h
      have hchunk : encodedChunk (slotsOf bits [o0]) = [b0, b1] :=
        encodedChunk_slotsOf hbits (by simp) (by simp) rfl
      exact (List.append_nil _).trans hchunk
  | [b0, b1, b2], out, filled, hlength, h => by
      have htwo : decodedLen 3 = some out.length := hlength
      obtain ⟨o0, o1, rfl⟩ := List.length_eq_two.mp (Option.some.inj htwo).symm
      obtain ⟨bits, hbits, h⟩ := Loop.bind_eq_ok h
      cases h
      have hchunk : encodedChunk (slotsOf bits [o0, o1]) = [b0, b1, b2] :=
        encodedChunk_slotsOf hbits (by simp) (by simp) rfl
      exact (List.append_nil _).trans hchunk
  | b0 :: b1 :: b2 :: b3 :: rest, out, filled, hlength, h => by
      have hrest : ∃ o0 o1 o2 out', out = o0 :: o1 :: o2 :: out' ∧
          decodedLen rest.length = some out'.length := by
        simp only [List.length_cons] at hlength
        rw [decodedLen_add_four] at hlength
        obtain ⟨count, hcount, hthree⟩ := Option.map_eq_some_iff.mp hlength
        match out, hthree with
        | o0 :: o1 :: o2 :: out', hthree =>
            simp only [List.length_cons] at hthree
            have hsame : count = out'.length := by omega
            exact ⟨o0, o1, o2, out', rfl, hsame ▸ hcount⟩
      obtain ⟨o0, o1, o2, out', rfl, hlast⟩ := hrest
      obtain ⟨bits, hbits, h⟩ := Loop.bind_eq_ok h
      obtain ⟨filled', hfilled, h⟩ := Loop.bind_eq_ok h
      cases h
      have hchunk : encodedChunk (slotsOf bits [o0, o1, o2]) = [b0, b1, b2, b3] :=
        encodedChunk_slotsOf hbits (by simp) (by simp) rfl
      have ih := encoded_of_fillSlots rest out' hlast hfilled
      have hthrees : threes (slotsOf bits [o0, o1, o2] ++ filled') =
          slotsOf bits [o0, o1, o2] :: threes filled' := rfl
      rw [hthrees, List.flatMap_cons, hchunk, ih]
      rfl

/-- A text that is read is the text of what was read. -/
theorem encode_of_decodeInto {input : String} {out filled : List UInt8}
    (h : decodeInto input out = (filled, .ok ())) : encode filled = input := by
  unfold decodeInto at h
  dsimp only at h
  split at h
  · cases h
  · rename_i hlength
    split at h
    · cases h
    · split at h
      · cases h
      · rename_i found hfound
        cases h
        have hbytes := encoded_of_fillSlots _ out (not_not.mp hlength) hfound
        rw [← utf8_encode] at hbytes
        apply String.toByteArray_inj.mp
        exact ByteArray.ext (Array.toList_inj.mp hbytes)

/-! ### Lengths and buffers -/

theorem encodedLen_of_decodedLen {textLen byteLen : Nat} (h : decodedLen textLen = some byteLen) :
    textLen = encodedLen byteLen := by
  unfold decodedLen at h
  dsimp only at h
  unfold encodedLen
  split at h
  · cases h
    have hmod : textLen / 4 * 3 % 3 = 0 := by omega
    simp only [hmod]
    omega
  · cases h
    have hmod : (textLen / 4 * 3 + 1) % 3 = 1 := by omega
    simp only [hmod]
    omega
  · cases h
    have hmod : (textLen / 4 * 3 + 2) % 3 = 2 := by omega
    simp only [hmod]
    omega
  · cases h

/-- The text has the length that is reserved for it. -/
theorem encode_utf8ByteSize (bytes : List UInt8) :
    (encode bytes).utf8ByteSize = encodedLen bytes.length := by
  have hdecoded := decodedLen_encoded bytes
  rw [← utf8_encode] at hdecoded
  exact encodedLen_of_decodedLen hdecoded

/-- A buffer is filled exactly by the text of as many bytes as it has. -/
theorem decodeInto_eq_ok {input : String} {out filled : List UInt8} :
    decodeInto input out = (filled, .ok ()) ↔ encode filled = input ∧ filled.length = out.length := by
  constructor
  · intro h
    have hlength := decodeInto_length input out
    rw [h] at hlength
    exact ⟨encode_of_decodeInto h, hlength⟩
  · rintro ⟨rfl, hlength⟩
    exact decodeInto_encode filled out hlength.symm

/-- A buffer that was not filled is as it was. -/
theorem decodeInto_eq_error {input : String} {out buffer : List UInt8} {error : Base64Error}
    (h : decodeInto input out = (buffer, .error error)) : buffer = out := by
  unfold decodeInto at h
  dsimp only at h
  split at h
  · exact (Prod.mk.inj h).1.symm
  · split at h
    · exact (Prod.mk.inj h).1.symm
    · split at h
      · exact (Prod.mk.inj h).1.symm
      · cases (Prod.mk.inj h).2

theorem decode_eq_ok {input : String} {bytes : List UInt8} :
    decode input = .ok bytes ↔ encode bytes = input := by
  unfold decode
  constructor
  · intro h
    split at h
    · cases h
    · split at h
      · rename_i hfilled
        cases h
        exact encode_of_decodeInto hfilled
      · cases h
  · rintro rfl
    have hlength : decodedLen (encode bytes).utf8ByteSize = some bytes.length := by
      have hdecoded := decodedLen_encoded bytes
      rw [← utf8_encode] at hdecoded
      exact hdecoded
    rw [hlength]
    dsimp only
    rw [decodeInto_encode bytes _ List.length_replicate]

/-- Base64url is a bijection onto its texts, and both ways of decoding read exactly those. -/
theorem codec_strict (bytes out : List UInt8) (input : String) :
    (decode (encode bytes) = .ok bytes ∧ (encode bytes).utf8ByteSize = encodedLen bytes.length) ∧
      ((decode input = .ok bytes → encode bytes = input) ∧
        ∀ other, decode input = .ok bytes → decode other = .ok bytes → input = other) ∧
      (((decodeInto input out).2 = .ok () ↔ ∃ found, decode input = .ok found ∧
          found.length = out.length) ∧
        ((decodeInto input out).2 = .ok () → decode input = .ok (decodeInto input out).1) ∧
        ((decodeInto input out).2 ≠ .ok () → (decodeInto input out).1 = out)) := by
  refine ⟨⟨decode_eq_ok.mpr rfl, encode_utf8ByteSize bytes⟩, ⟨decode_eq_ok.mp, ?_⟩, ⟨?_, ?_, ?_⟩⟩
  · intro other h hother
    rw [← decode_eq_ok.mp h, ← decode_eq_ok.mp hother]
  · constructor
    · intro h
      obtain ⟨hencode, hlength⟩ := decodeInto_eq_ok.mp
        (show decodeInto input out = ((decodeInto input out).1, .ok ()) from Prod.ext rfl h)
      exact ⟨_, decode_eq_ok.mpr hencode, hlength⟩
    · rintro ⟨found, hfound, hlength⟩
      rw [decodeInto_eq_ok.mpr ⟨decode_eq_ok.mp hfound, hlength⟩]
  · intro h
    have hfilled : decodeInto input out = ((decodeInto input out).1, .ok ()) := Prod.ext rfl h
    exact decode_eq_ok.mpr (decodeInto_eq_ok.mp hfilled).1
  · intro h
    cases hresult : (decodeInto input out).2 with
    | ok done => exact absurd hresult h
    | error error => exact decodeInto_eq_error (Prod.ext rfl hresult)

end Ciphr.Base64url
