import Ciphr.CoreBase64urlCodec
import Ciphr.StoreTokens

/-!
The text of a token is read as the token it is the text of, and nothing else is read as that token.
-/

namespace Ciphr

theorem decodeFixed_encode {n : Nat} (bytes : Vector UInt8 n) :
    decodeFixed n (Base64url.encode bytes.toList) = .ok bytes := by
  have hdecode := Base64url.decodeInto_encode bytes.toList (List.replicate n 0) (by simp)
  unfold decodeFixed
  split
  · rename_i found hfound
    rw [hdecode, Prod.mk.injEq] at hfound
    obtain ⟨rfl, -⟩ := hfound
    congr 1
  · rename_i found error hfound
    rw [hdecode, Prod.mk.injEq] at hfound
    cases hfound.2

theorem encode_of_decodeFixed {n : Nat} {input : String} {bytes : Vector UInt8 n}
    (h : decodeFixed n input = .ok bytes) : Base64url.encode bytes.toList = input := by
  unfold decodeFixed at h
  split at h
  · rename_i found hfound
    cases h
    exact Base64url.encode_of_decodeInto hfound
  · cases h

theorem encode_utf8ByteSize {n : Nat} (bytes : Vector UInt8 n) :
    Base64url.decodedLen (Base64url.encode bytes.toList).utf8ByteSize = some n := by
  have hlength := Base64url.decodedLen_encoded bytes.toList
  rw [← Base64url.utf8_encode] at hlength
  simpa using hlength

/-- The two halves of a token have one length each. -/
theorem decodedLen_half {length : Nat} : (Base64url.decodedLen length = some 6 → length = 8) ∧
    (Base64url.decodedLen length = some 32 → length = 43) := by
  unfold Base64url.decodedLen
  dsimp only
  constructor
  all_goals
    intro h
    split at h
    · have hbytes := Option.some.inj h
      omega
    · have hbytes := Option.some.inj h
      omega
    · have hbytes := Option.some.inj h
      omega
    · cases h

namespace Token

variable {text : String} {token : Token}

/-- The length and the prefix are those of a token, and the place where the identifier ends is within
a character. -/
def Straddles (text : String) : Prop :=
  text.utf8ByteSize = tokenTextLen ∧ ∃ body, text = tokenPrefix ++ body ∧
    ∀ front rest, body.toList = front ++ rest → (String.ofList front).utf8ByteSize ≠ 8

theorem parse_eq_none : parse text = none ↔ Straddles text := by
  constructor
  · intro h
    unfold parse at h
    split at h
    · cases h
    · rename_i hsize
      split at h
      · cases h
      · rename_i body hbody
        split at h
        · rename_i hsplit
          refine ⟨not_not.mp hsize, body, Rust.stripPrefix_eq_some.mp hbody, ?_⟩
          intro front rest hparts hfront
          have hfound := Rust.splitAtBytes_eq_some.mpr ⟨hparts, hfront⟩
          rw [hsplit] at hfound
          cases hfound
        · cases h
  · rintro ⟨hsize, body, htext, hwithin⟩
    unfold parse
    rw [if_neg (not_not.mpr hsize), Rust.stripPrefix_eq_some.mpr htext]
    dsimp only
    cases hsplit : Rust.splitAtBytes body.toList 8 with
    | none => rfl
    | some parts =>
        obtain ⟨hparts, hfront⟩ := Rust.splitAtBytes_eq_some.mp hsplit
        exact absurd hfront (hwithin _ _ hparts)

/-- A text that is read is the text of the token it is read as. -/
theorem exposeText_of_parse (h : parse text = some (.ok token)) : token.exposeText = text := by
  unfold parse at h
  split at h
  · cases h
  · split at h
    · cases h
    · rename_i body hbody
      split at h
      · cases h
      · rename_i idText secretText hsplit
        obtain ⟨id, hid, h⟩ := Loop.bind_eq_ok (Option.some.inj h)
        obtain ⟨bytes, hbytes, hid⟩ := Loop.bind_eq_ok hid
        obtain ⟨secret, hsecret, h⟩ := Loop.bind_eq_ok h
        cases hid
        cases h
        have hhalves : body = String.ofList idText ++ String.ofList secretText := by
          rw [← String.ofList_append, ← (Rust.splitAtBytes_eq_some.mp hsplit).1, String.ofList_toList]
        unfold exposeText
        rw [encode_of_decodeFixed hbytes, encode_of_decodeFixed hsecret, String.append_assoc, ← hhalves,
          Rust.stripPrefix_eq_some.mp hbody]

theorem parse_exposeText (token : Token) : parse token.exposeText = some (.ok token) := by
  have hid := decodedLen_half.1 (encode_utf8ByteSize token.id.bytes)
  have hsecret := decodedLen_half.2 (encode_utf8ByteSize token.secret)
  have htext : token.exposeText = tokenPrefix ++
      (Base64url.encode token.id.bytes.toList ++ Base64url.encode token.secret.toList) :=
    String.append_assoc
  have hsize : token.exposeText.utf8ByteSize = tokenTextLen := by
    have hprefix : tokenPrefix.utf8ByteSize = 4 := rfl
    rw [htext, String.utf8ByteSize_append, String.utf8ByteSize_append, hid, hsecret, hprefix]
    rfl
  have hsplit : Rust.splitAtBytes
      (Base64url.encode token.id.bytes.toList ++ Base64url.encode token.secret.toList).toList 8 =
        some ((Base64url.encode token.id.bytes.toList).toList,
          (Base64url.encode token.secret.toList).toList) := by
    refine Rust.splitAtBytes_eq_some.mpr ⟨String.toList_append, ?_⟩
    rw [String.ofList_toList, hid]
  unfold parse
  rw [if_neg (not_not.mpr hsize), Rust.stripPrefix_eq_some.mpr htext]
  dsimp only
  rw [hsplit]
  dsimp only
  unfold TokenId.parse
  rw [String.ofList_toList, String.ofList_toList, decodeFixed_encode, decodeFixed_encode]
  rfl

/-- A presented text is read or refused, what is read of it has that text, and it is answered. -/
def Exact (text : String) : Prop :=
  parse text ≠ none ∧ (∀ token, parse text = some (.ok token) → token.exposeText = text) ∧
    ∀ (hmac : Hmac) (table : TokenTable) (pepper : TokenPepper) (now : Int) (fault : TokenFault),
      (table.authenticate hmac text pepper now fault).2 ≠ none

end Token

theorem TokenTable.authenticate_eq_none {hmac : Hmac} {table : TokenTable} {presented : String}
    {pepper : TokenPepper} {now : Int} {fault : TokenFault} :
    (table.authenticate hmac presented pepper now fault).2 = none ↔ Token.parse presented = none := by
  unfold TokenTable.authenticate
  split
  · rename_i hparse
    exact iff_of_true rfl hparse
  · rename_i hparse
    exact iff_of_false nofun (hparse ▸ nofun)
  · rename_i token hparse
    refine iff_of_false ?_ (hparse ▸ nofun)
    dsimp only
    repeat' split
    all_goals nofun

/-- Every token is read back from its text, and a text is dealt with exactly as a token is, unless the
identifier would end within a character. -/
theorem Token.exact_iff (token : Token) (text : String) :
    parse token.exposeText = some (.ok token) ∧ (Exact text ↔ ¬ Straddles text) := by
  refine ⟨parse_exposeText token, ?_⟩
  constructor
  · rintro ⟨hread, -, -⟩ hstraddles
    exact hread (parse_eq_none.mpr hstraddles)
  · intro hwithin
    have hread : parse text ≠ none := fun hnone => hwithin (parse_eq_none.mp hnone)
    refine ⟨hread, fun token h => exposeText_of_parse h, ?_⟩
    intro hmac table pepper now fault hnone
    exact hread (TokenTable.authenticate_eq_none.mp hnone)

/-- Fifty-five bytes with the prefix, and a character of two bytes across the eighth one behind it. -/
def Sample.straddlingText : String := "cph_AAAAAAAé" ++ "AAAAAAAAAAAAAAAAAAAAAAAAAAAAAAAAAAAAAAAAAA"

theorem Sample.straddlingText_panics : ¬ ∀ text, Token.Exact text := by
  intro h
  have hnone : Token.parse Sample.straddlingText = none := by decide +kernel
  exact (h _).1 hnone

end Ciphr
