import Ciphr.CorePathGrammar
import Ciphr.SdkClient

/-!
`Client::url` of `ciphr-sdk/src/client.rs`, the characters that RFC 3986 has for a path and a query, and
what the routes of the service make of a URL: a wildcard behind a prefix, percent-decoded, and the pairs
of a form-encoded query.
-/

namespace Ciphr

/-! ### The characters of a URL -/

namespace Url

def isUnreserved (c : Char) : Bool := c.isAlphanum || "-._~".toList.contains c

def isSubDelim (c : Char) : Bool := "!$&\x27()*+,;=".toList.contains c

def isHexDigit (c : Char) : Bool := c.isDigit || "abcdefABCDEF".toList.contains c

/-- Unreserved characters, sub-delimiters, `:`, `@` and the further ones, and percent-encoded bytes. -/
def isText (further : List Char) : List Char → Bool
  | [] => true
  | '%' :: high :: low :: rest => isHexDigit high && isHexDigit low && isText further rest
  | c :: rest =>
      (isUnreserved c || isSubDelim c || c == ':' || c == '@' || further.contains c) &&
        isText further rest

/-- The path of a target and its query. -/
def parts (target : String) : String × Option String :=
  match Rust.splitOnce '?' target with
  | some (path, query) => (path, some query)
  | none => (target, none)

/-- The path has the characters of a path only, and the query those of a query. -/
def IsTarget (target : String) : Prop :=
  isText ['/'] (parts target).1.toList = true ∧
    ∀ query, (parts target).2 = some query → isText ['/', '?'] query.toList = true

/-! ### What the service reads -/

def hexValue (c : Char) : Option Nat :=
  if c.isDigit then some (c.toNat - 48)
  else if 'a' ≤ c && c ≤ 'f' then some (c.toNat - 87)
  else if 'A' ≤ c && c ≤ 'F' then some (c.toNat - 55)
  else none

/-- Percent-decoding: what is no escape stands for itself. -/
def percentDecode : List Char → List UInt8
  | [] => []
  | '%' :: high :: low :: rest =>
      match hexValue high, hexValue low with
      | some high, some low => UInt8.ofNat (high * 16 + low) :: percentDecode rest
      | _, _ => String.utf8EncodeChar '%' ++ percentDecode (high :: low :: rest)
  | c :: rest => String.utf8EncodeChar c ++ percentDecode rest

/-- A key or a value of a form-encoded query, if it is a text. -/
def formDecode (text : String) : Option String :=
  Rust.fromUtf8 (percentDecode (text.toList.map fun c => if c = '+' then ' ' else c))

def formPairs (query : String) : List (Option String × Option String) :=
  ((Rust.splitChar '&' query).filter (· ≠ "")).map fun pair =>
    match Rust.splitOnce '=' pair with
    | some (key, value) => (formDecode key, formDecode value)
    | none => (formDecode pair, some "")

/-- The `version` of a query, which may be there once: nothing where the query is refused. -/
def versionQuery (query : Option String) : Option VersionQuery :=
  match ((query.elim [] formPairs).filter (·.1 == some "version")) with
  | [] => some ⟨none⟩
  | [(_, value)] => (value.bind (Rust.parseUnsigned 32)).map fun number => ⟨some (.ofNat number)⟩
  | _ => none

/-- What `GET /v1/secrets/{*path}` is called with, if the target is of that route. -/
def readSecretRequest (target : String) : Option ApiRequest := do
  let raw ← Rust.stripPrefix "/v1/secrets/" (parts target).1
  let path ← Rust.fromUtf8 (percentDecode raw.toList)
  let query ← versionQuery (parts target).2
  some (.readSecret (.ok path) (.ok query))

end Url

/-! ### The client -/

namespace Client

variable {u : Unicode}

/-- `Client::url`. -/
def url (base : String) (segments : List String) (version : Option SecretVersion) : String :=
  let url := base ++ "/v1/" ++ "/".intercalate segments
  match version with
  | some version => url ++ "?version=" ++ toString version.number
  | none => url

/-- The service reads the path and the version that the URL was made of. -/
def Received (target : String) (path : SecretPath u) (version : Option SecretVersion) : Prop :=
  ∃ query, Url.readSecretRequest target = some (.readSecret (.ok path.text) (.ok query)) ∧
    query.parsed = .ok version

/-- The URL of a secret is a valid one, and is read as what it was made of. -/
def Travels (base : String) (path : SecretPath u) (version : Option SecretVersion) : Prop :=
  ∃ target, url base ["secrets", path.text] version = base ++ target ∧ Url.IsTarget target ∧
    Received target path version

end Client

/-! ### Characters that stand for themselves -/

/-- A character is a separator or in one of the pieces. -/
theorem mem_splitOnP {p : Char → Bool} {c : Char} {chars : List Char} (hc : c ∈ chars) :
    p c = true ∨ ∃ piece ∈ chars.splitOnP p, c ∈ piece := by
  induction chars with
  | nil => cases hc
  | cons x chars ih =>
      rw [List.splitOnP_cons_eq_if_modifyHead]
      obtain ⟨first, others, hpieces⟩ := List.exists_cons_of_ne_nil (List.splitOnP_ne_nil p chars)
      by_cases hx : p x = true
      · rw [if_pos hx]
        rcases List.mem_cons.mp hc with rfl | hlater
        · exact .inl hx
        · rcases ih hlater with hsep | ⟨piece, hpiece, hmem⟩
          · exact .inl hsep
          · exact .inr ⟨piece, .tail _ hpiece, hmem⟩
      · rw [if_neg hx]
        rw [hpieces] at ih ⊢
        rw [List.modifyHead_cons]
        rcases List.mem_cons.mp hc with rfl | hlater
        · exact .inr ⟨_, .head _, .head _⟩
        · rcases ih hlater with hsep | ⟨piece, hpiece, hmem⟩
          · exact .inl hsep
          · rcases List.mem_cons.mp hpiece with rfl | hothers
            · exact .inr ⟨_, .head _, .tail _ hmem⟩
            · exact .inr ⟨piece, .tail _ hothers, hmem⟩

namespace Unicode

/-- On ASCII the letters and digits are the ASCII ones. -/
def AsciiExact (u : Unicode) : Prop := ∀ c : Char, c.toNat < 128 → u.isAlphanumeric c = c.isAlphanum

end Unicode

namespace SecretPath

variable {u : Unicode}

/-- The characters of a path. -/
theorem mem_text {path : SecretPath u} {c : Char} (hc : c ∈ path.text.toList) :
    c = '/' ∨ u.isAlphanumeric c = true ∨ c = '-' ∨ c = '_' ∨ c = '.' := by
  rcases mem_splitOnP (p := (· == '/')) hc with hsep | ⟨piece, hpiece, hmem⟩
  · exact .inl (by simpa using hsep)
  right
  have hsegment : String.ofList piece ∈ path.segments := List.mem_map_of_mem hpiece
  obtain ⟨hinspect, hstar⟩ := PathPattern.isLiteral_of_mem hsegment
  rw [String.toList_ofList] at hstar
  have hne : c ≠ '*' := fun heq => hstar (heq ▸ hmem)
  have hallowed : u.isAllowed c = true := by
    unfold Unicode.inspectSegment at hinspect
    split at hinspect
    · cases hinspect
    · split at hinspect
      · cases hinspect
      · split at hinspect
        · cases hinspect
        · rw [String.toList_ofList] at hinspect
          exact (Unicode.inspectCharacters_iff.mp hinspect c hmem).2.2
  unfold Unicode.isAllowed at hallowed
  simpa [hne, or_assoc] using hallowed

/-- An ASCII character that is neither a letter nor a digit nor one of the signs is in no path. -/
theorem not_mem_text (hascii : u.AsciiExact) (path : SecretPath u) {c : Char} (hlt : c.toNat < 128)
    (hletter : c.isAlphanum = false) (hsigns : c ∉ ['/', '-', '_', '.']) : c ∉ path.text.toList := by
  intro hmem
  rcases mem_text hmem with rfl | h | rfl | rfl | rfl
  · exact hsigns (by simp)
  · rw [hascii c hlt, hletter] at h
    cases h
  · exact hsigns (by simp)
  · exact hsigns (by simp)
  · exact hsigns (by simp)

end SecretPath

namespace Url

/-- Without a percent sign there is nothing to decode. -/
theorem percentDecode_plain {chars : List Char} (h : '%' ∉ chars) :
    percentDecode chars = chars.flatMap String.utf8EncodeChar := by
  induction chars with
  | nil => rfl
  | cons c chars ih =>
      rw [List.mem_cons, not_or] at h
      rw [List.flatMap_cons, ← ih h.2]
      exact percentDecode.eq_3 c chars fun _ _ _ heq => absurd heq.symm h.1

/-- Without a percent sign a text is itself. -/
theorem fromUtf8_percentDecode {text : String} (h : '%' ∉ text.toList) :
    Rust.fromUtf8 (percentDecode text.toList) = some text := by
  have hbytes : percentDecode text.toList = text.toUTF8.data.toList := by
    rw [percentDecode_plain h]
    have hencoded := String.ofList_toList (s := text)
    calc text.toList.flatMap String.utf8EncodeChar
        = (String.ofList text.toList).toUTF8.data.toList := by simp [String.ofList, List.utf8Encode]
      _ = text.toUTF8.data.toList := by rw [hencoded]
  rw [hbytes, Rust.fromUtf8_toUTF8]

/-- Without a percent sign the characters are looked at one by one. -/
theorem isText_plain {further chars : List Char} (h : '%' ∉ chars) : isText further chars = true ↔
    ∀ c ∈ chars, (isUnreserved c || isSubDelim c || c == ':' || c == '@' || further.contains c) = true := by
  induction chars with
  | nil => simp [isText]
  | cons c chars ih =>
      rw [List.mem_cons, not_or] at h
      rw [List.forall_mem_cons, ← ih h.2,
        isText.eq_3 further c chars fun _ _ _ heq => absurd heq.symm h.1, Bool.and_eq_true]

/-! ### Targets -/

theorem splitOnce_of_not_mem {sep : Char} {text : String} (h : sep ∉ text.toList) :
    Rust.splitOnce sep text = none := by
  unfold Rust.splitOnce
  rw [if_neg (by simpa using h)]

theorem splitOnce_append {sep : Char} {front back : String} (h : sep ∉ front.toList) :
    Rust.splitOnce sep (front ++ String.singleton sep ++ back) = some (front, back) := by
  have htext : (front ++ String.singleton sep ++ back).toList =
      front.toList ++ sep :: back.toList := by
    simp
  have hall : ∀ c ∈ front.toList, (c != sep) = true := by
    intro c hc
    rw [bne_iff_ne]
    rintro rfl
    exact h hc
  unfold Rust.splitOnce
  rw [htext, if_pos (by simp), List.takeWhile_append_of_pos hall, List.dropWhile_append_of_pos hall]
  simp

theorem splitChar_of_not_mem {sep : Char} {text : String} (h : sep ∉ text.toList) :
    Rust.splitChar sep text = [text] := by
  have hone : text.toList.splitOn sep = [text.toList] := by
    apply List.splitOnP_eq_singleton
    intro c hc
    rw [beq_eq_false_iff_ne]
    rintro rfl
    exact h hc
  rw [Rust.splitChar, hone, List.map_singleton, String.ofList_toList]

theorem not_mem_toString {n : Nat} {c : Char} (h : c.isDigit = false) : c ∉ (toString n).toList := by
  intro hmem
  rw [Rust.isDigit_of_mem_toString hmem] at h
  cases h

/-- A number is read as it was written. -/
theorem versionQuery_of_number (version : SecretVersion) :
    versionQuery (some ("version=" ++ toString version.number)) =
      some ⟨some (.ofNat version.number)⟩ := by
  have hkey : formDecode "version" = some "version" := by decide +kernel
  have hvalue : formDecode (toString version.number) = some (toString version.number) := by
    have hplus : (toString version.number).toList.map (fun c => if c = '+' then ' ' else c) =
        (toString version.number).toList := by
      rw [List.map_congr_left, List.map_id']
      intro c hc
      rw [if_neg]
      rintro rfl
      exact not_mem_toString (by decide) hc
    unfold formDecode
    rw [hplus, fromUtf8_percentDecode (not_mem_toString (by decide))]
  have hpairs : formPairs ("version=" ++ toString version.number) =
      [(some "version", some (toString version.number))] := by
    have hwhole : '&' ∉ ("version=" ++ toString version.number).toList := by
      rw [String.toList_append, List.mem_append, not_or]
      exact ⟨by decide, not_mem_toString (by decide)⟩
    have hsplit : Rust.splitOnce '=' ("version=" ++ toString version.number) =
        some ("version", toString version.number) := by
      have hkeyed : "version=" = "version" ++ String.singleton '=' := by decide +kernel
      rw [hkeyed]
      exact splitOnce_append (by decide)
    have hsome : ("version=" ++ toString version.number) ≠ "" := by
      intro hempty
      have hlength := congrArg (·.toList.length) hempty
      simp at hlength
    unfold formPairs
    rw [splitChar_of_not_mem hwhole]
    simp only [List.filter_cons, hsome, ne_eq, not_false_eq_true, decide_true, if_true, List.filter_nil,
      List.map_cons, List.map_nil, hsplit, hkey, hvalue]
  have hnumber := Rust.parseUnsigned_toString 32 version.number version.lt
  have hfilter : [(some "version", some (toString version.number))].filter (·.1 == some "version") =
      [(some "version", some (toString version.number))] := List.filter_singleton.trans rfl
  unfold versionQuery
  simp only [Option.elim_some, hpairs, hfilter, Option.bind_some, hnumber, Option.map_some]

/-- The characters of a URL are ASCII characters. -/
theorem ascii_of_allowed {c : Char} (h : (isUnreserved c || isSubDelim c || c == ':' || c == '@' ||
    ['/'].contains c) = true) : c.toNat < 128 := by
  have hletter : c.isAlphanum = true → c.toNat < 128 := by
    intro hc
    have hranges : (decide (c.val ≥ 65 ∧ c.val ≤ 90) ||
        decide (c.val ≥ 97) && decide (c.val ≤ 122) ||
        decide (c.val ≥ 48) && decide (c.val ≤ 57)) = true := hc
    simp only [Bool.or_eq_true, Bool.and_eq_true, decide_eq_true_eq, ge_iff_le,
      UInt32.le_iff_toNat_le] at hranges
    change ((65 ≤ c.toNat ∧ c.toNat ≤ 90) ∨ (97 ≤ c.toNat ∧ c.toNat ≤ 122)) ∨
      (48 ≤ c.toNat ∧ c.toNat ≤ 57) at hranges
    omega
  have hlisted : ∀ signs : List Char, signs.all (·.toNat < 128) = true → signs.contains c = true →
      c.toNat < 128 := by
    intro signs hall hmem
    simpa using List.all_eq_true.mp hall c (List.contains_iff_mem.mp hmem)
  unfold isUnreserved isSubDelim at h
  simp only [Bool.or_eq_true, beq_iff_eq] at h
  rcases h with ((((h | h) | h) | rfl) | rfl) | h
  · exact hletter h
  · exact hlisted _ (by decide) h
  · exact hlisted _ (by decide) h
  · decide
  · decide
  · exact hlisted _ (by decide) h

end Url

namespace Client

variable {u : Unicode}

/-- What stands behind the path. -/
def querySuffix (version : Option SecretVersion) : String :=
  version.elim "" fun version => "?version=" ++ toString version.number

theorem url_eq (base : String) (path : SecretPath u) (version : Option SecretVersion) :
    url base ["secrets", path.text] version =
      base ++ ("/v1/secrets/" ++ path.text ++ querySuffix version) := by
  have hjoin : "/v1/" ++ "/".intercalate ["secrets", path.text] = "/v1/secrets/" ++ path.text := by
    calc "/v1/" ++ "/".intercalate ["secrets", path.text]
        = "/v1/" ++ ("secrets" ++ "/" ++ path.text) := rfl
      _ = "/v1/" ++ "secrets" ++ "/" ++ path.text := by simp only [String.append_assoc]
      _ = "/v1/secrets/" ++ path.text := by
          rw [show "/v1/" ++ "secrets" ++ "/" = "/v1/secrets/" by decide +kernel]
  have hfront : base ++ "/v1/" ++ "/".intercalate ["secrets", path.text] =
      base ++ ("/v1/secrets/" ++ path.text) := by
    rw [← hjoin, String.append_assoc]
  unfold url querySuffix
  dsimp only
  rw [hfront]
  cases version with
  | none => simp only [Option.elim_none, String.append_empty]
  | some version => simp only [Option.elim_some, String.append_assoc]

theorem target_eq {base target : String} {path : SecretPath u} {version : Option SecretVersion}
    (h : url base ["secrets", path.text] version = base ++ target) :
    "/v1/secrets/" ++ path.text ++ querySuffix version = target := by
  rw [url_eq] at h
  have hlists : base.toList ++ _ = base.toList ++ _ :=
    String.toList_append.symm.trans ((congrArg String.toList h).trans String.toList_append)
  exact String.toList_inj.mp (List.append_cancel_left hlists)

theorem parts_target (hascii : u.AsciiExact) (path : SecretPath u) (version : Option SecretVersion) :
    Url.parts ("/v1/secrets/" ++ path.text ++ querySuffix version) =
      ("/v1/secrets/" ++ path.text, version.map fun version => "version=" ++ toString version.number) := by
  have hplain : '?' ∉ ("/v1/secrets/" ++ path.text).toList := by
    rw [String.toList_append, List.mem_append, not_or]
    exact ⟨by decide, SecretPath.not_mem_text hascii path (by decide) (by decide) (by decide)⟩
  unfold Url.parts querySuffix
  cases version with
  | none => rw [Option.elim_none, String.append_empty, Url.splitOnce_of_not_mem hplain, Option.map_none]
  | some version =>
      have hmark : "?version=" = String.singleton '?' ++ "version=" := by decide +kernel
      have htext : "/v1/secrets/" ++ path.text ++ ("?version=" ++ toString version.number) =
          "/v1/secrets/" ++ path.text ++ String.singleton '?' ++ ("version=" ++ toString version.number) := by
        rw [hmark]
        simp only [String.append_assoc]
      rw [Option.elim_some, htext, Url.splitOnce_append hplain, Option.map_some]

theorem received (hascii : u.AsciiExact) (path : SecretPath u) (version : Option SecretVersion) :
    Received ("/v1/secrets/" ++ path.text ++ querySuffix version) path version := by
  have hdecoded : Rust.fromUtf8 (Url.percentDecode path.text.toList) = some path.text :=
    Url.fromUtf8_percentDecode (SecretPath.not_mem_text hascii path (by decide) (by decide) (by decide))
  have hroute : Rust.stripPrefix "/v1/secrets/" ("/v1/secrets/" ++ path.text) = some path.text :=
    Rust.stripPrefix_eq_some.mpr rfl
  unfold Received Url.readSecretRequest
  rw [parts_target hascii]
  cases version with
  | none => exact ⟨⟨none⟩, by simp only [hroute, hdecoded, Option.bind_eq_bind, Option.bind_some]; rfl, rfl⟩
  | some version =>
      refine ⟨⟨some (.ofNat version.number)⟩, ?_, ?_⟩
      · simp only [Option.map_some, Url.versionQuery_of_number, hroute, hdecoded, Option.bind_eq_bind,
          Option.bind_some]
      · have hnumber : (UInt32.ofNat version.number).toNat = version.number := by
          rw [UInt32.toNat_ofNat']
          exact Nat.mod_eq_of_lt version.lt
        have hnew : SecretVersion.new (.ofNat version.number) = some version := by
          unfold SecretVersion.new
          rw [dif_neg (by rw [hnumber]; exact Nat.pos_iff_ne_zero.mp version.pos)]
          exact congrArg some (SecretVersion.ext hnumber)
        unfold VersionQuery.parsed
        dsimp only
        rw [hnew]

/-- A path has the characters of a URL exactly if it is an ASCII text. -/
theorem isTarget_iff (hascii : u.AsciiExact) (path : SecretPath u) (version : Option SecretVersion) :
    Url.IsTarget ("/v1/secrets/" ++ path.text ++ querySuffix version) ↔
      ∀ c ∈ path.text.toList, c.toNat < 128 := by
  have hplain : '%' ∉ ("/v1/secrets/" ++ path.text).toList := by
    rw [String.toList_append, List.mem_append, not_or]
    exact ⟨by decide, SecretPath.not_mem_text hascii path (by decide) (by decide) (by decide)⟩
  unfold Url.IsTarget
  rw [parts_target hascii, Url.isText_plain hplain]
  constructor
  · rintro ⟨hpath, -⟩ c hc
    exact Url.ascii_of_allowed (hpath c (by rw [String.toList_append]; exact List.mem_append_right _ hc))
  · intro hall
    constructor
    · intro c hc
      rw [String.toList_append, List.mem_append] at hc
      rcases hc with hc | hc
      · have hroute : "/v1/secrets/".toList.all (fun c => Url.isUnreserved c || Url.isSubDelim c ||
            c == ':' || c == '@' || ['/'].contains c) = true := by decide +kernel
        exact List.all_eq_true.mp hroute c hc
      · unfold Url.isUnreserved
        rcases SecretPath.mem_text hc with rfl | hletter | rfl | rfl | rfl
        · decide
        · rw [hascii c (hall c hc)] at hletter
          rw [hletter]
          rfl
        · decide
        · decide
        · decide
    · intro query hquery
      obtain ⟨version, -, rfl⟩ := Option.map_eq_some_iff.mp hquery
      have hdigits : '%' ∉ ("version=" ++ toString version.number).toList := by
        rw [String.toList_append, List.mem_append, not_or]
        exact ⟨by decide, Url.not_mem_toString (by decide)⟩
      rw [Url.isText_plain hdigits]
      intro c hc
      rw [String.toList_append, List.mem_append] at hc
      rcases hc with hc | hc
      · have hkey : "version=".toList.all (fun c => Url.isUnreserved c || Url.isSubDelim c ||
            c == ':' || c == '@' || ['/', '?'].contains c) = true := by decide +kernel
        exact List.all_eq_true.mp hkey c hc
      · have hdigit := Rust.isDigit_of_mem_toString hc
        have hletter : c.isAlphanum = true := Bool.or_eq_true_iff.mpr (.inr hdigit)
        unfold Url.isUnreserved
        rw [hletter]
        rfl

/-- The service reads every URL as the path and the version it was made of. The URL is a valid one
exactly if the path is an ASCII text. -/
theorem travels_iff (hascii : u.AsciiExact) (base : String) (path : SecretPath u)
    (version : Option SecretVersion) :
    (∃ target, url base ["secrets", path.text] version = base ++ target ∧ Received target path version) ∧
      (Travels base path version ↔ ∀ c ∈ path.text.toList, c.toNat < 128) := by
  refine ⟨⟨_, url_eq base path version, received hascii path version⟩, ?_⟩
  rw [← isTarget_iff hascii path version]
  constructor
  · rintro ⟨target, hurl, htarget, -⟩
    rw [target_eq hurl]
    exact htarget
  · intro htarget
    exact ⟨_, url_eq base path version, htarget, received hascii path version⟩

end Client

namespace Sample

/-- The Unicode functions on ASCII text and one letter more. -/
def latinUnicode : Unicode where
  isAlphanumeric := fun c => c.isAlphanum || c == 'ü'
  isNfcQuick := fun _ => .yes
  nfc := id

def umlautPath : SecretPath latinUnicode := ⟨"infra/schlüssel", "infra/schlüssel", by decide +kernel⟩

/-- A letter that RFC 3986 does not have goes into the URL as it is. -/
theorem umlautPath_not_travels : latinUnicode.AsciiExact ∧
    ¬ Client.Travels "https://ciphr.test" umlautPath none := by
  constructor
  · intro c hlt
    have hne : (c == 'ü') = false := by
      rw [beq_eq_false_iff_ne]
      rintro rfl
      exact absurd hlt (by decide)
    show (c.isAlphanum || c == 'ü') = c.isAlphanum
    rw [hne, Bool.or_false]
  · rintro ⟨target, hurl, htarget, -⟩
    rw [← Client.target_eq hurl] at htarget
    have hparts : Url.isText ['/'] (Url.parts ("/v1/secrets/" ++ umlautPath.text ++
        Client.querySuffix none)).1.toList = false := by
      decide +kernel
    exact absurd htarget.1 (by rw [hparts]; decide)

theorem dbPassword_travels : Client.Travels "https://ciphr.test" dbPassword (some .first) := by
  have hascii : dbPassword.text.toList.all (·.toNat < 128) = true := by decide +kernel
  refine (Client.travels_iff (fun _ _ => rfl) "https://ciphr.test" dbPassword (some .first)).2.mpr ?_
  intro c hc
  simpa using List.all_eq_true.mp hascii c hc

end Sample

end Ciphr
