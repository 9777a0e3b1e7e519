import Ciphr.CorePath

/-!
`ciphr-core/src/pattern.rs`: the glob language policies are written in.
-/

namespace Ciphr

/-- One segment of a pattern: a literal, `*` or `**`. -/
inductive Segment where
  | literal (text : String)
  | one
  | rest
  deriving DecidableEq, Repr

/-- What a segment of a pattern text stands for. -/
def Segment.ofText (text : String) : Segment :=
  if text = "*" then .one else if text = "**" then .rest else .literal text

inductive PatternError where
  | empty
  | tooLong (limit found : Nat)
  | segmentTooLong (limit found : Nat)
  | emptySegment
  | relativeSegment (segment : String)
  | controlCharacter
  | whitespace
  | disallowedCharacter (character : Char)
  | partialWildcard (segment : String)
  | trailingMultiWildcardOnly
  deriving DecidableEq, Repr

/-- A normalized pattern. Its segments are those of its text, so the text is all of it. -/
structure PathPattern where
  segments : List Segment
  text : String
  segments_eq : segments = (Rust.splitChar '/' text).map Segment.ofText

namespace PathPattern

theorem eq_of_text_eq {a b : PathPattern} (h : a.text = b.text) : a = b := by
  obtain ⟨as, at', has⟩ := a
  obtain ⟨bs, bt, hbs⟩ := b
  simp only at h
  subst h has hbs
  rfl

instance : DecidableEq PathPattern := fun a b =>
  decidable_of_iff (a.text = b.text) ⟨eq_of_text_eq, fun h => by rw [h]⟩

def parseSegment (u : Unicode) (isLast : Bool) (segment : String) : Except PatternError Segment :=
  if segment = "*" then .ok .one
  else if segment = "**" then
    if isLast then .ok .rest else .error .trailingMultiWildcardOnly
  else do
    (u.inspectSegment segment).mapError fun problem =>
      match problem with
      | .empty => .emptySegment
      | .tooLong found => .segmentTooLong maxSegmentLen found
      | .relative => .relativeSegment segment
      | .control => .controlCharacter
      | .whitespace => .whitespace
      | .disallowed character => .disallowedCharacter character
    if segment.toList.contains '*' then .error (.partialWildcard segment)
    else .ok (.literal segment)

/-- The loop of `parse`, from segment number `index` on. -/
def parseSegments (u : Unicode) (last : Nat) : Nat → List String → Except PatternError (List Segment)
  | _, [] => .ok []
  | index, segment :: raw => do
      let first ← parseSegment u (index == last) segment
      let others ← parseSegments u last (index + 1) raw
      return first :: others

theorem parseSegment_eq_ok {u : Unicode} {isLast : Bool} {text : String} {segment : Segment}
    (h : parseSegment u isLast text = .ok segment) : segment = Segment.ofText text := by
  unfold parseSegment at h
  unfold Segment.ofText
  split at h
  · rename_i hone
    cases h
    rw [if_pos hone]
  · rename_i hone
    rw [if_neg hone]
    split at h
    · rename_i hrest
      rw [if_pos hrest]
      split at h
      · cases h
        rfl
      · cases h
    · rename_i hrest
      rw [if_neg hrest]
      cases hi : u.inspectSegment text with
      | error problem => simp [hi, Except.mapError, bind, Except.bind] at h
      | ok _ =>
          simp only [hi, Except.mapError, bind, Except.bind] at h
          split at h
          · cases h
          · cases h
            rfl

theorem parseSegments_eq_ok {u : Unicode} {last : Nat} (index : Nat) (raw : List String)
    {segments : List Segment} (h : parseSegments u last index raw = .ok segments) :
    segments = raw.map Segment.ofText := by
  induction raw generalizing index segments with
  | nil =>
      cases h
      rfl
  | cons text raw ih =>
      unfold parseSegments at h
      cases hfirst : parseSegment u (index == last) text with
      | error problem => simp [hfirst, bind, Except.bind] at h
      | ok first =>
          cases hothers : parseSegments u last (index + 1) raw with
          | error problem => simp [hfirst, hothers, bind, Except.bind] at h
          | ok others =>
              simp only [hfirst, hothers, bind, Except.bind, pure, Except.pure] at h
              cases h
              rw [List.map_cons, parseSegment_eq_ok hfirst, ih (index + 1) hothers]

def parse (u : Unicode) (input : String) : Except PatternError PathPattern :=
  let text := u.normalize input
  if text.isEmpty then .error .empty
  else if text.utf8ByteSize > maxPathLen then .error (.tooLong maxPathLen text.utf8ByteSize)
  else
    let raw := Rust.splitChar '/' text
    match h : parseSegments u (raw.length - 1) 0 raw with
    | .error error => .error error
    | .ok segments => .ok ⟨segments, text, parseSegments_eq_ok 0 raw h⟩

def namesReservedPrefix (pattern : PathPattern) : Bool :=
  match pattern.segments.head? with
  | some (.literal first) => first == reservedPrefix
  | _ => false

/-- The scan of `matches` over the segments of both sides. -/
def scan : List Segment → List String → Bool
  | .rest :: _, _ :: _ => true
  | [], [] => true
  | _ :: _, [] => false
  | [], _ :: _ => false
  | .one :: pattern, _ :: actual => scan pattern actual
  | .literal expected :: pattern, found :: actual =>
      if expected ≠ found then false else scan pattern actual

def matchesPath {u : Unicode} (pattern : PathPattern) (path : SecretPath u) : Bool :=
  scan pattern.segments path.segments

/-- The number of literal segments. -/
def specificity (pattern : PathPattern) : Nat :=
  (pattern.segments.filter fun segment =>
    match segment with
    | .literal _ => true
    | _ => false).length

end PathPattern

end Ciphr
