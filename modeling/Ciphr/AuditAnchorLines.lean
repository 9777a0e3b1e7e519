import Ciphr.AuditAnchorFile

/-!
The lines of an anchor file. What is written is one line that is read back, and the newest line that is
not blank decides alone: where it cannot be read, no older one stands in for it.
-/

namespace Ciphr

namespace Anchor

variable {json : AnchorJson}

/-- Nothing but whitespace. -/
def Blank (line : String) : Prop := ∀ c ∈ line.toList, Rust.isWhitespace c = true

/-- The line is the last one that is not blank. -/
def Newest (contents line : String) : Prop :=
  ∃ front rest, Rust.lines contents = front ++ line :: rest ∧ ¬Blank line ∧ ∀ other ∈ rest, Blank other

theorem not_blank_iff {line : String} : ¬Blank line ↔ (!(Rust.trim line).isEmpty) = true := by
  rw [Bool.not_eq_true', ← Bool.not_eq_true, Rust.trim_isEmpty_iff]
  rfl

/-! ### What is written -/

/-- A text without a line feed is one line. -/
theorem lines_of_not_mem {line : String} (hline : '\n' ∉ line.toList) (hne : line.toList ≠ []) :
    Rust.lines line = [line] := by
  unfold Rust.lines
  rw [Rust.splitInclusive_fragment hline hne, List.map_singleton]
  have hend : line.toList.getLast? ≠ some '\n' := by
    intro hlast
    exact hline (List.mem_of_getLast? hlast)
  unfold Rust.chomp
  rw [if_neg hend, String.ofList_toList]

theorem lines_encode (hjson : json.Lawful) {anchor : Anchor} (hfits : anchor.seq < 2 ^ 64) :
    Rust.lines (anchor.encode json) = [anchor.encode json] := by
  obtain ⟨-, hline, hend⟩ := encode_eq hjson hfits
  apply lines_of_not_mem hline
  intro hnil
  rw [hnil] at hend
  cases hend

/-! ### What is read -/

/-- Every text is nothing but blank lines, or has a newest line. -/
theorem blank_or_newest (contents : String) :
    (∀ line ∈ Rust.lines contents, Blank line) ∨ ∃ line, Newest contents line := by
  cases hfind : (Rust.lines contents).reverse.find? fun line => !(Rust.trim line).isEmpty with
  | none =>
      left
      intro line hline
      rw [List.find?_eq_none] at hfind
      by_contra hblank
      exact hfind line (List.mem_reverse.mpr hline) (not_blank_iff.mp hblank)
  | some line =>
      right
      obtain ⟨hline, before, after, hsplit, hbefore⟩ := List.find?_eq_some_iff_append.mp hfind
      refine ⟨line, after.reverse, before.reverse, ?_, not_blank_iff.mpr hline, ?_⟩
      · rw [← List.reverse_reverse (Rust.lines contents), hsplit, List.reverse_append,
          List.reverse_cons, List.append_assoc, List.singleton_append]
      · intro other hother
        by_contra hblank
        have hfalse := hbefore other (List.mem_reverse.mp hother)
        rw [not_blank_iff.mp hblank] at hfalse
        cases hfalse

theorem find?_eq_none_of_blank {lines : List String} (h : ∀ line ∈ lines, Blank line) :
    lines.find? (fun line => !(Rust.trim line).isEmpty) = none := by
  rw [List.find?_eq_none]
  intro line hline hnot
  exact not_blank_iff.mpr hnot (h line hline)

theorem latest_of_blank {contents : String} (h : ∀ line ∈ Rust.lines contents, Blank line) :
    latest json contents = .ok none := by
  unfold latest
  rw [find?_eq_none_of_blank fun line hline => h line (List.mem_reverse.mp hline)]

theorem latest_of_newest {contents line : String} (h : Newest contents line) :
    latest json contents = (parse json line).map some := by
  obtain ⟨front, rest, hlines, hline, hrest⟩ := h
  unfold latest
  rw [hlines, List.reverse_append, List.reverse_cons, List.append_assoc, List.find?_append,
    find?_eq_none_of_blank fun other hother => hrest other (List.mem_reverse.mp hother),
    Option.none_or, List.singleton_append,
    List.find?_cons_of_pos (p := fun line => !(Rust.trim line).isEmpty) (not_blank_iff.mp hline)]

theorem latest_eq_none_iff (contents : String) :
    latest json contents = .ok none ↔ ∀ line ∈ Rust.lines contents, Blank line := by
  refine ⟨fun hnone => ?_, latest_of_blank⟩
  rcases blank_or_newest contents with hblank | ⟨line, hnewest⟩
  · exact hblank
  · rw [latest_of_newest hnewest] at hnone
    cases hparse : parse json line with
    | error error =>
        rw [hparse] at hnone
        cases hnone
    | ok anchor =>
        rw [hparse] at hnone
        cases hnone

/-- What is written behind complete lines, and need not be complete itself, is the newest line. -/
theorem newest_append {text line : String} (htext : Complete text) (hline : '\n' ∉ line.toList)
    (hblank : ¬Blank line) : Newest (text ++ line) line := by
  have hne : line.toList ≠ [] := by
    intro hnil
    apply hblank
    intro c hc
    rw [hnil] at hc
    cases hc
  refine ⟨Rust.lines text, [], ?_, hblank, fun other hother => absurd hother List.not_mem_nil⟩
  have hpieces : Rust.splitInclusive '\n' (text ++ line).toList =
      Rust.splitInclusive '\n' text.toList ++ Rust.splitInclusive '\n' line.toList := by
    rw [String.toList_append]
    rcases htext with hnil | hlast
    · rw [hnil]
      rfl
    · obtain ⟨front, hfront⟩ := List.getLast?_eq_some_iff.mp hlast
      rw [hfront, List.append_assoc, List.singleton_append, Rust.splitInclusive_append_sep]
  rw [← lines_of_not_mem hline hne]
  unfold Rust.lines
  rw [hpieces, List.map_append]

/-- An anchor is one line that is read back; a file is read as its newest line that is not blank, and
holds no anchor exactly where all of its lines are blank; and what is damaged in that line is an error,
whatever stands before it. -/
theorem anchor_lines (json : AnchorJson) (hjson : json.Lawful) :
    (∀ anchor : Anchor, 0 < anchor.seq → anchor.seq < 2 ^ 64 →
      parse json (anchor.encode json) = .ok anchor ∧
      Rust.lines (anchor.encode json) = [anchor.encode json]) ∧
    (∀ contents, latest json contents = .ok none ↔ ∀ line ∈ Rust.lines contents, Blank line) ∧
    (∀ contents, (∀ line ∈ Rust.lines contents, Blank line) ∨ ∃ line, Newest contents line) ∧
    (∀ contents line, Newest contents line →
      latest json contents = (parse json line).map some) ∧
    ∀ text line error, Complete text → '\n' ∉ line.toList → ¬Blank line →
      parse json line = .error error → latest json (text ++ line) = .error error := by
  refine ⟨?_, latest_eq_none_iff, blank_or_newest, fun _ _ => latest_of_newest, ?_⟩
  · intro anchor hpos hfits
    exact ⟨parse_encode hjson hpos hfits, lines_encode hjson hfits⟩
  · intro text line error htext hline hblank hparse
    rw [latest_of_newest (newest_append htext hline hblank), hparse]
    rfl

end Anchor

namespace Sample

/-- An anchor that was taken at a time nobody could have meant. -/
def oddAnchor : Anchor := ⟨"a\"\\\n", 7, genesis⟩

theorem anchor_lines_odd :
    Anchor.parse anchorJson (oddAnchor.encode anchorJson) = .ok oddAnchor ∧
      Anchor.latest anchorJson " \n\t" = .ok none ∧
      Anchor.latest anchorJson (oddAnchor.encode anchorJson ++ "\n" ++ "\x7b\"anchor\":1") =
        .error (.malformed "expected value at line 1 column 1") := by
  obtain ⟨hround, hnone, -, -, htorn⟩ := Anchor.anchor_lines anchorJson anchorJson_lawful
  have hline := (hround oddAnchor (by decide) (by decide)).1
  refine ⟨hline, (hnone _).mpr ?_, ?_⟩
  · have hlines : ∀ line ∈ Rust.lines " \n\t", (Rust.trim line).isEmpty = true := by decide
    exact fun line hline => Rust.trim_isEmpty_iff.mp (hlines line hline)
  · apply htorn
    · right
      rw [String.toList_append]
      exact List.getLast?_concat
    · decide
    · rw [Anchor.not_blank_iff]
      decide
    · decide +kernel

end Sample

end Ciphr
