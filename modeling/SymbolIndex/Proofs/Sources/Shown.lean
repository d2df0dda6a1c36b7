import SymbolIndex.Preview
import SymbolIndex.Proofs.Text.Lines

/-!
# What locations show

Beside an entry stand the lines that its location leads to, as they are in its file. An anchor leads
to the first line that it fits, and from there on nothing tells it from the number of that line.
Where there are no lines to show there is still something else.

* `previewLines_line`, `previewLines_anchor`: the lines from some place on;
* `previewLines_lost`, `previewLines_beyond`, `previewLines_none_eq_nil_iff`: where there are none;
* `preview_of_lines`, `preview_of_error`, `preview_ne_empty`: what is shown of them;
* `Shows`, `preview_shows`: what is shown for each location.
-/

namespace SymbolIndex

open Text

/-! ## Lines from some place on -/

section Lines

variable {text line : List Char} {before after : List (List Char)}
  (hsplit : linesInclusive text = before ++ line :: after)

include hsplit

theorem previewLines_line {n : UInt32} (hn : n.toNat = before.length + 1) :
    previewLines (some (.line n)) text = ((line :: after).take previewLength).flatten := by
  have hzero : n ≠ 0 := by
    rintro rfl
    rw [UInt32.toNat_zero] at hn
    omega
  rw [previewLines, if_neg hzero, hsplit, hn, Nat.add_sub_cancel, List.drop_left]

theorem previewLines_anchor {boundary : Char} {body : String} {p : LinePattern}
    (hp : (Location.anchor boundary body).pattern? = some p)
    (hbefore : ∀ earlier ∈ before, p.fits (bareLine earlier) = false)
    (hline : p.fits (bareLine line) = true) :
    previewLines (some (.anchor boundary body)) text =
      ((line :: after).take previewLength).flatten := by
  have hfound : fromFitting p (linesInclusive text) = line :: after := by
    rw [fromFitting, hsplit,
      List.dropWhile_append_of_pos fun earlier he => by simp [hbefore earlier he],
      List.dropWhile_cons_of_neg (by simp [hline])]
  rw [previewLines]
  simp only [Option.some.inj hp, hfound]

theorem flatten_lines_ne_nil : ((line :: after).take previewLength).flatten ≠ [] := by
  have hne : line ≠ [] := (areLines_linesInclusive text).ne_nil (by
    rw [hsplit]
    exact List.mem_append_right _ List.mem_cons_self)
  rw [previewLength, List.take_succ_cons, List.flatten_cons]
  exact List.append_ne_nil_of_left_ne_nil hne _

theorem flatten_lines_isInfix : ((line :: after).take previewLength).flatten <:+: text := by
  have htext : before.flatten ++ (line :: after).flatten = text := by
    rw [← List.flatten_append, ← hsplit, flatten_linesInclusive]
  have hrest : (line :: after).flatten = ((line :: after).take previewLength).flatten ++
      ((line :: after).drop previewLength).flatten := by
    rw [← List.flatten_append, List.take_append_drop]
  exact ⟨before.flatten, ((line :: after).drop previewLength).flatten, by
    rw [List.append_assoc, ← hrest, htext]⟩

end Lines

/-- An anchor that fits no line shows what it looks for. -/
theorem previewLines_lost {boundary : Char} {body : String} {p : LinePattern}
    (hp : (Location.anchor boundary body).pattern? = some p) {text : List Char}
    (h : ∀ line ∈ linesInclusive text, p.fits (bareLine line) = false) :
    previewLines (some (.anchor boundary body)) text = p.text := by
  have hfound : fromFitting p (linesInclusive text) = [] :=
    List.dropWhile_eq_nil_iff.mpr fun line hl => by simp [h line hl]
  rw [previewLines]
  simp only [Option.some.inj hp, hfound]

theorem previewLines_beyond {text : List Char} {n : UInt32}
    (h : n = 0 ∨ (linesInclusive text).length < n.toNat) :
    previewLines (some (.line n)) text = [] := by
  rw [previewLines]
  split_ifs with hn
  · rfl
  · have hbeyond : (linesInclusive text).length ≤ n.toNat - 1 :=
      Nat.le_sub_one_of_lt (h.resolve_left hn)
    rw [List.drop_eq_nil_of_le hbeyond, List.take_nil, List.flatten_nil]

theorem previewLines_none_eq_nil_iff {text : List Char} :
    previewLines none text = [] ↔ text = [] := by
  cases hls : linesInclusive text with
  | nil =>
    have htext : text = [] := by rw [← flatten_linesInclusive text, hls, List.flatten_nil]
    exact iff_of_true (by rw [htext]; rfl) htext
  | cons line after =>
    have hsplit : linesInclusive text = [] ++ line :: after := hls
    refine iff_of_false ?_ ?_
    · rw [previewLines, hls]
      exact flatten_lines_ne_nil hsplit
    · rintro rfl
      cases hls

/-! ## What is shown of them -/

section Previews

variable {files : FileTree} {root : String} {e : Entry} {content : ByteArray}

theorem preview_of_read (h : files.read (Path.resolve root e.file) = .ok content) :
    preview files root e = previewOf e content := by
  unfold preview
  rw [h]

theorem preview_of_error {err : OsError} (h : files.read (Path.resolve root e.file) = .error err) :
    preview files root e = previewFallback e := by
  unfold preview
  rw [h]

theorem preview_of_lines (h : files.read (Path.resolve root e.file) = .ok content) :
    preview files root e =
      if previewLines e.location (decodeLossy content) = [] then previewFallback e
      else String.ofList (previewLines e.location (decodeLossy content)) := by
  rw [preview_of_read h, previewOf]
  split
  · next hnil => rw [if_pos hnil]
  · next hsome => rw [if_neg hsome]

theorem previewFallback_ne_empty (e : Entry) : previewFallback e ≠ "" := by
  simp [previewFallback]

/-- **There is always something to show.** -/
theorem preview_ne_empty (files : FileTree) (root : String) (e : Entry) :
    preview files root e ≠ "" := by
  cases h : files.read (Path.resolve root e.file) with
  | error err =>
    rw [preview_of_error h]
    exact previewFallback_ne_empty e
  | ok content =>
    rw [preview_of_lines h]
    split_ifs with hnil
    · exact previewFallback_ne_empty e
    · simpa using hnil

end Previews

/-! ## Locations -/

/-- What is shown beside an entry, for each location that it may have. -/
structure Shows (files : FileTree) (root : String) (e : Entry) : Prop where
  /-- an anchor shows what the number of the first line shows that it fits without its end: up to
  five lines from there on, as they stand in the text -/
  anchored : ∀ content boundary body p before line after,
    files.read (Path.resolve root e.file) = .ok content →
    (Location.anchor boundary body).pattern? = some p →
    linesInclusive (decodeLossy content) = before ++ line :: after →
    (∀ earlier ∈ before, p.fits (bareLine earlier) = false) → p.fits (bareLine line) = true →
    before.length + 1 < UInt32.size →
    ∃ shown, shown <:+: decodeLossy content ∧ shown = ((line :: after).take 5).flatten ∧
      preview files root { e with location := some (.anchor boundary body) } =
        String.ofList shown ∧
      preview files root { e with location := some (.line (UInt32.ofNat (before.length + 1))) } =
        String.ofList shown
  /-- an anchor that fits no line shows what it looks for, if that is anything -/
  lost : ∀ content boundary body p,
    files.read (Path.resolve root e.file) = .ok content →
    (Location.anchor boundary body).pattern? = some p →
    (∀ line ∈ linesInclusive (decodeLossy content), p.fits (bareLine line) = false) →
    preview files root { e with location := some (.anchor boundary body) } =
      if p.text = [] then previewFallback { e with location := some (.anchor boundary body) }
      else String.ofList p.text
  /-- no line has the number zero -/
  zero : preview files root { e with location := some (.line 0) } =
    previewFallback { e with location := some (.line 0) }
  /-- or one behind that of the last line -/
  beyond : ∀ content n, files.read (Path.resolve root e.file) = .ok content →
    (linesInclusive (decodeLossy content)).length < n.toNat →
    preview files root { e with location := some (.line n) } =
      previewFallback { e with location := some (.line n) }
  /-- no location shows the first lines, if there are any -/
  first : ∀ content, files.read (Path.resolve root e.file) = .ok content →
    preview files root { e with location := none } =
      if decodeLossy content = [] then previewFallback { e with location := none }
      else String.ofList ((linesInclusive (decodeLossy content)).take 5).flatten
  unreadable : ∀ err location, files.read (Path.resolve root e.file) = .error err →
    preview files root { e with location } = previewFallback { e with location }
  ne_empty : ∀ location, preview files root { e with location } ≠ ""

/-- **What is shown for each location**: an anchor and the number of the line that it leads to show
the same. -/
theorem preview_shows (files : FileTree) (root : String) (e : Entry) : Shows files root e where
  anchored content boundary body p before line after hread hp hsplit hbefore hline hsmall := by
    have hne := flatten_lines_ne_nil hsplit
    have hnumber : (UInt32.ofNat (before.length + 1)).toNat = before.length + 1 :=
      UInt32.toNat_ofNat_of_lt' hsmall
    have hanchor := previewLines_anchor hsplit hp hbefore hline
    have hnumbered := previewLines_line hsplit hnumber
    refine ⟨_, flatten_lines_isInfix hsplit, rfl, ?_, ?_⟩
    · rw [preview_of_lines (by exact hread), hanchor, if_neg hne]
    · rw [preview_of_lines (by exact hread), hnumbered, if_neg hne]
  lost content boundary body p hread hp hnone := by
    rw [preview_of_lines (by exact hread), previewLines_lost hp hnone]
  zero := by
    cases hread : files.read (Path.resolve root e.file) with
    | error err => exact preview_of_error (by exact hread)
    | ok content =>
      rw [preview_of_lines (by exact hread), previewLines_beyond (.inl rfl), if_pos rfl]
  beyond content n hread hn := by
    rw [preview_of_lines (by exact hread), previewLines_beyond (.inr hn), if_pos rfl]
  first content hread := by
    rw [preview_of_lines (by exact hread)]
    exact if_congr previewLines_none_eq_nil_iff rfl rfl
  unreadable err location hread := preview_of_error hread
  ne_empty location := preview_ne_empty files root _

end SymbolIndex
