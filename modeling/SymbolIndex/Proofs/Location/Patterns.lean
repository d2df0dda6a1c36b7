import SymbolIndex.Proofs.Location.Escapes
import SymbolIndex.Proofs.Text.Words

/-!
# Lines that anchors pin down

Every text can be written as an anchor, with a backslash in front of every special character. With
a `^` in front and a `$` at the end the anchor fits the lines that are the text, with one of them
those that begin or end with it, and with neither those that hold it.

* `LinePattern.Says`, `LinePattern.fits_iff`: the lines that a pattern fits;
* `escape`, `pinned`: texts as bodies of anchors;
* `symbols_pinned`, `ofSymbols_pinned`: what such a body is made of, and its pattern;
* `Pins`, `anchors_pin`: the lines that the four anchors of a text fit.
-/

namespace SymbolIndex

/-! ## The lines that a pattern fits -/

/-- What a pattern says about a line: that it is the text, begins with it, ends with it or holds
it. -/
def LinePattern.Says (p : LinePattern) (line : List Char) : Prop :=
  match p.atStart, p.atEnd with
  | true, true => line = p.text
  | true, false => p.text <+: line
  | false, true => p.text <:+ line
  | false, false => p.text <:+: line

theorem LinePattern.fits_iff (p : LinePattern) (line : List Char) :
    p.fits line = true ↔ p.Says line := by
  rw [fits, Says]
  cases p.atStart <;> cases p.atEnd
  · exact Text.occurs_iff
  · exact List.isSuffixOf_iff_suffix
  · exact List.isPrefixOf_iff_prefix
  · exact beq_iff_eq

namespace Location

/-! ## Texts as bodies -/

/-- The text with a backslash in front of every special character. -/
def escape (boundary : Char) (text : List Char) : List Char :=
  text.flatMap fun c => if c ∈ special boundary then ['\\', c] else [c]

/-- The symbol that a character of a text is written as. -/
def symbolOf (boundary c : Char) : Symbol :=
  if c ∈ special boundary then .escaped c else .plain c

/-- The text as a body, with marks where the line has to begin and to end with it. -/
def pinned (boundary : Char) (start stop : Bool) (text : List Char) : List Char :=
  (if start then ['^'] else []) ++ escape boundary text ++ (if stop then ['$'] else [])

/-- The symbols of such a body. -/
def pinnedSymbols (boundary : Char) (start stop : Bool) (text : List Char) : List Symbol :=
  (if start then [.plain '^'] else []) ++ text.map (symbolOf boundary) ++
    (if stop then [.plain '$'] else [])

variable {boundary : Char}

theorem symbols_escape (text more : List Char) :
    symbols boundary (escape boundary text ++ more) =
      text.map (symbolOf boundary) ++ symbols boundary more := by
  induction text with
  | nil => rfl
  | cons c text ih =>
    rw [escape, List.flatMap_cons, ← escape, List.append_assoc, List.map_cons, symbolOf,
      List.cons_append, ← ih]
    by_cases hc : c ∈ special boundary
    · rw [if_pos hc, if_pos hc, List.cons_append, List.singleton_append, symbols_escaped hc]
    · have hbackslash : c ≠ '\\' := fun h => hc (by simp [h, special])
      rw [if_neg hc, if_neg hc, List.singleton_append, symbols_plain hbackslash]

theorem symbols_pinned (boundary : Char) (start stop : Bool) (text more : List Char) :
    symbols boundary (pinned boundary start stop text ++ more) =
      pinnedSymbols boundary start stop text ++ symbols boundary more := by
  cases start <;> cases stop <;>
    simp [pinned, pinnedSymbols, symbols_escape, symbols_plain]

theorem plain_not_mem (boundary : Char) {d : Char} (hd : d ∈ special boundary)
    (text : List Char) :
    .plain d ∉ text.map (symbolOf boundary) := by
  rw [List.mem_map]
  rintro ⟨c, -, hc⟩
  rw [symbolOf] at hc
  split at hc
  · cases hc
  · next hplain => exact hplain (Symbol.plain.inj hc ▸ hd)

theorem map_char_symbolOf (boundary : Char) (text : List Char) :
    (text.map (symbolOf boundary)).map Symbol.char = text := by
  have hchar : ∀ c, (symbolOf boundary c).char = c := fun c => by
    rw [symbolOf]
    split <;> rfl
  rw [List.map_map]
  exact (List.map_congr_left fun c _ => hchar c).trans (List.map_id' _)

theorem ofRest_pinnedSymbols (boundary : Char) (stop : Bool) (text : List Char) :
    LinePattern.ofRest (pinnedSymbols boundary false stop text) = ⟨text, false, stop⟩ := by
  have hplain : .plain '$' ∉ text.map (symbolOf boundary) :=
    plain_not_mem boundary (by simp [special]) text
  have hchar := map_char_symbolOf boundary text
  rw [pinnedSymbols, LinePattern.ofRest, withoutEnd]
  generalize text.map (symbolOf boundary) = s at hplain hchar ⊢
  have hlast : s.getLast? ≠ some (.plain '$') := fun h => hplain (List.mem_of_getLast? h)
  cases stop with
  | true => simp [hchar]
  | false => simp [hchar, hlast]

theorem ofSymbols_pinned (start stop : Bool) (text : List Char) :
    LinePattern.ofSymbols (pinnedSymbols boundary start stop text) = ⟨text, start, stop⟩ := by
  have hrest := ofRest_pinnedSymbols boundary stop text
  cases start with
  | true => exact congrArg (fun p : LinePattern => { p with atStart := true }) hrest
  | false =>
    have hplain : .plain '^' ∉ text.map (symbolOf boundary) :=
      plain_not_mem boundary (by simp [special]) text
    rw [LinePattern.ofSymbols_of_head?_ne fun hhead => ?_, hrest]
    rcases List.mem_append.mp (List.mem_of_head? hhead) with hmem | hmem
    · exact hplain hmem
    · cases stop <;> simp at hmem

/-! ## The lines that anchors fit -/

/-- The anchor is accepted, and fits the lines of which this holds. -/
structure Pins (boundary : Char) (body : List Char) (holds : List Char → Prop) : Prop where
  accepted : parse (between boundary body) = .ok (some (.anchor boundary (String.ofList body)))
  fits : ∃ p, (anchor boundary (String.ofList body)).pattern? = some p ∧
    ∀ line, p.fits line = true ↔ holds line

theorem pins_pinned (hb : isBoundary boundary = true) (start stop : Bool) (text : List Char) :
    Pins boundary (pinned boundary start stop text) (LinePattern.Says ⟨text, start, stop⟩) where
  accepted := by
    have hne : boundary ≠ '\\' := fun h => (isBoundary_iff.mp hb).2 (by simp [h])
    refine parse_anchor ((isAnchor_iff_closes hb).mpr ?_)
    rw [Closes, symbols_pinned, symbols_plain hne]
    exact List.getLast?_concat
  fits := by
    have hsymbols := symbols_pinned boundary start stop text []
    rw [List.append_nil] at hsymbols
    refine ⟨⟨text, start, stop⟩, ?_, LinePattern.fits_iff _⟩
    rw [pattern?_anchor, String.toList_ofList, hsymbols, symbols, List.append_nil, ofSymbols_pinned]

/-- **Anchors can pin down every line.** Whatever a text is and whatever boundary it is written
between, there is an anchor for the lines that are the text, that begin with it, that end with it
and that hold it. -/
theorem anchors_pin (hpunctuation : Text.isPunctuation boundary = true)
    (hplain : boundary ∉ ['\\', '^', '$']) (text : List Char) :
    Pins boundary ('^' :: (escape boundary text ++ ['$'])) (· = text) ∧
      Pins boundary ('^' :: escape boundary text) (text <+: ·) ∧
      Pins boundary (escape boundary text ++ ['$']) (text <:+ ·) ∧
      Pins boundary (escape boundary text) (text <:+: ·) := by
  have hpins := fun start stop =>
    pins_pinned (isBoundary_iff.mpr ⟨hpunctuation, hplain⟩) start stop text
  have hstart : pinned boundary true false text = '^' :: escape boundary text := by simp [pinned]
  have hbare : pinned boundary false false text = escape boundary text := by simp [pinned]
  exact ⟨hpins true true, hstart ▸ hpins true false, hpins false true, hbare ▸ hpins false false⟩

/-- A text that begins with a mark, holds the boundary and ends with a backslash. -/
theorem anchors_pin_awkward :
    Text.isPunctuation '/' = true ∧ '/' ∉ ['\\', '^', '$'] ∧
      parse "/^\\^a\\/b\\\\$/" = .ok (some (.anchor '/' "^\\^a\\/b\\\\$")) ∧
      ∃ p, (anchor '/' "^\\^a\\/b\\\\$").pattern? = some p ∧
        ∀ line, p.fits line = true ↔ line = "^a/b\\".toList := by
  have hpin := (@anchors_pin '/' (by decide) (by decide) "^a/b\\".toList).1
  exact ⟨by decide, by decide, hpin.accepted, hpin.fits⟩

end Location

end SymbolIndex
