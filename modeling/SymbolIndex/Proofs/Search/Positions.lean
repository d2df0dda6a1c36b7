import Mathlib.Data.List.NodupEquivFin
import SymbolIndex.Proofs.Search.Matching

/-!
# Where a value stands in a text

A fuzzy comparison goes through a text once, takes each character of the value where it first finds
it, and stops as soon as it has found the last one. It finds the value exactly if its characters
stand at rising positions of the text, wherever these are.

* `eq_of_lower_eq`: characters that are not ASCII have no other case;
* `StandsAt`: the positions of a value in a text;
* `leftBehind`, `leftOver`, `fuzzyMatch_eq_leftOver`: going through a text to its end;
* `Decides`, `fuzzyMatch_decides`: what the comparison decides.
-/

namespace SymbolIndex

open Text

/-! ## Characters and case -/

theorem lower_ascii {c : Char} (h : c.toNat ≤ 0x7f) : (lower c).toNat ≤ 0x7f :=
  forall_ascii (p := fun c => (lower c).toNat ≤ 0x7f) (by decide) h

/-- **A character that is not ASCII is like itself alone**, whatever the case. -/
theorem eq_of_lower_eq {c d : Char} (h : lower c = lower d) (hc : 0x7f < c.toNat) : c = d := by
  have hlower : lower c = c := lower_of_not_ascii hc
  by_cases hd : 0x7f < d.toNat
  · rw [← hlower, h, lower_of_not_ascii hd]
  · have hascii := lower_ascii (Nat.not_lt.mp hd)
    rw [← h, hlower] at hascii
    exact absurd hc (Nat.not_lt.mpr hascii)

/-! ## Positions -/

/-- The characters of the value stand at these positions of the text, one behind the other and up to
the case of ASCII letters. -/
structure StandsAt (value text : List Char) (position : Fin value.length → Fin text.length) :
    Prop where
  rising : StrictMono position
  alike : ∀ i, lower (text.get (position i)) = lower (value.get i)

theorem get_folded (cs : List Char) (i : Fin (folded cs).length) :
    (folded cs).get i = lower (cs.get (i.cast (List.length_map _))) := List.getElem_map _

/-- **A value is found wherever it stands.** -/
theorem fuzzyMatch_folded_iff (value text : List Char) :
    fuzzyMatch (folded value) text = true ↔ ∃ position, StandsAt value text position := by
  have hvalue : (folded value).length = value.length := List.length_map _
  have htext : (folded text).length = text.length := List.length_map _
  rw [fuzzyMatch_iff, List.sublist_iff_exists_fin_orderEmbedding_get_eq]
  simp only [get_folded]
  constructor
  · rintro ⟨f, hf⟩
    exact ⟨fun i => (f (i.cast hvalue.symm)).cast htext, fun i j hij => f.strictMono hij,
      fun i => (hf (i.cast hvalue.symm)).symm⟩
  · rintro ⟨position, hrising, halike⟩
    have hmono : StrictMono fun i : Fin (folded value).length =>
        (position (i.cast hvalue)).cast htext.symm := fun i j hij => hrising hij
    exact ⟨.ofStrictMono _ hmono, fun i => (halike (i.cast hvalue)).symm⟩

/-! ## Going through a text -/

/-- What is left of a pattern behind one more character of a text. -/
def leftBehind (pattern : List Char) (c : Char) : List Char :=
  match pattern with
  | [] => []
  | p :: rest => if lower c = p then rest else pattern

/-- What is left of a pattern when the whole text has been gone through, its end not looked for. -/
def leftOver (pattern text : List Char) : List Char := text.foldl leftBehind pattern

theorem leftOver_nil (text : List Char) : leftOver [] text = [] := by
  induction text with
  | nil => rfl
  | cons c text ih => exact ih

/-- **Nothing is missed by stopping early.** -/
theorem fuzzyMatch_eq_leftOver (pattern text : List Char) :
    fuzzyMatch pattern text = (leftOver pattern text).isEmpty := by
  induction text generalizing pattern with
  | nil => cases pattern <;> rfl
  | cons c text ih =>
    cases pattern with
    | nil => rw [leftOver_nil, fuzzyMatch, List.isEmpty_nil]
    | cons p pattern =>
      rw [fuzzyMatch, leftOver, List.foldl_cons, leftBehind]
      split
      · exact ih pattern
      · exact ih (p :: pattern)

/-! ## What is decided -/

/-- What the fuzzy comparison of a value with a text decides. -/
structure Decides (value text : String) : Prop where
  /-- it finds the value exactly if the value stands in the text -/
  found : fuzzyMatch (foldCase value) text.toList = true ↔
    ∃ position, StandsAt value.toList text.toList position
  /-- where a character that is not ASCII stands for itself alone -/
  plain : ∀ position, StandsAt value.toList text.toList position → ∀ i,
    0x7f < (value.toList.get i).toNat ∨ 0x7f < (text.toList.get (position i)).toNat →
    text.toList.get (position i) = value.toList.get i
  /-- and it says the same if it goes on to the end of the text in any case -/
  whole : fuzzyMatch (foldCase value) text.toList =
    (leftOver (foldCase value) text.toList).isEmpty

/-- **The fuzzy comparison decides whether the characters of a value stand in a text in order.** -/
theorem fuzzyMatch_decides (value text : String) : Decides value text where
  found := fuzzyMatch_folded_iff value.toList text.toList
  plain position h i hi := by
    rcases hi with hi | hi
    · exact (eq_of_lower_eq (h.alike i).symm hi).symm
    · exact eq_of_lower_eq (h.alike i) hi
  whole := fuzzyMatch_eq_leftOver _ _

/-- Letters that come twice have to be found twice, and `É` is no other case of `é`. -/
example : fuzzyMatch (foldCase "AAB") "xaAyB".toList = true ∧
    fuzzyMatch (foldCase "aab") "xayb".toList = false ∧
    fuzzyMatch (foldCase "É") "é".toList = false := by decide

end SymbolIndex
