import Mathlib.Data.List.Infix
import SymbolIndex.Plan.Predicate

/-!
# Matching

What the comparisons of a query say about texts, character by character. All of them take the
characters of the value as they are, and ignore at most the case of ASCII letters.

* `folded`: a text with the case of its ASCII letters folded;
* `fuzzyMatch_iff`: a fuzzy match is a subsequence;
* `map_lowerByte_encode`: folding characters and folding their bytes is the same;
* `encode_isInfix_iff`: parts of texts, and of their bytes;
* `leadMatch_iff`: a leading match is a prefix, though it is bytes that are compared;
* `leadMatch_foldCase`: the case of a lead may be folded before.
-/

namespace SymbolIndex

/-- Characters with the case of ASCII letters folded. -/
def folded (cs : List Char) : List Char := cs.map Text.lower

theorem lower_of_not_upper {c : Char} (h : ¬ (c.val ≥ 'A'.val ∧ c.val ≤ 'Z'.val)) :
    Text.lower c = c := dif_neg h

theorem val_lower_of_upper {c : Char} (h : c.val ≥ 'A'.val ∧ c.val ≤ 'Z'.val) :
    (Text.lower c).val = c.val + ('a'.val - 'A'.val) := congrArg Char.val (dif_pos h)

theorem lower_lower (c : Char) : Text.lower (Text.lower c) = Text.lower c := by
  by_cases h : c.val ≥ 'A'.val ∧ c.val ≤ 'Z'.val
  · have hz : ¬ (Text.lower c).val ≤ 'Z'.val := by
      have hlo := UInt32.le_iff_toNat_le.mp h.1
      have hhi := UInt32.le_iff_toNat_le.mp h.2
      rw [val_lower_of_upper h, UInt32.le_iff_toNat_le, UInt32.toNat_add]
      simp only [UInt32.reduceSub, Char.reduceVal, UInt32.reduceToNat] at hlo hhi ⊢
      omega
    exact lower_of_not_upper fun h' => hz h'.2
  · rw [lower_of_not_upper h, lower_of_not_upper h]

theorem folded_folded (cs : List Char) : folded (folded cs) = folded cs := by
  simp [folded, lower_lower]

/-! ## Fuzzy matches -/

/-- **A pattern matches if its characters appear in order.** That each is taken where it first
appears loses no match. -/
theorem fuzzyMatch_iff (pattern text : List Char) :
    fuzzyMatch pattern text = true ↔ pattern.Sublist (folded text) := by
  induction text generalizing pattern with
  | nil =>
    cases pattern with
    | nil => exact ⟨fun _ => .slnil, fun _ => rfl⟩
    | cons p pattern => exact ⟨nofun, nofun⟩
  | cons c text ih =>
    cases pattern with
    | nil => exact ⟨fun _ => List.nil_sublist _, fun _ => rfl⟩
    | cons p pattern =>
      rw [fuzzyMatch, folded, List.map_cons]
      split
      · next h =>
        rw [ih, h, List.cons_sublist_cons]
        rfl
      · next h =>
        rw [ih]
        constructor
        · exact fun hs => .cons _ hs
        · intro hs
          cases hs with
          | cons _ hs => exact hs
          | cons_cons => exact absurd rfl h

/-! ## Leading matches -/

/-- The bytes of some characters. -/
def encode (cs : List Char) : List UInt8 := cs.flatMap String.utf8EncodeChar

theorem bytesOf_eq (s : String) : bytesOf s = encode s.toList := by
  rw [bytesOf, String.toUTF8_eq_toByteArray, ← String.utf8Encode_toList, List.utf8Encode,
    List.toList_data_toByteArray, encode]

/-- A text whose bytes are a prefix is a prefix: no character has bytes that begin another. -/
theorem encode_isPrefix_iff (lead text : List Char) : encode lead <+: encode text ↔ lead <+: text := by
  constructor
  · rintro ⟨rest, h⟩
    refine List.isPrefix_of_utf8Encode_append_eq_utf8Encode rest.toByteArray ?_
    rw [List.utf8Encode, List.utf8Encode, ← List.toByteArray_append]
    exact congrArg List.toByteArray h
  · rintro ⟨rest, rfl⟩
    exact ⟨encode rest, List.flatMap_append.symm⟩

theorem lowerByte_of_le {b : UInt8} (h : 0x80 ≤ b) : lowerByte b = b := by
  have hb : ¬ b ≤ 0x5A := by
    rw [UInt8.le_iff_toNat_le] at h ⊢
    simp only [UInt8.reduceToNat] at h ⊢
    omega
  simp [lowerByte, hb]

theorem le_of_mem_utf8EncodeChar {c : Char} (h : 0x7f < c.val.toNat) {b : UInt8}
    (hb : b ∈ String.utf8EncodeChar c) : 0x80 ≤ b := by
  rw [UInt8.le_iff_toNat_le]
  unfold String.utf8EncodeChar at hb
  simp only [if_neg (Nat.not_le.mpr h)] at hb
  split at hb
  · simp only [List.mem_cons, List.not_mem_nil, or_false] at hb
    rcases hb with rfl | rfl <;> simp only [UInt8.toNat_ofNat', UInt8.reduceToNat] <;> omega
  · split at hb
    · simp only [List.mem_cons, List.not_mem_nil, or_false] at hb
      rcases hb with rfl | rfl | rfl <;>
        simp only [UInt8.toNat_ofNat', UInt8.reduceToNat] <;> omega
    · simp only [List.mem_cons, List.not_mem_nil, or_false] at hb
      rcases hb with rfl | rfl | rfl | rfl <;>
        simp only [UInt8.toNat_ofNat', UInt8.reduceToNat] <;> omega

theorem infix_append_iff_of_head {b : UInt8} {part front rest : List UInt8} (h : b ∉ front) :
    b :: part <:+: front ++ rest ↔ b :: part <:+: rest := by
  induction front with
  | nil => rfl
  | cons b' front ih =>
    rw [List.mem_cons, not_or] at h
    rw [List.cons_append, List.infix_cons_iff, List.cons_prefix_cons, ih h.2]
    exact or_iff_right fun hb => h.1 hb.1

theorem utf8EncodeChar_of_ascii {c : Char} (h : c.val.toNat ≤ 0x7f) :
    String.utf8EncodeChar c = [c.val.toNat.toUInt8] := by
  unfold String.utf8EncodeChar
  exact if_pos h

theorem exists_utf8EncodeChar_eq (c : Char) :
    ∃ b rest, String.utf8EncodeChar c = b :: rest ∧ ∀ b ∈ rest, 0x80 ≤ b := by
  by_cases h : c.val.toNat ≤ 0x7f
  · exact ⟨_, [], utf8EncodeChar_of_ascii h, nofun⟩
  · cases hbytes : String.utf8EncodeChar c with
    | nil => exact absurd hbytes String.utf8EncodeChar_ne_nil
    | cons b rest =>
      exact ⟨b, rest, rfl, fun b' hb' => le_of_mem_utf8EncodeChar (Nat.not_le.mp h)
        (hbytes ▸ List.mem_cons_of_mem _ hb')⟩

/-- A text that begins with an ASCII character is part of another just if its bytes are. -/
theorem encode_isInfix_iff {c : Char} (h : c.val.toNat ≤ 0x7f) (part text : List Char) :
    encode (c :: part) <:+: encode text ↔ c :: part <:+: text := by
  induction text with
  | nil => simp [encode, List.infix_nil, utf8EncodeChar_of_ascii h]
  | cons c' text ih =>
    obtain ⟨b, rest, hbytes, hrest⟩ := exists_utf8EncodeChar_eq c'
    have htext : encode (c' :: text) = b :: (rest ++ encode text) := by
      rw [encode, List.flatMap_cons, hbytes]
      rfl
    have hpart : encode (c :: part) = c.val.toNat.toUInt8 :: encode part := by
      rw [encode, List.flatMap_cons, utf8EncodeChar_of_ascii h]
      rfl
    have hbehind : c.val.toNat.toUInt8 ∉ rest := by
      intro hmem
      have hle := UInt8.le_iff_toNat_le.mp (hrest _ hmem)
      simp only [UInt8.reduceToNat, UInt8.toNat_ofNat'] at hle
      omega
    rw [List.infix_cons_iff, ← encode_isPrefix_iff, ← ih, htext, List.infix_cons_iff, hpart,
      infix_append_iff_of_head hbehind]

theorem lower_of_not_ascii {c : Char} (h : 0x7f < c.val.toNat) : Text.lower c = c := by
  have hz : ¬ c.val ≤ 'Z'.val := by
    rw [UInt32.le_iff_toNat_le]
    simp only [Char.reduceVal, UInt32.reduceToNat]
    omega
  exact lower_of_not_upper fun h' => hz h'.2

theorem forall_ascii {p : Char → Prop} (h : ∀ n : Fin 0x80, p (Char.ofNat n)) {c : Char}
    (hc : c.toNat ≤ 0x7f) : p c := by
  have := h ⟨c.toNat, Nat.lt_succ_of_le hc⟩
  rwa [Char.ofNat_toNat] at this

theorem map_lowerByte_utf8EncodeChar (c : Char) :
    (String.utf8EncodeChar c).map lowerByte = String.utf8EncodeChar (Text.lower c) := by
  by_cases h : c.val.toNat ≤ 0x7f
  · exact forall_ascii (p := fun c => (String.utf8EncodeChar c).map lowerByte =
      String.utf8EncodeChar (Text.lower c)) (by decide) h
  · have h := Nat.not_le.mp h
    rw [lower_of_not_ascii h]
    refine (List.map_congr_left fun b hb => ?_).trans (List.map_id _)
    exact lowerByte_of_le (le_of_mem_utf8EncodeChar h hb)

theorem map_lowerByte_encode (cs : List Char) :
    (encode cs).map lowerByte = encode (folded cs) := by
  simp only [encode, folded, List.map_flatMap, List.flatMap_map, map_lowerByte_utf8EncodeChar]

/-- **A leading match is a prefix up to case.** -/
theorem leadMatch_iff (lead text : String) :
    leadMatch lead text = true ↔ folded lead.toList <+: folded text.toList := by
  rw [← encode_isPrefix_iff, ← map_lowerByte_encode, ← map_lowerByte_encode, ← bytesOf_eq,
    ← bytesOf_eq, List.prefix_iff_eq_take, List.length_map, ← List.map_take]
  simp only [leadMatch, Bool.and_eq_true, decide_eq_true_eq, beq_iff_eq]
  constructor
  · exact fun h => h.2.symm
  · intro h
    refine ⟨?_, h.symm⟩
    have := congrArg List.length h
    simp only [List.length_map, List.length_take] at this
    omega

theorem leadMatch_ofList_folded (lead : List Char) (text : String) :
    leadMatch (String.ofList (folded lead)) text = true ↔ folded lead <+: folded text.toList := by
  rw [leadMatch_iff, String.toList_ofList, folded_folded]

theorem leadMatch_foldCase (lead text : String) :
    leadMatch (String.ofList (foldCase lead)) text = leadMatch lead text := by
  rw [Bool.eq_iff_iff, leadMatch_iff lead]
  exact leadMatch_ofList_folded lead.toList text

end SymbolIndex
