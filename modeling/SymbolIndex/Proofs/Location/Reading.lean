import Mathlib.Algebra.Group.Nat.Even
import Mathlib.Data.List.DropRight
import SymbolIndex.Location

/-!
# Reading and writing locations

A text is read as a location in one of two forms: as a number of digits that fits into 32 bits, or
as an anchor between two equal boundaries of which the second is not escaped. What has been read is
written as it was, except for zeros in front of a number, and is read again.

* `between`, `IsNumber`, `IsAnchor`: the two forms;
* `parse_eq_line_iff`, `parse_eq_anchor_iff`, `parse_eq_error`: what texts are read as;
* `withoutZeros`, `toDigits_decimal`: numbers without the zeros in front;
* `ReadsBack`, `parse_and_render`: writing and reading undo each other.
-/

namespace SymbolIndex.Location

open Text

/-! ## The two forms -/

/-- A body between two boundaries. -/
def between (boundary : Char) (body : List Char) : String :=
  String.ofList (boundary :: (body ++ [boundary]))

/-- The text is a number of at most 32 bits. -/
structure IsNumber (s : List Char) : Prop where
  nonempty : s ≠ []
  digits : ∀ c ∈ s, isDigit c = true
  small : decimal s < 2 ^ 32

/-- An anchor can be written with this boundary and this body. -/
structure IsAnchor (boundary : Char) (body : List Char) : Prop where
  punctuation : isPunctuation boundary = true
  plain : boundary ∉ ['\\', '^', '$']
  /-- the backslashes that the body ends with are escaped in pairs -/
  paired : Even (body.rtakeWhile (· == '\\')).length

theorem isBoundary_iff {c : Char} :
    isBoundary c = true ↔ isPunctuation c = true ∧ c ∉ ['\\', '^', '$'] := by
  simp [isBoundary, and_assoc]

theorem not_isDigit_of_isBoundary {c : Char} (h : isBoundary c = true) : isDigit c = false := by
  have halnum := (isBoundary_iff.mp h).1
  simp only [isPunctuation, Char.isAlphanum, Bool.and_eq_true, Bool.not_eq_true',
    Bool.or_eq_false_iff] at halnum
  exact halnum.2.2

theorem isAnchor_iff {boundary : Char} {body : List Char} :
    IsAnchor boundary body ↔
      isBoundary boundary = true ∧ trailingBackslashes body % 2 = 0 := by
  have hlength : trailingBackslashes body = (body.rtakeWhile (· == '\\')).length := by
    rw [trailingBackslashes, List.rtakeWhile, List.length_reverse]
  rw [isBoundary_iff, hlength, ← Nat.even_iff]
  exact ⟨fun h => ⟨⟨h.punctuation, h.plain⟩, h.paired⟩, fun h => ⟨h.1.1, h.1.2, h.2⟩⟩

/-! ## What texts are read as -/

theorem toList_between (boundary : Char) (body : List Char) :
    (between boundary body).toList = boundary :: (body ++ [boundary]) := String.toList_ofList

theorem forall_mem_between {boundary : Char} {body : List Char} {p : Char → Prop} :
    (∀ c ∈ (between boundary body).toList, p c) ↔ ∀ c ∈ boundary :: body, p c := by
  rw [toList_between]
  simp only [List.forall_mem_cons, List.forall_mem_append]
  exact ⟨fun h => ⟨h.1, h.2.1⟩, fun h => ⟨h.1, h.2, h.1, List.forall_mem_nil p⟩⟩

theorem parse_digits {raw : String} (hne : raw.toList ≠ [])
    (hdigits : ∀ c ∈ raw.toList, isDigit c = true) :
    parse raw =
      if decimal raw.toList < 2 ^ 32 then
        .ok (some (.line (UInt32.ofNat (decimal raw.toList))))
      else .error (.invalidLocation raw) := by
  obtain ⟨first, rest, hraw⟩ := List.exists_cons_of_ne_nil hne
  rw [hraw] at hdigits ⊢
  rw [parse, hraw]
  dsimp only
  rw [if_pos (List.all_eq_true.mpr hdigits)]
  rfl

theorem parse_between {boundary : Char} {body : List Char}
    (h : ¬ ∀ c ∈ boundary :: body, isDigit c = true) :
    parse (between boundary body) =
      if isBoundary boundary = true ∧ trailingBackslashes body % 2 = 0 then
        .ok (some (.anchor boundary (String.ofList body)))
      else .error (.invalidLocation (between boundary body)) := by
  have hdigits : ¬ (boundary :: (body ++ [boundary])).all isDigit = true := by
    rw [List.all_eq_true, ← toList_between, forall_mem_between]
    exact h
  rw [parse, toList_between]
  dsimp only
  rw [if_neg hdigits, List.getLast?_concat, List.dropLast_concat]
  simp

theorem parse_other {raw : String} (hne : raw.toList ≠ [])
    (hdigits : ¬ ∀ c ∈ raw.toList, isDigit c = true)
    (hbetween : ∀ boundary body, raw ≠ between boundary body) :
    parse raw = .error (.invalidLocation raw) := by
  obtain ⟨first, rest, hraw⟩ := List.exists_cons_of_ne_nil hne
  rw [hraw] at hdigits
  rw [parse, hraw]
  dsimp only
  rw [if_neg (List.all_eq_true.not.mpr hdigits)]
  cases hlast : rest.getLast? with
  | none => rfl
  | some last =>
    obtain ⟨body, rfl⟩ := List.getLast?_eq_some_iff.mp hlast
    refine if_neg fun h => hbetween first body ?_
    obtain ⟨rfl, -⟩ := h
    rw [← String.toList_inj, hraw, toList_between]

theorem parse_number {raw : String} (h : IsNumber raw.toList) :
    parse raw = .ok (some (.line (UInt32.ofNat (decimal raw.toList)))) := by
  rw [parse_digits h.nonempty h.digits, if_pos h.small]

theorem parse_anchor {boundary : Char} {body : List Char} (h : IsAnchor boundary body) :
    parse (between boundary body) = .ok (some (.anchor boundary (String.ofList body))) := by
  have hanchor := isAnchor_iff.mp h
  have hdigit := not_isDigit_of_isBoundary hanchor.1
  rw [parse_between (fun hall => ?_), if_pos hanchor]
  rw [hall boundary List.mem_cons_self] at hdigit
  cases hdigit

theorem parse_eq_error {raw : String} (hne : raw ≠ "") (hnumber : ¬ IsNumber raw.toList)
    (hanchor : ∀ boundary body, IsAnchor boundary body → raw ≠ between boundary body) :
    parse raw = .error (.invalidLocation raw) := by
  have hne : raw.toList ≠ [] := by simpa using hne
  by_cases hdigits : ∀ c ∈ raw.toList, isDigit c = true
  · rw [parse_digits hne hdigits, if_neg fun hsmall => hnumber ⟨hne, hdigits, hsmall⟩]
  · by_cases hbetween : ∃ boundary body, raw = between boundary body
    · obtain ⟨boundary, body, rfl⟩ := hbetween
      rw [forall_mem_between] at hdigits
      rw [parse_between hdigits, if_neg fun h => hanchor boundary body (isAnchor_iff.mpr h) rfl]
    · push Not at hbetween
      exact parse_other hne hdigits hbetween

/-- **What a text is read as**: nothing, a number, an anchor, or no location. -/
theorem parse_cases (raw : String) :
    (raw = "" ∧ parse raw = .ok none) ∨
    (IsNumber raw.toList ∧
      parse raw = .ok (some (.line (UInt32.ofNat (decimal raw.toList))))) ∨
    (∃ boundary body, IsAnchor boundary body ∧ raw = between boundary body ∧
      parse raw = .ok (some (.anchor boundary (String.ofList body)))) ∨
    parse raw = .error (.invalidLocation raw) := by
  by_cases hne : raw = ""
  · exact .inl ⟨hne, hne ▸ rfl⟩
  by_cases hnumber : IsNumber raw.toList
  · exact .inr (.inl ⟨hnumber, parse_number hnumber⟩)
  by_cases hanchor : ∃ boundary body, IsAnchor boundary body ∧ raw = between boundary body
  · obtain ⟨boundary, body, h, rfl⟩ := hanchor
    exact .inr (.inr (.inl ⟨boundary, body, h, rfl, parse_anchor h⟩))
  · exact .inr (.inr (.inr (parse_eq_error hne hnumber fun boundary body h hraw =>
      hanchor ⟨boundary, body, h, hraw⟩)))

theorem parse_eq_line_iff {raw : String} {n : UInt32} :
    parse raw = .ok (some (.line n)) ↔
      IsNumber raw.toList ∧ n = UInt32.ofNat (decimal raw.toList) := by
  constructor
  · intro h
    obtain ⟨-, hp⟩ | ⟨hnumber, hp⟩ | ⟨_, _, -, -, hp⟩ | hp := parse_cases raw <;>
      rw [hp] at h <;> cases h
    exact ⟨hnumber, rfl⟩
  · rintro ⟨hnumber, rfl⟩
    exact parse_number hnumber

theorem parse_eq_anchor_iff {raw : String} {boundary : Char} {body : String} :
    parse raw = .ok (some (.anchor boundary body)) ↔
      IsAnchor boundary body.toList ∧ raw = between boundary body.toList := by
  constructor
  · intro h
    obtain ⟨-, hp⟩ | ⟨-, hp⟩ | ⟨_, _, hanchor, hraw, hp⟩ | hp := parse_cases raw <;>
      rw [hp] at h <;> cases h
    rw [String.toList_ofList]
    exact ⟨hanchor, hraw⟩
  · rintro ⟨hanchor, rfl⟩
    rw [parse_anchor hanchor, String.ofList_toList]

/-! ## Zeros in front of a number -/

/-- A number without the zeros in front that say nothing. -/
def withoutZeros : List Char → List Char
  | '0' :: d :: digits => withoutZeros (d :: digits)
  | digits => digits

theorem decimal_eq (s : List Char) : decimal s = Nat.ofDigitChars 10 s 0 :=
  Nat.ofDigitChars_eq_foldl.symm

theorem exists_digitChar {c : Char} (h : isDigit c = true) : ∃ d < 10, c = d.digitChar := by
  have hrange : 48 ≤ c.toNat ∧ c.toNat ≤ 57 := Char.isDigit_iff_toNat.mp h
  refine ⟨c.toNat - 48, by omega, Char.toNat_inj.mp ?_⟩
  rw [Nat.toNat_digitChar_of_lt_ten (by omega)]
  omega

/-- More digits behind a number that is not zero are written behind it. -/
theorem toDigits_ofDigitChars {n : ℕ} (hn : 0 < n) {s : List Char}
    (hs : ∀ c ∈ s, isDigit c = true) :
    Nat.toDigits 10 (Nat.ofDigitChars 10 s n) = Nat.toDigits 10 n ++ s := by
  induction s generalizing n with
  | nil => rw [Nat.ofDigitChars_nil, List.append_nil]
  | cons c s ih =>
    obtain ⟨d, hd, rfl⟩ := exists_digitChar (hs c List.mem_cons_self)
    have hs := fun c hc => hs c (List.mem_cons_of_mem _ hc)
    rw [Nat.ofDigitChars_cons_digitChar_of_lt_ten hd, ih (by omega) hs,
      ← Nat.toDigits_append_toDigits (by decide) hn hd, Nat.toDigits_of_lt_base hd,
      List.append_assoc, List.singleton_append]

/-- **A number is written as it was read**, but without zeros in front. -/
theorem toDigits_decimal {s : List Char} (hne : s ≠ []) (hs : ∀ c ∈ s, isDigit c = true) :
    Nat.toDigits 10 (decimal s) = withoutZeros s := by
  rw [decimal_eq]
  fun_induction withoutZeros s with
  | case1 d digits ih =>
    exact ih (List.cons_ne_nil _ _) fun c hc => hs c (List.mem_cons_of_mem _ hc)
  | case2 digits hzero =>
    obtain ⟨c, digits, rfl⟩ := List.exists_cons_of_ne_nil hne
    obtain ⟨d, hd, rfl⟩ := exists_digitChar (hs c List.mem_cons_self)
    have hdigits := fun c hc => hs c (List.mem_cons_of_mem _ hc)
    rw [Nat.ofDigitChars_cons_digitChar_of_lt_ten hd, Nat.mul_zero, Nat.zero_add]
    by_cases hpos : 0 < d
    · rw [toDigits_ofDigitChars hpos hdigits, Nat.toDigits_of_lt_base hd, List.singleton_append]
    -- a zero in front is the only digit
    · obtain rfl : d = 0 := by omega
      cases digits with
      | nil => rfl
      | cons d digits => exact absurd rfl (hzero d digits)

/-! ## Writing and reading -/

theorem between_inj {boundary boundary' : Char} {body body' : List Char} :
    between boundary body = between boundary' body' ↔ boundary = boundary' ∧ body = body' := by
  rw [← String.toList_inj, toList_between, toList_between, List.cons.injEq]
  refine and_congr_right fun h => ?_
  rw [h]
  exact List.append_left_inj _

theorem toList_render_line (n : UInt32) : (line n).render.toList = Nat.toDigits 10 n.toNat := by
  rw [render, Nat.toString_eq_ofList_toDigits, String.toList_ofList]

theorem parse_render_line (n : UInt32) : parse (line n).render = .ok (some (.line n)) := by
  have hvalue : decimal (Nat.toDigits 10 n.toNat) = n.toNat := by
    rw [decimal_eq, Nat.ofDigitChars_ten_toDigits]
  rw [parse_eq_line_iff, toList_render_line, hvalue]
  have hdigits : ∀ c ∈ Nat.toDigits 10 n.toNat, isDigit c = true := fun c hc =>
    Nat.isDigit_of_mem_toDigits (by decide) (by decide) hc
  exact ⟨⟨Nat.toDigits_ne_nil, hdigits, hvalue.trans_lt n.toNat_lt⟩, UInt32.ofNat_toNat.symm⟩

theorem parse_render_anchor_iff {boundary : Char} {body : String} :
    parse (anchor boundary body).render = .ok (some (.anchor boundary body)) ↔
      IsAnchor boundary body.toList :=
  parse_eq_anchor_iff.trans (and_iff_left rfl)

/-- What a location comes to that has been read from a text. -/
structure ReadsBack (raw : String) (l : Location) : Prop where
  /-- it is read again from what is written for it -/
  again : parse l.render = .ok (some l)
  /-- an anchor is written as it was read -/
  ofAnchor : ∀ boundary body, l = .anchor boundary body → l.render = raw
  /-- and a line number as it was read, but without zeros in front -/
  ofLine : ∀ n, l = .line n → l.render.toList = withoutZeros raw.toList

theorem readsBack {raw : String} {l : Location} (h : parse raw = .ok (some l)) :
    ReadsBack raw l := by
  cases l with
  | line n =>
    obtain ⟨hnumber, rfl⟩ := parse_eq_line_iff.mp h
    refine ⟨parse_render_line _, nofun, fun n hn => ?_⟩
    rw [toList_render_line, UInt32.toNat_ofNat_of_lt' hnumber.small,
      toDigits_decimal hnumber.nonempty hnumber.digits]
  | anchor boundary body =>
    obtain ⟨hanchor, rfl⟩ := parse_eq_anchor_iff.mp h
    exact ⟨parse_render_anchor_iff.mpr hanchor, fun _ _ _ => rfl, nofun⟩

/-- An anchor that cannot be written is refused or read as a number. -/
theorem parse_render_of_not_isAnchor {boundary : Char} {body : String}
    (h : ¬ IsAnchor boundary body.toList) :
    let raw := (anchor boundary body).render
    parse raw = .error (.invalidLocation raw) ∨ ∃ n, parse raw = .ok (some (.line n)) := by
  intro raw
  obtain ⟨hempty, -⟩ | ⟨-, hp⟩ | ⟨boundary', body', hanchor, hraw, -⟩ | hp := parse_cases raw
  · have hlist := congrArg String.toList hempty
    rw [show raw.toList = _ from toList_between boundary body.toList] at hlist
    cases hlist
  · exact .inr ⟨_, hp⟩
  · obtain ⟨rfl, rfl⟩ := between_inj.mp (show between boundary body.toList = _ from hraw)
    exact absurd hanchor h
  · exact .inl hp

/-- **Writing and reading locations undo each other.** What has been read is read again, and of the
anchors exactly those are that can be written; the others are refused or read as numbers. -/
theorem parse_and_render :
    (∀ raw l, parse raw = .ok (some l) → ReadsBack raw l) ∧
    ∀ boundary body,
      (parse (anchor boundary body).render = .ok (some (.anchor boundary body)) ↔
        IsAnchor boundary body.toList) ∧
      (¬ IsAnchor boundary body.toList →
        let raw := (anchor boundary body).render
        parse raw = .error (.invalidLocation raw) ∨ ∃ n, parse raw = .ok (some (.line n))) :=
  ⟨fun _ _ => readsBack, fun _ _ => ⟨parse_render_anchor_iff, parse_render_of_not_isAnchor⟩⟩

/-- A number with zeros in front, an anchor with an escape, and one between digits. -/
theorem parse_and_render_zeros :
    parse "007" = .ok (some (.line 7)) ∧ (line 7).render.toList = "7".toList ∧
    parse "|x\\|y|" = .ok (some (.anchor '|' "x\\|y")) ∧
      (anchor '|' "x\\|y").render = "|x\\|y|" ∧
    ¬ IsAnchor '1' "2".toList ∧
      ∃ n, parse (anchor '1' "2").render = .ok (some (.line n)) := by
  have hnumber : parse "007" = .ok (some (.line 7)) := rfl
  have hanchor : parse "|x\\|y|" = .ok (some (.anchor '|' "x\\|y")) := rfl
  have hdigit : ¬ IsAnchor '1' "2".toList := fun h => absurd h.punctuation (by decide)
  refine ⟨hnumber, (parse_and_render.1 _ _ hnumber).ofLine 7 rfl, hanchor,
    (parse_and_render.1 _ _ hanchor).ofAnchor _ _ rfl, hdigit, ?_⟩
  rcases (parse_and_render.2 '1' "2").2 hdigit with h | h
  · cases h
  · exact h

end SymbolIndex.Location
