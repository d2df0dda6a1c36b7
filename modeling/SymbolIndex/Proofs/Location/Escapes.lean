import Mathlib.Algebra.Ring.Parity
import SymbolIndex.Proofs.Location.Reading

/-!
# Escapes in anchors

A body is read from left to right: a backslash takes the meaning from a special character behind it,
and every other character stands by itself. Whether the closing boundary is one that stands by
itself can also be told from the end of the body, where backslashes have to come in pairs. The
reader of locations does the latter, the pattern of a line is read off the former, and both agree.

* `Symbol`, `symbols`: what a body is made of, from left to right;
* `symbols_append`, `exists_symbols`: what is read of a body when more follows;
* `Closes`, `closes_iff`: the closing boundary stands by itself exactly if the backslashes in front
  come in pairs;
* `LinePattern.ofSymbols`, `pattern?_anchor`: the pattern of a line is read off the symbols;
* `Agrees`, `parse_agrees`: the two ways to read an anchor agree.
-/

namespace SymbolIndex

/-- One thing that the body of an anchor is made of. -/
inductive Symbol where
  /-- a special character with a backslash in front, which takes the meaning from it -/
  | escaped (c : Char)
  /-- a character that stands by itself -/
  | plain (c : Char)
  deriving DecidableEq, Repr

/-- The character, without the backslash that may be in front. -/
def Symbol.char : Symbol → Char
  | escaped c | plain c => c

theorem getLast?_cons_iff {α : Type} {x y : α} {t : List α} (h : x ≠ y ∨ t ≠ []) :
    (x :: t).getLast? = some y ↔ t.getLast? = some y := by
  cases t with
  | nil => simpa using h
  | cons z t => rw [List.getLast?_cons_cons]

namespace Location

/-- The characters that a backslash takes the meaning from. -/
def special (boundary : Char) : List Char := [boundary, '^', '$', '\\']

/-- What a body is made of, from left to right. -/
def symbols (boundary : Char) : List Char → List Symbol
  | [] => []
  | '\\' :: c :: rest =>
    if c ∈ special boundary then .escaped c :: symbols boundary rest
    else .plain '\\' :: symbols boundary (c :: rest)
  | c :: rest => .plain c :: symbols boundary rest

variable {boundary : Char}

theorem isEscapable_iff {c : Char} : isEscapable boundary c = true ↔ c ∈ special boundary := by
  simp [isEscapable, special, or_assoc]

theorem symbols_escaped {c : Char} (h : c ∈ special boundary) (s : List Char) :
    symbols boundary ('\\' :: c :: s) = .escaped c :: symbols boundary s := by
  rw [symbols, if_pos h]

theorem symbols_plain {c : Char} (h : c ≠ '\\') (s : List Char) :
    symbols boundary (c :: s) = .plain c :: symbols boundary s := by
  rw [symbols]
  exact fun _ _ hc => absurd hc h

theorem symbols_eq_nil_iff {s : List Char} : symbols boundary s = [] ↔ s = [] := by
  constructor
  · intro h
    fun_cases symbols boundary s <;> simp_all [symbols]
  · rintro rfl
    rfl

/-! ## The last symbol -/

theorem map_getLast?_symbols (boundary : Char) (s : List Char) :
    (symbols boundary s).getLast?.map Symbol.char = s.getLast? := by
  fun_induction symbols boundary s with
  | case1 => rfl
  | case2 c rest _ ih =>
    rw [List.getLast?_cons_cons, List.getLast?_cons, List.getLast?_cons, ← ih]
    cases (symbols boundary rest).getLast? <;> rfl
  | case3 c rest _ ih =>
    obtain ⟨x, t, ht⟩ := List.exists_cons_of_ne_nil
      (symbols_eq_nil_iff.not.mpr (List.cons_ne_nil c rest) : symbols boundary (c :: rest) ≠ [])
    rw [ht, List.getLast?_cons_cons, ← ht, ih, List.getLast?_cons_cons]
  | case4 c rest _ ih =>
    rw [List.getLast?_cons, List.getLast?_cons, ← ih]
    cases (symbols boundary rest).getLast? <;> rfl

/-- What follows is read by itself, unless the text ends with a backslash that stands by itself. -/
theorem symbols_append {s : List Char}
    (h : (symbols boundary s).getLast? ≠ some (.plain '\\')) (more : List Char) :
    symbols boundary (s ++ more) = symbols boundary s ++ symbols boundary more := by
  fun_induction symbols boundary s with
  | case1 => rfl
  | case2 c rest hc ih =>
    rw [List.cons_append, List.cons_append, symbols_escaped hc, List.cons_append, ih]
    rwa [Ne, getLast?_cons_iff (.inl (by simp))] at h
  | case3 c rest hc ih =>
    have hrest : symbols boundary (c :: rest) ≠ [] := symbols_eq_nil_iff.not.mpr (by simp)
    rw [Ne, getLast?_cons_iff (.inr hrest)] at h
    rw [List.cons_append, List.cons_append, symbols, if_neg hc, List.cons_append, ← ih h,
      List.cons_append]
  | case4 c rest hsingle ih =>
    by_cases hc : c = '\\'
    · subst hc
      cases rest with
      | nil => exact absurd rfl h
      | cons d rest => exact absurd rfl (hsingle d rest rfl)
    · rw [List.cons_append, symbols_plain hc, List.cons_append, ih]
      rwa [Ne, getLast?_cons_iff (.inl (by simpa using hc))] at h

/-- Backslashes take the meaning from one another in pairs. -/
theorem symbols_backslashes (k : ℕ) (more : List Char) :
    symbols boundary (List.replicate (k + k) '\\' ++ more) =
      List.replicate k (.escaped '\\') ++ symbols boundary more := by
  induction k with
  | zero => rfl
  | succ k ih =>
    have htwo : k + 1 + (k + 1) = k + k + 1 + 1 := by omega
    rw [htwo, List.replicate_succ, List.replicate_succ, List.cons_append, List.cons_append,
      symbols_escaped (by simp [special]), ih, List.replicate_succ, List.cons_append]

theorem exists_eq_append_backslashes (s : List Char) :
    ∃ rest, s = rest ++ List.replicate (s.rtakeWhile (· == '\\')).length '\\' ∧
      rest.getLast? ≠ some '\\' := by
  have hrun : s.rtakeWhile (· == '\\') =
      List.replicate (s.rtakeWhile (· == '\\')).length '\\' :=
    List.eq_replicate_of_mem fun c hc => by simpa using List.mem_rtakeWhile_imp hc
  refine ⟨s.rdropWhile (· == '\\'), ?_, fun hlast => ?_⟩
  · rw [← hrun, List.rdropWhile_append_rtakeWhile]
  · have hne : s.rdropWhile (· == '\\') ≠ [] := fun hnil => by
      rw [hnil] at hlast
      cases hlast
    rw [List.getLast?_eq_some_getLast hne] at hlast
    exact List.rdropWhile_last_not _ _ hne (by simp [Option.some.inj hlast])

/-- **How a body is read that something follows.** If it ends with an odd number of backslashes,
then the last one goes with what follows. -/
theorem exists_symbols (boundary : Char) (body : List Char) :
    ∃ front, front.getLast? ≠ some (.plain '\\') ∧
      ∀ more, symbols boundary (body ++ more) = front ++ symbols boundary
        (if Even (body.rtakeWhile (· == '\\')).length then more else '\\' :: more) := by
  obtain ⟨rest, hbody, hlast⟩ := exists_eq_append_backslashes body
  have hrest : (symbols boundary rest).getLast? ≠ some (.plain '\\') := fun h => hlast <| by
    rw [← map_getLast?_symbols boundary, h]
    rfl
  generalize (body.rtakeWhile (· == '\\')).length = n at hbody ⊢
  obtain ⟨k, hk⟩ := Nat.even_or_odd' n
  refine ⟨symbols boundary rest ++ List.replicate k (.escaped '\\'), fun h => ?_, fun more => ?_⟩
  · cases k with
    | zero => exact hrest (by simpa using h)
    | succ k => simp [List.replicate_succ'] at h
  · rw [hbody, List.append_assoc, symbols_append hrest, List.append_assoc]
    congr 1
    obtain rfl | rfl := hk
    · rw [if_pos (even_two_mul k), Nat.two_mul, symbols_backslashes]
    · rw [if_neg (by simp [parity_simps]), Nat.two_mul, List.replicate_succ', List.append_assoc,
        symbols_backslashes, List.singleton_append]

/-- No backslash at the end of a body stands by itself exactly if they come in pairs there. -/
theorem complete_iff {body : List Char} :
    (symbols boundary body).getLast? ≠ some (.plain '\\') ↔
      Even (body.rtakeWhile (· == '\\')).length := by
  obtain ⟨front, hfront, hread⟩ := exists_symbols boundary body
  have hbody := hread []
  rw [List.append_nil] at hbody
  rw [hbody]
  split
  · next heven => simpa [symbols, heven] using hfront
  · next hodd => simp [symbols, hodd]

/-- The boundary behind a body stands by itself. -/
def Closes (boundary : Char) (body : List Char) : Prop :=
  (symbols boundary (body ++ [boundary])).getLast? = some (.plain boundary)

instance (boundary : Char) (body : List Char) : Decidable (Closes boundary body) := by
  unfold Closes; infer_instance

/-- **The closing boundary stands by itself exactly if the backslashes in front come in pairs.** -/
theorem closes_iff (hb : boundary ≠ '\\') {body : List Char} :
    Closes boundary body ↔ Even (body.rtakeWhile (· == '\\')).length := by
  obtain ⟨front, -, hread⟩ := exists_symbols boundary body
  rw [Closes, hread]
  split
  · next heven => simp [symbols_plain hb, symbols, heven]
  · next hodd => simp [special, symbols, hodd]

/-! ## The pattern of a line -/

/-- The symbols without a `$` at the end that stands by itself. -/
def withoutEnd (s : List Symbol) : List Symbol :=
  if s.getLast? = some (.plain '$') then s.dropLast else s

theorem withoutEnd_cons {x : Symbol} {s : List Symbol} (h : x ≠ .plain '$' ∨ s ≠ []) :
    withoutEnd (x :: s) = x :: withoutEnd s := by
  rw [withoutEnd, withoutEnd, if_congr (getLast?_cons_iff h) rfl rfl]
  split
  · next hlast =>
    have hne : s ≠ [] := List.ne_nil_of_mem (List.mem_of_getLast? hlast)
    rw [List.dropLast_cons_of_ne_nil hne]
  · rfl

end Location

namespace LinePattern

/-- What symbols ask of a line if the body does not begin with them: a `$` at the end that stands by
itself says that the line ends there, and the other characters are the text. -/
def ofRest (s : List Symbol) : LinePattern where
  text := (Location.withoutEnd s).map Symbol.char
  atStart := false
  atEnd := s.getLast? = some (.plain '$')

/-- What the symbols of a body ask of a line: a `^` in front that stands by itself says that the
line begins there. -/
def ofSymbols : List Symbol → LinePattern
  | .plain '^' :: s => { ofRest s with atStart := true }
  | s => ofRest s

theorem ofRest_cons {x : Symbol} {s : List Symbol} (h : x ≠ .plain '$' ∨ s ≠ []) :
    ofRest (x :: s) = { ofRest s with text := x.char :: (ofRest s).text } := by
  rw [ofRest, Location.withoutEnd_cons h, List.map_cons, decide_eq_decide.mpr (getLast?_cons_iff h)]
  rfl

theorem ofSymbols_of_head?_ne {s : List Symbol} (h : s.head? ≠ some (.plain '^')) :
    ofSymbols s = ofRest s := by
  rw [ofSymbols]
  rintro t rfl
  exact h rfl

end LinePattern

namespace Location

variable {boundary : Char}

theorem patternFrom_false (boundary : Char) (s : List Char) :
    patternFrom boundary false s = .ofRest (symbols boundary s) := by
  fun_induction symbols boundary s with
  | case1 => rfl
  | case2 c rest hc ih =>
    rw [patternFrom, if_pos (isEscapable_iff.mpr hc), ih, LinePattern.ofRest_cons (.inl (by simp))]
    rfl
  | case3 c rest hc ih =>
    rw [patternFrom, if_neg (isEscapable_iff.not.mpr hc), ih,
      LinePattern.ofRest_cons (.inl (by simp))]
    rfl
  | case4 c rest hsingle ih =>
    by_cases hend : c = '$' ∧ rest = []
    · obtain ⟨rfl, rfl⟩ := hend
      rfl
    · have hx : Symbol.plain c ≠ .plain '$' ∨ symbols boundary rest ≠ [] := by
        simpa only [ne_eq, Symbol.plain.injEq, symbols_eq_nil_iff, not_and_or] using hend
      rw [patternFrom, if_neg (by simp), if_neg hend, ih, LinePattern.ofRest_cons hx]
      · rfl
      · exact hsingle

theorem patternFrom_caret (boundary : Char) (s : List Char) :
    patternFrom boundary true ('^' :: s) =
      { patternFrom boundary false s with atStart := true } := by
  rw [patternFrom]
  · rfl
  · exact fun _ _ hc => absurd hc (by decide)

/-- Only a `^` is read in another way where the body begins. -/
theorem patternFrom_true {s : List Char} (h : s.head? ≠ some '^') :
    patternFrom boundary true s = patternFrom boundary false s := by
  fun_cases symbols boundary s with
  | case1 => rfl
  | case2 c rest hc | case3 c rest hc => rw [patternFrom, patternFrom]
  | case4 c rest hsingle =>
    have hc : c ≠ '^' := fun hc => h (congrArg some hc)
    rw [patternFrom, patternFrom]
    · simp only [hc, false_and, if_false]
    all_goals exact hsingle

theorem head?_symbols (boundary : Char) (s : List Char) :
    (symbols boundary s).head? = some (.plain '^') ↔ s.head? = some '^' := by
  fun_cases symbols boundary s <;> simp

/-- **The pattern of a line is read off the symbols.** -/
theorem pattern?_anchor (boundary : Char) (body : String) :
    (anchor boundary body).pattern? = some (.ofSymbols (symbols boundary body.toList)) := by
  rw [pattern?]
  congr 1
  generalize body.toList = s
  by_cases hhead : s.head? = some '^'
  · obtain ⟨rest, rfl⟩ := List.head?_eq_some_iff.mp hhead
    rw [patternFrom_caret, patternFrom_false, symbols_plain (by decide), LinePattern.ofSymbols]
  · rw [patternFrom_true hhead, patternFrom_false,
      LinePattern.ofSymbols_of_head?_ne ((head?_symbols boundary s).not.mpr hhead)]

/-! ## Both ways to read an anchor -/

/-- How the reader of locations and the pattern of a line agree about an anchor. -/
structure Agrees (boundary : Char) (body : String) : Prop where
  /-- the anchor is accepted exactly if the boundary behind the body stands by itself -/
  accepted : parse (between boundary body.toList) = .ok (some (.anchor boundary body)) ↔
    Closes boundary body.toList
  /-- the pattern of a line is read off the same symbols -/
  decoded : (anchor boundary body).pattern? = some (.ofSymbols (symbols boundary body.toList))
  /-- which do not end with a backslash if the anchor is accepted -/
  complete : parse (between boundary body.toList) = .ok (some (.anchor boundary body)) →
    (symbols boundary body.toList).getLast? ≠ some (.plain '\\')

theorem isAnchor_iff_closes (hb : isBoundary boundary = true) {body : List Char} :
    IsAnchor boundary body ↔ Closes boundary body := by
  have hlegal := isBoundary_iff.mp hb
  have hne : boundary ≠ '\\' := fun h => hlegal.2 (by simp [h])
  rw [closes_iff hne]
  exact ⟨IsAnchor.paired, fun heven => ⟨hlegal.1, hlegal.2, heven⟩⟩

theorem agrees (hb : isBoundary boundary = true) (body : String) : Agrees boundary body where
  accepted := parse_render_anchor_iff.trans (isAnchor_iff_closes hb)
  decoded := pattern?_anchor boundary body
  complete h := complete_iff.mpr (parse_render_anchor_iff.mp h).paired

/-- **The reader of locations agrees with the patterns**, and refuses every text that is neither
empty nor a number nor an anchor whose closing boundary stands by itself. -/
theorem parse_agrees :
    (∀ boundary body, isBoundary boundary = true → Agrees boundary body) ∧
    ∀ raw, raw ≠ "" → ¬ IsNumber raw.toList →
      (∀ boundary body, isBoundary boundary = true → Closes boundary body →
        raw ≠ between boundary body) →
      parse raw = .error (.invalidLocation raw) := by
  refine ⟨fun _ body hb => agrees hb body, fun raw hne hnumber hanchor => ?_⟩
  refine parse_eq_error hne hnumber fun boundary body h => ?_
  have hb := isBoundary_iff.mpr ⟨h.punctuation, h.plain⟩
  exact hanchor boundary body hb ((isAnchor_iff_closes hb).mp h)

/-- A boundary behind one backslash is part of the body, and behind two of them it is not. -/
theorem parse_agrees_backslashes :
    isBoundary '/' = true ∧ Closes '/' "a\\\\".toList ∧ ¬ Closes '/' "a\\".toList ∧
      parse "/a\\\\/" = .ok (some (.anchor '/' "a\\\\")) ∧
      parse "/a\\/" = .error (.invalidLocation "/a\\/") := by
  have hb : isBoundary '/' = true := by decide
  have hone : ¬ Closes '/' "a\\".toList := by decide
  refine ⟨hb, by decide, hone, (parse_agrees.1 '/' "a\\\\" hb).accepted.mpr (by decide),
    parse_agrees.2 "/a\\/" (by decide) (fun h => ?_) fun boundary body _ hcloses hraw => ?_⟩
  · exact absurd (h.digits '/' List.mem_cons_self) (by decide)
  · obtain ⟨rfl, rfl⟩ := between_inj.mp (show between '/' "a\\".toList = _ from hraw)
    exact hone hcloses

end Location

end SymbolIndex
