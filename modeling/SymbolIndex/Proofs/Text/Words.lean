import Mathlib.Data.List.TakeWhile
import SymbolIndex.Text.Blank

/-!
# Words

Cutting a text apart yields the runs of characters that are not cut at, from one cutting character
to the next. The words of a text are the runs between blanks that are not empty.

* `head?_splitAt`, `mem_tail_splitAt`: the first part of a text, and the parts behind it;
* `uncut_of_mem_splitAt`: what no part holds;
* `occurs_iff`: texts that are part of others;
* `IsWord`, `mem_words_iff`: the words of a text;
* `Spaced`, `words_eq_iff`: a text with all of its words, in their order;
* `words_intercalate`: words with single spaces between them.
-/

namespace SymbolIndex.Text

/-- The text begins with a cutting character, if it is not empty. -/
def CutAhead (cut : Char → Bool) (s : List Char) : Prop := ∀ c ∈ s.head?, cut c = true

/-- A part up to the next cutting character. -/
def IsRun (cut : Char → Bool) (s w : List Char) : Prop :=
  (∀ c ∈ w, cut c = false) ∧ ∃ behind, s = w ++ behind ∧ CutAhead cut behind

theorem isRun_iff {cut : Char → Bool} {s w : List Char} :
    IsRun cut s w ↔ w = s.takeWhile fun c => !cut c := by
  constructor
  · rintro ⟨hw, behind, rfl, hb⟩
    rw [List.takeWhile_append_of_pos fun c hc => by rw [hw c hc]; rfl]
    cases behind with
    | nil => rw [List.takeWhile_nil, List.append_nil]
    | cons c behind =>
      have hc : cut c = true := hb c rfl
      rw [List.takeWhile_cons_of_neg (by rw [hc]; exact Bool.false_ne_true), List.append_nil]
  · rintro rfl
    refine ⟨fun c hc => by simpa using List.mem_takeWhile_imp hc, s.dropWhile fun c => !cut c,
      List.takeWhile_append_dropWhile.symm, fun c hc => ?_⟩
    have := List.head?_dropWhile_not (fun c => !cut c) s
    rw [hc] at this
    simpa using this

theorem head?_splitAt (cut : Char → Bool) (s : List Char) :
    (splitAt cut s).head? = some (s.takeWhile fun c => !cut c) := by
  induction s with
  | nil => rfl
  | cons c s ih =>
    rw [splitAt_cons]
    by_cases hc : cut c = true
    · simp [hc]
    · rw [if_neg hc, List.takeWhile_cons_of_pos (by simpa using hc)]
      cases hs : splitAt cut s with
      | nil => rw [hs] at ih; cases ih
      | cons part parts =>
        rw [hs, List.head?_cons, Option.some.injEq] at ih
        rw [consHead, List.head?_cons, ih]

theorem mem_tail_splitAt (cut : Char → Bool) (s w : List Char) :
    w ∈ (splitAt cut s).tail ↔
      ∃ before c behind, s = before ++ c :: behind ∧ cut c = true ∧ IsRun cut behind w := by
  induction s with
  | nil => simp
  | cons x s ih =>
    have hsplit : (∃ before c behind, x :: s = before ++ c :: behind ∧ cut c = true ∧
        IsRun cut behind w) ↔ cut x = true ∧ IsRun cut s w ∨ w ∈ (splitAt cut s).tail := by
      rw [ih]
      constructor
      · rintro ⟨before, c, behind, hs, hc, hw⟩
        cases before with
        | nil =>
          obtain ⟨rfl, rfl⟩ := List.cons.inj hs
          exact .inl ⟨hc, hw⟩
        | cons y before =>
          obtain ⟨rfl, rfl⟩ := List.cons.inj hs
          exact .inr ⟨before, c, behind, rfl, hc, hw⟩
      · rintro (⟨hx, hw⟩ | ⟨before, c, behind, rfl, hc, hw⟩)
        · exact ⟨[], x, s, rfl, hx, hw⟩
        · exact ⟨x :: before, c, behind, rfl, hc, hw⟩
    rw [hsplit, splitAt_cons]
    have hhead := head?_splitAt cut s
    cases hs : splitAt cut s with
    | nil => rw [hs] at hhead; cases hhead
    | cons part parts =>
      rw [hs, List.head?_cons, Option.some.injEq] at hhead
      by_cases hx : cut x = true
      · simp [hx, isRun_iff, hhead]
      · simp [hx, consHead]

theorem mem_splitAt (cut : Char → Bool) (s w : List Char) :
    w ∈ splitAt cut s ↔ IsRun cut s w ∨ w ∈ (splitAt cut s).tail := by
  have hhead := head?_splitAt cut s
  rw [isRun_iff]
  cases hs : splitAt cut s with
  | nil => rw [hs] at hhead; cases hhead
  | cons part parts =>
    rw [hs, List.head?_cons, Option.some.injEq] at hhead
    rw [List.mem_cons, hhead, List.tail_cons]

theorem uncut_of_mem_splitAt {cut : Char → Bool} {s w : List Char} (h : w ∈ splitAt cut s) :
    ∀ c ∈ w, cut c = false := by
  rcases (mem_splitAt cut s w).mp h with hw | hw
  · exact hw.1
  · obtain ⟨_, _, _, -, -, hw⟩ := (mem_tail_splitAt cut s w).mp hw
    exact hw.1

theorem occurs_iff {part s : List Char} : occurs part s = true ↔ part <:+: s := by
  induction s with
  | nil => rw [occurs, List.isEmpty_iff, List.infix_nil]
  | cons c s ih =>
    rw [occurs, Bool.or_eq_true, List.isPrefixOf_iff_prefix, ih, List.infix_cons_iff]

/-- A word of a text: a run of characters that are not blank, between blanks or the ends of the
text. -/
def IsWord (s w : List Char) : Prop :=
  w ≠ [] ∧ (∀ c ∈ w, isBlank c = false) ∧ ∃ before behind, s = before ++ w ++ behind ∧
    (∀ c ∈ before.getLast?, isBlank c = true) ∧ ∀ c ∈ behind.head?, isBlank c = true

/-- **The words of a text.** -/
theorem mem_words_iff (s w : List Char) : w ∈ words s ↔ IsWord s w := by
  rw [words, List.mem_filter, mem_splitAt, mem_tail_splitAt, and_comm]
  refine and_congr (by simp) ?_
  constructor
  · rintro (⟨hw, behind, rfl, hb⟩ | ⟨before, c, _, rfl, hc, hw, behind, rfl, hb⟩)
    · exact ⟨hw, [], behind, rfl, by simp, hb⟩
    · exact ⟨hw, before ++ [c], behind, by simp, by simpa using hc, hb⟩
  · rintro ⟨hw, before, behind, rfl, hl, hb⟩
    rcases List.eq_nil_or_concat before with rfl | ⟨before, c, rfl⟩
    · exact .inl ⟨hw, behind, rfl, hb⟩
    · exact .inr ⟨before, c, w ++ behind, by simp, hl c (by simp), hw, behind, rfl, hb⟩

/-! ## All words of a text -/

/-- The text is made of these words, in this order, with blanks between them and perhaps around
them. -/
inductive Spaced : List Char → List (List Char) → Prop
  | blanks {s : List Char} (h : ∀ c ∈ s, isBlank c = true) : Spaced s []
  | word {before w behind : List Char} {ws : List (List Char)}
    (hbefore : ∀ c ∈ before, isBlank c = true) (hne : w ≠ []) (hw : ∀ c ∈ w, isBlank c = false)
    (hcut : CutAhead isBlank behind) (h : Spaced behind ws) :
    Spaced (before ++ w ++ behind) (w :: ws)

theorem splitAt_append {cut : Char → Bool} {w behind : List Char} (hw : ∀ c ∈ w, cut c = false)
    (hcut : CutAhead cut behind) :
    splitAt cut (w ++ behind) = w :: (splitAt cut behind).tail := by
  induction w with
  | nil =>
    have hhead := head?_splitAt cut behind
    have hempty : behind.takeWhile (fun c => !cut c) = [] :=
      (isRun_iff.mp ⟨fun c hc => absurd hc List.not_mem_nil, behind, rfl, hcut⟩).symm
    rw [hempty] at hhead
    obtain ⟨parts, hparts⟩ := List.head?_eq_some_iff.mp hhead
    rw [List.nil_append, hparts, List.tail_cons]
  | cons c w ih =>
    have hc : cut c = false := hw c List.mem_cons_self
    rw [List.cons_append, splitAt_cons, hc, ih fun d hd => hw d (List.mem_cons_of_mem _ hd)]
    rfl

theorem words_append_of_blank {before : List Char} (h : ∀ c ∈ before, isBlank c = true)
    (s : List Char) : words (before ++ s) = words s := by
  induction before with
  | nil => rfl
  | cons c before ih =>
    have hc : isBlank c = true := h c List.mem_cons_self
    rw [← ih fun d hd => h d (List.mem_cons_of_mem _ hd), List.cons_append, words, splitAt_cons,
      if_pos hc, List.filter_cons_of_neg (by simp), words]

theorem words_append {w behind : List Char} (hne : w ≠ []) (hw : ∀ c ∈ w, isBlank c = false)
    (hcut : CutAhead isBlank behind) : words (w ++ behind) = w :: words behind := by
  have hbehind : splitAt isBlank behind = [] :: (splitAt isBlank behind).tail :=
    splitAt_append (w := []) (fun c hc => absurd hc List.not_mem_nil) hcut
  rw [words, splitAt_append hw hcut, List.filter_cons_of_pos (by simpa using hne), words, hbehind,
    List.filter_cons_of_neg (by simp)]
  rfl

theorem words_of_spaced {s : List Char} {ws : List (List Char)} (h : Spaced s ws) :
    words s = ws := by
  induction h with
  | @blanks s h =>
    have := words_append_of_blank h []
    rwa [List.append_nil] at this
  | word hbefore hne hw hcut h ih =>
    rw [List.append_assoc, words_append_of_blank hbefore, words_append hne hw hcut, ih]

theorem exists_spaced (s : List Char) : ∃ ws, Spaced s ws := by
  induction hn : s.length using Nat.strong_induction_on generalizing s with
  | _ n ih =>
    -- the blanks in front, the first word, and what is behind it
    obtain ⟨before, t, rfl, hbefore, ht⟩ : ∃ before t, s = before ++ t ∧
        (∀ c ∈ before, isBlank c = true) ∧ ∀ c ∈ t.head?, isBlank c = false :=
      ⟨s.takeWhile isBlank, s.dropWhile isBlank, List.takeWhile_append_dropWhile.symm,
        fun c hc => List.mem_takeWhile_imp hc, fun c hc => by
          have := List.head?_dropWhile_not isBlank s
          rw [hc] at this
          simpa using this⟩
    cases t with
    | nil => exact ⟨[], .blanks (by simpa using hbefore)⟩
    | cons c t =>
      obtain ⟨w, hw, behind, hsplit, hcut⟩ : ∃ w, IsRun isBlank (c :: t) w :=
        ⟨_, isRun_iff.mpr rfl⟩
      have hne : w ≠ [] := by
        rintro rfl
        rw [List.nil_append] at hsplit
        have hc := hcut c (by rw [← hsplit]; rfl)
        rw [ht c rfl] at hc
        cases hc
      have hlen := List.length_pos_iff.mpr hne
      rw [hsplit, List.length_append, List.length_append] at hn
      obtain ⟨ws, hws⟩ := ih behind.length (by omega) behind rfl
      refine ⟨w :: ws, ?_⟩
      rw [hsplit, ← List.append_assoc]
      exact .word hbefore hne hw hcut hws

/-- **The words of a text are what it is made of**, in their order and with nothing but blanks left
over. -/
theorem words_eq_iff {s : List Char} {ws : List (List Char)} : words s = ws ↔ Spaced s ws := by
  refine ⟨?_, words_of_spaced⟩
  rintro rfl
  obtain ⟨ws, hws⟩ := exists_spaced s
  rw [words_of_spaced hws]
  exact hws

/-- **Words with single spaces between them are the words of that text.** -/
theorem words_intercalate : ∀ ws : List (List Char),
    (∀ w ∈ ws, w ≠ [] ∧ ∀ c ∈ w, isBlank c = false) → words ([' '].intercalate ws) = ws
  | [], _ => rfl
  | [w], h => by
    have hw := h w List.mem_cons_self
    have hcut : CutAhead isBlank [] := fun c hc => by cases hc
    have hsplit := words_append hw.1 hw.2 hcut
    rw [List.append_nil] at hsplit
    rw [List.intercalate_singleton, hsplit]
    rfl
  | w :: w' :: ws, h => by
    have hw := h w List.mem_cons_self
    have hcut : CutAhead isBlank ([' '] ++ [' '].intercalate (w' :: ws)) := fun c hc => by
      obtain rfl := Option.some.inj hc
      decide
    rw [List.intercalate_cons_cons, List.append_assoc, words_append hw.1 hw.2 hcut,
      words_append_of_blank (List.forall_mem_singleton.mpr rfl),
      words_intercalate (w' :: ws) fun v hv => h v (List.mem_cons_of_mem _ hv)]

end SymbolIndex.Text
