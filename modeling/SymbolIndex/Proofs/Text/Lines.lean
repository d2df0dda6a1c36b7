import Mathlib.Data.List.DropRight
import SymbolIndex.Proofs.Text.Words

/-!
# Lines and columns

Text that has been put together from parts is cut into the same parts again, as long as the parts do
not hold what stands between them.

* `splitOnce_append`: the text before the first separator and the text behind it;
* `splitAt_append_cons`, `splitAt_intercalate`: the parts between separators;
* `getLastD_splitAt`: the part behind the last one;
* `trim_eq_self`, `trim_stripLineEnd`: text with no blanks around it, and lines with their ends;
* `lines_append`, `not_mem_of_mem_lines`: the lines of a text, from the first one on;
* `AreLines`, `linesInclusive_eq_iff`, `AreLines.lines_flatten`: the lines of a text with their ends.
-/

namespace SymbolIndex.Text

/-! ## Columns -/

theorem splitOnce_of_not_mem {sep : Char} {s : List Char} (h : sep ∉ s) :
    splitOnce sep s = none := by
  induction s with
  | nil => rfl
  | cons c s ih =>
    obtain ⟨hc, hs⟩ := List.ne_and_not_mem_of_not_mem_cons h
    rw [splitOnce, if_neg hc.symm, ih hs, Option.map_none]

theorem splitOnce_append {sep : Char} {before : List Char} (h : sep ∉ before)
    (behind : List Char) : splitOnce sep (before ++ sep :: behind) = some (before, behind) := by
  induction before with
  | nil => rw [List.nil_append, splitOnce, if_pos rfl]
  | cons c before ih =>
    obtain ⟨hc, hbefore⟩ := List.ne_and_not_mem_of_not_mem_cons h
    rw [List.cons_append, splitOnce, if_neg hc.symm, ih hbefore, Option.map_some]

theorem splitAt_ne_nil (cut : Char → Bool) (s : List Char) : splitAt cut s ≠ [] := by
  intro h
  have hhead := head?_splitAt cut s
  rw [h] at hhead
  cases hhead

theorem splitAt_append_cons (cut : Char → Bool) {c : Char} (hc : cut c = true)
    (before behind : List Char) :
    splitAt cut (before ++ c :: behind) = splitAt cut before ++ splitAt cut behind := by
  induction before with
  | nil => rw [List.nil_append, splitAt_cons, if_pos hc, splitAt_nil, List.singleton_append]
  | cons x before ih =>
    rw [List.cons_append, splitAt_cons, splitAt_cons, ih]
    split
    · rfl
    · cases hs : splitAt cut before with
      | nil => exact absurd hs (splitAt_ne_nil cut before)
      | cons part parts => rfl

theorem splitAt_of_uncut {cut : Char → Bool} {s : List Char} (h : ∀ c ∈ s, cut c = false) :
    splitAt cut s = [s] := by
  have hend : CutAhead cut [] := nofun
  have happend := splitAt_append h hend
  rwa [List.append_nil] at happend

theorem splitAt_intercalate {sep : Char} {parts : List (List Char)} (hne : parts ≠ [])
    (h : ∀ part ∈ parts, sep ∉ part) : splitAt (· == sep) ([sep].intercalate parts) = parts := by
  have huncut : ∀ {part : List Char}, sep ∉ part → ∀ c ∈ part, (c == sep) = false :=
    fun hpart c hc => beq_false_of_ne fun he => hpart (he ▸ hc)
  induction parts with
  | nil => exact absurd rfl hne
  | cons part parts ih =>
    have hpart := huncut (h part List.mem_cons_self)
    cases parts with
    | nil => rw [List.intercalate_singleton, splitAt_of_uncut hpart]
    | cons next parts =>
      have hrest := ih (List.cons_ne_nil _ _) fun p hp => h p (List.mem_cons_of_mem _ hp)
      rw [List.intercalate_cons_cons, List.append_assoc, List.singleton_append,
        splitAt_append_cons (· == sep) (beq_self_eq_true sep), splitAt_of_uncut hpart, hrest,
        List.singleton_append]

theorem intercalate_ne_nil {sep : Char} {parts : List (List Char)} (hne : parts ≠ [])
    (h : ∀ part ∈ parts, part ≠ []) : [sep].intercalate parts ≠ [] := by
  obtain ⟨part, parts, rfl⟩ := List.exists_cons_of_ne_nil hne
  have hpart : part ≠ [] := h part List.mem_cons_self
  cases parts with
  | nil => rwa [List.intercalate_singleton]
  | cons next parts =>
    rw [List.intercalate_cons_cons, List.append_assoc]
    exact List.append_ne_nil_of_left_ne_nil hpart _

theorem not_mem_intercalate {c sep : Char} {parts : List (List Char)} (hc : c ≠ sep)
    (h : ∀ part ∈ parts, c ∉ part) : c ∉ [sep].intercalate parts := by
  induction parts with
  | nil => exact List.not_mem_nil
  | cons part parts ih =>
    have hpart := h part List.mem_cons_self
    cases parts with
    | nil => rwa [List.intercalate_singleton]
    | cons next parts =>
      have hrest := ih fun p hp => h p (List.mem_cons_of_mem _ hp)
      rw [List.intercalate_cons_cons, List.mem_append, List.mem_append, List.mem_singleton]
      rintro ((hm | hm) | hm)
      · exact hpart hm
      · exact hc hm
      · exact hrest hm

theorem getLastD_splitAt (cut : Char → Bool) (s d : List Char) :
    (splitAt cut s).getLastD d = s.rtakeWhile fun c => !cut c := by
  have hs : (s.rdropWhile fun c => !cut c) ++ (s.rtakeWhile fun c => !cut c) = s :=
    List.rdropWhile_append_rtakeWhile
  have huncut : splitAt cut (s.rtakeWhile fun c => !cut c) = [s.rtakeWhile fun c => !cut c] :=
    splitAt_of_uncut fun c hc => by simpa using List.mem_rtakeWhile_imp hc
  rcases List.eq_nil_or_concat (s.rdropWhile fun c => !cut c) with hnil | ⟨before, c, hbefore⟩
  · rw [hnil, List.nil_append] at hs
    rw [hs] at huncut
    rw [hs, huncut]
    rfl
  · have hc : cut c = true := by
      have hlast := List.rdropWhile_last_not (fun c => !cut c) s (by rw [hbefore]; simp)
      simpa [hbefore] using hlast
    rw [hbefore, List.concat_append] at hs
    rw [← hs, splitAt_append_cons cut hc, hs, huncut, List.getLastD_concat]

/-! ## Blanks around a text -/

theorem trim_eq_self {s : List Char} (hhead : ∀ c ∈ s.head?, isBlank c = false)
    (hlast : ∀ c ∈ s.getLast?, isBlank c = false) : trim s = s := by
  have hdrop : ∀ {s : List Char}, (∀ c ∈ s.head?, isBlank c = false) →
      s.dropWhile isBlank = s := by
    intro s h
    cases s with
    | nil => rfl
    | cons c s => rw [List.dropWhile_cons_of_neg (by simpa using h c rfl)]
  rw [trim, trimStart, trimEnd, hdrop hhead, hdrop (by simpa using hlast), List.reverse_reverse]

theorem trim_append_blank {c : Char} (hc : isBlank c = true) (s : List Char) :
    trim (s ++ [c]) = trim s := by
  have hend : ∀ s, trimEnd (s ++ [c]) = trimEnd s := fun s => by
    rw [trimEnd, trimEnd, List.reverse_append, List.reverse_singleton, List.singleton_append,
      List.dropWhile_cons_of_pos hc]
  induction s with
  | nil =>
    rw [trim, trimStart, List.nil_append, List.dropWhile_cons_of_pos hc]
    rfl
  | cons d s ih =>
    by_cases hd : isBlank d = true
    · rw [trim, trim, trimStart, trimStart, List.cons_append, List.dropWhile_cons_of_pos hd,
        List.dropWhile_cons_of_pos hd]
      exact ih
    · rw [trim, trim, trimStart, trimStart, List.cons_append, List.dropWhile_cons_of_neg hd,
        List.dropWhile_cons_of_neg hd, ← List.cons_append, hend]

theorem trim_stripLineEnd (line : List Char) : trim (stripLineEnd line) = trim line := by
  have hreturn : isBlank '\r' = true := by decide
  have hfeed : isBlank '\n' = true := by decide
  unfold stripLineEnd
  split
  · next rest h =>
    have hline := congrArg List.reverse h
    rw [List.reverse_reverse, List.reverse_cons, List.reverse_cons] at hline
    rw [hline, trim_append_blank hfeed, trim_append_blank hreturn]
  · next rest _ h =>
    have hline := congrArg List.reverse h
    rw [List.reverse_reverse, List.reverse_cons] at hline
    rw [hline, trim_append_blank hfeed]
  · rfl

/-! ## Lines -/

theorem linesInclusive_of_not_mem {s : List Char} (h : '\n' ∉ s) (hne : s ≠ []) :
    linesInclusive s = [s] := by
  induction s with
  | nil => exact absurd rfl hne
  | cons c s ih =>
    obtain ⟨hc, hs⟩ := List.ne_and_not_mem_of_not_mem_cons h
    rw [linesInclusive_cons, if_neg hc.symm]
    cases s with
    | nil => rfl
    | cons d s => rw [ih hs (List.cons_ne_nil d s)]; rfl

theorem linesInclusive_append {line : List Char} (h : '\n' ∉ line) (rest : List Char) :
    linesInclusive (line ++ '\n' :: rest) = (line ++ ['\n']) :: linesInclusive rest := by
  induction line with
  | nil => rw [List.nil_append, linesInclusive_cons, if_pos rfl, List.nil_append]
  | cons c line ih =>
    obtain ⟨hc, hline⟩ := List.ne_and_not_mem_of_not_mem_cons h
    rw [List.cons_append, linesInclusive_cons, if_neg hc.symm, ih hline]
    rfl

theorem stripLineEnd_of_not_mem {line : List Char} (h : '\n' ∉ line) :
    stripLineEnd line = line := by
  have hreverse : ∀ rest, line.reverse ≠ '\n' :: rest := by
    intro rest hr
    exact h (List.mem_reverse.mp (hr ▸ List.mem_cons_self))
  unfold stripLineEnd
  split
  · next rest hr => exact absurd hr (hreverse _)
  · next rest _ hr => exact absurd hr (hreverse _)
  · rfl

/-- The line feed of a line goes, and a carriage return in front of it. -/
theorem stripLineEnd_concat (body : List Char) : stripLineEnd (body ++ ['\n']) =
    if body.getLast? = some '\r' then body.dropLast else body := by
  unfold stripLineEnd
  rw [List.reverse_append, List.reverse_singleton, List.singleton_append]
  split
  · next rest h =>
    have hbody := congrArg List.reverse (List.cons.inj h).2
    rw [List.reverse_reverse, List.reverse_cons] at hbody
    rw [hbody, List.getLast?_concat, if_pos rfl, List.dropLast_concat]
  · next rest hne h =>
    have hrest := (List.cons.inj h).2
    rw [if_neg, ← hrest, List.reverse_reverse]
    rw [← List.head?_reverse, hrest]
    intro hreturn
    obtain ⟨rest', rfl⟩ := List.head?_eq_some_iff.mp hreturn
    exact hne rest' rfl
  · next h => exact absurd rfl (h _)

theorem lines_append {line : List Char} (h : '\n' ∉ line) (hr : line.getLast? ≠ some '\r')
    (rest : List Char) : lines (line ++ '\n' :: rest) = line :: lines rest := by
  rw [lines, linesInclusive_append h, List.map_cons, stripLineEnd_concat, if_neg hr, lines]

theorem lines_of_not_mem {line : List Char} (h : '\n' ∉ line) (hne : line ≠ []) :
    lines line = [line] := by
  rw [lines, linesInclusive_of_not_mem h hne, List.map_singleton, stripLineEnd_of_not_mem h]

/-! ## Lines with their ends -/

/-- The parts are the lines of some text. A line feed ends each of them but perhaps the last one,
which is not empty, and no line holds another line feed. -/
inductive AreLines : List (List Char) → Prop
  | none : AreLines []
  | last {line : List Char} (h : '\n' ∉ line) (hne : line ≠ []) : AreLines [line]
  | line {line : List Char} {rest : List (List Char)} (h : '\n' ∉ line) (hrest : AreLines rest) :
    AreLines ((line ++ ['\n']) :: rest)

theorem areLines_linesInclusive (s : List Char) : AreLines (linesInclusive s) := by
  induction s with
  | nil => exact .none
  | cons c s ih =>
    rw [linesInclusive_cons]
    generalize linesInclusive s = ls at ih
    split
    · next hc =>
      subst hc
      exact .line List.not_mem_nil ih
    · next hc =>
      cases ih with
      | none => exact .last (by simpa using Ne.symm hc) (List.cons_ne_nil _ _)
      | last h hne =>
        exact .last (List.not_mem_cons_of_ne_of_not_mem (Ne.symm hc) h) (List.cons_ne_nil _ _)
      | line h hrest =>
        exact .line (List.not_mem_cons_of_ne_of_not_mem (Ne.symm hc) h) hrest

/-- **The lines of a text are what it falls into** behind its line feeds. -/
theorem linesInclusive_eq_iff {s : List Char} {ls : List (List Char)} :
    linesInclusive s = ls ↔ AreLines ls ∧ ls.flatten = s := by
  constructor
  · rintro rfl
    exact ⟨areLines_linesInclusive s, flatten_linesInclusive s⟩
  · rintro ⟨h, rfl⟩
    induction h with
    | none => rfl
    | last h hne => rw [List.flatten_singleton, linesInclusive_of_not_mem h hne]
    | line h _ ih =>
      rw [List.flatten_cons, List.append_assoc, List.singleton_append, linesInclusive_append h, ih]

namespace AreLines

variable {ls : List (List Char)}

theorem ne_nil (h : AreLines ls) {line : List Char} (hline : line ∈ ls) : line ≠ [] := by
  induction h with
  | none => cases hline
  | last _ hne => rwa [List.mem_singleton.mp hline]
  | line _ _ ih =>
    rcases List.mem_cons.mp hline with rfl | hline
    · exact List.append_ne_nil_of_right_ne_nil _ (List.cons_ne_nil _ _)
    · exact ih hline

theorem drop (h : AreLines ls) (n : ℕ) : AreLines (ls.drop n) := by
  induction h generalizing n with
  | none => rw [List.drop_nil]; exact .none
  | last h hne =>
    cases n with
    | zero => exact .last h hne
    | succ n => rw [List.drop_succ_cons, List.drop_nil]; exact .none
  | line h hrest ih =>
    cases n with
    | zero => exact .line h hrest
    | succ n => exact ih n

theorem take (h : AreLines ls) (n : ℕ) : AreLines (ls.take n) := by
  induction h generalizing n with
  | none => rw [List.take_nil]; exact .none
  | last h hne =>
    cases n with
    | zero => exact .none
    | succ n => rw [List.take_succ_cons, List.take_nil]; exact .last h hne
  | line h _ ih =>
    cases n with
    | zero => exact .none
    | succ n => exact .line h (ih n)

theorem erase {before after : List (List Char)} {line : List Char}
    (h : AreLines (before ++ line :: after)) : AreLines (before ++ after) := by
  induction before with
  | nil => exact h.drop 1
  | cons first before ih =>
    rw [List.cons_append] at h ⊢
    generalize hrest : before ++ line :: after = rest at h
    cases h with
    | last => cases before <;> cases hrest
    | line hfirst hrest' => exact .line hfirst (ih (hrest ▸ hrest'))

theorem exists_body (h : AreLines ls) {line : List Char} (hline : line ∈ ls) :
    ∃ body, '\n' ∉ body ∧ (line = body ∨ line = body ++ ['\n']) := by
  induction h with
  | none => cases hline
  | last hlast _ => exact ⟨_, hlast, .inl (List.mem_singleton.mp hline)⟩
  | line hfirst _ ih =>
    rcases List.mem_cons.mp hline with rfl | hline
    · exact ⟨_, hfirst, .inr rfl⟩
    · exact ih hline

theorem lines_flatten (h : AreLines ls) : lines ls.flatten = ls.map stripLineEnd := by
  rw [lines, linesInclusive_eq_iff.mpr ⟨h, rfl⟩]

end AreLines

theorem not_mem_of_mem_lines {s line : List Char} (h : line ∈ lines s) : '\n' ∉ line := by
  obtain ⟨ended, hended, rfl⟩ := List.mem_map.mp h
  obtain ⟨body, hbody, rfl | rfl⟩ := (areLines_linesInclusive s).exists_body hended
  · rwa [stripLineEnd_of_not_mem hbody]
  · rw [stripLineEnd_concat]
    split_ifs
    · exact fun hfeed => hbody (List.dropLast_subset body hfeed)
    · exact hbody

end SymbolIndex.Text
