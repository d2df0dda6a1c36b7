import Mathlib.Data.List.Basic
import SymbolIndex.Proofs.Text.Words
import SymbolIndex.Query.Tokens

/-!
# Writing queries and reading them back

Clauses are written as words with single spaces between them. What has been read can be written and
is read back as it was, and a list of clauses can be written exactly if each clause is one that some
word makes.

* `leadCharacters`, `bareWords`: how words of a sort begin, and the words that say nothing;
* `Rule.clause`, `classify_eq_some_iff`, `classify_eq_none_iff`: the clauses that words make;
* `Clause.Writable`, `writable_iff`: the clauses that can be written;
* `render_parse`, `parse_render_iff`: writing what was read, and reading what was written;
* `reading_and_writing`: all of it.
-/

namespace SymbolIndex.Query

open Text

/-- The characters with which the sorts of words begin that begin in a way of their own. -/
def leadCharacters : List Char := ['=', '/', '-', ':', '!']

/-- The words that are nothing but the beginning of a sort. -/
def bareWords : List (List Char) := leadCharacters.map fun c => [c]

/-- The clause of the sort with this value. -/
def Rule.clause (r : Rule) (value : List Char) : Clause :=
  ⟨r.target, r.mode, r.grouping, String.ofList value⟩

/-! ## Rules -/

/-- Words that begin with one of the characters are of its sort, whatever else they say. -/
theorem ruleFor_lead {c : Char} (h : c ∈ leadCharacters) :
    ∃ r ∈ rules, r.lead = some c ∧ ∀ value, ruleFor (c :: value) = some r := by
  simp only [leadCharacters, List.mem_cons, List.not_mem_nil, or_false] at h
  rcases h with rfl | rfl | rfl | rfl | rfl <;> exact ⟨_, by decide, rfl, fun _ => rfl⟩

theorem ruleFor_other {c : Char} (h : c ∉ leadCharacters) (value : List Char) :
    ∃ r ∈ rules, r.lead = none ∧ ruleFor (c :: value) = some r := by
  simp only [leadCharacters, List.mem_cons, List.not_mem_nil, or_false, not_or] at h
  obtain ⟨h₁, h₂, h₃, h₄, h₅⟩ := h
  exact ⟨_, by decide, rfl, ruleFor_plain value h₁ h₂ h₃ h₄ h₅⟩

theorem lead_mem {r : Rule} (hr : r ∈ rules) {c : Char} (h : r.lead = some c) :
    c ∈ leadCharacters := by
  have hall : ∀ r ∈ rules, ∀ c ∈ r.lead, c ∈ leadCharacters := by simp [rules, leadCharacters]
  exact hall r hr c h

theorem eq_of_lead {r r' : Rule} (hr : r ∈ rules) (hr' : r' ∈ rules) (h : r.lead = r'.lead) :
    r = r' := by
  have hall : ∀ r ∈ rules, ∀ r' ∈ rules, r.lead = r'.lead → r = r' := by decide
  exact hall r hr r' hr' h

theorem lead?_clause {r : Rule} (hr : r ∈ rules) (value : List Char) :
    (r.clause value).lead? = some r.leadText := by
  simp only [rules, List.mem_cons, List.not_mem_nil, or_false] at hr
  rcases hr with rfl | rfl | rfl | rfl | rfl | rfl <;> rfl

theorem toList_render_clause {r : Rule} (hr : r ∈ rules) (value : List Char) :
    (r.clause value).render.toList = r.leadText ++ value := by
  rw [Clause.render, lead?_clause hr, Option.getD_some, String.toList_ofList, Rule.clause,
    String.toList_ofList]

/-! ## Words -/

/-- **The clause of a word.** Behind the beginning of its sort comes the value. -/
theorem classify_eq_some_iff {word : List Char} {c : Clause} :
    classify word = some c ↔ ∃ r ∈ rules, ∃ value, value ≠ [] ∧
      (r.lead = none → ∀ d ∈ value.head?, d ∉ leadCharacters) ∧
      word = r.leadText ++ value ∧ c = r.clause value := by
  constructor
  · intro h
    unfold classify at h
    split at h
    · cases h
    · next r hr =>
      split at h
      · cases h
      · next hne =>
        obtain rfl := Option.some.inj h
        have hmem : r ∈ rules := List.mem_of_find?_eq_some hr
        have hfits := List.find?_some hr
        obtain ⟨value, rfl⟩ := List.isPrefixOf_iff_prefix.mp hfits
        rw [List.drop_left] at hne ⊢
        refine ⟨r, hmem, value, hne, fun hl d hd hlead => ?_, rfl, rfl⟩
        -- the beginning of the word would have been that of another sort
        obtain ⟨rest, rfl⟩ := List.head?_eq_some_iff.mp hd
        obtain ⟨r', -, hl', hr'⟩ := ruleFor_lead hlead
        rw [Rule.leadText, hl, Option.toList_none, List.nil_append, hr' rest] at hr
        obtain rfl := Option.some.inj hr
        rw [hl] at hl'
        cases hl'
  · rintro ⟨r, hr, value, hne, hplain, rfl, rfl⟩
    have hfor : ruleFor (r.leadText ++ value) = some r := by
      cases hl : r.lead with
      | some d =>
        obtain ⟨r', hr', hl', hfor⟩ := ruleFor_lead (lead_mem hr hl)
        obtain rfl := eq_of_lead hr hr' (hl.trans hl'.symm)
        rw [Rule.leadText, hl]
        exact hfor value
      | none =>
        obtain ⟨d, rest, rfl⟩ := List.exists_cons_of_ne_nil hne
        obtain ⟨r', hr', hl', hfor⟩ := ruleFor_other (hplain hl d rfl) rest
        obtain rfl := eq_of_lead hr hr' (hl.trans hl'.symm)
        rw [Rule.leadText, hl]
        exact hfor
    obtain ⟨d, rest, rfl⟩ := List.exists_cons_of_ne_nil hne
    simp only [classify, hfor, List.drop_left]
    rfl

/-- **The words that make no clause** are those that are nothing but the beginning of a sort. -/
theorem classify_eq_none_iff {word : List Char} (hne : word ≠ []) :
    classify word = none ↔ word ∈ bareWords := by
  obtain ⟨c, rest, rfl⟩ := List.exists_cons_of_ne_nil hne
  constructor
  · intro h
    by_contra hbare
    have hsome : ∃ clause, classify (c :: rest) = some clause := by
      simp only [classify_eq_some_iff]
      by_cases hc : c ∈ leadCharacters
      · obtain ⟨r, hr, hl, -⟩ := ruleFor_lead hc
        have hrest : rest ≠ [] := by
          rintro rfl
          exact hbare (List.mem_map.mpr ⟨c, hc, rfl⟩)
        exact ⟨_, r, hr, rest, hrest, fun hn => by (rw [hl] at hn; cases hn),
          by rw [Rule.leadText, hl]; rfl, rfl⟩
      · obtain ⟨r, hr, hl, -⟩ := ruleFor_other hc rest
        exact ⟨_, r, hr, c :: rest, List.cons_ne_nil _ _,
          fun _ d hd => by (obtain rfl := Option.some.inj hd; exact hc),
          by rw [Rule.leadText, hl]; rfl, rfl⟩
    obtain ⟨clause, hclause⟩ := hsome
    rw [h] at hclause
    cases hclause
  · have hall : ∀ w ∈ bareWords, classify w = none := by decide
    exact hall _

/-- A clause is written as the word that it was read from. -/
theorem toList_render_of_classify {word : List Char} {c : Clause} (h : classify word = some c) :
    c.render.toList = word := by
  obtain ⟨r, hr, value, -, -, rfl, rfl⟩ := classify_eq_some_iff.mp h
  exact toList_render_clause hr value

/-! ## Clauses that can be written -/

/-- The clause can be written as a word of a query. -/
structure Clause.Writable (c : Clause) : Prop where
  /-- it is of a sort that words are of -/
  sort : ∃ r ∈ rules, r.Makes c
  /-- its value is not empty -/
  value : c.value ≠ ""
  /-- nor does it fall apart into words -/
  unbroken : ∀ d ∈ c.value.toList, isBlank d = false
  /-- and as a word on its own it is of no other sort -/
  plain : c.target = .name → c.mode = .fuzzy →
    ∀ d ∈ c.value.toList.head?, d ∉ leadCharacters

/-- The sort that begins in no way of its own is the one of names that are compared fuzzily. -/
theorem lead_eq_none_iff {r : Rule} (hr : r ∈ rules) :
    r.lead = none ↔ r.target = .name ∧ r.mode = .fuzzy := by
  have hall : ∀ r ∈ rules, r.lead = none ↔ r.target = .name ∧ r.mode = .fuzzy := by decide
  exact hall r hr

theorem not_blank_of_lead {c : Char} (h : c ∈ leadCharacters) : isBlank c = false := by
  simp only [leadCharacters, List.mem_cons, List.not_mem_nil, or_false] at h
  rcases h with rfl | rfl | rfl | rfl | rfl <;> rfl

/-- **A clause can be written exactly if some word makes it.** -/
theorem writable_iff {c : Clause} :
    c.Writable ↔ ∃ word, (∀ d ∈ word, isBlank d = false) ∧ classify word = some c := by
  constructor
  · rintro ⟨⟨r, hr, htarget, hmode, hgrouping⟩, hvalue, hunbroken, hplain⟩
    refine ⟨r.leadText ++ c.value.toList, fun d hd => ?_,
      classify_eq_some_iff.mpr ⟨r, hr, c.value.toList, ?_, fun hl => ?_, rfl, ?_⟩⟩
    · rcases List.mem_append.mp hd with hd | hd
      · exact not_blank_of_lead (lead_mem hr (Option.mem_toList.mp hd))
      · exact hunbroken d hd
    · exact fun hn => hvalue (String.toList_eq_nil_iff.mp hn)
    · obtain ⟨ht, hm⟩ := (lead_eq_none_iff hr).mp hl
      exact hplain (htarget ▸ ht) (hmode ▸ hm)
    · rw [Rule.clause, htarget, hmode, hgrouping, String.ofList_toList]
  · rintro ⟨word, hword, hc⟩
    obtain ⟨r, hr, value, hne, hplain, rfl, rfl⟩ := classify_eq_some_iff.mp hc
    have htoList : (r.clause value).value.toList = value := String.toList_ofList
    refine ⟨⟨r, hr, rfl, rfl, rfl⟩, fun hv => hne ?_, fun d hd => ?_, fun ht hm => ?_⟩
    · rw [← htoList, hv]
      rfl
    · rw [htoList] at hd
      exact hword d (List.mem_append_right _ hd)
    · rw [htoList]
      exact hplain ((lead_eq_none_iff hr).mpr ⟨ht, hm⟩)

theorem Clause.Writable.classify_render {c : Clause} (h : c.Writable) :
    classify c.render.toList = some c ∧ c.render.toList ≠ [] ∧
      ∀ d ∈ c.render.toList, isBlank d = false := by
  obtain ⟨word, hword, hc⟩ := writable_iff.mp h
  rw [toList_render_of_classify hc]
  refine ⟨hc, ?_, hword⟩
  rintro rfl
  cases hc

theorem writable_of_mem_parse {selection : Selection} {text : String} {c : Clause}
    (h : c ∈ parse selection text) : c.Writable := by
  obtain ⟨word, hword, hc⟩ := List.mem_filterMap.mp (List.mem_filter.mp h).1
  exact writable_iff.mpr ⟨word, ((mem_words_iff _ _).mp hword).2.1, hc⟩

/-! ## Texts -/

theorem parse_full (text : String) : parse .full text = (words text.toList).filterMap classify :=
  List.filter_eq_self.mpr fun _ _ => rfl

theorem toList_render (cs : List Clause) :
    (render cs).toList = [' '].intercalate (cs.map fun c => c.render.toList) := by
  rw [render, String.toList_intercalate, List.map_map]
  rfl

/-- **Clauses that can be written are read back.** -/
theorem parse_render {cs : List Clause} (h : ∀ c ∈ cs, c.Writable) :
    parse .full (render cs) = cs := by
  have hwords : words (render cs).toList = cs.map fun c => c.render.toList := by
    rw [toList_render, words_intercalate]
    intro word hword
    obtain ⟨c, hc, rfl⟩ := List.mem_map.mp hword
    exact (h c hc).classify_render.2
  rw [parse_full, hwords, List.filterMap_map]
  calc cs.filterMap (classify ∘ fun c => c.render.toList)
      = cs.filterMap some := List.filterMap_congr fun c hc => (h c hc).classify_render.1
    _ = cs := List.filterMap_some

theorem parse_render_iff {cs : List Clause} :
    parse .full (render cs) = cs ↔ ∀ c ∈ cs, c.Writable := by
  refine ⟨fun h c hc => ?_, parse_render⟩
  rw [← h] at hc
  exact writable_of_mem_parse hc

theorem map_render_filterMap {ws : List (List Char)} (h : ∀ w ∈ ws, w ≠ []) :
    (ws.filterMap classify).map (fun c => c.render.toList) = ws.filter (· ∉ bareWords) := by
  induction ws with
  | nil => rfl
  | cons w ws ih =>
    have ih := ih fun v hv => h v (List.mem_cons_of_mem _ hv)
    have hbare := classify_eq_none_iff (h w List.mem_cons_self)
    cases hc : classify w with
    | none =>
      rw [List.filterMap_cons_none hc, ih, List.filter_cons_of_neg (by simpa using hbare.mp hc)]
    | some c =>
      have hw : w ∉ bareWords := fun hb => by
        rw [hbare.mpr hb] at hc
        cases hc
      rw [List.filterMap_cons_some hc, List.map_cons, ih, toList_render_of_classify hc,
        List.filter_cons_of_pos (by simpa using hw)]

/-- **Writing what was read** leaves the words that say something, with single spaces between
them. -/
theorem render_parse (text : String) :
    render (parse .full text) =
      " ".intercalate (((words text.toList).filter (· ∉ bareWords)).map String.ofList) := by
  have hwords : ∀ w ∈ words text.toList, w ≠ [] := fun w hw => ((mem_words_iff _ _).mp hw).1
  rw [← String.toList_inj, toList_render, String.toList_intercalate, parse_full,
    map_render_filterMap hwords, List.map_map]
  congr 1
  exact (List.map_congr_left fun w _ => String.toList_ofList).trans (List.map_id _) |>.symm

/-- **Writing and reading undo each other.** -/
theorem reading_and_writing :
    (∀ text, Spaced text.toList (words text.toList) ∧
      render (parse .full text) =
        " ".intercalate (((words text.toList).filter (· ∉ bareWords)).map String.ofList)) ∧
    (∀ selection text, parse .full (render (parse selection text)) = parse selection text) ∧
    ∀ cs, parse .full (render cs) = cs ↔ ∀ c ∈ cs, c.Writable :=
  ⟨fun text => ⟨words_eq_iff.mp rfl, render_parse text⟩,
    fun _ _ => parse_render fun _ hc => writable_of_mem_parse hc, fun _ => parse_render_iff⟩

end SymbolIndex.Query
