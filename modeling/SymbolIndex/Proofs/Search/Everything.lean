import SymbolIndex.Proofs.Query.RoundTrip
import SymbolIndex.Proofs.Search.Clauses
import SymbolIndex.Proofs.Search.Matching

/-!
# Queries for everything

A plan that asks for nothing accepts every entry. Of the plans of query texts, no other one accepts
every entry that can be stored: the values of their clauses hold no blank, so an entry whose fields
are blank has nothing of what is asked for, whatever it is and in whatever combination.

* `blankEntry`: an entry whose fields are blank;
* `not_subset_folded`: a value has no character in common with a blank text;
* `holds_blank`, `leadMatch_blank`: what a clause asks for is not in a blank entry;
* `asks_nothing_iff`: the clauses that ask for nothing;
* `accepts_blank`: what some clauses ask for together is not in a blank entry either;
* `TellsAll`, `compile_tellsAll`: the plans that accept everything.
-/

namespace SymbolIndex

open Text Query

/-! ## Blank texts -/

theorem isBlank_lower (c : Char) : isBlank (lower c) = isBlank c := by
  by_cases h : 0x7f < c.toNat
  · rw [lower_of_not_ascii h]
  · exact forall_ascii (p := fun c => isBlank (lower c) = isBlank c) (by decide) (Nat.not_lt.mp h)

theorem not_subset_folded {value text : List Char} (hne : value ≠ [])
    (hvalue : ∀ c ∈ value, isBlank c = false) (htext : ∀ c ∈ text, isBlank c = true) :
    ¬ folded value ⊆ folded text := by
  obtain ⟨c, rest, rfl⟩ := List.exists_cons_of_ne_nil hne
  intro hsub
  obtain ⟨d, hd, hlower⟩ := List.mem_map.mp (hsub (List.mem_map_of_mem List.mem_cons_self))
  have hc := hvalue c List.mem_cons_self
  rw [← isBlank_lower, ← hlower, isBlank_lower, htext d hd] at hc
  cases hc

/-- An entry that has all that it has to have, but whose fields are blank. -/
def blankEntry : Entry where
  name := " "
  kind := " "
  file := " "

theorem blankEntry_valid : blankEntry.Valid := by decide

theorem isBlank_field (a : Attribute) : ∀ c ∈ (blankEntry.field a).toList, isBlank c = true := by
  have hspace : isBlank ' ' = true := by decide
  cases a <;> simp [Entry.field, blankEntry, Entry.extraText, hspace]

/-! ## What clauses ask for -/

section Writable

variable {c : Clause} (hc : c.Writable)

include hc

theorem Query.Clause.Writable.toList_ne : c.value.toList ≠ [] := fun h =>
  hc.value (String.toList_eq_nil_iff.mp h)

theorem holds_blank {x : Constraint} (hx : c.constraint? = some x) :
    x.test.holds (blankEntry.field x.target) = false := by
  have hblank := isBlank_field x.target
  rw [Clause.constraint?] at hx
  split at hx
  · -- a value that is compared fuzzily would have its characters in the field
    obtain rfl := Option.some.inj hx
    rw [Bool.eq_false_iff, FieldTest.holds, Ne, fuzzyMatch_iff]
    exact fun h => not_subset_folded hc.toList_ne hc.unbroken hblank h.subset
  · -- and one that is compared exactly would be the field
    obtain rfl := Option.some.inj hx
    refine beq_false_of_ne fun heq => not_subset_folded hc.toList_ne hc.unbroken hblank ?_
    rw [heq]
    exact List.Subset.refl _
  · cases hx
  · cases hx

theorem leadMatch_blank {lead : String} (hl : c.kindLead? = some lead) :
    leadMatch lead blankEntry.kind = false := by
  obtain ⟨-, rfl⟩ := Clause.kindLead?_eq_some_iff.mp hl
  rw [leadMatch_foldCase, Bool.eq_false_iff, Ne, leadMatch_iff]
  exact fun h => not_subset_folded hc.toList_ne hc.unbroken (isBlank_field .kind) h.subset

theorem asks_nothing_iff : c.constraint? = none ∧ c.kindLead? = none ↔ c.target = .option := by
  obtain ⟨target, mode, grouping, value⟩ := c
  obtain ⟨r, hr, rfl, rfl, rfl⟩ := hc.sort
  have hall : ∀ r ∈ rules, r.mode = .ignore ↔ r.target = .option := by decide
  refine Iff.trans ?_ (hall r hr)
  cases r.mode <;> simp [Clause.constraint?, Clause.kindLead?]

end Writable

/-! ## Plans -/

/-- The plan of some clauses that can be written. -/
def planOf (cs : List Clause) : Plan :=
  ⟨cs.filterMap Clause.constraint?, cs.filterMap Clause.kindLead?⟩

section Plans

variable {cs : List Clause} (hcs : ∀ c ∈ cs, c.Writable)

include hcs

theorem compile_eq : Plan.compile cs = .ok (planOf cs) :=
  Plan.compile_of_known fun c hc => (hcs c hc).sort

/-- **What some clauses ask for together is not in a blank entry**, if one of them asks for
anything. -/
theorem accepts_blank {c : Clause} (hc : c ∈ cs) (ho : c.target ≠ .option) :
    (planOf cs).accepts blankEntry = false := by
  rw [Plan.accepts, Bool.and_eq_false_iff]
  cases hx : c.constraint? with
  | some x =>
    refine .inl (List.all_eq_false.mpr ⟨x, List.mem_filterMap.mpr ⟨c, hc, hx⟩, ?_⟩)
    rw [holds_blank (hcs c hc) hx]
    exact Bool.false_ne_true
  | none =>
    have hlead : c.kindLead? ≠ none := fun hnone =>
      ho ((asks_nothing_iff (hcs c hc)).mp ⟨hx, hnone⟩)
    obtain ⟨lead, hlead⟩ := Option.ne_none_iff_exists'.mp hlead
    have hmem : lead ∈ (planOf cs).kindLeads := List.mem_filterMap.mpr ⟨c, hc, hlead⟩
    -- none of the ways to be of a kind that is asked for is open to a blank kind
    have hany : ((planOf cs).kindLeads.any (leadMatch · blankEntry.kind)) = false := by
      rw [List.any_eq_false]
      intro lead' hlead'
      obtain ⟨d, hd, hd'⟩ := List.mem_filterMap.mp hlead'
      rw [leadMatch_blank (hcs d hd) hd']
      exact Bool.false_ne_true
    rw [Bool.or_eq_false_iff, List.isEmpty_eq_false_iff]
    exact .inr ⟨List.ne_nil_of_mem hmem, hany⟩

/-- A plan asks for nothing if all of its clauses are options. -/
theorem acceptsAll_planOf_iff : (planOf cs).acceptsAll = true ↔ ∀ c ∈ cs, c.target = .option := by
  rw [Plan.acceptsAll, Bool.and_eq_true, List.isEmpty_iff, List.isEmpty_iff, planOf,
    List.filterMap_eq_nil_iff, List.filterMap_eq_nil_iff, ← forall₂_and]
  exact forall₂_congr fun c hc => asks_nothing_iff (hcs c hc)

end Plans

theorem accepts_of_acceptsAll {plan : Plan} (h : plan.acceptsAll = true) (e : Entry) :
    plan.accepts e = true := by
  rw [Plan.acceptsAll, Bool.and_eq_true, List.isEmpty_iff, List.isEmpty_iff] at h
  rw [Plan.accepts, h.1, h.2]
  rfl

/-! ## Texts -/

/-- When the plan of some clauses accepts everything. -/
structure TellsAll (cs : List Clause) (plan : Plan) : Prop where
  /-- it says so exactly if it accepts every entry that can be stored -/
  entries : plan.acceptsAll = true ↔ ∀ e : Entry, e.Valid → plan.accepts e = true
  /-- that is, if the clauses are options -/
  options : plan.acceptsAll = true ↔ ∀ c ∈ cs, c.target = .option
  /-- and a single clause that is none is enough for it to reject an entry that can be stored -/
  rejects : ∀ c ∈ cs, c.target ≠ .option → ∃ e : Entry, e.Valid ∧ plan.accepts e = false

theorem tellsAll_planOf {cs : List Clause} (hcs : ∀ c ∈ cs, c.Writable) :
    TellsAll cs (planOf cs) where
  entries := by
    refine ⟨fun h e _ => accepts_of_acceptsAll h e, fun h => ?_⟩
    rw [acceptsAll_planOf_iff hcs]
    intro c hc
    by_contra ho
    have hblank := accepts_blank hcs hc ho
    rw [h blankEntry blankEntry_valid] at hblank
    cases hblank
  options := acceptsAll_planOf_iff hcs
  rejects _ hc ho := ⟨blankEntry, blankEntry_valid, accepts_blank hcs hc ho⟩

/-- **A plan says that it accepts everything exactly if it does**: the plan of every query text, and
of any clauses that texts hold. -/
theorem compile_tellsAll :
    (∀ selection text, ∃ plan, Plan.compile (parse selection text) = .ok plan ∧
      TellsAll (parse selection text) plan) ∧
    ∀ cs, (∀ c ∈ cs, ∃ selection text, c ∈ parse selection text) →
      ∃ plan, Plan.compile cs = .ok plan ∧ TellsAll cs plan := by
  have hall : ∀ cs : List Clause, (∀ c ∈ cs, c.Writable) →
      ∃ plan, Plan.compile cs = .ok plan ∧ TellsAll cs plan := fun cs hcs =>
    ⟨planOf cs, compile_eq hcs, tellsAll_planOf hcs⟩
  refine ⟨fun selection text => hall _ fun c hc => writable_of_mem_parse hc, fun cs hcs => ?_⟩
  refine hall cs fun c hc => ?_
  obtain ⟨selection, text, hmem⟩ := hcs c hc
  exact writable_of_mem_parse hmem

/-- Kinds that could be almost any, and an option. -/
def kindClauses : List Clause :=
  [⟨.kind, .leading, .either, "De"⟩, ⟨.option, .ignore, .ungrouped, "tab"⟩,
    ⟨.kind, .leading, .either, "F"⟩]

theorem compile_tellsAll_kindClauses :
    (∃ plan, Plan.compile (parse .full "-tab =") = .ok plan ∧ plan.acceptsAll = true) ∧
      (∀ c ∈ kindClauses, ∃ selection text, c ∈ parse selection text) ∧
      ∃ plan, Plan.compile kindClauses = .ok plan ∧ plan.acceptsAll = false ∧
        ∃ e : Entry, e.Valid ∧ plan.accepts e = false := by
  have htexts : ∀ c ∈ kindClauses, ∃ selection text, c ∈ parse selection text := fun c hc =>
    ⟨.full, "=De -tab =F", by revert c; decide⟩
  obtain ⟨plan, hplan, htells⟩ := compile_tellsAll.1 .full "-tab ="
  obtain ⟨plan', hplan', htells'⟩ := compile_tellsAll.2 kindClauses htexts
  refine ⟨⟨plan, hplan, htells.options.mpr (by decide)⟩, htexts, plan', hplan', ?_,
    htells'.rejects _ List.mem_cons_self (by decide)⟩
  exact Bool.eq_false_iff.mpr fun h => absurd (htells'.options.mp h) (by decide)

end SymbolIndex
