import Mathlib.Data.List.Basic
import SymbolIndex.Plan.Execute

/-!
# Lists of clauses

A list of clauses compiles if words make all of its clauses, and is refused for the first one that
no word makes. What its plan accepts depends on nothing but which of its clauses are constraints and
which name kinds: neither their order matters nor how often they stand in the list, and options say
nothing about entries.

* `Clause.Known`, `Clause.constraint?`, `Clause.kindLead?`: the clauses that words make, and what
  they add to a plan;
* `compile_of_known`, `compile_of_unknown`: the plan of a list, and the clause it is refused for;
* `accepts_congr`, `execute_congr`: what a plan accepts and finds is read off its parts as sets;
* `SaysSame`: changes of a list that leave what it says as it is;
* `Plan.Compiles`, `Plan.compile_unordered`: how lists of clauses compile.
-/

namespace SymbolIndex

open Query

/-! ## Clauses in plans -/

namespace Query.Clause

/-- There are words that make clauses of this sort. -/
def Known (c : Clause) : Prop := ∃ r ∈ rules, r.Makes c

instance (c : Clause) : Decidable c.Known := by unfold Known; infer_instance

/-- The constraint that a clause is by itself. -/
def constraint? (c : Clause) : Option Constraint :=
  match c.mode with
  | .fuzzy => some ⟨c.target, .fuzzy (foldCase c.value)⟩
  | .exact => some ⟨c.target, .exact c.value⟩
  | .leading | .ignore => none

/-- What a clause wants a kind to begin with. -/
def kindLead? (c : Clause) : Option String :=
  match c.mode with
  | .leading => some (String.ofList (foldCase c.value))
  | .fuzzy | .exact | .ignore => none

theorem kindLead?_eq_some_iff {c : Clause} {lead : String} :
    c.kindLead? = some lead ↔ c.mode = .leading ∧ String.ofList (foldCase c.value) = lead := by
  rw [kindLead?]
  cases c.mode <;> simp

/-- The clause is an option, with which nothing is compared. -/
def IsOption (c : Clause) : Prop := c.target = .option ∧ c.mode = .ignore

instance (c : Clause) : Decidable c.IsOption := by unfold IsOption; infer_instance

theorem IsOption.adds_nothing {c : Clause} (h : c.IsOption) :
    c.constraint? = none ∧ c.kindLead? = none := by
  rw [constraint?, kindLead?, h.2]
  exact ⟨rfl, rfl⟩

end Query.Clause

namespace Plan

theorem any_makes_iff {c : Clause} : (rules.any fun r => r.Makes c) = true ↔ c.Known := by
  simp [Clause.Known]

theorem add_of_unknown (plan : Plan) {c : Clause} (h : ¬ c.Known) :
    plan.add c = .error c.invalid := by
  rw [add, if_neg (any_makes_iff.not.mpr h)]

theorem add_of_known (plan : Plan) {c : Clause} (h : c.Known) :
    plan.add c = .ok
      { constraints := plan.constraints ++ c.constraint?.toList
        kindLeads := plan.kindLeads ++ c.kindLead?.toList } := by
  rw [add, if_pos (any_makes_iff.mpr h)]
  obtain ⟨target, mode, grouping, value⟩ := c
  obtain ⟨r, hr, rfl, rfl, rfl⟩ := h
  -- the rule decides how the clause is grouped, and so which of the cases it is
  simp only [rules, List.mem_cons, List.not_mem_nil, or_false] at hr
  rcases hr with rfl | rfl | rfl | rfl | rfl | rfl <;> simp [Clause.constraint?, Clause.kindLead?]

theorem foldlM_add (plan : Plan) {cs : List Clause} (h : ∀ c ∈ cs, c.Known) :
    cs.foldlM add plan = .ok
      { constraints := plan.constraints ++ cs.filterMap Clause.constraint?
        kindLeads := plan.kindLeads ++ cs.filterMap Clause.kindLead? } := by
  induction cs generalizing plan with
  | nil => simp [pure, Except.pure]
  | cons c cs ih =>
    rw [List.foldlM_cons, plan.add_of_known (h c List.mem_cons_self)]
    refine (ih _ fun d hd => h d (List.mem_cons_of_mem _ hd)).trans ?_
    cases hc : c.constraint? <;> cases hl : c.kindLead? <;> simp [hc, hl]

theorem compile_of_known {cs : List Clause} (h : ∀ c ∈ cs, c.Known) :
    compile cs = .ok ⟨cs.filterMap Clause.constraint?, cs.filterMap Clause.kindLead?⟩ :=
  foldlM_add {} h

/-- A list is refused for the first of its clauses that no word makes. -/
theorem compile_of_unknown {before : List Clause} {c : Clause} (behind : List Clause)
    (hbefore : ∀ d ∈ before, d.Known) (hc : ¬ c.Known) :
    compile (before ++ c :: behind) = .error c.invalid := by
  have hstop : ∀ plan : Plan, (c :: behind).foldlM add plan = .error c.invalid := fun plan => by
    rw [List.foldlM_cons, plan.add_of_unknown hc]
    rfl
  rw [compile, List.foldlM_append, foldlM_add {} hbefore]
  exact hstop _

theorem exists_first_unknown {cs : List Clause} (h : ¬ ∀ c ∈ cs, c.Known) :
    ∃ before c behind, cs = before ++ c :: behind ∧ (∀ d ∈ before, d.Known) ∧ ¬ c.Known := by
  cases hfind : cs.find? fun c => !decide c.Known with
  | none => exact absurd (by simpa using hfind) h
  | some c =>
    obtain ⟨hc, before, behind, hcs, hbefore⟩ := List.find?_eq_some_iff_append.mp hfind
    exact ⟨before, c, behind, hcs, by simpa using hbefore, by simpa using hc⟩

theorem known_of_compile {cs : List Clause} {plan : Plan} (h : compile cs = .ok plan) :
    ∀ c ∈ cs, c.Known := by
  by_contra hall
  obtain ⟨before, c, behind, rfl, hbefore, hc⟩ := exists_first_unknown hall
  rw [compile_of_unknown behind hbefore hc] at h
  cases h

/-! ## Plans that say the same -/

/-- **What a plan accepts is read off its parts as sets.** -/
theorem accepts_congr {p q : Plan} (hconstraints : ∀ x, x ∈ p.constraints ↔ x ∈ q.constraints)
    (hleads : ∀ x, x ∈ p.kindLeads ↔ x ∈ q.kindLeads) (e : Entry) :
    p.accepts e = q.accepts e := by
  have hempty : p.kindLeads.isEmpty = q.kindLeads.isEmpty := by
    rw [Bool.eq_iff_iff]
    simp only [List.isEmpty_iff, List.eq_nil_iff_forall_not_mem, hleads]
  have hany : p.kindLeads.any (leadMatch · e.kind) = q.kindLeads.any (leadMatch · e.kind) := by
    rw [Bool.eq_iff_iff]
    simp only [List.any_eq_true, hleads]
  have hall : (p.constraints.all fun c => c.test.holds (e.field c.target)) =
      q.constraints.all fun c => c.test.holds (e.field c.target) := by
    rw [Bool.eq_iff_iff]
    simp only [List.all_eq_true, hconstraints]
  rw [accepts, accepts, hempty, hany, hall]

section Congr

variable {p q : Plan} (h : ∀ e, p.accepts e = q.accepts e)

include h

theorem scanFrom_congr (probe : Probe) (fetched : ℕ) (found : List Entry)
    (rows : List (Except Error Entry)) :
    p.scanFrom probe fetched found rows = q.scanFrom probe fetched found rows := by
  induction rows generalizing fetched found with
  | nil => rfl
  | cons row rows ih =>
    cases row with
    | error e => rfl
    | ok e => simp only [scanFrom, h, ih]

/-- Plans that accept the same entries find the same, whatever the rows are and whenever the run is
interrupted. -/
theorem execute_congr (rows : List (Except Error Entry)) (limit : Option ℕ) (probe : Probe) :
    p.execute rows limit probe = q.execute rows limit probe := by
  rw [execute, execute, scan, scan, scanFrom_congr h]

end Congr

end Plan

/-! ## Lists that say the same -/

/-- Changes of a list of clauses that leave what it says as it is, and any number of them after one
another. -/
inductive SaysSame : List Clause → List Clause → Prop
  /-- the clauses come in another order -/
  | reordered {cs cs'} : cs'.Perm cs → SaysSame cs cs'
  /-- a clause of the list is put into it once more, anywhere -/
  | repeated {before behind c} : c ∈ before ++ behind →
    SaysSame (before ++ behind) (before ++ c :: behind)
  /-- the options are left out -/
  | withoutOptions {cs} : SaysSame cs (cs.filter fun c => ¬ c.IsOption)
  | trans {cs cs' cs''} : SaysSame cs cs' → SaysSame cs' cs'' → SaysSame cs cs''

theorem SaysSame.mem {cs cs' : List Clause} (h : SaysSame cs cs') :
    (∀ c ∈ cs', c ∈ cs) ∧ ∀ c ∈ cs, ¬ c.IsOption → c ∈ cs' := by
  induction h with
  | reordered h => exact ⟨fun c => h.mem_iff.mp, fun c hc _ => h.mem_iff.mpr hc⟩
  | @repeated before behind c hc =>
    have hiff : ∀ d, d ∈ before ++ c :: behind ↔ d = c ∨ d ∈ before ++ behind := fun d => by
      simp only [List.mem_append, List.mem_cons]
      exact or_left_comm
    refine ⟨fun d hd => ?_, fun d hd _ => (hiff d).mpr (.inr hd)⟩
    rcases (hiff d).mp hd with rfl | hd
    · exact hc
    · exact hd
  | withoutOptions => exact ⟨fun c hc => (List.mem_filter.mp hc).1, fun c hc h => by simp [hc, h]⟩
  | trans _ _ ih ih' =>
    exact ⟨fun c hc => ih.1 c (ih'.1 c hc), fun c hc h => ih'.2 c (ih.2 c hc h) h⟩

theorem SaysSame.mem_filterMap {α : Type} {cs cs' : List Clause} (h : SaysSame cs cs')
    {f : Clause → Option α} (hf : ∀ c : Clause, c.IsOption → f c = none) (x : α) :
    x ∈ cs'.filterMap f ↔ x ∈ cs.filterMap f := by
  simp only [List.mem_filterMap]
  constructor
  · rintro ⟨c, hc, hx⟩
    exact ⟨c, h.mem.1 c hc, hx⟩
  · rintro ⟨c, hc, hx⟩
    refine ⟨c, h.mem.2 c hc fun hoption => ?_, hx⟩
    rw [hf c hoption] at hx
    cases hx

namespace Plan

/-- How a list of clauses compiles. -/
structure Compiles (cs : List Clause) : Prop where
  /-- it has a plan exactly if words make all of its clauses -/
  known : (∃ plan, compile cs = .ok plan) ↔ ∀ c ∈ cs, c.Known
  /-- and is refused for the first one that no word makes -/
  refused : (¬ ∀ c ∈ cs, c.Known) → ∃ before c behind, cs = before ++ c :: behind ∧
    (∀ d ∈ before, d.Known) ∧ ¬ c.Known ∧ compile cs = .error c.invalid
  /-- if it has a plan, then so has every list that says the same, and both plans accept the same
  entries and find the same ones in the same order -/
  same : ∀ plan cs', compile cs = .ok plan → SaysSame cs cs' →
    ∃ plan', compile cs' = .ok plan' ∧ (∀ e, plan'.accepts e = plan.accepts e) ∧
      ∀ rows limit probe, plan'.execute rows limit probe = plan.execute rows limit probe

/-- **Order, repetition and options do not matter** in any list of clauses. -/
theorem compile_unordered (cs : List Clause) : Compiles cs where
  known := ⟨fun ⟨_, h⟩ => known_of_compile h, fun h => ⟨_, compile_of_known h⟩⟩
  refused h := by
    obtain ⟨before, c, behind, rfl, hbefore, hc⟩ := exists_first_unknown h
    exact ⟨before, c, behind, rfl, hbefore, hc, compile_of_unknown behind hbefore hc⟩
  same plan cs' h hsame := by
    have hknown := known_of_compile h
    rw [compile_of_known hknown] at h
    obtain rfl := Except.ok.inj h
    let plan' : Plan := ⟨cs'.filterMap Clause.constraint?, cs'.filterMap Clause.kindLead?⟩
    have haccepts : ∀ e, plan'.accepts e =
        Plan.accepts ⟨cs.filterMap Clause.constraint?, cs.filterMap Clause.kindLead?⟩ e :=
      accepts_congr (hsame.mem_filterMap fun c hc => hc.adds_nothing.1)
        (hsame.mem_filterMap fun c hc => hc.adds_nothing.2)
    exact ⟨plan', compile_of_known fun c hc => hknown c (hsame.mem.1 c hc), haccepts,
      execute_congr haccepts⟩

end Plan

/-- A clause of each of the three groupings. -/
def mixedClauses : List Clause :=
  [⟨.name, .fuzzy, .every, "con"⟩, ⟨.kind, .leading, .either, "De"⟩,
    ⟨.option, .ignore, .ungrouped, "tab"⟩]

/-- The clauses without the option, in the other order, and with one of them twice. -/
def shuffledClauses : List Clause :=
  [⟨.kind, .leading, .either, "De"⟩, ⟨.name, .fuzzy, .every, "con"⟩,
    ⟨.kind, .leading, .either, "De"⟩]

theorem Plan.compile_unordered_mixedClauses :
    SaysSame mixedClauses shuffledClauses ∧ (∃ plan plan', compile mixedClauses = .ok plan ∧
      compile shuffledClauses = .ok plan' ∧ ∀ e, plan'.accepts e = plan.accepts e) ∧
      ¬ ∃ plan, compile (⟨.name, .leading, .every, "con"⟩ :: mixedClauses) = .ok plan := by
  have hoption : SaysSame mixedClauses (mixedClauses.take 2) := .withoutOptions
  have horder : SaysSame (mixedClauses.take 2) (shuffledClauses.take 2) :=
    .reordered (.swap _ _ [])
  have hrepeat : SaysSame (shuffledClauses.take 2) shuffledClauses :=
    @SaysSame.repeated (shuffledClauses.take 2) [] _ (by decide)
  have hsame := (hoption.trans horder).trans hrepeat
  have hcompiles := compile_unordered mixedClauses
  obtain ⟨plan, hplan⟩ := hcompiles.known.mpr (by decide)
  obtain ⟨plan', hplan', haccepts, -⟩ := hcompiles.same plan _ hplan hsame
  refine ⟨hsame, ⟨plan, plan', hplan, hplan', haccepts⟩, fun h => ?_⟩
  have hknown := (compile_unordered (⟨.name, .leading, .every, "con"⟩ :: mixedClauses)).known.mp h
  exact absurd (hknown _ List.mem_cons_self) (by decide)

end SymbolIndex
