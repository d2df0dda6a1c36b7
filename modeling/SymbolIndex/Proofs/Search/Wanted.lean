import SymbolIndex.Index.Basic
import SymbolIndex.Proofs.Search.Matching
import SymbolIndex.Proofs.Text.Words

/-!
# What a query asks for

A query text compiles into a plan whatever it says, and the plan accepts the entries that its words
ask for: all of the words that are about a name, a file or an extra text, and one of those that are
about a kind.

* `Asks`, `AsksKind`, `Wanted`: what the words of a text ask for;
* `Plan.Reads`, `reads_word`, `reads_words`: what words add to a plan;
* `exists_searchPlan`: the plan of a text.
-/

namespace SymbolIndex

open Text Query

/-- The characters of the value appear in the text in order, ignoring case. -/
def InOrder (value : List Char) (text : String) : Prop :=
  (folded value).Sublist (folded text.toList)

/-- What a word asks of an entry by itself. -/
def Asks (word : List Char) (e : Entry) : Prop :=
  match word with
  | '/' :: value => InOrder value e.file
  | ':' :: value => InOrder value (e.extra.getD "")
  | '!' :: value => value ≠ [] → e.name.toList = value
  | '=' :: _ | '-' :: _ => True
  | value => InOrder value e.name

/-- One of the words asks for kinds that begin with the value. -/
def AsksKind (words : List Char → Prop) (value : List Char) : Prop :=
  value ≠ [] ∧ words ('=' :: value)

/-- The entry is one that some words ask for. -/
structure WantedBy (words : List Char → Prop) (e : Entry) : Prop where
  /-- every word by itself -/
  asks : ∀ word, words word → Asks word e
  /-- one of those that are about kinds, if there are any -/
  kind : (∃ value, AsksKind words value) →
    ∃ value, AsksKind words value ∧ folded value <+: folded e.kind.toList

/-- The entry is one that a query text asks for. -/
def Wanted (text : String) (e : Entry) : Prop := WantedBy (IsWord text.toList) e

/-! ## Words in plans -/

/-- All constraints of a plan hold. -/
def Plan.Holds (plan : Plan) (e : Entry) : Prop :=
  ∀ c ∈ plan.constraints, c.test.holds (e.field c.target) = true

/-- A plan that says what another one says, and what some words say. -/
structure Plan.Reads (plan : Plan) (words : List (List Char)) (plan' : Plan) : Prop where
  holds : ∀ e, plan'.Holds e ↔ plan.Holds e ∧ ∀ word ∈ words, Asks word e
  leads : ∀ lead, lead ∈ plan'.kindLeads ↔ lead ∈ plan.kindLeads ∨
    ∃ value, AsksKind (· ∈ words) value ∧ lead = String.ofList (folded value)

theorem Plan.Reads.refl (plan : Plan) : plan.Reads [] plan where
  holds e := by simp
  leads lead := by simp [AsksKind]

theorem Plan.Reads.trans {plan plan' plan'' : Plan} {some more : List (List Char)}
    (h : plan.Reads some plan') (h' : plan'.Reads more plan'') :
    plan.Reads (some ++ more) plan'' where
  holds e := by
    rw [h'.holds, h.holds, and_assoc]
    simp only [List.mem_append, or_imp, forall_and]
  leads lead := by
    rw [h'.leads, h.leads, or_assoc]
    simp only [AsksKind, List.mem_append, and_or_left, or_and_right, exists_or]

theorem accepts_iff {plan : Plan} {words : List (List Char)} (h : Plan.Reads {} words plan)
    (e : Entry) : plan.accepts e = true ↔ WantedBy (· ∈ words) e := by
  have hholds : (plan.constraints.all fun c => c.test.holds (e.field c.target)) = true ↔
      ∀ word ∈ words, Asks word e := by
    rw [List.all_eq_true]
    exact (h.holds e).trans (and_iff_right (by simp [Plan.Holds]))
  have hleads : ∀ lead, lead ∈ plan.kindLeads ↔
      ∃ value, AsksKind (· ∈ words) value ∧ lead = String.ofList (folded value) := fun lead => by
    simp [h.leads lead]
  have hkind : (plan.kindLeads.any (leadMatch · e.kind)) = true ↔
      ∃ value, AsksKind (· ∈ words) value ∧ folded value <+: folded e.kind.toList := by
    simp only [List.any_eq_true, hleads]
    constructor
    · rintro ⟨_, ⟨value, hv, rfl⟩, hmatch⟩
      exact ⟨value, hv, (leadMatch_ofList_folded value e.kind).mp hmatch⟩
    · rintro ⟨value, hv, hp⟩
      exact ⟨_, ⟨value, hv, rfl⟩, (leadMatch_ofList_folded value e.kind).mpr hp⟩
  have hempty : plan.kindLeads.isEmpty = true ↔ ¬ ∃ value, AsksKind (· ∈ words) value := by
    rw [List.isEmpty_iff, List.eq_nil_iff_forall_not_mem]
    constructor
    · rintro hn ⟨value, hv⟩
      exact hn _ ((hleads _).mpr ⟨value, hv, rfl⟩)
    · intro hn lead hl
      obtain ⟨value, hv, -⟩ := (hleads lead).mp hl
      exact hn ⟨value, hv⟩
  rw [Plan.accepts, Bool.and_eq_true, Bool.or_eq_true, hholds, hkind, hempty]
  constructor
  · rintro ⟨ha, hk⟩
    exact ⟨ha, fun hex => hk.elim (absurd hex) id⟩
  · rintro ⟨ha, hk⟩
    by_cases hex : ∃ value, AsksKind (· ∈ words) value
    · exact ⟨ha, .inr (hk hex)⟩
    · exact ⟨ha, .inl hex⟩

/-! ## One word -/

theorem asks_plain {c : Char} (value : List Char) (e : Entry) (h₁ : c ≠ '=') (h₂ : c ≠ '/')
    (h₃ : c ≠ '-') (h₄ : c ≠ ':') (h₅ : c ≠ '!') :
    Asks (c :: value) e ↔ InOrder (c :: value) e.name := by
  unfold Asks
  split <;> simp_all

theorem parseWords_cons (selection : Selection) (word : List Char) (ws : List (List Char)) :
    parseWords selection (word :: ws) =
      parseWords selection [word] ++ parseWords selection ws := by
  rw [parseWords, parseWords, parseWords, ← List.filter_append, ← List.filterMap_append]
  rfl

theorem reads_silent (plan : Plan) {word : List Char} (ha : ∀ e, Asks word e)
    (hk : ∀ value, value ≠ [] → word ≠ '=' :: value) : plan.Reads [word] plan where
  holds e := by simp [ha]
  leads lead := by
    have : ¬ ∃ value, AsksKind (· ∈ [word]) value ∧ lead = String.ofList (folded value) := by
      rintro ⟨value, ⟨hv, hm⟩, -⟩
      exact hk value hv (List.mem_singleton.mp hm).symm
    exact (or_iff_left this).symm

theorem reads_constraint (plan : Plan) {word : List Char} {c : Constraint}
    (ha : ∀ e, Asks word e ↔ c.test.holds (e.field c.target) = true)
    (hk : ∀ value, word ≠ '=' :: value) :
    plan.Reads [word] { plan with constraints := plan.constraints ++ [c] } where
  holds e := by simp [Plan.Holds, ha, or_imp, forall_and]
  leads lead := by
    have : ¬ ∃ value, AsksKind (· ∈ [word]) value ∧ lead = String.ofList (folded value) := by
      rintro ⟨value, ⟨-, hm⟩, -⟩
      exact hk value (List.mem_singleton.mp hm).symm
    exact (or_iff_left this).symm

theorem reads_lead (plan : Plan) {value : List Char} (hv : value ≠ []) :
    plan.Reads ['=' :: value]
      { plan with kindLeads := plan.kindLeads ++ [String.ofList (folded value)] } where
  holds e := by simp [Plan.Holds, Asks]
  leads lead := by
    rw [List.mem_append, List.mem_singleton]
    refine or_congr_right ?_
    constructor
    · rintro rfl
      exact ⟨value, ⟨hv, List.mem_singleton_self _⟩, rfl⟩
    · rintro ⟨value', ⟨-, hm⟩, rfl⟩
      rw [(List.cons.inj (List.mem_singleton.mp hm)).2]

theorem foldCase_ofList (value : List Char) : foldCase (String.ofList value) = folded value := by
  rw [foldCase, String.toList_ofList, folded]

theorem inOrder_iff (value : List Char) (text : String) :
    InOrder value text ↔
      (FieldTest.fuzzy (foldCase (String.ofList value))).holds text = true := by
  rw [FieldTest.holds, fuzzyMatch_iff, foldCase_ofList, InOrder]

theorem reads_word (plan : Plan) (word : List Char) :
    ∃ plan', (parseWords .search [word]).foldlM Plan.add plan = .ok plan' ∧
      plan.Reads [word] plan' := by
  -- the sorts of words come in the order of the rules, and each may be a beginning only
  cases word with
  | nil => exact ⟨plan, rfl, reads_silent plan (fun e => List.nil_sublist _) (by simp)⟩
  | cons c value =>
    by_cases h₁ : c = '='
    · subst h₁
      cases value with
      | nil => exact ⟨plan, rfl, reads_silent plan (fun e => trivial) (by simp)⟩
      | cons v vs =>
        refine ⟨_, rfl, ?_⟩
        rw [foldCase_ofList]
        exact reads_lead plan (by simp)
    by_cases h₂ : c = '/'
    · subst h₂
      cases value with
      | nil => exact ⟨plan, rfl, reads_silent plan (fun e => List.nil_sublist _) (by simp)⟩
      | cons v vs =>
        exact ⟨_, rfl, reads_constraint plan (fun e => inOrder_iff (v :: vs) e.file) (by simp)⟩
    by_cases h₃ : c = '-'
    · subst h₃
      cases value with
      | nil => exact ⟨plan, rfl, reads_silent plan (fun e => trivial) (by simp)⟩
      | cons v vs => exact ⟨plan, rfl, reads_silent plan (fun e => trivial) (by simp)⟩
    by_cases h₄ : c = ':'
    · subst h₄
      cases value with
      | nil => exact ⟨plan, rfl, reads_silent plan (fun e => List.nil_sublist _) (by simp)⟩
      | cons v vs =>
        exact ⟨_, rfl,
          reads_constraint plan (fun e => inOrder_iff (v :: vs) (e.extra.getD "")) (by simp)⟩
    by_cases h₅ : c = '!'
    · subst h₅
      cases value with
      | nil => exact ⟨plan, rfl, reads_silent plan (fun e h => absurd rfl h) (by simp)⟩
      | cons v vs =>
        refine ⟨_, rfl, reads_constraint plan (fun e => ?_) (by simp)⟩
        refine Iff.trans ?_ beq_iff_eq.symm
        rw [← String.toList_inj, String.toList_ofList]
        exact ⟨fun h => h (List.cons_ne_nil v vs), fun h _ => h⟩
    · refine ⟨{ plan with constraints := plan.constraints ++
          [⟨.name, .fuzzy (foldCase (String.ofList (c :: value)))⟩] }, ?_,
        reads_constraint plan (fun e => ?_) (by simp [h₁])⟩
      · have hclause : parseWords .search [c :: value] =
            [⟨.name, .fuzzy, .every, String.ofList (c :: value)⟩] := by
          rw [parseWords, List.filterMap_cons_some (b :=
            ⟨.name, .fuzzy, .every, String.ofList (c :: value)⟩)]
          · rfl
          · rw [classify, ruleFor_plain value h₁ h₂ h₃ h₄ h₅]
            rfl
        rw [hclause]
        rfl
      · rw [asks_plain value e h₁ h₂ h₃ h₄ h₅]
        exact inOrder_iff (c :: value) e.name

theorem reads_words (plan : Plan) (ws : List (List Char)) :
    ∃ plan', (parseWords .search ws).foldlM Plan.add plan = .ok plan' ∧
      plan.Reads ws plan' := by
  induction ws generalizing plan with
  | nil => exact ⟨plan, rfl, .refl plan⟩
  | cons word ws ih =>
    obtain ⟨plan', hadd, hreads⟩ := reads_word plan word
    obtain ⟨plan'', hadd', hreads'⟩ := ih plan'
    refine ⟨plan'', ?_, hreads.trans hreads'⟩
    rw [parseWords_cons, List.foldlM_append, hadd]
    exact hadd'

/-- **Every text has a plan, which accepts the entries that the text asks for.** -/
theorem exists_searchPlan (text : String) :
    ∃ plan, searchPlan text = .ok plan ∧ ∀ e, plan.accepts e = true ↔ Wanted text e := by
  obtain ⟨plan, hadd, hreads⟩ := reads_words {} (words text.toList)
  refine ⟨plan, hadd, fun e => ?_⟩
  rw [accepts_iff hreads, Wanted, funext fun word => propext (mem_words_iff text.toList word)]

end SymbolIndex
