import Mathlib.Data.List.Forall2
import SymbolIndex.Proofs.Search.Interruption

/-!
# Entries in another order

The comparison of entries is a total preorder that looks at five of their parts. So results depend
on the order of the entries only where entries compare equal, and not at all where no two different
ones do.

* `Entry.sortKey`, `rank_eq_iff_sortKey`: the parts of an entry that the comparison looks at;
* `forall₂_of_perm`: entries in order, and the same entries in order;
* `Alike`, `Plan.execute_perm`: the results among entries in two orders;
* `Entry.rank_preorder`: the comparison, and what it says about results.
-/

namespace SymbolIndex

/-- The parts of an entry that tell whether it compares equal to another one. -/
def Entry.sortKey (e : Entry) : Int64 × Int64 × String × String × ℕ :=
  (e.priority, e.subpriority, e.name, e.kind, e.file.length)

theorem Entry.rank_eq_iff_sortKey {a b : Entry} : a.rank b = .eq ↔ a.sortKey = b.sortKey := by
  rw [rank_eq_iff]
  simp only [sortKey, Prod.mk.injEq]

theorem forall₂_of_perm {l m : List Entry} (hperm : l.Perm m)
    (hl : l.Pairwise fun a b => a.rank b ≠ .gt) (hm : m.Pairwise fun a b => a.rank b ≠ .gt) :
    List.Forall₂ (fun a b => a.rank b = .eq) l m := by
  -- on the parts that are compared the order has no ties, so there is one way to be in order
  let le (j k : Int64 × Int64 × String × String × ℕ) : Prop :=
    ∃ a b : Entry, a.sortKey = j ∧ b.sortKey = k ∧ a.rank b ≠ .gt
  have hordered : ∀ {l : List Entry}, (l.Pairwise fun a b => a.rank b ≠ .gt) →
      (l.map Entry.sortKey).Pairwise le := fun h =>
    List.pairwise_map.mpr (h.imp fun hab => ⟨_, _, rfl, rfl, hab⟩)
  have hantisymm : ∀ j k, le j k → le k j → j = k := by
    rintro _ _ ⟨a, b, rfl, rfl, hab⟩ ⟨b', a', hb, ha, hba⟩
    rw [← Entry.rank_eq_iff_sortKey] at ha hb
    rw [Std.TransCmp.congr_left hb, Std.TransCmp.congr_right ha] at hba
    exact Entry.rank_eq_iff_sortKey.mp (Entry.rank_eq_of_ne_gt hab hba)
  have hkeys : l.map Entry.sortKey = m.map Entry.sortKey :=
    (hperm.map _).eq_of_pairwise (fun j k _ _ => hantisymm j k) (hordered hl) (hordered hm)
  rw [← List.forall₂_eq_eq_eq, List.forall₂_map_left_iff, List.forall₂_map_right_iff] at hkeys
  exact hkeys.imp fun _ _ h => Entry.rank_eq_iff_sortKey.mpr h

/-- Results that differ in nothing but the order of entries that compare equal. -/
structure Alike (found found' : List Entry) : Prop where
  perm : found.Perm found'
  ranks : List.Forall₂ (fun a b => a.rank b = .eq) found found'

/-- **The order of the entries matters for ties only.** -/
theorem Plan.execute_perm (plan : Plan) {limit : Option ℕ} {probe probe' : Probe}
    {l m : List Entry} (hperm : l.Perm m) (hlimit : limit.getD 0 = 0)
    (hl : ∀ n ≤ l.length, probe n = false) (hm : ∀ n ≤ m.length, probe' n = false) :
    ∃ found found', plan.execute (l.map .ok) limit probe = .ok found ∧
      plan.execute (m.map .ok) limit probe' = .ok found' ∧ Alike found found' ∧
        ((∀ a ∈ l, ∀ b ∈ l, plan.accepts a = true → plan.accepts b = true →
          a.rank b = .eq → a = b) → found = found') := by
  have hcompletes : plan.Completes limit (l.map .ok) probe :=
    plan.completes limit (by simpa using hl)
  have hcompletes' : plan.Completes limit (m.map .ok) probe' :=
    plan.completes limit (by simpa using hm)
  obtain ⟨sorted, hsorted, hfound⟩ := hcompletes.results l rfl
  obtain ⟨sorted', hsorted', hfound'⟩ := hcompletes'.results m rfl
  rw [firstOf, if_pos hlimit] at hfound hfound'
  have hall : sorted.Perm sorted' :=
    hsorted.perm.trans ((hperm.filter _).trans hsorted'.perm.symm)
  refine ⟨sorted, sorted', hfound, hfound',
    ⟨hall, forall₂_of_perm hall hsorted.ordered hsorted'.ordered⟩, fun hties => ?_⟩
  refine hall.eq_of_pairwise (fun a b ha hb hab hba => ?_) hsorted.ordered hsorted'.ordered
  obtain ⟨ha, haccepts⟩ := List.mem_filter.mp (hsorted.perm.subset ha)
  obtain ⟨hb, haccepts'⟩ := List.mem_filter.mp (hsorted'.perm.subset hb)
  exact hties a ha b (hperm.symm.subset hb) haccepts haccepts' (Entry.rank_eq_of_ne_gt hab hba)

/-- **The comparison of entries is a total preorder.** Entries compare equal that agree in their
priorities, their names, their kinds and the lengths of their files, and the results among entries
in two orders differ in nothing but the order of such entries. -/
theorem Entry.rank_preorder :
    (∀ a b : Entry, b.rank a = (a.rank b).swap) ∧
      (∀ a b c : Entry, a.rank b ≠ .gt → b.rank c ≠ .gt → a.rank c ≠ .gt) ∧
      (∀ a b : Entry, a.rank b ≠ .gt ∨ b.rank a ≠ .gt) ∧
      (∀ a b : Entry, a.rank b = .eq ↔ a.priority = b.priority ∧ a.subpriority = b.subpriority ∧
        a.name = b.name ∧ a.kind = b.kind ∧ a.file.length = b.file.length) ∧
      ∀ (plan : Plan) (limit : Option ℕ) (probe probe' : Probe) (l m : List Entry), l.Perm m →
        limit.getD 0 = 0 → (∀ n ≤ l.length, probe n = false) →
        (∀ n ≤ m.length, probe' n = false) →
        ∃ found found', plan.execute (l.map .ok) limit probe = .ok found ∧
          plan.execute (m.map .ok) limit probe' = .ok found' ∧ Alike found found' ∧
            ((∀ a ∈ l, ∀ b ∈ l, plan.accepts a = true → plan.accepts b = true →
              a.rank b = .eq → a = b) → found = found') := by
  refine ⟨fun a b => rank_swap b a, fun a b c hab hbc => ?_, fun a b => ?_,
    fun a b => rank_eq_iff, fun plan limit probe probe' l m => plan.execute_perm⟩
  · rw [← notAfter_iff] at hab hbc ⊢
    exact rank_trans a b c hab hbc
  · have htotal := rank_total a b
    rwa [Bool.or_eq_true, notAfter_iff, notAfter_iff] at htotal

/-- An entry of the lowest priority there is. -/
def lowEntry (file : String) : Entry :=
  { name := "main", kind := "function", file, priority := Int64.minValue }

/-- Entries whose files differ, but not in their lengths, compare equal. -/
theorem Entry.rank_preorder_lowEntry :
    lowEntry "a.c" ≠ lowEntry "b.c" ∧ (lowEntry "a.c").rank (lowEntry "b.c") = .eq ∧
      [lowEntry "a.c", lowEntry "b.c"].Perm [lowEntry "b.c", lowEntry "a.c"] ∧
      ∃ found found',
        Plan.execute {} ([lowEntry "a.c", lowEntry "b.c"].map .ok) none .never = .ok found ∧
        Plan.execute {} ([lowEntry "b.c", lowEntry "a.c"].map .ok) none .never = .ok found' ∧
          Alike found found' := by
  obtain ⟨-, -, -, hequal, hresults⟩ := Entry.rank_preorder
  have hswap := List.Perm.swap (lowEntry "b.c") (lowEntry "a.c") []
  obtain ⟨found, found', hfound, hfound', halike, -⟩ :=
    hresults {} none .never .never _ _ hswap rfl (fun _ _ => rfl) fun _ _ => rfl
  exact ⟨by decide, (hequal _ _).mpr ⟨rfl, rfl, rfl, rfl, rfl⟩, hswap, found, found', hfound,
    hfound', halike⟩

end SymbolIndex
