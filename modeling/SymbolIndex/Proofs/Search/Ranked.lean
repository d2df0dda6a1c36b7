import Mathlib.Data.List.Basic
import SymbolIndex.Plan.Execute

/-!
# The order of results

The comparison of entries is a preorder, and results are in the one order that agrees with it and
leaves entries alone that compare equal.

* `Entry.rank_trans`, `Entry.rank_total`, `Entry.rank_eq_iff`: the comparison of entries;
* `SortsStably`, `SortsStably.unique`: a list in order, with nothing moved that need not be;
* `sortsStably_ranked`, `ranked_filter`: the results, and some of them;
* `firstOf`, `cutTo_eq`: the results up to a limit.
-/

namespace SymbolIndex

/-! ## The comparison -/

theorem Entry.rank_eq : Entry.rank =
    compareLex (fun a b => compareOn (fun e : Entry => e.priority.toInt) b a)
      (compareLex (compareOn Entry.nameLength)
        (compareLex (fun a b => compareOn (fun e : Entry => e.subpriority.toInt) b a)
          (compareLex (compareOn Entry.name)
            (compareLex (compareOn Entry.kind) (compareOn Entry.fileLength))))) := rfl

instance : Std.TransCmp Entry.rank := by
  rw [Entry.rank_eq]
  infer_instance

theorem Entry.notAfter_iff {a b : Entry} : a.notAfter b = true ↔ a.rank b ≠ .gt := bne_iff_ne

theorem Entry.rank_swap (a b : Entry) : a.rank b = (b.rank a).swap := Std.OrientedCmp.eq_swap

theorem Entry.rank_total (a b : Entry) : (a.notAfter b || b.notAfter a) = true := by
  rw [Bool.or_eq_true, notAfter_iff, notAfter_iff, rank_swap]
  cases b.rank a <;> decide

theorem Entry.rank_trans (a b c : Entry) (hab : a.notAfter b = true) (hbc : b.notAfter c = true) :
    a.notAfter c = true := by
  rw [notAfter_iff, Ne, Ordering.ne_gt_iff_isLE] at hab hbc ⊢
  exact Std.TransCmp.isLE_trans hab hbc

theorem Entry.rank_eq_of_ne_gt {a b : Entry} (hab : a.rank b ≠ .gt) (hba : b.rank a ≠ .gt) :
    a.rank b = .eq := by
  rw [rank_swap] at hba
  cases h : a.rank b <;> simp_all

/-- **The entries that compare equal.** The length of the name is that of the same name. -/
theorem Entry.rank_eq_iff {a b : Entry} :
    a.rank b = .eq ↔ a.priority = b.priority ∧ a.subpriority = b.subpriority ∧ a.name = b.name ∧
      a.kind = b.kind ∧ a.file.length = b.file.length := by
  have hrank : a.rank b = .eq ↔ b.priority = a.priority ∧ a.name.length = b.name.length ∧
      b.subpriority = a.subpriority ∧ a.name = b.name ∧ a.kind = b.kind ∧
        a.file.length = b.file.length := by
    simp only [rank, Ordering.then_eq_eq, Std.compare_eq_iff_eq, Int64.toInt_inj, nameLength,
      fileLength]
  rw [hrank]
  constructor
  · rintro ⟨hpriority, -, hsubpriority, hname, hkind, hfile⟩
    exact ⟨hpriority.symm, hsubpriority.symm, hname, hkind, hfile⟩
  · rintro ⟨hpriority, hsubpriority, hname, hkind, hfile⟩
    exact ⟨hpriority.symm, congrArg String.length hname, hsubpriority.symm, hname, hkind, hfile⟩

/-! ## Stable sorting -/

/-- The entries in order, where entries that compare equal stand as they stood before. -/
structure SortsStably (entries sorted : List Entry) : Prop where
  /-- nothing is lost, doubled or made up -/
  perm : sorted.Perm entries
  /-- no entry stands behind one that it belongs in front of -/
  ordered : sorted.Pairwise fun a b => a.rank b ≠ .gt
  /-- entries that compare equal keep their order -/
  stable : ∀ a : Entry, sorted.filter (fun b => a.rank b == .eq) =
    entries.filter fun b => a.rank b == .eq

theorem sortsStably_ranked (entries : List Entry) : SortsStably entries (ranked entries) where
  perm := List.mergeSort_perm entries Entry.notAfter
  ordered :=
    (List.pairwise_mergeSort Entry.rank_trans Entry.rank_total entries).imp Entry.notAfter_iff.mp
  stable a := by
    have hperm : (ranked entries).Perm entries := List.mergeSort_perm entries Entry.notAfter
    have hclass : (entries.filter fun b => a.rank b == .eq).Pairwise fun b c =>
        b.notAfter c = true := by
      refine List.pairwise_of_forall_mem_list fun b hb c hc => ?_
      have hb : a.rank b = .eq := by simpa using (List.mem_filter.mp hb).2
      have hc : a.rank c = .eq := by simpa using (List.mem_filter.mp hc).2
      rw [Entry.notAfter_iff, ← Std.TransCmp.congr_left hb, hc]
      decide
    have hsub := List.sublist_mergeSort Entry.rank_trans Entry.rank_total hclass
      List.filter_sublist
    have hfilter := hsub.filter fun b => a.rank b == .eq
    rw [List.filter_filter, funext fun b => Bool.and_self _] at hfilter
    exact (hfilter.eq_of_length (hperm.filter _).length_eq.symm).symm

theorem SortsStably.unique {entries l m : List Entry} (hl : SortsStably entries l)
    (hm : SortsStably entries m) : l = m := by
  have hperm : l.Perm m := hl.perm.trans hm.perm.symm
  have hstable : ∀ a : Entry, l.filter (fun b => a.rank b == .eq) =
      m.filter fun b => a.rank b == .eq := fun a => (hl.stable a).trans (hm.stable a).symm
  have hlo := hl.ordered
  have hmo := hm.ordered
  clear hl hm
  induction l generalizing m with
  | nil => exact (List.nil_perm.mp hperm).symm
  | cons a l ih =>
    cases m with
    | nil => exact absurd hperm.symm (by simp)
    | cons b m =>
      -- both heads are in front of everything, so they compare equal
      have hself : ∀ c : Entry, c.rank c = .eq := fun c => Std.ReflCmp.compare_self
      have hab : a.rank b ≠ .gt := by
        rcases List.mem_cons.mp (hperm.symm.subset List.mem_cons_self) with h | h
        · rw [h, hself]; decide
        · exact (List.pairwise_cons.mp hlo).1 b h
      have hba : b.rank a ≠ .gt := by
        rcases List.mem_cons.mp (hperm.subset List.mem_cons_self) with h | h
        · rw [h, hself]; decide
        · exact (List.pairwise_cons.mp hmo).1 a h
      have heq : a.rank b = .eq := Entry.rank_eq_of_ne_gt hab hba
      have hhead := hstable a
      rw [List.filter_cons_of_pos (by simp [hself]), List.filter_cons_of_pos (by simp [heq])]
        at hhead
      obtain ⟨rfl, -⟩ := List.cons.inj hhead
      rw [ih hperm.cons_inv _ (List.pairwise_cons.mp hlo).2 (List.pairwise_cons.mp hmo).2]
      intro c
      have := hstable c
      simp only [List.filter_cons] at this
      split at this
      · exact (List.cons.inj this).2
      · exact this

/-- Whether some entries are left out before they are sorted or after it makes no difference. -/
theorem SortsStably.filter {entries sorted : List Entry} (h : SortsStably entries sorted)
    (p : Entry → Bool) : SortsStably (entries.filter p) (sorted.filter p) where
  perm := h.perm.filter p
  ordered := h.ordered.filter p
  stable a := by
    rw [List.filter_comm, h.stable, List.filter_comm]

theorem ranked_filter (p : Entry → Bool) (entries : List Entry) :
    ranked (entries.filter p) = (ranked entries).filter p :=
  (sortsStably_ranked _).unique ((sortsStably_ranked entries).filter p)

/-! ## Limits -/

/-- The first elements of a list up to a limit, where zero is none. -/
def firstOf (limit : Option ℕ) (entries : List Entry) : List Entry :=
  if limit.getD 0 = 0 then entries else entries.take (limit.getD 0)

@[simp] theorem firstOf_none (entries : List Entry) : firstOf none entries = entries := rfl

theorem cutTo_eq (limit : Option ℕ) (entries : List Entry) :
    cutTo limit entries = firstOf limit entries := by
  match limit with
  | none | some 0 | some (n + 1) => rfl

end SymbolIndex
