import Mathlib.Algebra.GroupWithZero.Nat
import Mathlib.Data.List.Induction
import Mathlib.Data.String.Basic
import SymbolIndex.Store.Table

/-!
# The kinds of entries

Counting entries by kind lists every kind that occurs, once and in rising order, and loses no entry.

* `mem_countKind`, `rising_countKind`, `sum_countKind`: counting one more entry;
* `kindCountsOf_spec`: counting all of them.
-/

namespace SymbolIndex

/-- The kinds are listed in rising order, and so each of them once. -/
def Rising (counts : List (String × ℕ)) : Prop := (counts.map (·.1)).Pairwise (· < ·)

theorem mem_countKind {kind : String} {counts : List (String × ℕ)} {k : String} :
    k ∈ (countKind kind counts).map (·.1) ↔ k = kind ∨ k ∈ counts.map (·.1) := by
  induction counts with
  | nil => simp [countKind]
  | cons count counts ih =>
    obtain ⟨k', n⟩ := count
    rw [countKind]
    split_ifs with hlt heq
    · simp
    · subst heq
      simp
    · rw [List.map_cons, List.mem_cons, ih, List.map_cons, List.mem_cons, or_left_comm]

theorem rising_countKind (kind : String) {counts : List (String × ℕ)} (h : Rising counts) :
    Rising (countKind kind counts) := by
  induction counts with
  | nil => exact List.pairwise_singleton _ _
  | cons count counts ih =>
    obtain ⟨k, n⟩ := count
    obtain ⟨hfirst, hrest⟩ := List.pairwise_cons.mp h
    rw [countKind]
    split_ifs with hlt heq
    · refine List.pairwise_cons.mpr ⟨fun k' hk' => ?_, h⟩
      rcases List.mem_cons.mp hk' with rfl | hk'
      · exact hlt
      · exact hlt.trans (hfirst k' hk')
    · exact h
    · refine List.pairwise_cons.mpr ⟨fun k' hk' => ?_, ih hrest⟩
      rcases mem_countKind.mp hk' with rfl | hk'
      · exact lt_of_le_of_ne (not_lt.mp hlt) (Ne.symm heq)
      · exact hfirst k' hk'

theorem sum_countKind (kind : String) (counts : List (String × ℕ)) :
    ((countKind kind counts).map (·.2)).sum = (counts.map (·.2)).sum + 1 := by
  induction counts with
  | nil => rfl
  | cons count counts ih =>
    obtain ⟨k, n⟩ := count
    rw [countKind]
    split_ifs with hlt heq
    · rw [List.map_cons, List.sum_cons, Nat.add_comm]
    · rw [List.map_cons, List.map_cons, List.sum_cons, List.sum_cons, Nat.add_right_comm]
    · rw [List.map_cons, List.sum_cons, ih, List.map_cons, List.sum_cons, Nat.add_assoc]

/-- **What has been counted are the kinds of the entries, in rising order, and every entry once.** -/
theorem kindCountsOf_spec (entries : List Entry) :
    Rising (kindCountsOf entries) ∧
      (∀ k, k ∈ (kindCountsOf entries).map (·.1) ↔ ∃ e ∈ entries, e.kind = k) ∧
      ((kindCountsOf entries).map (·.2)).sum = entries.length := by
  unfold kindCountsOf
  induction entries using List.reverseRecOn with
  | nil => exact ⟨List.Pairwise.nil, by simp, rfl⟩
  | append_singleton entries e ih =>
    obtain ⟨hrising, hmem, hsum⟩ := ih
    rw [List.foldl_append, List.foldl_cons, List.foldl_nil]
    refine ⟨rising_countKind e.kind hrising, fun k => ?_, ?_⟩
    · rw [mem_countKind, hmem]
      simp only [List.mem_append, List.mem_singleton, or_and_right, exists_or, exists_eq_left]
      exact or_comm.trans (or_congr_right eq_comm)
    · rw [sum_countKind, hsum, List.length_append, List.length_singleton]

end SymbolIndex
