import SymbolIndex.Proofs.Search.Ranked
import SymbolIndex.Proofs.Search.Wanted
import SymbolIndex.Proofs.Serializer.Ready

/-!
# What a search answers

A plan runs over all entries or is interrupted, and there is nothing in between. A search that is
not interrupted finds the entries that its text asks for, in result order and up to its limit.

* `Plan.scan_append`, `Plan.scan_readable`: a scan over rows that can be read;
* `Plan.execute_cases`, `Plan.execute_quiet`: running a plan over entries;
* `Finds`, `finds_results`: what a text finds among some entries;
* `Index.search_of_ready`: a search in an index whose owner has nothing else to do.
-/

namespace SymbolIndex

open Serializer

/-! ## Running a plan -/

/-- The results of a plan among some entries. -/
def Plan.results (plan : Plan) (limit : Option ℕ) (entries : List Entry) : List Entry :=
  firstOf limit (ranked (entries.filter plan.accepts))

/-- Rows that can be read are behind a scan, unless a look at the token among them shows that it is
interrupted. -/
theorem Plan.scanFrom_append (plan : Plan) {probe : Probe} {fetched : ℕ} {entries : List Entry}
    (h : ∀ n < entries.length, checkInterval ∣ fetched + n → probe (fetched + n + 1) = false)
    (found : List Entry) (rows : List (Except Error Entry)) :
    plan.scanFrom probe fetched found (entries.map .ok ++ rows) =
      plan.scanFrom probe (fetched + entries.length)
        ((entries.filter plan.accepts).reverse ++ found) rows := by
  induction entries generalizing fetched found with
  | nil => rfl
  | cons e entries ih =>
    have hlook : ¬ (fetched % checkInterval = 0 ∧ probe (fetched + 1) = true) := by
      rintro ⟨hdvd, hprobe⟩
      have hquiet := h 0 (Nat.zero_lt_succ _) (Nat.dvd_of_mod_eq_zero hdvd)
      rw [Nat.add_zero, hprobe] at hquiet
      cases hquiet
    have hrest : ∀ n < entries.length, checkInterval ∣ fetched + 1 + n →
        probe (fetched + 1 + n + 1) = false := fun n hn hdvd => by
      have hnext : fetched + 1 + n = fetched + (n + 1) := by omega
      rw [hnext] at hdvd ⊢
      exact h (n + 1) (Nat.succ_lt_succ hn) hdvd
    rw [List.map_cons, List.cons_append, scanFrom, if_neg hlook]
    simp only [ih hrest]
    have hlength : fetched + 1 + entries.length = fetched + (e :: entries).length := by
      rw [List.length_cons]
      omega
    rw [hlength]
    cases ha : plan.accepts e <;> simp [ha]

section Scans

variable (plan : Plan) {probe : Probe} {entries : List Entry}
  (h : ∀ n < entries.length, checkInterval ∣ n → probe (n + 1) = false)

include h

theorem Plan.scan_append (rows : List (Except Error Entry)) :
    plan.scan probe (entries.map .ok ++ rows) =
      plan.scanFrom probe entries.length (entries.filter plan.accepts).reverse rows := by
  have hquiet : ∀ n < entries.length, checkInterval ∣ 0 + n → probe (0 + n + 1) = false := by
    simpa using h
  have happend := plan.scanFrom_append hquiet [] rows
  rwa [List.append_nil, Nat.zero_add] at happend

theorem Plan.scan_readable :
    plan.scan probe (entries.map .ok) =
      if probe entries.length then ⟨.error .interrupted, entries.length⟩
      else ⟨.ok (entries.filter plan.accepts), entries.length⟩ := by
  have happend := plan.scan_append h []
  rw [List.append_nil] at happend
  rw [happend, scanFrom, List.reverse_reverse]

end Scans

theorem Plan.scanFrom_cases (plan : Plan) (probe : Probe) (fetched : ℕ)
    (found entries : List Entry) :
    (plan.scanFrom probe fetched found (entries.map .ok)).outcome = .error .interrupted ∨
      (plan.scanFrom probe fetched found (entries.map .ok)).outcome =
        .ok (found.reverse ++ entries.filter plan.accepts) := by
  induction entries generalizing fetched found with
  | nil =>
    rw [List.map_nil, scanFrom]
    split
    · exact .inl rfl
    · exact .inr (by simp)
  | cons e entries ih =>
    rw [List.map_cons, scanFrom]
    split
    · exact .inl rfl
    · rcases ih (fetched + 1) (if plan.accepts e then e :: found else found) with h | h
      · exact .inl h
      · refine .inr (h.trans ?_)
        cases ha : plan.accepts e <;> simp [ha]

theorem Plan.execute_quiet (plan : Plan) (entries : List Entry) (limit : Option ℕ) {probe : Probe}
    (h : ∀ n, probe n = false) :
    plan.execute (entries.map .ok) limit probe = .ok (plan.results limit entries) := by
  rw [execute, plan.scan_readable fun n _ _ => h (n + 1), if_neg (by rw [h]; decide), results,
    ← cutTo_eq]
  rfl

/-- **A plan finds all or nothing.** -/
theorem Plan.execute_cases (plan : Plan) (entries : List Entry) (limit : Option ℕ) (probe : Probe) :
    plan.execute (entries.map .ok) limit probe = .error .interrupted ∨
      plan.execute (entries.map .ok) limit probe = .ok (plan.results limit entries) := by
  rw [execute, scan, results, ← cutTo_eq]
  rcases plan.scanFrom_cases probe 0 [] entries with h | h
  · exact .inl (by rw [h]; rfl)
  · exact .inr (by rw [h]; rfl)

/-! ## Searches -/

open Classical in
/-- What a query text finds among some entries: the first ones of those that it asks for, in the
stable order of results. -/
def Finds (text : String) (limit : Option ℕ) (entries found : List Entry) : Prop :=
  ∃ sorted, SortsStably (entries.filter fun e => decide (Wanted text e)) sorted ∧
    found = firstOf limit sorted

theorem finds_results {text : String} {plan : Plan}
    (h : ∀ e, plan.accepts e = true ↔ Wanted text e) (limit : Option ℕ) (entries : List Entry) :
    Finds text limit entries (plan.results limit entries) := by
  refine ⟨ranked (entries.filter plan.accepts), ?_, rfl⟩
  have hfilter : entries.filter plan.accepts =
      entries.filter fun e => @decide (Wanted text e) (Classical.propDecidable _) :=
    List.filter_congr fun e _ => Bool.eq_iff_iff.mpr ((h e).trans (by simp))
  rw [← hfilter]
  exact sortsStably_ranked _

namespace Index

theorem ask_of_ready {i : Index} (h : i.serializer.Ready) (kind : JobKind)
    (work : Bool → Store → Except Error StoreAnswer × Store) :
    i.ask kind [.perform work] =
      ((work false i.serializer.state).1.map some,
        { i with serializer := i.serializer.answered kind work }) := by
  have hcall : i.serializer.call kind [.perform work] =
      (.ok i.serializer.nextSeq, i.serializer.asked kind work) := by
    rw [call, isRunning, h.phase, asked, enqueue_of_isOpen h.isOpen]
    rfl
  rw [ask, hcall]
  simp only [settle_of_ready kind work h, replyTo_answered kind work h]

theorem search_of_ready {i : Index} (h : i.serializer.Ready) {text : String} {plan : Plan}
    (hp : searchPlan text = .ok plan) (limit : Option ℕ) :
    (i.search text limit).1 = .ok (plan.results limit i.serializer.state.database.entries) := by
  have hquery : plan.execute (i.serializer.state.database.entries.map .ok) limit
      (.constant false) = _ := plan.execute_quiet _ limit fun _ => rfl
  have hp : Plan.compile (Query.parse .search text) = .ok plan := hp
  rw [search, query, hp]
  simp only [run, queryScript]
  rw [ask_of_ready h]
  simp only [Store.query, hquery]
  rfl

end Index

end SymbolIndex
