import SymbolIndex.Proofs.Index.Generations

/-!
# Searches

Every text is a search, and a search that is not interrupted finds what its text asks for among the
entries that are there as it starts. So it does for everyone who can be told about it: a caller that
waits, whatever else the owner has to do before, and a callback.

* `Run.finds_of_workEnds`: searches in runs;
* `Index.search_finds`: what a search finds.
-/

namespace SymbolIndex

open Serializer

theorem Run.finds_of_workEnds {R : Run Store StoreAnswer} {s t : ℕ} {j : Job Store StoreAnswer}
    {o : Outcome StoreAnswer} {text : String} {plan : Plan} {limit : Option ℕ}
    (hplan : ∀ e, plan.accepts e = true ↔ Wanted text e) (h : R.Starts s j)
    (hs : j.script = queryScript plan limit) (hw : R.WorkEnds t j.seq o)
    (hquiet : ∀ u, s < u → u < t → ¬ R.Interrupts u) :
    ∃ found, o = .result (.ok (some (.entries found))) ∧
      Finds text limit (R.entries s) found := by
  rw [queryScript_eq] at hs
  obtain ⟨result, rfl, hret⟩ := R.returns_of_starts h hs hw
  cases queried_of_returns (.job h) rfl (state_of_starts h) hret with
  | interrupted hread =>
    obtain ⟨u, hsu, hut, hu⟩ := (readsInterrupted_constant s t).mp hread
    exact absurd hu (hquiet u hsu hut)
  | found hes =>
    have hall := plan.execute_quiet (R.entries s) limit fun _ => rfl
    obtain rfl := Except.ok.inj (hes.symm.trans hall)
    exact ⟨_, rfl, finds_results hplan limit _⟩

namespace Index

/-- **A search finds what its text asks for.** Whatever the text is, it has a plan, and among the
entries of a store that plan finds them, in their order and up to the limit. So does a search in an
index whose owner has nothing else to do, and so does every search in every run. -/
theorem search_finds (text : String) (limit : Option ℕ) :
    ∃ plan, searchPlan text = .ok plan ∧
      (∀ i : Index, i.search text limit = i.run plan limit) ∧
      (∀ s : Store, ∃ found, s.query plan limit .never = .ok found ∧
        Finds text limit s.database.entries found) ∧
      (∀ i : Index, i.serializer.Ready → ∃ found, (i.search text limit).1 = .ok found ∧
        Finds text limit i.serializer.state.database.entries found) ∧
      ∀ (R : Run Store StoreAnswer) s t j o, R.Starts s j → j.script = queryScript plan limit →
        R.WorkEnds t j.seq o → (∀ u, s < u → u < t → ¬ R.Interrupts u) →
        ∃ found, o = .result (.ok (some (.entries found))) ∧
          Finds text limit (R.entries s) found := by
  obtain ⟨plan, hplan, haccepts⟩ := exists_searchPlan text
  refine ⟨plan, hplan, fun i => ?_, fun s => ?_, fun i hi => ?_, fun R s t j o h hs hw hquiet => ?_⟩
  · have hcompile : Plan.compile (Query.parse .search text) = .ok plan := hplan
    rw [search, query, hcompile]
  · exact ⟨_, plan.execute_quiet _ _ fun _ => rfl, finds_results haccepts limit _⟩
  · exact ⟨_, search_of_ready hi hplan limit, finds_results haccepts limit _⟩
  · exact Run.finds_of_workEnds haccepts h hs hw hquiet

/-- A caller waits for a search in a store that holds two entries. -/
def searchedRun : Run Store StoreAnswer where
  name := ownerName
  background := false
  state :=
    { path := "index"
      place := "index"
      database :=
        { rows :=
            [(sequenceKey 1, { name := "bar", kind := "fn", file := "b" }),
              (sequenceKey 0, { name := "foo", kind := "fn", file := "a" })] }
      capacity := Space.pages.byDefault }
  moves
    | 0 => .start
    | 1 => .call .cancellable
      (queryScript { constraints := [⟨.name, .fuzzy ['f', 'o']⟩], kindLeads := ["fn"] } none)
    | _ => .owner

/-- The index that is searched. -/
def searchedIndex : Index := { root := "/", settings := {}, serializer := searchedRun.after 1 }

theorem search_finds_foo :
    searchedIndex.serializer.Ready ∧
      (∃ found, (searchedIndex.search "fo =fn" none).1 = .ok found ∧
        Finds "fo =fn" none searchedIndex.serializer.state.database.entries found) ∧
      ∃ o found, searchedRun.WorkEnds 4 0 o ∧ o = .result (.ok (some (.entries found))) ∧
        Finds "fo =fn" none (searchedRun.entries 2) found := by
  have hready : searchedIndex.serializer.Ready := searchedRun.ready (t := 1) rfl rfl rfl
  obtain ⟨plan, hplan, -, -, hsearch, hrun⟩ := search_finds "fo =fn" none
  have hknown : plan = { constraints := [⟨.name, .fuzzy ['f', 'o']⟩], kindLeads := ["fn"] } :=
    (Except.ok.inj hplan).symm
  subst hknown
  refine ⟨hready, hsearch _ hready, ?_⟩
  have hends : ∃ o, searchedRun.WorkEnds 4 0 o := ⟨_, rfl⟩
  obtain ⟨o, hw⟩ := hends
  obtain ⟨found, ho, hfound⟩ := hrun searchedRun 2 4 ⟨0, .cancellable, _, .reply⟩ o ⟨rfl, rfl⟩ rfl
    hw fun u hu hu' => by
      obtain rfl : u = 3 := by omega
      exact Bool.false_ne_true
  exact ⟨o, found, hw, ho, hfound⟩

end Index

end SymbolIndex
