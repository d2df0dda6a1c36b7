import Mathlib.Data.List.GetD
import SymbolIndex.Proofs.Index.Runs
import SymbolIndex.Proofs.Store.Opening

/-!
# Using an index

Whatever an index is asked for is a move of its serializer, with some steps of the owner behind it
if somebody waits for the answer. So an index that has been opened is somewhere in a run of an
index, whatever has been done with it.

* `Index.LeadsTo`: moves from an index to another one;
* `Index.leadsTo_ask` and the theorems behind it: what the functions of an index do;
* `exists_indexRun`: an index that has been opened and used.
-/

namespace SymbolIndex

open Serializer

namespace Index

/-- Some moves lead from an index to another one, and all that they leave behind is what jobs of an
index do. -/
def LeadsTo (i i' : Index) : Prop :=
  ∃ ms : List (Move Store StoreAnswer), (∀ m ∈ ms, m.Performs IndexWork) ∧
    i'.serializer = ms.foldl move i.serializer

variable {i i' i'' : Index}

theorem LeadsTo.refl (i : Index) : i.LeadsTo i := ⟨[], fun _ hm => absurd hm List.not_mem_nil, rfl⟩

theorem LeadsTo.trans (h : i.LeadsTo i') (h' : i'.LeadsTo i'') : i.LeadsTo i'' := by
  obtain ⟨ms, hms, hs⟩ := h
  obtain ⟨ms', hms', hs'⟩ := h'
  refine ⟨ms ++ ms', fun m hm => ?_, by rw [List.foldl_append, ← hs, hs']⟩
  rcases List.mem_append.mp hm with hm | hm
  · exact hms m hm
  · exact hms' m hm

theorem leadsTo_move {m : Move Store StoreAnswer} (hm : m.Performs IndexWork)
    (h : i'.serializer = i.serializer.move m) : i.LeadsTo i' := by
  refine ⟨[m], fun m' hm' => ?_, h⟩
  rw [List.mem_singleton.mp hm']
  exact hm

theorem leadsTo_settle (i : Index) : i.LeadsTo i.settle := by
  refine ⟨List.replicate i.serializer.weight .owner, fun m hm => ?_, ?_⟩
  · rw [List.eq_of_mem_replicate hm]
    exact trivial
  · rw [foldl_owner]
    rfl

/-! ## What an index is asked for -/

/-- **Asking an index for a job leads on**, whether its caller is answered or not. -/
theorem leadsTo_ask (i : Index) (kind : JobKind) {script : Script Store StoreAnswer}
    (h : Script.Performs IndexWork script) : i.LeadsTo (i.ask kind script).2 := by
  have hmove : i.serializer.move (.call kind script) = (i.serializer.call kind script).2 := rfl
  rw [ask]
  cases hc : i.serializer.call kind script with
  | mk answer s =>
    rw [hc] at hmove
    have hqueued : i.LeadsTo { i with serializer := s } := leadsTo_move (m := .call kind script) h hmove.symm
    cases answer with
    | error e => exact hqueued
    | ok seq => exact hqueued.trans (leadsTo_settle _)

theorem leadsTo_run (i : Index) (plan : Plan) (limit : Option ℕ) :
    i.LeadsTo (i.run plan limit).2 :=
  i.leadsTo_ask .cancellable (performs_queryScript plan limit)

theorem leadsTo_query (i : Index) (clauses : List Query.Clause) (limit : Option ℕ) :
    i.LeadsTo (i.query clauses limit).2 := by
  unfold query
  cases Plan.compile clauses with
  | error e => exact .refl i
  | ok plan => exact i.leadsTo_run plan limit

theorem leadsTo_search (i : Index) (text : String) (limit : Option ℕ) :
    i.LeadsTo (i.search text limit).2 :=
  i.leadsTo_query (Query.parse .search text) limit

theorem leadsTo_queueSearch (i : Index) (text : String) (limit : Option ℕ) :
    i.LeadsTo (i.queueSearch text limit).2 := by
  unfold queueSearch
  cases searchPlan text with
  | error e => exact .refl i
  | ok plan =>
    exact leadsTo_move (m := .call .cancellable (queryScript plan limit))
      (performs_queryScript plan limit) rfl

theorem leadsTo_queryAsync (i : Index) (text : String) (limit : Option ℕ) (tag : ℕ)
    {script : Script Store StoreAnswer} (h : Script.Performs IndexWork script) :
    i.LeadsTo (i.queryAsync text limit tag script).2 := by
  unfold queryAsync
  cases searchPlan text with
  | error e => exact .refl i
  | ok plan =>
    exact leadsTo_move (m := .submitWith .cancellable (queryScript plan limit) ⟨.tag tag, script⟩)
      ⟨performs_queryScript plan limit, h⟩ rfl

theorem leadsTo_interrupt (i : Index) : i.LeadsTo i.interrupt :=
  leadsTo_move (m := .interrupt) trivial rfl

theorem leadsTo_interruptPending (i : Index) : i.LeadsTo i.interruptPending :=
  leadsTo_move (m := .interruptPending) trivial rfl

theorem leadsTo_stop (i : Index) : i.LeadsTo i.stop := by
  have hstop : i.LeadsTo { i with serializer := i.serializer.stop.2 } :=
    leadsTo_move (m := .stop) trivial rfl
  exact hstop.trans (leadsTo_settle _)

theorem leadsTo_read {α : Type} (i : Index) {script : Script Store StoreAnswer}
    (f : StoreAnswer → Option α) (h : Script.Performs IndexWork script) :
    i.LeadsTo (i.read script f).2 := by
  have hask := i.leadsTo_ask .uninterruptible h
  unfold read
  cases hr : i.ask .uninterruptible script with
  | mk result i' =>
    rw [hr] at hask
    cases result <;> exact hask

theorem leadsTo_readScript {α : Type} (i : Index) (f : Store → Except Error StoreAnswer)
    (g : StoreAnswer → Option α) : i.LeadsTo (i.read (readScript f) g).2 :=
  i.leadsTo_read g (performs_readScript f)

theorem leadsTo_replace (i : Index) (batches : List (List Entry)) :
    i.LeadsTo (i.replace batches).2 :=
  i.leadsTo_read _ (performs_replaceScript batches)

theorem leadsTo_length (i : Index) : i.LeadsTo i.length.2 :=
  i.leadsTo_read _ performs_lengthScript

theorem leadsTo_rebuildWith (i : Index) (files : FileTree) (scanners : List Scanner) :
    i.LeadsTo (i.rebuildWith files scanners).2.1 :=
  i.leadsTo_replace (batchesOf (scanAll i.root files scanners).1)

end Index

/-! ## Indexes that have been opened -/

theorem openIndex_fresh {disk disk' : Disk} {dataDirectory root : String} {settings : Settings}
    {i : Index} (h : openIndex disk dataDirectory root settings = .ok (i, disk'))
    (hsize : settings.mapSize < 2 ^ 64) :
    ∃ s : Store, i.serializer = Serializer.start { name := ownerName, state := s } ∧
      s.capacity < 2 ^ 64 ∧ s.knownLength = none := by
  unfold openIndex at h
  obtain ⟨place, -, h⟩ := exists_of_bind_eq_ok h
  obtain ⟨⟨s, disk''⟩, hstore, h⟩ := exists_of_bind_eq_ok h
  obtain ⟨hcapacity, hfresh⟩ := openStore_fresh hstore
  cases h
  refine ⟨s, rfl, ?_, hfresh⟩
  rw [hcapacity]
  split
  · exact disk.space.byDefault_lt
  · exact hsize

/-- The run that begins with the start of an owner and goes on with some moves. -/
def usingRun (s : Store) (ms : List (Move Store StoreAnswer)) : Run Store StoreAnswer where
  name := ownerName
  background := false
  state := s
  moves
    | 0 => .start
    | t + 1 => ms.getD t .owner

theorem indexRun_usingRun {s : Store} {ms : List (Move Store StoreAnswer)}
    (hroom : s.capacity < 2 ^ 64) (hfresh : s.knownLength = none)
    (hms : ∀ m ∈ ms, m.Performs IndexWork) : IndexRun (usingRun s ms) where
  room := hroom
  fresh := hfresh
  works t := by
    cases t with
    | zero => exact trivial
    | succ t =>
      by_cases ht : t < ms.length
      · have hm : (usingRun s ms).moves (t + 1) = ms[t] := List.getD_eq_getElem _ _ ht
        rw [hm]
        exact hms _ (List.getElem_mem ht)
      · have hm : (usingRun s ms).moves (t + 1) = .owner :=
          List.getD_eq_default _ _ (Nat.le_of_not_lt ht)
        rw [hm]
        exact trivial

/-- **An index that has been opened and used is somewhere in a run of an index**, which starts with
what was on the disk. -/
theorem exists_indexRun {disk disk' : Disk} {dataDirectory root : String} {settings : Settings}
    {i i' : Index} (h : openIndex disk dataDirectory root settings = .ok (i, disk'))
    (hsize : settings.mapSize < 2 ^ 64) (hl : i.LeadsTo i') :
    ∃ (R : Run Store StoreAnswer) (t : ℕ), IndexRun R ∧ R.state = i.serializer.state ∧
      R.after 1 = i.serializer ∧ R.after t = i'.serializer := by
  obtain ⟨ms, hms, hs⟩ := hl
  obtain ⟨store, hi, hroom, hfresh⟩ := openIndex_fresh h hsize
  have hone : (usingRun store ms).after 1 = i.serializer := hi.symm
  refine ⟨usingRun store ms, 1 + ms.length, indexRun_usingRun hroom hfresh hms, ?_, hone, ?_⟩
  · rw [hi]
    rfl
  · rw [hs, ← hone]
    refine Run.after_foldl _ fun k hk => ?_
    rw [Nat.add_comm]
    exact List.getD_eq_getElem _ _ hk

end SymbolIndex
