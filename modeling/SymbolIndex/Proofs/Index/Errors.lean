import SymbolIndex.Index.Rebuild
import SymbolIndex.Proofs.Search.Answer
import SymbolIndex.Proofs.Serializer.Errors
import SymbolIndex.Proofs.Store.Replace

/-!
# The errors of an index

Whatever an index is asked for, it never answers that no index is open, and neither does it tell a
callback so.

* `Error.IsOwn`, `Error.eq_of_message_eq`: the errors of an index, and how to tell the other one;
* `reports_queryScript` and the theorems behind it: the errors of jobs on a store;
* `Index.Sound`, `Index.sound_search` and the theorems around it: what the functions of an index
  do and answer;
* `Index.isOwn_delivered`: what is told to a callback.
-/

namespace SymbolIndex

/-- An error of an index, and not of having none. -/
def Error.IsOwn (e : Error) : Prop := ∀ root, e ≠ .indexNotOpen root

/-- No other error has the wording of an index that is not open. -/
theorem Error.eq_of_message_eq {e : Error} {root : String}
    (h : e.message = (indexNotOpen root).message) : ∃ root', e = .indexNotOpen root' := by
  have hN : (indexNotOpen root).message.toList.head? = some 'N' := by
    rw [message.eq_def]
    simp [String.toList_append]
  rw [← h, message.eq_def] at hN
  cases e with
  | indexNotOpen root' => exact ⟨root', rfl⟩
  | _ => simp [String.toList_append] at hN

/-! ## Jobs on a store -/

theorem isOwn_addEntries {space : Space} {capacity batch index : ℕ} {d : Draft}
    {entries : List Entry} {e : Error}
    (h : d.addEntries space capacity batch index entries = .error e) : e.IsOwn := by
  induction entries generalizing index d with
  | nil => cases h
  | cons entry entries ih =>
    rw [Draft.addEntries] at h
    rcases error_of_bind_eq_error h with hadd | ⟨d', -, hrest⟩
    · unfold Draft.add at hadd
      split at hadd
      · rw [← Except.error.inj hadd]
        rintro root ⟨⟩
      · dsimp only at hadd
        split at hadd
        · rw [← Except.error.inj hadd]
          rintro root ⟨⟩
        · cases hadd
    · exact ih hrest

theorem isOwn_addBatches {space : Space} {capacity batch : ℕ} {d : Draft}
    {batches : List (List Entry)} {e : Error}
    (h : d.addBatches space capacity batch batches = .error e) : e.IsOwn := by
  induction batches generalizing batch d with
  | nil => cases h
  | cons entries batches ih =>
    rw [Draft.addBatches] at h
    rcases error_of_bind_eq_error h with hadd | ⟨d', -, hrest⟩
    · exact isOwn_addEntries hadd
    · exact ih hrest

theorem isOwn_generation {d : Database} {e : Error} (h : d.generation = .error e) : e.IsOwn := by
  unfold Database.generation at h
  split at h
  · cases h
  · cases h
  · exact Except.error.inj h ▸ nofun

theorem isOwn_replace {s : Store} {batches : List (List Entry)} {e : Error}
    (h : (s.replace batches).1 = .error e) : e.IsOwn := by
  unfold Store.replace at h
  split at h
  · next hg => exact Except.error.inj h ▸ isOwn_generation hg
  · split at h
    · next ha => exact Except.error.inj h ▸ isOwn_addBatches ha
    · cases h

theorem isOwn_query {s : Store} {plan : Plan} {limit : Option ℕ} {probe : Probe} {e : Error}
    (h : s.query plan limit probe = .error e) : e.IsOwn := by
  rcases plan.execute_cases s.database.entries limit probe with hq | hq
  · rw [Store.query, hq] at h
    rw [← Except.error.inj h]
    rintro root ⟨⟩
  · rw [Store.query, hq] at h
    cases h

theorem reports_perform {P : Error → Prop} {work : Work Store StoreAnswer}
    (h : ∀ b s e, (work b s).1 = .error e → P e) : Script.Reports P [.perform work] := by
  intro a ha
  rw [List.mem_singleton.mp ha]
  exact ⟨work, rfl, h⟩

theorem reports_queryScript (plan : Plan) (limit : Option ℕ) :
    (queryScript plan limit).Reports Error.IsOwn :=
  reports_perform fun _ _ _ h => isOwn_query (error_of_map_eq_error h)

theorem reports_replaceScript (batches : List (List Entry)) :
    (replaceScript batches).Reports Error.IsOwn :=
  reports_perform fun _ _ _ h => isOwn_replace (error_of_map_eq_error h)

theorem reports_lengthScript : lengthScript.Reports Error.IsOwn :=
  reports_perform fun _ _ _ h => by cases h

theorem reports_readScript {f : Store → Except Error StoreAnswer}
    (h : ∀ s e, f s = .error e → e.IsOwn) : (readScript f).Reports Error.IsOwn :=
  reports_perform fun _ s e => h s e

/-! ## Indexes -/

namespace Index

/-- All errors that an index has told, and that its jobs may end with, are its own. -/
def Sound (i : Index) : Prop := i.serializer.Reports Error.IsOwn

variable {i : Index}

theorem isOwn_dropped : Error.dropped.IsOwn := nofun

theorem Sound.settle (h : i.Sound) : i.settle.Sound := Serializer.Reports.settle h isOwn_dropped

theorem Sound.interrupt (h : i.Sound) : i.interrupt.Sound := Serializer.Reports.interrupt h

theorem Sound.interruptPending (h : i.Sound) : i.interruptPending.Sound :=
  Serializer.Reports.interruptPending h

theorem Sound.stop (h : i.Sound) : i.stop.Sound := (Serializer.Reports.stop h).settle isOwn_dropped

theorem Sound.takeNotes (h : i.Sound) : i.takeNotes.2.Sound := Serializer.Reports.withoutLog h

/-- **Asking an index for a job** leaves it sound, and what it answers is an error of its own if it
is one. -/
theorem sound_ask (h : i.Sound) (kind : JobKind) {script : Script Store StoreAnswer}
    (hs : script.Reports Error.IsOwn) :
    (i.ask kind script).2.Sound ∧ ∀ e, (i.ask kind script).1 = .error e → e.IsOwn := by
  have hcall := Serializer.Reports.call h hs kind
  rw [ask]
  cases hc : i.serializer.call kind script with
  | mk answer s =>
    rw [hc] at hcall
    cases answer with
    | error e =>
      refine ⟨hcall, fun e' he => Except.error.inj he ▸ ?_⟩
      have herror : e = .notStarted := by
        unfold Serializer.call at hc
        split at hc
        · split at hc <;> cases hc
          rfl
        · cases hc
          rfl
      rw [herror]
      rintro root ⟨⟩
    | ok seq =>
      have hsettled := hcall.settle isOwn_dropped
      refine ⟨hsettled, fun e he => ?_⟩
      dsimp only at he
      split at he
      · next r hr =>
        rw [he] at hr
        exact hsettled.of_replyTo hr
      · rw [← Except.error.inj he]
        rintro root ⟨⟩

theorem sound_read {α : Type} (h : i.Sound) {script : Script Store StoreAnswer}
    (hs : script.Reports Error.IsOwn) (f : StoreAnswer → Option α) : (i.read script f).2.Sound := by
  have hask := (sound_ask h .uninterruptible hs).1
  unfold read
  cases hr : i.ask .uninterruptible script with
  | mk result i' =>
    rw [hr] at hask
    cases result <;> exact hask

theorem error_of_foundEntries {r : JobResult StoreAnswer} {e : Error}
    (h : foundEntries r = .error e) : r = .error e := by
  unfold foundEntries at h
  split at h
  · cases h
  · cases h
  · cases h
  · cases h
  · exact congrArg Except.error (Except.error.inj h)

theorem sound_search (h : i.Sound) (text : String) (limit : Option ℕ) :
    (i.search text limit).2.Sound ∧ ∀ e, (i.search text limit).1 = .error e → e.IsOwn := by
  obtain ⟨plan, hplan, -⟩ := exists_searchPlan text
  obtain ⟨hsound, hown⟩ := sound_ask h .cancellable (reports_queryScript plan limit)
  have hsearch : i.search text limit = i.run plan limit := by
    rw [search, query, show Plan.compile (Query.parse .search text) = .ok plan from hplan]
  rw [hsearch]
  exact ⟨hsound, fun e he => hown e (error_of_foundEntries he)⟩

/-- A search whose result a callback is told is refused at most because the index has been
stopped. -/
theorem sound_queryAsync (h : i.Sound) (text : String) (limit : Option ℕ) (tag : ℕ) :
    (i.queryAsync text limit tag []).2.Sound ∧
      ∀ e, (i.queryAsync text limit tag []).1 = .error e → e.IsOwn := by
  obtain ⟨plan, hplan, -⟩ := exists_searchPlan text
  have hdelivery : (Delivery.callback (⟨.tag tag, []⟩ : Callback Store StoreAnswer)).Reports
      Error.IsOwn := fun a ha => absurd ha List.not_mem_nil
  have hsound :=
    Serializer.Reports.enqueue h (reports_queryScript plan limit) hdelivery .cancellable
  rw [queryAsync, hplan]
  dsimp only
  refine ⟨hsound, fun e he => ?_⟩
  cases hq : (i.serializer.submitWith .cancellable (queryScript plan limit) ⟨.tag tag, []⟩).1 with
  | some seq => rw [hq] at he; cases he
  | none =>
    rw [hq] at he
    exact Except.error.inj he ▸ nofun

theorem sound_rebuild (h : i.Sound) (files : FileTree) : (i.rebuild files).2.1.Sound := by
  unfold rebuild rebuildWith replaceScanned
  exact sound_read h (reports_replaceScript _) _

theorem sound_kinds (h : i.Sound) : i.kinds.2.Sound := by
  refine sound_read h (reports_readScript fun s e he => ?_) _
  cases he

theorem sound_kindCounts (h : i.Sound) : i.kindCounts.2.Sound := by
  refine sound_read h (reports_readScript fun s e he => ?_) _
  cases he

theorem sound_length (h : i.Sound) : i.length.2.Sound := sound_read h reports_lengthScript _

theorem sound_health (h : i.Sound) : i.health.2.Sound := by
  refine sound_read h (reports_readScript fun s e he => ?_) _
  rcases error_of_bind_eq_error (error_of_map_eq_error he) with hg | ⟨_, -, hp⟩
  · exact isOwn_generation hg
  · cases hp

/-- **No callback is told that no index is open.** -/
theorem isOwn_delivered (h : i.Sound) {ticket : ℕ} {e : Error}
    (hd : (ticket, .error e) ∈ deliveredOf i.takeNotes.1) : e.IsOwn := by
  obtain ⟨note, hnote, htold⟩ := List.mem_filterMap.mp hd
  split at htold
  · next n r =>
    have hr : foundEntries r = .error e := (Prod.mk.inj (Option.some.inj htold)).2
    rw [error_of_foundEntries hr] at hnote
    exact h.told _ e hnote
  · cases htold

end Index

theorem sound_openIndex {disk disk' : Disk} {dataDirectory root : String} {settings : Settings}
    {i : Index} (h : openIndex disk dataDirectory root settings = .ok (i, disk')) : i.Sound := by
  unfold openIndex at h
  obtain ⟨place, -, h⟩ := exists_of_bind_eq_ok h
  obtain ⟨⟨s, disk''⟩, -, h⟩ := exists_of_bind_eq_ok h
  cases h
  exact ⟨fun _ h => absurd h List.not_mem_nil, fun _ h => absurd h (Option.some_ne_none _).symm,
    fun _ _ h => absurd h List.not_mem_nil, fun _ _ h => absurd h List.not_mem_nil⟩

theorem sound_openProject {disk disk' : Disk} {dataDirectory root : String} {i : Index}
    (h : openProject disk dataDirectory root = .ok (i, disk')) : i.Sound := by
  unfold openProject at h
  obtain ⟨settings, -, h⟩ := exists_of_bind_eq_ok h
  exact sound_openIndex h

end SymbolIndex
