import SymbolIndex.Editor.Session
import SymbolIndex.Proofs.Editor.Fetches
import SymbolIndex.Proofs.FileTree.Growth
import SymbolIndex.Proofs.Index.Errors

/-!
# Open indexes and tickets

A session knows the indexes that are open and, for every project, the ticket of its latest fetch. An
index that is used or closed may tell what fetches have found, but no ticket is lost by that.

* `Session.IsOpen`, `Session.standing`: the open indexes, and the tickets of the latest fetches;
* `Session.Sound`: what holds of every session;
* `Session.Keeps`: the tickets stand as before, and indexes are at most closed;
* `Session.keeps_put`, `Session.keeps_withIndex`, `Session.keeps_healths`: using indexes;
* `Session.keeps_shut`, `Session.keeps_cleanup`: closing them.
-/

namespace SymbolIndex.Editor

/-! ## Fetches -/

namespace Fetches

theorem ticket_complete (f : Fetches) (root : String) (ticket : ℕ) (r : FetchResult)
    (other : String) :
    ((f.complete root ticket r).latest? other).map Fetch.ticket =
      (f.latest? other).map Fetch.ticket := by
  rw [latest?_complete]
  split_ifs with ho
  · subst ho
    rw [FetchMove.onLatest, Option.map_map]
    refine congrArg (Option.map · _) (funext fun fetch => ?_)
    by_cases ht : fetch.ticket = ticket <;> simp [ht]
  · rfl

/-- Some results come for one project. -/
def completeAll (f : Fetches) (root : String) (told : List (ℕ × FetchResult)) : Fetches :=
  told.foldl (fun f (ticket, r) => f.complete root ticket r) f

theorem ticket_completeAll (f : Fetches) (root : String) (told : List (ℕ × FetchResult))
    (other : String) :
    ((f.completeAll root told).latest? other).map Fetch.ticket =
      (f.latest? other).map Fetch.ticket := by
  induction told generalizing f with
  | nil => rfl
  | cons t told ih => exact (ih _).trans (f.ticket_complete root t.1 t.2 other)

theorem result_completeAll {f : Fetches} {root : String} {told : List (ℕ × FetchResult)}
    {other : String} {ticket : ℕ} {r : FetchResult}
    (h : (f.completeAll root told).latest? other = some ⟨ticket, some r⟩) :
    f.latest? other = some ⟨ticket, some r⟩ ∨ (ticket, r) ∈ told := by
  induction told generalizing f with
  | nil => exact .inl h
  | cons first told ih =>
    obtain ⟨n, r'⟩ := first
    rcases ih h with h | h
    · cases shows_of_latest?_move (m := .complete root n r') f h with
      | begins hm => cases hm
      | completes r'' hm hr =>
        obtain ⟨-, rfl, rfl⟩ := FetchMove.complete.inj hm
        obtain rfl := Option.some.inj hr
        exact .inr List.mem_cons_self
      | stays hl => exact .inl hl
    · exact .inr (List.mem_cons_of_mem _ h)

end Fetches

theorem lookup_filter_ne {β : Type} (root other : String) (entries : List (String × β)) :
    (entries.filter (·.1 != root)).lookup other =
      if other = root then none else entries.lookup other := by
  induction entries with
  | nil => simp
  | cons entry entries ih =>
    obtain ⟨key, v⟩ := entry
    by_cases hk : key = root
    · rw [List.filter_cons_of_neg (by simp [hk]), ih, lookup_cons_eq]
      split_ifs with ho hother
      · rfl
      · exact absurd (hother.trans hk) ho
      · rfl
    · rw [List.filter_cons_of_pos (by simp [hk]), lookup_cons_eq, lookup_cons_eq, ih]
      by_cases ho : other = key
      · simp [ho, hk]
      · simp [ho]

namespace Session

/-! ## Open indexes and tickets -/

/-- An index is open under a directory. -/
def IsOpen (s : Session) (root : String) : Prop := ∃ i, s.indexes.lookup root = some i

/-- The ticket of the latest fetch of a project, unless that has been handed out or forgotten. -/
def standing (s : Session) (root : String) : Option ℕ := (s.fetches.latest? root).map Fetch.ticket

/-- What holds of every session. -/
structure Sound (s : Session) : Prop where
  /-- no directory has two open indexes -/
  distinct : (s.indexes.map Prod.fst).Nodup
  indexes : ∀ root i, s.indexes.lookup root = some i → i.Sound
  /-- no result says that an index is not open -/
  results : ∀ root ticket e, s.fetches.latest? root = some ⟨ticket, some (.error e)⟩ → e.IsOwn
  /-- the tickets that are handed out from now on are new -/
  issued : ∀ root ticket, s.standing root = some ticket → ticket < s.nextTicket

/-- The tickets stand as before, and the indexes are open as before except for those that have been
closed. -/
structure Keeps (s : Session) (closed : List String) (s' : Session) : Prop where
  isOpen : ∀ root, s'.IsOpen root ↔ s.IsOpen root ∧ root ∉ closed
  standing : ∀ root, s'.standing root = s.standing root
  nextTicket : s'.nextTicket = s.nextTicket
  sound : s.Sound → s'.Sound

variable {s s' s'' : Session} {root : String} {i : Index} {closed more : List String}

theorem Keeps.refl (s : Session) : s.Keeps [] s := ⟨by simp, fun _ => rfl, rfl, id⟩

theorem Keeps.trans (h : s.Keeps closed s') (h' : s'.Keeps more s'') :
    s.Keeps (closed ++ more) s'' where
  isOpen root := by rw [h'.isOpen, h.isOpen, List.mem_append, not_or, and_assoc]
  standing root := (h'.standing root).trans (h.standing root)
  nextTicket := h'.nextTicket.trans h.nextTicket
  sound hs := h'.sound (h.sound hs)

theorem keeps_withDisk (s : Session) (disk : Disk) : s.Keeps [] { s with disk } :=
  ⟨fun _ => (and_iff_left List.not_mem_nil).symm, fun _ => rfl, rfl,
    fun h => ⟨h.distinct, h.indexes, h.results, h.issued⟩⟩

theorem find_eq_ok_iff {path : String} :
    s.find path = .ok (root, i) ↔ s.rootOf path = .ok root ∧ s.indexes.lookup root = some i := by
  unfold find
  cases s.rootOf path with
  | error e => simp [bind, Except.bind]
  | ok root' =>
    cases hl : s.indexes.lookup root' with
    | none =>
      simp only [bind, Except.bind, hl, reduceCtorEq, Except.ok.injEq, false_iff, not_and]
      rintro rfl h
      exact nomatch hl.symm.trans h
    | some j =>
      simp only [bind, Except.bind, hl, pure, Except.pure, Except.ok.injEq, Prod.mk.injEq]
      constructor
      · rintro ⟨rfl, rfl⟩
        exact ⟨rfl, hl⟩
      · rintro ⟨rfl, h⟩
        exact ⟨rfl, Option.some.inj (hl.symm.trans h)⟩

theorem find_of_not_isOpen {path : String} (hp : s.rootOf path = .ok root) (h : ¬s.IsOpen root) :
    s.find path = .error (.indexNotOpen root) := by
  have hl : s.indexes.lookup root = none :=
    Option.eq_none_iff_forall_ne_some.mpr fun i hi => h ⟨i, hi⟩
  unfold find
  rw [hp]
  simp only [bind, Except.bind, hl]

/-! ## Using an index -/

theorem lookup_put (s : Session) (root : String) (i : Index) (other : String) :
    (s.put root i).indexes.lookup other =
      if other = root then some i.takeNotes.2 else s.indexes.lookup other := by
  rw [show (s.put root i).indexes =
    (root, i.takeNotes.2) :: s.indexes.filter (·.1 != root) from rfl, lookup_cons_eq,
    lookup_filter_ne]
  split_ifs <;> rfl

theorem fetches_put (s : Session) (root : String) (i : Index) :
    (s.put root i).fetches = s.fetches.completeAll root (Index.deliveredOf i.takeNotes.1) := rfl

theorem standing_put (s : Session) (root : String) (i : Index) (other : String) :
    (s.put root i).standing other = s.standing other := by
  rw [standing, fetches_put]
  exact Fetches.ticket_completeAll _ _ _ _

theorem isOpen_put (s : Session) (root : String) (i : Index) (other : String) :
    (s.put root i).IsOpen other ↔ other = root ∨ s.IsOpen other := by
  unfold IsOpen
  rw [lookup_put]
  split_ifs with h <;> simp [h]

theorem sound_put (hs : s.Sound) (hi : i.Sound) : (s.put root i).Sound where
  distinct := by
    refine List.nodup_cons.mpr ⟨fun hmem => ?_, ?_⟩
    · obtain ⟨entry, hentry, hroot⟩ := List.mem_map.mp hmem
      exact absurd hroot (by simpa using (List.mem_filter.mp hentry).2)
    · exact ((List.filter_sublist.map Prod.fst).nodup hs.distinct)
  indexes other j hj := by
    rw [lookup_put] at hj
    split_ifs at hj
    · obtain rfl := Option.some.inj hj
      exact hi.takeNotes
    · exact hs.indexes other j hj
  results other ticket e h := by
    rw [fetches_put] at h
    rcases Fetches.result_completeAll h with h | h
    · exact hs.results other ticket e h
    · exact Index.isOwn_delivered hi h
  issued other ticket h := by
    rw [standing_put] at h
    exact hs.issued other ticket h

/-- **Using an open index** leaves the open indexes and the tickets as they are. -/
theorem keeps_put (h : s.IsOpen root) (hi : s.Sound → i.Sound) : s.Keeps [] (s.put root i) where
  isOpen other := by
    rw [isOpen_put, or_iff_right_of_imp fun ho => ho ▸ h]
    exact (and_iff_left List.not_mem_nil).symm
  standing other := standing_put s root i other
  nextTicket := rfl
  sound hs := sound_put hs (hi hs)

theorem keeps_withIndex {α : Type} (s : Session) (path : String)
    {f : Index → Except Error α × Index} (hf : ∀ i, i.Sound → (f i).2.Sound) :
    s.Keeps [] (s.withIndex path f).2 := by
  unfold withIndex
  cases hfind : s.find path with
  | error e => exact .refl s
  | ok found =>
    obtain ⟨root, i⟩ := found
    obtain ⟨-, hl⟩ := find_eq_ok_iff.mp hfind
    exact keeps_put ⟨i, hl⟩ fun hs => hf i (hs.indexes root i hl)

theorem isOpen_of_mem (hm : (root, i) ∈ s.indexes) : s.IsOpen root := by
  cases hl : s.indexes.lookup root with
  | some j => exact ⟨j, hl⟩
  | none =>
    have hne := List.lookup_eq_none_iff.mp hl (root, i) hm
    simp at hne

theorem lookup_of_mem (h : s.Sound) (hm : (root, i) ∈ s.indexes) :
    s.indexes.lookup root = some i := by
  have hdistinct := h.distinct
  revert hm hdistinct
  induction s.indexes with
  | nil => exact fun hm => absurd hm List.not_mem_nil
  | cons entry entries ih =>
    obtain ⟨key, j⟩ := entry
    intro hm hdistinct
    obtain ⟨hkey, hrest⟩ := List.nodup_cons.mp hdistinct
    rw [lookup_cons_eq]
    rcases List.mem_cons.mp hm with heq | hm
    · obtain ⟨rfl, rfl⟩ := Prod.mk.inj heq
      exact if_pos rfl
    · have hne : root ≠ key := fun he => hkey (List.mem_map.mpr ⟨(root, i), hm, he⟩)
      rw [if_neg hne]
      exact ih hm hrest

theorem sound_of_mem (h : s.Sound) {entry : String × Index} (hm : entry ∈ s.indexes) :
    entry.2.Sound :=
  h.indexes entry.1 entry.2 (lookup_of_mem h hm)

theorem keeps_foldl_put {used : List (String × Index)}
    (h : ∀ entry ∈ used, s.IsOpen entry.1 ∧ (s.Sound → entry.2.Sound)) :
    s.Keeps [] (used.foldl (fun s entry => s.put entry.1 entry.2) s) := by
  suffices ∀ s', s.Keeps [] s' → s.Keeps [] (used.foldl (fun s entry => s.put entry.1 entry.2) s')
    from this s (.refl s)
  induction used with
  | nil => exact fun s' hs' => hs'
  | cons entry used ih =>
    intro s' hs'
    obtain ⟨hopen, hsound⟩ := h entry List.mem_cons_self
    have hput : s.Keeps [] (s'.put entry.1 entry.2) :=
      { isOpen := fun root => by
          rw [isOpen_put, hs'.isOpen]
          exact or_iff_right_of_imp fun ho => ⟨ho ▸ hopen, List.not_mem_nil⟩
        standing := fun root => (standing_put s' _ _ root).trans (hs'.standing root)
        nextTicket := hs'.nextTicket
        sound := fun hs => sound_put (hs'.sound hs) (hsound hs) }
    exact ih (fun e he => h e (List.mem_cons_of_mem _ he)) _ hput

theorem keeps_healths (s : Session) : s.Keeps [] s.healths.2 := by
  have hused : ∀ entry ∈ (s.indexes.mergeSort fun a b => a.1 ≤ b.1).map
      (fun entry => (entry.1, entry.2.health.2)), s.IsOpen entry.1 ∧ (s.Sound → entry.2.Sound) := by
    intro entry hentry
    obtain ⟨⟨root, i⟩, hm, rfl⟩ := List.mem_map.mp hentry
    have hm : (root, i) ∈ s.indexes := List.mem_mergeSort.mp hm
    exact ⟨isOpen_of_mem hm, fun hs => Index.sound_health (sound_of_mem hs hm)⟩
  have hfold := keeps_foldl_put hused
  rw [List.foldl_map] at hfold
  rw [healths]
  dsimp only
  rw [List.foldl_map]
  exact hfold

/-! ## Closing indexes -/

/-- **An index that is closed leaves all tickets as they are.** Its owner may still have told what
it has found. -/
theorem keeps_shut (s : Session) (root : String) (hi : s.Sound → i.Sound) :
    s.Keeps [root] (s.shut root i) where
  isOpen other := by
    have hlookup : (s.shut root i).indexes.lookup other =
        if other = root then none else (s.put root i.stop).indexes.lookup other :=
      lookup_filter_ne root other _
    unfold IsOpen
    rw [hlookup, List.mem_singleton, lookup_put]
    split_ifs with ho <;> simp [ho]
  standing other := standing_put s root i.stop other
  nextTicket := rfl
  sound hs := by
    have hput : (s.put root i.stop).Sound := sound_put hs (hi hs).stop
    refine ⟨(List.filter_sublist.map Prod.fst).nodup hput.distinct, fun other j hj => ?_,
      hput.results, hput.issued⟩
    have hlookup := lookup_filter_ne root other (s.put root i.stop).indexes
    rw [show (s.shut root i).indexes.lookup other = _ from hlookup] at hj
    split_ifs at hj
    exact hput.indexes other j hj

theorem keeps_foldl_shut {entries : List (String × Index)}
    (h : ∀ entry ∈ entries, entry.2.Sound) :
    s.Keeps (entries.map Prod.fst) (entries.foldl (fun s entry => s.shut entry.1 entry.2) s) := by
  induction entries generalizing s with
  | nil => exact .refl s
  | cons entry entries ih =>
    have hfirst := s.keeps_shut entry.1 fun _ => h entry List.mem_cons_self
    exact hfirst.trans (ih fun e he => h e (List.mem_cons_of_mem _ he))

/-- **A cleanup closes all indexes**, and leaves all tickets as they are. -/
theorem keeps_cleanup (h : s.Sound) : s.Keeps (s.indexes.map Prod.fst) s.cleanup :=
  keeps_foldl_shut fun _ => sound_of_mem h

theorem mem_roots_of_isOpen (h : s.IsOpen root) : root ∈ s.indexes.map Prod.fst := by
  obtain ⟨i, hi⟩ := h
  obtain ⟨before, behind, hsplit, -⟩ := List.lookup_eq_some_iff.mp hi
  rw [hsplit]
  simp

end Session

end SymbolIndex.Editor
