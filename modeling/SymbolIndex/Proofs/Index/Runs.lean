import SymbolIndex.Index.Rebuild
import SymbolIndex.Proofs.Serializer.Work
import SymbolIndex.Proofs.Store.Replace

/-!
# Runs of an index

An index is used by queueing jobs on its store: queries, replacements and reads, with callbacks that
may do the same in place. What the store holds is at any time what the last replacement that
succeeded has left behind.

* `IndexWork`, `IndexRun`: what the jobs of an index do, and runs of such jobs;
* `performs_queryScript` and the theorems behind it: the jobs of the functions of an index;
* `Run.Replaces`, `Run.entries_succ`, `Run.lastReplacement`: what changes the entries;
* `Run.Stored`, `Run.stored_unique`: the entries that a job finds.
-/

namespace SymbolIndex

open Serializer

/-! ## The jobs of an index -/

/-- The work of a replacement. -/
def replaceWork (batches : List (List Entry)) : Work Store StoreAnswer := fun _ s =>
  ((s.replace batches).1.map fun g => .generation (some g), (s.replace batches).2)

/-- The work of a query. As the rows are read, the token is looked at again and again; the probe
says what it reads, given what it read at first. -/
def queryWork (plan : Plan) (limit : Option ℕ) (probe : Bool → Probe) : Work Store StoreAnswer :=
  fun interrupted s => ((s.query plan limit (probe interrupted)).map .entries, s)

/-- The work of counting the entries. -/
def lengthWork : Work Store StoreAnswer := fun _ s => (.ok (.count s.length.1), s.length.2)

theorem replaceScript_eq (batches : List (List Entry)) :
    replaceScript batches = [.perform (replaceWork batches)] := rfl

theorem queryScript_eq (plan : Plan) (limit : Option ℕ) :
    queryScript plan limit = [.perform (queryWork plan limit .constant)] := rfl

theorem lengthScript_eq : lengthScript = [.perform lengthWork] := rfl

/-- Work that at most remembers the number of entries. -/
def KeepsEntries (work : Work Store StoreAnswer) : Prop :=
  ∀ b s, (work b s).2 = s ∨ (work b s).2 = s.length.2

/-- Work that is done on the store of an index. -/
def IndexWork (work : Work Store StoreAnswer) : Prop :=
  KeepsEntries work ∨ ∃ batches, work = replaceWork batches

theorem performs_queryScript (plan : Plan) (limit : Option ℕ) :
    Script.Performs IndexWork (queryScript plan limit) :=
  ⟨.inl fun _ _ => .inl rfl, trivial⟩

theorem performs_replaceScript (batches : List (List Entry)) :
    Script.Performs IndexWork (replaceScript batches) :=
  ⟨.inr ⟨batches, rfl⟩, trivial⟩

theorem performs_lengthScript : Script.Performs IndexWork lengthScript :=
  ⟨.inl fun _ _ => .inr rfl, trivial⟩

theorem performs_readScript (f : Store → Except Error StoreAnswer) :
    Script.Performs IndexWork (readScript f) :=
  ⟨.inl fun _ _ => .inl rfl, trivial⟩

/-- A run of an index on a store that has been opened: all that is ever done to the store is what an
index does, in whatever order and inside of whatever callbacks. -/
structure IndexRun (R : Run Store StoreAnswer) : Prop where
  /-- the room of a store is a machine word -/
  room : R.state.capacity < 2 ^ 64
  /-- nobody has asked for the number of entries yet -/
  fresh : R.state.knownLength = none
  works : ∀ t, (R.moves t).Performs IndexWork

namespace Run

variable (R : Run Store StoreAnswer)

/-! ## Asking an index -/

/-- An index that is where the run is after some moves is asked for a job, and the owner gets on
until it rests. -/
structure Asked (t : ℕ) (i : Index) (kind : JobKind) (script : Script Store StoreAnswer) :
    Prop where
  here : i.serializer = R.after t
  running : (R.after t).isRunning = true
  asks : R.moves t = .call kind script
  rests : ∀ k < (R.after (t + 1)).weight, R.moves (t + 1 + k) = .owner

/-- Asking an index is to queue a job, and what it answers is what the caller of the job has been
told by then, which is something unless the owner is held up. -/
theorem of_asked {t : ℕ} {i : Index} {kind : JobKind} {script : Script Store StoreAnswer}
    (h : R.Asked t i kind script) :
    ∃ u, t < u ∧ (i.ask kind script).2.serializer = R.after u ∧
      ⟨(R.accepted t).length, kind, script, .reply⟩ ∈ R.accepted u ∧
      ((R.after u).isWaiting = true ∨ ∃ o, (R.after u).replyTo (R.accepted t).length = some o) ∧
        ((∃ result, (R.after u).replyTo (R.accepted t).length = some (.result result) ∧
            (i.ask kind script).1 = result) ∨
          (∀ result, (R.after u).replyTo (R.accepted t).length ≠ some (.result result)) ∧
            (i.ask kind script).1 = .error .timeout) := by
  have hopen : (R.after t).isOpen = true := by
    unfold isOpen
    rw [show (R.after t).phase = .running from eq_of_beq h.running]
  have hrequest : R.request t = some (.enqueue kind script .reply) := by
    rw [request, h.asks]
    exact if_pos h.running
  have hcall : (R.after t).call kind script = (.ok (R.accepted t).length, R.after (t + 1)) := by
    rw [after, h.asks, length_accepted]
    simp only [move, call, h.running, enqueue_of_isOpen hopen]
    rfl
  have hafter := R.after_add h.rests
  have haccepted : ⟨(R.accepted t).length, kind, script, .reply⟩ ∈
      R.accepted (t + 1 + (R.after (t + 1)).weight) := by
    refine (R.accepted_prefix (Nat.le_add_right (t + 1) _)).subset ?_
    rw [(R.accepted_of_request hrequest hopen).2]
    simp
  refine ⟨t + 1 + (R.after (t + 1)).weight, by omega, ?_, haccepted, ?_, ?_⟩
  · rw [Index.ask, h.here, hcall]
    exact hafter.symm
  · have hrest : (R.after (t + 1 + (R.after (t + 1)).weight)).ownerStep = none := by
      rw [hafter]
      exact ownerStep_settle _
    have hborn : (R.after (t + 1 + (R.after (t + 1)).weight)).owner ≠ .unborn := by
      refine R.born_mono (t := t) ?_ (by omega)
      rw [R.alive_of_running t (eq_of_beq h.running)]
      decide
    cases hc : (R.after (t + 1 + (R.after (t + 1)).weight)).current with
    | none => exact .inr (R.exists_replyTo hrest hc hborn haccepted rfl)
    | some r => exact .inl (by rw [isWaiting, hc, hrest]; rfl)
  · have hsettle : (R.after (t + 1)).settle = R.after (t + 1 + (R.after (t + 1)).weight) :=
      hafter.symm
    rw [Index.ask, h.here, hcall]
    simp only [hsettle]
    cases (R.after (t + 1 + (R.after (t + 1)).weight)).replyTo (R.accepted t).length with
    | none => exact .inr ⟨by simp, rfl⟩
    | some o =>
      cases o with
      | result result => exact .inl ⟨result, rfl, rfl⟩
      | panicked p => exact .inr ⟨by simp, rfl⟩

/-! ## What changes the entries -/

/-- The entries after some moves. -/
def entries (t : ℕ) : List Entry := (R.after t).state.database.entries

/-- The job of this number replaces the entries in a move, in its work or in its callback. -/
def Replaces (t n : ℕ) (batches : List (List Entry)) : Prop :=
  R.PerformsAt t n (replaceWork batches) ∧
    ∃ g, ((R.after t).state.replace batches).1 = .ok g

variable {R}

theorem indexWork_of_performsAt (hR : IndexRun R) {t n : ℕ} {work : Work Store StoreAnswer}
    (h : R.PerformsAt t n work) : IndexWork work := by
  obtain ⟨-, -, r, rest, hr, -, hs⟩ := h
  have hf := ((R.performs hR.works t).2 r hr).frame
  rw [hs] at hf
  exact hf.1

theorem state_cases (hR : IndexRun R) (t : ℕ) :
    (R.after (t + 1)).state = (R.after t).state ∨
      (R.after (t + 1)).state = (R.after t).state.length.2 ∨
      ∃ n batches, R.PerformsAt t n (replaceWork batches) ∧
        (R.after (t + 1)).state = ((R.after t).state.replace batches).2 := by
  rcases R.state_succ t with hs | ⟨n, work, hp⟩
  · exact .inl hs
  · obtain ⟨b, hs⟩ := R.state_of_performsAt hp
    rw [hs]
    rcases indexWork_of_performsAt hR hp with hk | ⟨batches, rfl⟩
    · exact (hk b (R.after t).state).imp id .inl
    · exact .inr (.inr ⟨n, batches, hp, rfl⟩)

theorem sound (hR : IndexRun R) (t : ℕ) :
    (R.after t).state.capacity < 2 ^ 64 ∧ (R.after t).state.Counted := by
  induction t with
  | zero =>
    refine ⟨hR.room, fun n hn => ?_⟩
    rw [show (R.after 0).state.knownLength = none from hR.fresh] at hn
    cases hn
  | succ t ih =>
    rcases state_cases hR t with hs | hs | ⟨n, batches, -, hs⟩
    · rwa [hs]
    · rw [hs, (Store.length_database _).2]
      exact ⟨ih.1, Store.counted_length ih.2⟩
    · rw [hs, Store.replace_capacity]
      exact ⟨ih.1, Store.counted_replace ih.1 ih.2 batches⟩

theorem entries_of_replaces (hR : IndexRun R) {t n : ℕ} {batches : List (List Entry)}
    (h : R.Replaces t n batches) : R.entries (t + 1) = batches.flatten := by
  obtain ⟨hp, g, hg⟩ := h
  obtain ⟨b, hs⟩ := R.state_of_performsAt hp
  rw [entries, hs]
  exact (Store.replace_ok (sound hR t).1 hg).1

/-- **The entries only change where they are replaced.** -/
theorem entries_succ (hR : IndexRun R) (t : ℕ) :
    R.entries (t + 1) = R.entries t ∨ ∃ n batches, R.Replaces t n batches := by
  rcases state_cases hR t with hs | hs | ⟨n, batches, hp, hs⟩
  · exact .inl (by rw [entries, hs, entries])
  · exact .inl (by rw [entries, hs, (Store.length_database _).1, entries])
  · cases hg : ((R.after t).state.replace batches).1 with
    | error e => exact .inl (by rw [entries, hs, Store.replace_error hg, entries])
    | ok g => exact .inr ⟨n, batches, hp, g, hg⟩

theorem lastReplacement (hR : IndexRun R) (t : ℕ) :
    ((∀ u < t, ∀ n batches, ¬ R.Replaces u n batches) ∧
        R.entries t = R.state.database.entries) ∨
      ∃ u < t, ∃ n batches, R.Replaces u n batches ∧ R.entries t = batches.flatten ∧
        ∀ u', u < u' → u' < t → ∀ n' batches', ¬ R.Replaces u' n' batches' := by
  induction t with
  | zero => exact .inl ⟨fun u hu => absurd hu u.not_lt_zero, rfl⟩
  | succ t ih =>
    by_cases hreplaced : ∃ n batches, R.Replaces t n batches
    · obtain ⟨n, batches, h⟩ := hreplaced
      exact .inr ⟨t, Nat.lt_succ_self t, n, batches, h, entries_of_replaces hR h,
        fun u' hu hu' => absurd hu' (by omega)⟩
    · have hnone : ∀ n batches, ¬ R.Replaces t n batches := fun n batches h =>
        hreplaced ⟨n, batches, h⟩
      have hsame := (entries_succ hR t).resolve_right hreplaced
      rw [hsame]
      rcases ih with ⟨hno, he⟩ | ⟨u, hu, n, batches, h, he, hno⟩
      · refine .inl ⟨fun u hu => ?_, he⟩
        by_cases hut : u = t
        · exact hut ▸ hnone
        · exact hno u (by omega)
      · refine .inr ⟨u, by omega, n, batches, h, he, fun u' hu' hu't => ?_⟩
        by_cases hut : u' = t
        · exact hut ▸ hnone
        · exact hno u' hu' (by omega)

/-! ## The entries that a job finds -/

variable (R) in
/-- The entries of the last replacement that a job with a lower number has made, or those that were
there at first. Jobs run in the order of their numbers, so the last of these replacements belongs to
the last of these jobs that has made one. -/
inductive Stored (n : ℕ) : List Entry → Prop
  | first (h : ∀ u m batches, R.Replaces u m batches → n ≤ m) :
    Stored n R.state.database.entries
  | last {u m : ℕ} {batches : List (List Entry)} (h : R.Replaces u m batches) (hm : m < n)
    (hlast : ∀ u' m' batches', R.Replaces u' m' batches' → m' < n → u' ≤ u) :
    Stored n batches.flatten

theorem stored_unique (hR : IndexRun R) {n : ℕ} {E E' : List Entry} (h : R.Stored n E)
    (h' : R.Stored n E') : E = E' := by
  cases h with
  | first h =>
    cases h' with
    | first => rfl
    | last h' hm' => exact absurd (h _ _ _ h') (by omega)
  | last h hm hlast =>
    cases h' with
    | first h' => exact absurd (h' _ _ _ h) (by omega)
    | last h' hm' hlast' =>
      obtain rfl := Nat.le_antisymm (hlast _ _ _ h' hm') (hlast' _ _ _ h hm)
      rw [← entries_of_replaces hR h, entries_of_replaces hR h']

/-- The store holds what a job is to find, if the replacements of lower numbers have been made and
no others. -/
theorem stored_of_cut (hR : IndexRun R) {t n : ℕ}
    (hbefore : ∀ u m batches, R.Replaces u m batches → u < t → m < n)
    (hbehind : ∀ u m batches, R.Replaces u m batches → t ≤ u → n ≤ m) :
    R.Stored n (R.entries t) := by
  have hlower : ∀ u m batches, R.Replaces u m batches → m < n → u < t := fun u m batches h hm =>
    Nat.lt_of_not_le fun hle => absurd (hbehind u m batches h hle) (by omega)
  rcases lastReplacement hR t with ⟨hno, he⟩ | ⟨u, hu, n', batches, h, he, hno⟩
  · rw [he]
    refine .first fun u m batches h => Nat.le_of_not_lt fun hm => ?_
    exact hno u (hlower u m batches h hm) m batches h
  · rw [he]
    refine .last h (hbefore u n' batches h hu) fun u' m' batches' h' hm' => ?_
    refine Nat.le_of_not_lt fun huu' => ?_
    exact hno u' huu' (hlower u' m' batches' h' hm') m' batches' h'

end Run

end SymbolIndex
