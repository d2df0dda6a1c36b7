import Mathlib.Data.Nat.Count
import SymbolIndex.Proofs.Serializer.Tokens

/-!
# Cancellation

An interrupt is for the job that is being run, and for the cancellable jobs that wait if it says
so. The first is told apart from all others by how often the serializer has been interrupted, the
others by their numbers.

* `Run.Interrupts`, `Run.epoch_eq`: the interrupts of a run, which the serializer counts;
* `Run.exists_interrupts`: what a token is interrupted by;
* `Run.ClearsQueue`, `Run.lt_dropBelow_iff`: the interrupts that are also for the jobs that wait;
* `Run.drops_iff`: which jobs are dropped.
-/

namespace SymbolIndex

variable {σ V : Type}

/-- The request interrupts the job that is being run. -/
def Request.interrupts : Request σ V → Bool
  | .interrupt | .interruptPending => true
  | _ => false

namespace Serializer

theorem stop_epoch (s : Serializer σ V) :
    s.stop.2.epoch = s.epoch ∧ s.stop.2.dropBelow = s.dropBelow := by
  have hs : s.started.epoch = s.epoch ∧ s.started.dropBelow = s.dropBelow := by
    unfold started start
    split
    · split <;> exact ⟨rfl, rfl⟩
    · exact ⟨rfl, rfl⟩
  unfold stop halt
  split <;> exact hs

theorem drop_epoch (s : Serializer σ V) :
    s.drop.2.epoch = s.epoch ∧ s.drop.2.dropBelow = s.dropBelow := by
  unfold drop
  split
  · exact ⟨rfl, rfl⟩
  · exact stop_epoch s

theorem enqueue_epoch (s : Serializer σ V) (kind : JobKind) (script : Script σ V)
    (delivery : Delivery σ V) :
    (s.enqueue kind script delivery).2.epoch = s.epoch ∧
      (s.enqueue kind script delivery).2.dropBelow = s.dropBelow := by
  unfold enqueue
  split <;> exact ⟨rfl, rfl⟩

theorem serve_epoch (s : Serializer σ V) (q : Request σ V) :
    (s.serve q).epoch = s.epoch + if q.interrupts then 1 else 0 := by
  cases q with
  | interrupt | interruptPending => rfl
  | start => rw [serve, start]; split <;> simp [Request.interrupts]
  | enqueue kind script delivery => simp [serve, enqueue_epoch, Request.interrupts]
  | stop => simp [serve, stop_epoch, Request.interrupts]
  | drop => simp [serve, drop_epoch, Request.interrupts]

theorem lt_dropBelow_serve (s : Serializer σ V) (q : Request σ V) (n : ℕ) :
    n < (s.serve q).dropBelow ↔ n < s.dropBelow ∨ q = .interruptPending ∧ n < s.nextSeq := by
  cases q with
  | interruptPending =>
    simp [serve, Serializer.interruptPending, Serializer.interrupt, raiseMark]
  | interrupt => simp [serve, Serializer.interrupt]
  | start => rw [serve, start]; split <;> simp
  | enqueue kind script delivery => simp [serve, enqueue_epoch]
  | stop => simp [serve, stop_epoch]
  | drop => simp [serve, drop_epoch]

end Serializer

namespace Run

open Serializer

variable (R : Run σ V)

/-- A move interrupts the job that is being run. -/
def Interrupts (t : ℕ) : Prop := (R.request t).any Request.interrupts = true

instance : DecidablePred R.Interrupts := fun t =>
  inferInstanceAs (Decidable ((R.request t).any Request.interrupts = true))

/-- How many interrupts there were. -/
def interrupts (t : ℕ) : ℕ := Nat.count R.Interrupts t

/-! ## Interrupts that are counted -/

theorem epoch_succ (t : ℕ) :
    (R.after (t + 1)).epoch =
      (R.after t).epoch + if (R.request t).any Request.interrupts = true then 1 else 0 := by
  unfold request
  rcases front_of_step (R.step t) with hf | ⟨hn, -, -, msg, queue, -, hf⟩
  · rw [show (R.after (t + 1)).epoch = _ from congrArg Front.epoch hf]
    cases (R.after t).requestOf (R.moves t) with
    | none => simp [serveAll, front]
    | some q => exact serve_epoch (R.after t) q
  · rw [hn, show (R.after (t + 1)).epoch = _ from congrArg Front.epoch hf]
    cases msg <;> simp [Front.behind, front]

/-- The serializer counts the interrupts, as far as its counter goes. -/
theorem epoch_eq (t : ℕ) : (R.after t).epoch = UInt64.ofNat (R.interrupts t) := by
  induction t with
  | zero => rfl
  | succ t ih =>
    rw [epoch_succ, ih, interrupts, interrupts, Nat.count_succ, UInt64.ofNat_add]
    by_cases hu : R.Interrupts t
    · rw [if_pos hu, if_pos (show (R.request t).any Request.interrupts = true from hu)]
      rfl
    · rw [if_neg hu, if_neg (show ¬ (R.request t).any Request.interrupts = true from hu)]
      rfl

theorem interrupts_eq_iff {s t : ℕ} (h : s ≤ t) :
    R.interrupts t = R.interrupts s ↔ ∀ u, s ≤ u → u < t → ¬ R.Interrupts u := by
  obtain ⟨d, rfl⟩ := Nat.exists_eq_add_of_le h
  unfold interrupts
  rw [Nat.count_add, Nat.add_eq_left, Nat.count_iff_forall_not]
  constructor
  · intro hd u hsu hut
    obtain ⟨k, rfl⟩ := Nat.exists_eq_add_of_le hsu
    exact hd k (by omega)
  · exact fun hu k hk => hu (s + k) (by omega) (by omega)

theorem exists_interrupts {s t d : ℕ} {kind : JobKind} (ho : R.Opens s d kind) (hst : s < t)
    (h : (R.after t).isInterrupted ((R.after s).newToken kind) = true) :
    kind = .cancellable ∧ ∃ u, s < u ∧ u < t ∧ R.Interrupts u := by
  cases kind with
  | uninterruptible => cases h
  | cancellable =>
    have hne : R.interrupts t ≠ R.interrupts s := by
      intro heq
      rw [newToken, isInterrupted, epoch_eq, epoch_eq, heq, bne_self_eq_false] at h
      cases h
    have hs : ¬ R.Interrupts s := by
      rw [Interrupts, R.request_of_opens ho]
      exact Bool.false_ne_true
    rw [Ne, R.interrupts_eq_iff hst.le] at hne
    push Not at hne
    obtain ⟨u, hsu, hut, hu⟩ := hne
    have : u ≠ s := fun h => hs (h ▸ hu)
    exact ⟨rfl, u, by omega, hut, hu⟩

/-! ## Jobs that are dropped -/

/-- A move says that all cancellable jobs that wait are to be dropped. -/
def ClearsQueue (t : ℕ) : Prop := R.request t = some .interruptPending

theorem lt_dropBelow_succ (t n : ℕ) :
    n < (R.after (t + 1)).dropBelow ↔
      n < (R.after t).dropBelow ∨ R.ClearsQueue t ∧ n < (R.after t).nextSeq := by
  unfold ClearsQueue request
  rcases front_of_step (R.step t) with hf | ⟨hn, -, -, msg, queue, -, hf⟩
  · rw [show (R.after (t + 1)).dropBelow = _ from congrArg Front.dropBelow hf]
    cases (R.after t).requestOf (R.moves t) with
    | none => simp [serveAll, front]
    | some q =>
      rw [Option.some.injEq]
      exact lt_dropBelow_serve (R.after t) q n
  · rw [hn, show (R.after (t + 1)).dropBelow = _ from congrArg Front.dropBelow hf]
    cases msg <;> simp [Front.behind, front]

/-- The numbers below the mark are those handed out before the queue was cleared. -/
theorem lt_dropBelow_iff (t n : ℕ) :
    n < (R.after t).dropBelow ↔ ∃ u < t, R.ClearsQueue u ∧ n < (R.after u).nextSeq := by
  induction t with
  | zero => exact ⟨fun h => absurd h n.not_lt_zero, fun ⟨u, hu, _⟩ => absurd hu u.not_lt_zero⟩
  | succ t ih =>
    rw [lt_dropBelow_succ, ih]
    constructor
    · rintro (⟨u, hu, h⟩ | h)
      · exact ⟨u, by omega, h⟩
      · exact ⟨t, by omega, h⟩
    · rintro ⟨u, hu, h⟩
      by_cases hut : u = t
      · exact .inr (hut ▸ h)
      · exact .inl ⟨u, by omega, h⟩

theorem mem_queue_iff {t u : ℕ} {j : Job σ V} (h : R.Leaves t j) (hut : u < t) :
    .job j ∈ (R.after u).queue ↔ j.seq < (R.after u).nextSeq := by
  rw [← length_accepted]
  constructor
  · intro hm
    have hget := R.getElem?_of_mem_accepted ((R.jobsIn_suffix u).subset (mem_jobsIn.mpr hm))
    exact (List.getElem?_eq_some_iff.mp hget).1
  · intro hlt
    have hj : j ∈ R.accepted u := by
      have hget := R.getElem?_of_mem_accepted (R.mem_accepted_of_leaves h)
      obtain ⟨more, hmore⟩ := R.accepted_prefix hut.le
      rw [← hmore, List.getElem?_append_left hlt] at hget
      exact List.mem_of_getElem? hget
    -- the job has not left yet, so it is among those that wait
    have htaken := R.taken_mono hut.le
    rw [← R.seq_of_leaves h] at htaken
    exact (R.mem_queue_iff_taken_le hj).mpr htaken

/-- **A job is dropped if the queue was cleared while it waited**, unless it cannot be
interrupted. -/
theorem drops_iff {t : ℕ} {j : Job σ V} (h : R.Leaves t j) :
    R.Drops t j ↔
      j.kind = .cancellable ∧ ∃ u < t, R.ClearsQueue u ∧ .job j ∈ (R.after u).queue := by
  have hmark : j.seq < (R.after t).dropBelow ↔
      ∃ u < t, R.ClearsQueue u ∧ .job j ∈ (R.after u).queue := by
    rw [lt_dropBelow_iff]
    refine exists_congr fun u => and_congr_right fun hu => and_congr_right fun _ => ?_
    exact (R.mem_queue_iff h hu).symm
  rw [← hmark]
  rcases R.starts_or_drops h with ⟨hs, hd⟩ | ⟨hdrop, hd⟩
  · refine ⟨fun hdrop => ?_, fun hd' => absurd hd' hd⟩
    have := hs.2.symm.trans hdrop.2
    cases this
  · exact ⟨fun _ => hd, fun _ => hdrop⟩

theorem replyTo_of_drops {t u : ℕ} {j : Job σ V} (h : R.Drops t j) (hd : j.delivery = .reply)
    (htu : t < u) : (R.after u).replyTo j.seq = some (.result (.error .dropped)) :=
  R.replyTo_eq_some_iff.mpr
    ⟨t, htu, j, R.mem_accepted_of_leaves h.1, rfl, hd, .inl ⟨h, rfl⟩⟩

end Run

end SymbolIndex
