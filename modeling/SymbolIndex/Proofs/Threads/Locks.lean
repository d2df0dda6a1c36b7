import SymbolIndex.Proofs.Threads.Runs

/-!
# The lock

* `Errand.isInside`, `Locks`, `locks_step`: what a step of an errand does to the lock;
* `Threads.Locked`, `ThreadsRun.locked`: just who is behind the lock holds it.
-/

namespace SymbolIndex

open Serializer

variable {σ V : Type}

def OfferStage.isInside : OfferStage → Bool
  | .looksRunning | .locks => false
  | _ => true

def StopStage.isInside : StopStage → Bool
  | .marksStopping | .sends | .unlocks => true
  | _ => false

/-- The thread is behind the lock. -/
def Errand.isInside : Errand σ V → Bool
  | .offers _ stage => stage.isInside
  | .stops stage => stage.isInside
  | _ => false

@[simp] theorem isInside_started (forStop : Bool) :
    (Errand.started forStop : Errand σ V).isInside = false := by
  cases forStop <;> rfl

@[simp] theorem isInside_settled (o : Offer σ V) (seq : Option ℕ) :
    (o.settled seq).isInside = false := by
  unfold Offer.settled
  split <;> rfl

@[simp] theorem isInside_errand (q : Wish σ V) : q.errand.isInside = false := by
  cases q <;> rfl

/-- What a step of an errand does to the lock. -/
inductive Locks (c c' : Common σ V) (w : Who) (e e' : Errand σ V) : Prop
  | same (lock : c'.lock = c.lock) (inside : e'.isInside = e.isInside)
  | enters (free : c.lock = none) (lock : c'.lock = some w) (outside : e.isInside = false)
    (inside : e'.isInside = true)
  | leaves (inside : e.isInside = true) (lock : c'.lock = none) (outside : e'.isInside = false)

theorem locks_step (c : Common σ V) (w : Who) (fault : Option OsError) (e : Errand σ V) :
    Locks c (e.step c w fault).1 w e (e.step c w fault).2 := by
  cases e with
  | rests last => exact .same rfl rfl
  | waits n timed =>
    refine .same rfl ?_
    simp only [Errand.step]
    split <;> rfl
  | interrupts stage => cases stage <;> exact .same rfl rfl
  | starts stage forStop =>
    cases stage <;> simp only [Errand.step, StartStage.step] <;> try split
    all_goals first | exact .same rfl rfl | exact .same rfl (isInside_started _)
  | offers o stage =>
    cases stage with
    | locks =>
      simp only [Errand.step, OfferStage.step]
      split
      · next h => exact .enters h rfl rfl rfl
      · exact .same rfl rfl
    | unlocks seq => exact .leaves rfl rfl (by simp [Errand.step, OfferStage.step])
    | looksRunning | sends n =>
      simp only [Errand.step, OfferStage.step]
      split <;> exact .same rfl rfl
    | looksOpen =>
      simp only [Errand.step, OfferStage.step]
      split <;> exact .same rfl rfl
    | refuses | numbers | counts n => exact .same rfl rfl
  | stops stage =>
    cases stage with
    | locks =>
      simp only [Errand.step, StopStage.step]
      split
      · next h => exact .enters h rfl rfl rfl
      · exact .same rfl rfl
    | unlocks =>
      refine .leaves rfl rfl ?_
      simp only [Errand.step, StopStage.step]
      split <;> rfl
    | _ =>
      simp only [Errand.step, StopStage.step]
      first
        | exact .same rfl rfl
        | split <;> exact .same rfl rfl

namespace Threads

variable {s s' : Threads σ V}

/-- Just who is behind the lock holds it. -/
def Locked (s : Threads σ V) : Prop := ∀ w, (s.errand w).isInside = true ↔ s.common.lock = some w

theorem Locked.congr (h : s.Locked) (lock : s'.common.lock = s.common.lock)
    (inside : ∀ w, (s'.errand w).isInside = (s.errand w).isInside) : s'.Locked := by
  intro w
  rw [inside w, lock]
  exact h w

theorem Locked.work (h : s.Locked) (w : Who) (fault : Option OsError) :
    (s.work w fault).Locked := by
  intro v
  have hself := s.work_errand_self w fault
  have hlock := s.work_common w fault
  cases locks_step s.common w fault (s.errand w) with
  | same lock inside =>
    rw [hlock, lock, ← h v]
    by_cases hv : v = w
    · subst hv
      rw [hself, inside]
    · rw [work_errand_of_ne s hv]
  | enters free lock outside inside =>
    rw [hlock, lock]
    by_cases hv : v = w
    · subst hv
      rw [hself, inside]
      simp
    · rw [work_errand_of_ne s hv, h v, free]
      simpa using Ne.symm hv
  | leaves inside lock outside =>
    rw [hlock, lock]
    by_cases hv : v = w
    · subst hv
      rw [hself, outside]
      simp
    · rw [work_errand_of_ne s hv, h v, (h w).mp inside]
      simpa using Ne.symm hv

theorem Locked.withErrand (h : s.Locked) {w : Who} {e : Errand σ V}
    (he : (s.errand w).isInside = false) (he' : e.isInside = false) :
    (s.withErrand w e).Locked := by
  refine h.congr rfl fun v => ?_
  by_cases hv : v = w
  · subst hv
    rw [withErrand_self, he, he']
  · rw [withErrand_of_ne s hv]

theorem Locked.ownerStep (h : s.Locked) (hs : OwnerStep s s') : s'.Locked := by
  cases hs with
  | works => exact h.work _ _
  | begins _ _ _ he => exact h.withErrand (by rw [he]; rfl) (isInside_errand _)
  | answered _ _ he =>
    exact Locked.congr (h.withErrand (by rw [he]; rfl) rfl) rfl fun _ => rfl
  | ends _ ht => exact h.congr (isOwners_finish ht).lock fun _ => by rw [finish_errand]
  | panics => exact h.congr (isOwners_unwind ..).lock fun _ => by rw [unwind_errand]
  | _ => exact h.congr rfl fun _ => rfl

/-- **Just who is behind the lock holds it**, whatever happens. -/
theorem Locked.happen (h : s.Locked) {e : Event σ V} (hs : Step s e s') : s'.Locked := by
  cases hs with
  | rests => exact h
  | works => exact h.work _ _
  | asks he =>
    exact Locked.congr (h.withErrand (by rw [he]; rfl) (isInside_errand _)) rfl fun _ => rfl
  | givesUp he => exact h.withErrand (by rw [he]; rfl) rfl
  | releases => exact h.congr rfl fun _ => rfl
  | owner ha hs => exact h.ownerStep hs

end Threads

theorem ThreadsRun.locked (R : ThreadsRun σ V) (t : ℕ) : (R.after t).Locked := by
  induction t with
  | zero => exact fun w => ⟨nofun, nofun⟩
  | succ t ih => exact ih.happen (R.step t)

end SymbolIndex
