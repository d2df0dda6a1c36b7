import SymbolIndex.Proofs.Threads.Losses

/-!
# How threads came to where they are

What a thread does tells what it has done before: each stage of a stop comes behind another one.

* `Before`, `before_of_step`: the stage before that of a stop;
* `ThreadsRun.TakesHandle`, `exists_takesHandle`: the handle is taken once, by a stop;
* `over_of_finished`: when the owner has ended, all is over;
* `Untouched`, `ThreadsRun.untouched`: as long as the receiver is kept, nothing has been run.
-/

namespace SymbolIndex

open Serializer

variable {σ V : Type}

/-! ## The step before -/

theorem isIdle_step (c : Common σ V) (w : Who) (fault : Option OsError) {e : Errand σ V}
    (h : e.isIdle = true) : (e.step c w fault).2.isIdle = true := by
  cases e with
  | rests last => rfl
  | waits n timed =>
    simp only [Errand.step]
    split <;> rfl
  | _ => cases h

/-- What a thread did before it came to a stage of a stop. -/
inductive Before (c : Common σ V) : StopStage → Errand σ V → Prop
  | looksForHandle : Before c .looksForHandle (.stops .surveys)
  | readsSubmitted (hh : c.core.hasHandle = false) :
    Before c .readsSubmitted (.stops .looksForHandle)
  | readsCompleted : Before c (.readsCompleted c.core.counts.submitted) (.stops .readsSubmitted)
  | readsFailed {n : ℕ} :
    Before c (.readsFailed n c.core.counts.completed) (.stops (.readsCompleted n))
  | readsDropped {n m : ℕ} :
    Before c (.readsDropped n (m + c.core.counts.failed)) (.stops (.readsFailed n m))
  /-- it saw the handle -/
  | sees (hh : c.core.hasHandle = true) : Before c .takesHandle (.stops .looksForHandle)
  /-- it saw no job for which an owner would have to be started -/
  | counts {n m : ℕ} (h : n ≤ m + c.core.counts.dropped) :
    Before c .takesHandle (.stops (.readsDropped n m))
  /-- it has started the owner, or somebody else had -/
  | starts {stage : StartStage} (hr : c.core.hasReceiver = true → stage = .leavesHandle) :
    Before c .takesHandle (.starts stage true)
  | dropsReceiver (hh : c.core.hasHandle = false) : Before c .dropsReceiver (.stops .takesHandle)
  | marksStopped : Before c .marksStopped (.stops .dropsReceiver)
  | takes (hh : c.core.hasHandle = true) : Before c .locks (.stops .takesHandle)
  | waits : Before c .locks (.stops .locks)
  | marksStopping : Before c .marksStopping (.stops .locks)
  | sends : Before c .sends (.stops .marksStopping)
  | unlocks : Before c .unlocks (.stops .sends)
  | joins {stage : StopStage} (hs : stage = .unlocks ∨ stage = .joins) :
    Before c .joins (.stops stage)

theorem before_of_stop {c : Common σ V} {w : Who} {stage stage' : StopStage}
    (h : (stage.step c w).2 = .stops stage') : Before c stage' (.stops stage) := by
  cases stage with
  | surveys =>
    simp only [StopStage.step] at h
    split at h
    · cases h
    · obtain rfl := Errand.stops.inj h
      exact .looksForHandle
  | looksForHandle =>
    obtain rfl := Errand.stops.inj h
    split
    · next hh => exact .sees hh
    · next hh => exact .readsSubmitted (Bool.eq_false_iff.mpr hh)
  | readsDropped n m =>
    simp only [StopStage.step] at h
    split at h
    · next hle =>
      obtain rfl := Errand.stops.inj h
      exact .counts hle
    · cases h
  | takesHandle =>
    simp only [StopStage.step] at h
    split at h
    · next hh =>
      obtain rfl := Errand.stops.inj h
      exact .takes hh
    · next hh =>
      obtain rfl := Errand.stops.inj h
      exact .dropsReceiver (Bool.eq_false_iff.mpr hh)
  | locks =>
    simp only [StopStage.step] at h
    split at h
    · obtain rfl := Errand.stops.inj h
      exact .marksStopping
    · obtain rfl := Errand.stops.inj h
      exact .waits
  | unlocks =>
    simp only [StopStage.step] at h
    split at h
    · cases h
    · obtain rfl := Errand.stops.inj h
      exact .joins (.inl rfl)
  | joins =>
    simp only [StopStage.step] at h
    split at h
    · cases h
    · obtain rfl := Errand.stops.inj h
      exact .joins (.inr rfl)
  | marksStopped => cases h
  | readsSubmitted =>
    obtain rfl := Errand.stops.inj h
    exact .readsCompleted
  | readsCompleted n =>
    obtain rfl := Errand.stops.inj h
    exact .readsFailed
  | readsFailed n m =>
    obtain rfl := Errand.stops.inj h
    exact .readsDropped
  | dropsReceiver =>
    obtain rfl := Errand.stops.inj h
    exact .marksStopped
  | marksStopping =>
    obtain rfl := Errand.stops.inj h
    exact .sends
  | sends =>
    obtain rfl := Errand.stops.inj h
    exact .unlocks

theorem before_of_step {c : Common σ V} {w : Who} {fault : Option OsError} {e : Errand σ V}
    {stage : StopStage} (h : (e.step c w fault).2 = .stops stage) : Before c stage e := by
  have hstarted : ∀ {stage' : StartStage} {forStop : Bool},
      (c.core.hasReceiver = true → stage' = .leavesHandle) →
      Errand.started forStop = (.stops stage : Errand σ V) →
      Before c stage (.starts stage' forStop) := by
    intro stage' forStop hr hs
    cases forStop with
    | false => cases hs
    | true =>
      obtain rfl := Errand.stops.inj hs
      exact .starts hr
  cases e with
  | stops stage' => exact before_of_stop h
  | starts stage' forStop =>
    cases stage' with
    | takesReceiver =>
      simp only [Errand.step, StartStage.step] at h
      split at h
      · cases h
      · next hr => exact hstarted (fun hr' => absurd hr' hr) h
    | spawns => cases fault <;> cases h
    | marksRunning => cases h
    | leavesHandle => exact hstarted (fun _ => rfl) h
  | offers o stage' =>
    cases stage' with
    | unlocks seq =>
      have hsettled : o.settled seq = .stops stage := h
      unfold Offer.settled at hsettled
      split at hsettled <;> cases hsettled
    | looksRunning | locks | looksOpen | sends n =>
      simp only [Errand.step, OfferStage.step] at h
      split at h <;> cases h
    | refuses | numbers | counts n => cases h
  | interrupts stage' => cases stage' <;> cases h
  | rests last => cases h
  | waits n timed =>
    simp only [Errand.step] at h
    split at h <;> cases h

namespace Threads

variable {s s' : Threads σ V}

/-- A thread has nothing to do, or waits, or is about to do the first step of what it has asked
for, which may be to let go of the serializer. -/
def IsBegun (s : Threads σ V) (w : Who) : Prop :=
  (s.errand w).isIdle = true ∨
    ∃ q : Wish σ V, s.errand w = q.errand ∧ (q.isDrop = true → s.isDropped = true)

theorem isBegun_withErrand {v w : Who} {e : Errand σ V} (hi : (s.errand w).isIdle = true)
    (herrand : s'.errand = (s.withErrand v e).errand)
    (he : e.isIdle = true ∨
      ∃ q : Wish σ V, e = q.errand ∧ (q.isDrop = true → s'.isDropped = true)) :
    s'.IsBegun w := by
  rw [IsBegun, herrand]
  by_cases hv : w = v
  · subst hv
    rwa [withErrand_self]
  · rw [withErrand_of_ne s hv]
    exact .inl hi

theorem isBegun_work {v w : Who} {fault : Option OsError} (hi : (s.errand w).isIdle = true) :
    (s.work v fault).IsBegun w := by
  refine .inl ?_
  by_cases hv : w = v
  · subst hv
    rw [work_errand_self]
    exact isIdle_step _ _ _ hi
  · rwa [work_errand_of_ne s hv]

theorem isDrop_of_wish {a : Action σ V} {q : Wish σ V} (h : a.wish = some q) :
    q.isDrop = false := by
  cases a <;> cases h <;> rfl

theorem Step.begun {e : Event σ V} (hs : Step s e s') {w : Who}
    (hi : (s.errand w).isIdle = true) : s'.IsBegun w := by
  cases hs with
  | rests | releases => exact .inl hi
  | works => exact isBegun_work hi
  | asks => exact isBegun_withErrand hi rfl (.inr ⟨_, rfl, id⟩)
  | givesUp => exact isBegun_withErrand hi rfl (.inl rfl)
  | owner ha hs =>
    generalize s.ownerStep = s' at hs
    cases hs with
    | works => exact isBegun_work hi
    | begins _ _ hq =>
      exact isBegun_withErrand hi rfl
        (.inr ⟨_, rfl, fun hd => nomatch (isDrop_of_wish hq).symm.trans hd⟩)
    | answered => exact isBegun_withErrand hi rfl (.inl rfl)
    | ends => rw [IsBegun, finish_errand]; exact .inl hi
    | panics => rw [IsBegun, unwind_errand]; exact .inl hi
    | _ => exact .inl hi

end Threads

namespace ThreadsRun

open Threads

variable {R : ThreadsRun σ V}

/-- **How a thread came to a stage of a stop** that is not the first one. -/
theorem before {t : ℕ} {w : Who} {stage : StopStage} (h : (R.after t).errand w = .stops stage)
    (hq : ∀ q : Wish σ V, q.errand ≠ .stops stage) :
    ∃ u < t, Before (R.after u).common stage ((R.after u).errand w) ∧
      ∀ v, u < v → v ≤ t → (R.after v).errand w = .stops stage := by
  induction t with
  | zero => cases h
  | succ t ih =>
    by_cases hsame : (R.after t).errand w = .stops stage
    · obtain ⟨u, hut, hb, hv⟩ := ih hsame
      refine ⟨u, by omega, hb, fun v huv hvt => ?_⟩
      rcases Nat.lt_or_eq_of_le hvt with hvt | rfl
      · exact hv v huv (by omega)
      · exact h
    · have hidle : ((R.after t).errand w).isIdle = false := by
        refine Bool.eq_false_iff.mpr fun hi => ?_
        rcases (R.step t).begun hi with hi' | ⟨q, hq', -⟩
        · rw [h] at hi'
          cases hi'
        · exact hq q (hq'.symm.trans h)
      obtain ⟨fault, hs⟩ := (R.step t).worked hidle fun heq => hsame (heq.symm.trans h)
      refine ⟨t, by omega, ?_, fun v hv hvt => by rwa [show v = t + 1 by omega]⟩
      have hworked := (R.after t).work_errand_self w fault
      rw [← hs, h] at hworked
      exact before_of_step hworked.symm

/-! ## Who has taken the handle -/

/-- A stop takes the handle. -/
def TakesHandle (R : ThreadsRun σ V) (t : ℕ) (w : Who) : Prop :=
  R.Passes t w (.stops .takesHandle) (.stops .locks)

/-- The owner was started, and its handle has been in its place, and is not there any more. -/
structure Taken (s : Threads σ V) : Prop where
  owner : s.common.core.owner ≠ .unborn
  hasHandle : s.common.core.hasHandle = false
  place : ∀ w, (s.errand w).place ≠ some .bears

theorem exists_takesHandle {t : ℕ} (h : Taken (R.after t)) : ∃ u < t, ∃ w, R.TakesHandle u w := by
  induction t with
  | zero => exact absurd rfl h.owner
  | succ t ih =>
    have hlater : Taken (R.after t) → ∃ u < t + 1, ∃ w, R.TakesHandle u w := by
      intro hbefore
      obtain ⟨u, hu, w, hw⟩ := ih hbefore
      exact ⟨u, by omega, w, hw⟩
    cases R.course t with
    | takes ha _ _ hs | halts ha _ _ hs | closes ha _ hs | leaves ha _ hs =>
      rw [hs] at h
      exact hlater ⟨by rw [ha]; exact nofun, h.hasHandle, h.place⟩
    | stays hs =>
      exact hlater ⟨fun ho => h.owner (hs.common.owner.trans ho),
        hs.common.hasHandle.symm.trans h.hasHandle, fun w => hs.place w ▸ h.place w⟩
    | @works w fault hs =>
      have hothers : ∀ v, v ≠ w → (R.after (t + 1)).errand v = (R.after t).errand v :=
        fun v hv => by rw [hs, work_errand_of_ne _ hv]
      have hhas : ∀ {p}, (R.after t).Has w p → p ≠ .bears →
          ∀ v, ((R.after t).errand v).place ≠ some .bears := by
        intro p hp hne v hv
        exact hne (hp.eq hv).2.symm
      have hchange := change_step (R.after t).common w fault ((R.after t).errand w)
      rw [← work_common, ← work_errand_self, ← hs] at hchange
      cases hchange with
      | keeps hk place =>
        refine hlater ⟨fun ho => h.owner (hk.owner.trans ho), hk.hasHandle.symm.trans h.hasHandle,
          fun v hv => h.place v ?_⟩
        by_cases hvw : v = w
        · rw [hvw, place, ← hvw, hv]
        · rw [hothers v hvw, hv]
      | takesHandle _ he he' => exact ⟨t, by omega, w, he, he'⟩
      | takesReceiver hr _ _ hc | loses hr _ hc =>
        exact absurd (by rw [hc]; exact ((R.station t).of_hasReceiver hr).1.owner) h.owner
      | fails place _ hc =>
        exact absurd (by rw [hc]; exact ((R.station t).of_carries place).1.owner) h.owner
      | spawns _ place | runs _ place => exact absurd place (h.place w)
      | leavesHandle _ _ hc =>
        have hh := h.hasHandle
        rw [hc] at hh
        cases hh
      | closes place =>
        obtain ⟨ha, hh, has⟩ := (R.station t).of_holds place
        exact hlater ⟨by rw [ha.owner]; exact nofun, hh, hhas has nofun⟩
      | sends place =>
        obtain ⟨ha, hh, has, -⟩ := (R.station t).of_closes place
        exact hlater ⟨by rw [ha.owner]; exact nofun, hh, hhas has nofun⟩

/-- The stages of a stop that has taken the handle. -/
def hasTaken : StopStage → Bool
  | .locks | .marksStopping | .sends | .unlocks | .joins => true
  | _ => false

theorem hasTaken_step (c : Common σ V) (i : ℕ) {stage : StopStage} (h : hasTaken stage = true) :
    (∃ stage', (stage.step c (.thread i)).2 = .stops stage' ∧ hasTaken stage' = true) ∨
      stage = .joins ∧ c.core.owner = .finished := by
  cases stage with
  | locks =>
    by_cases hl : c.lock = none
    · exact .inl ⟨.marksStopping, by rw [StopStage.step, if_pos hl], rfl⟩
    · exact .inl ⟨.locks, by rw [StopStage.step, if_neg hl], rfl⟩
  | joins =>
    by_cases ho : c.core.owner = .finished
    · exact .inr ⟨rfl, ho⟩
    · exact .inl ⟨.joins, by rw [StopStage.step, if_neg ho], rfl⟩
  | marksStopping | sends | unlocks => exact .inl ⟨_, rfl, rfl⟩
  | _ => cases h

theorem over_of_finished {t : ℕ} (h : (R.after t).common.core.owner = .finished) :
    (R.after t).Over := by
  refine (R.station t).isOver ?_
  cases R.station t with
  | kept h' | carried h' | lost h' => cases h.symm.trans h'.owner
  | borne h' | ready h' | held h' | closing h' => cases h.symm.trans h'.owner
  | sent _ hr hc => rw [Common.hasReader, hr, hc, h]; rfl

/-- A thread that has taken the handle does not return before the owner has ended. -/
theorem taken_or_finished {u t i : ℕ} (h : R.TakesHandle u (.thread i)) (hut : u < t) :
    (∃ stage, (R.after t).errand (.thread i) = .stops stage ∧ hasTaken stage = true) ∨
      (R.after t).common.core.owner = .finished := by
  induction t, hut using Nat.le_induction with
  | base => exact .inl ⟨.locks, h.2, rfl⟩
  | succ t _ ih =>
    have hfinished : (R.after t).common.core.owner = .finished →
        (R.after (t + 1)).common.core.owner = .finished := fun ho =>
      ((over_of_le (over_of_finished ho).not_hasReader t.le_succ).2).trans ho
    rcases ih with ⟨stage, he, ht⟩ | ho
    · by_cases hsame : (R.after (t + 1)).errand (.thread i) = (R.after t).errand (.thread i)
      · exact .inl ⟨stage, hsame.trans he, ht⟩
      · obtain ⟨fault, hs⟩ := (R.step t).worked (by rw [he]; rfl) hsame
        have herrand := (R.after t).work_errand_self (.thread i) fault
        rw [← hs, he] at herrand
        rcases hasTaken_step (R.after t).common i ht with ⟨stage', he', ht'⟩ | ⟨-, ho⟩
        · exact .inl ⟨stage', herrand.trans he', ht'⟩
        · exact .inr (hfinished ho)
    · exact .inr (hfinished ho)

/-! ## A serializer whose receiver nobody has taken -/

/-- The thread refuses a job, or has found nothing to stop. -/
def isLate : Errand σ V → Bool
  | .offers _ .refuses | .stops .marksStopped => true
  | _ => false

/-- Jobs are accepted, and none has ended or been refused. -/
structure Untouched (s : Threads σ V) : Prop where
  isOpen : s.common.core.isOpen = true
  ended : s.common.core.counts.ended = 0
  punctual : ∀ w, isLate (s.errand w) = false

theorem before_of_refuses {c : Common σ V} {w : Who} {fault : Option OsError} {e : Errand σ V}
    {o : Offer σ V} (h : (e.step c w fault).2 = .offers o .refuses) :
    c.core.isOpen = false ∨ c.hasReader = false := by
  cases e with
  | offers o' stage =>
    cases stage with
    | looksOpen =>
      simp only [Errand.step, OfferStage.step, Errand.offers.injEq] at h
      split at h
      · cases h.2
      · next ho => exact .inl (Bool.eq_false_iff.mpr ho)
    | sends n =>
      simp only [Errand.step, OfferStage.step] at h
      split at h
      · cases h
      · next hr => exact .inr (Bool.eq_false_iff.mpr hr)
    | looksRunning | locks =>
      simp only [Errand.step, OfferStage.step] at h
      split at h <;> cases h
    | unlocks seq =>
      have hsettled : o'.settled seq = .offers o .refuses := h
      unfold Offer.settled at hsettled
      split at hsettled <;> cases hsettled
    | refuses | numbers | counts n => cases h
  | starts stage forStop =>
    cases stage with
    | spawns => cases fault <;> cases h
    | marksRunning => cases h
    | takesReceiver | leavesHandle =>
      simp only [Errand.step, StartStage.step, Errand.started] at h
      split at h <;> (try split at h) <;> cases h
  | stops stage =>
    cases stage <;> simp only [Errand.step, StopStage.step] at h <;> (try split at h) <;> cases h
  | interrupts stage => cases stage <;> cases h
  | rests last => cases h
  | waits n timed =>
    simp only [Errand.step] at h
    split at h <;> cases h

theorem isLate_step {c : Common σ V} {w : Who} {fault : Option OsError} {e : Errand σ V}
    (ho : c.core.isOpen = true) (hr : c.core.hasReceiver = true)
    (hr' : (e.step c w fault).1.core.hasReceiver = true) : isLate (e.step c w fault).2 = false := by
  cases hlate : (e.step c w fault).2 with
  | stops stage =>
    cases stage with
    | marksStopped =>
      cases before_of_step hlate
      rw [Errand.step, StopStage.step, if_pos hr] at hr'
      cases hr'
    | _ => rfl
  | offers o stage =>
    cases stage with
    | refuses =>
      rcases before_of_refuses hlate with hclosed | hreader
      · cases ho.symm.trans hclosed
      · rw [Common.hasReader, hr] at hreader
        cases hreader
    | _ => rfl
  | _ => rfl

/-- Whoever closes a serializer has the handle, or has found nothing to stop. -/
theorem isOpen_step {c : Common σ V} {w : Who} {fault : Option OsError} {e : Errand σ V}
    (ho : c.core.isOpen = true) (hp : e.place ≠ some .holds) (hl : isLate e = false) :
    (e.step c w fault).1.core.isOpen = true := by
  cases e with
  | rests last | waits n timed => exact ho
  | interrupts stage => cases stage <;> exact ho
  | starts stage forStop =>
    cases stage with
    | marksRunning => rfl
    | leavesHandle => exact ho
    | spawns => cases fault <;> exact ho
    | takesReceiver =>
      simp only [Errand.step, StartStage.step]
      split <;> exact ho
  | offers o stage =>
    cases stage <;> simp only [Errand.step, OfferStage.step] <;> (try split) <;> exact ho
  | stops stage =>
    cases stage with
    | marksStopping => exact absurd rfl hp
    | marksStopped => cases hl
    | _ =>
      simp only [Errand.step, StopStage.step]
      first
        | exact ho
        | split <;> exact ho

theorem ended_step {c : Common σ V} {w : Who} {fault : Option OsError} {e : Errand σ V}
    (hl : isLate e = false) :
    (e.step c w fault).1.core.counts.ended = c.core.counts.ended := by
  have h := deed_step c w fault e
  generalize (e.step c w fault).1 = c' at h ⊢
  generalize (e.step c w fault).2 = e' at h
  cases h with
  | calm h => rw [h.counts]
  | refuses => cases hl
  | numbers hc | sends _ hc | counts hc | raises hc | bumps hc | tells _ hc | loses hc =>
    rw [hc]
    rfl
  | reads hc => rw [hc]

theorem hasReceiver_of_succ {t : ℕ} (h : (R.after (t + 1)).common.core.hasReceiver = true) :
    (R.after t).common.core.hasReceiver = true := by
  cases R.course t with
  | takes _ _ _ hs | halts _ _ _ hs | closes _ _ hs =>
    rw [hs] at h
    exact h
  | leaves _ _ hs =>
    rw [hs] at h
    cases h
  | stays hs => exact hs.common.hasReceiver.symm.trans h
  | @works w fault hs =>
    have hchange := change_step (R.after t).common w fault ((R.after t).errand w)
    rw [← work_common, ← hs] at hchange
    cases hchange with
    | keeps hk => exact hk.hasReceiver.symm.trans h
    | takesReceiver hr | loses hr => exact hr
    | sends _ _ _ _ hc =>
      rw [hc] at h
      split at h <;> exact h
    | spawns _ _ hc | runs _ _ hc | leavesHandle _ _ hc | takesHandle _ _ _ hc | closes _ _ hc =>
      rw [hc] at h
      exact h
    | fails _ _ hc =>
      rw [hc] at h
      cases h

theorem untouched {t : ℕ} (h : (R.after t).common.core.hasReceiver = true) :
    Untouched (R.after t) := by
  induction t with
  | zero => exact ⟨rfl, rfl, fun _ => rfl⟩
  | succ t ih =>
    have hr := hasReceiver_of_succ h
    have hu := ih hr
    obtain ⟨hunborn, -, free⟩ := (R.station t).of_hasReceiver hr
    have hwith : ∀ v e, isLate e = false →
        ∀ w, isLate (((R.after t).withErrand v e).errand w) = false := by
      intro v e he w
      by_cases hw : w = v
      · subst hw
        rwa [withErrand_self]
      · rw [withErrand_of_ne _ hw]
        exact hu.punctual w
    have hstep := R.step t
    generalize R.after (t + 1) = s' at hstep h ⊢
    generalize R.events t = event at hstep
    cases hstep with
    | rests => exact hu
    | asks => exact ⟨hu.isOpen, hu.ended, hwith _ _ (by cases ‹Wish σ V› <;> rfl)⟩
    | givesUp => exact ⟨hu.isOpen, hu.ended, hwith _ _ rfl⟩
    | releases => exact ⟨hu.isOpen, hu.ended, hu.punctual⟩
    | owner ha => cases ha.symm.trans hunborn.owner
    | @works i fault =>
      have hl := hu.punctual (.thread i)
      refine ⟨?_, ?_, fun w => ?_⟩
      · rw [work_common]
        exact isOpen_step hu.isOpen (by rw [free]; exact nofun) hl
      · rw [work_common, ended_step hl, hu.ended]
      · by_cases hw : w = .thread i
        · subst hw
          rw [work_common] at h
          rw [work_errand_self]
          exact isLate_step hu.isOpen hr h
        · rw [work_errand_of_ne _ hw]
          exact hu.punctual w

end ThreadsRun

end SymbolIndex
