import SymbolIndex.Proofs.Threads.Order

/-!
# What is left behind

The receiver is dropped by whoever stops a serializer that was never started, and by whoever cannot
spawn the owner. Jobs that wait in the queue are lost with it.

* `Threads.Over`, `over_of_le`: when all is over, it stays so;
* `ThreadsRun.FailsToSpawn`, `ThreadsRun.DropsReceiver`, `loses_cases`: who loses jobs;
* `not_loses_of_finished`: no job is lost if the owner ends as it is asked to.
-/

namespace SymbolIndex

open Serializer

variable {σ V : Type}

namespace Threads

variable {s s' : Threads σ V}

/-! ## When all is over -/

/-- The owner has ended, or will never be there. -/
structure Over (s : Threads σ V) : Prop where
  owner : s.common.core.owner ≠ .alive
  hasReceiver : s.common.core.hasReceiver = false
  carried : s.common.carried = false
  hasHandle : s.common.core.hasHandle = false
  queue : s.common.core.queue = []
  desk : s.desk = .free
  free : s.Free

theorem hasReader_of_alive (h : s.common.core.owner = .alive) : s.common.hasReader = true := by
  rw [Common.hasReader, h]
  simp

theorem Station.isOver (h : s.Station) (hr : s.common.hasReader = false) : s.Over := by
  have halive : s.common.core.owner ≠ .alive := fun ha => by
    rw [hasReader_of_alive ha] at hr
    cases hr
  cases h with
  | kept _ hr' => rw [Common.hasReader, hr'] at hr; cases hr
  | carried _ _ hc => rw [Common.hasReader, hc] at hr; simp at hr
  | lost h hr hc hq free => exact ⟨halive, hr, hc, h.hasHandle, hq, h.desk, free⟩
  | borne h | ready h | held h | closing h => exact absurd h.owner halive
  | sent h hr hc hh free =>
    cases h with
    | asked owner | halting owner => exact absurd owner halive
    | ended _ desk queue => exact ⟨halive, hr, hc, hh, queue, desk, free⟩

theorem Over.unfinished (h : s.Over) : s.unfinished = 0 := by
  rw [Threads.unfinished, h.queue, h.desk]
  rfl

theorem hasReader_of_keeps {c c' : Common σ V} (h : c.Keeps c') : c'.hasReader = c.hasReader := by
  rw [Common.hasReader, Common.hasReader, h.hasReceiver, h.carried, h.owner]

theorem Over.not_hasReader (h : s.Over) : s.common.hasReader = false := by
  rw [Common.hasReader, h.hasReceiver, h.carried]
  simpa using h.owner

theorem Over.keeps (h : s.Over) (hc : Course s s') : s.common.Keeps s'.common := by
  cases hc with
  | stays hs => exact hs.common
  | takes ha | halts ha | closes ha | leaves ha => exact absurd ha h.owner
  | @works w fault hw =>
    subst hw
    have hplace := h.free w
    have hchange := change_step s.common w fault (s.errand w)
    rw [← work_common] at hchange
    cases hchange with
    | keeps hk => exact hk
    | takesReceiver hr | loses hr => cases h.hasReceiver.symm.trans hr
    | takesHandle hh => cases h.hasHandle.symm.trans hh
    | spawns place | fails place | runs place | leavesHandle place | closes place | sends place =>
      cases hplace.symm.trans place

end Threads

namespace ThreadsRun

open Threads

variable {R : ThreadsRun σ V}

theorem over_of_le {t u : ℕ} (h : (R.after t).common.hasReader = false) (htu : t ≤ u) :
    (R.after u).Over ∧ (R.after u).common.core.owner = (R.after t).common.core.owner := by
  induction u, htu using Nat.le_induction with
  | base => exact ⟨(R.station t).isOver h, rfl⟩
  | succ u _ ih =>
    have hk := ih.1.keeps (R.course u)
    exact ⟨(R.station (u + 1)).isOver ((hasReader_of_keeps hk).trans ih.1.not_hasReader),
      hk.owner.trans ih.2⟩

/-! ## Jobs that are lost -/

/-- The owner's thread could not be spawned. -/
def FailsToSpawn (R : ThreadsRun σ V) (t : ℕ) : Prop :=
  ∃ w forStop cause, R.Passes t w (.starts .spawns forStop)
    (.rests (some (.fails (.spawnThread cause))))

/-- A stop that has found no handle drops the receiver. -/
def DropsReceiver (R : ThreadsRun σ V) (t : ℕ) (w : Who) : Prop :=
  (R.after t).errand w = .stops .dropsReceiver ∧ (R.after t).common.core.hasReceiver = true

theorem loses_cases {t : ℕ} {j : Job σ V} (h : R.Loses t j) :
    (R.FailsToSpawn t ∨ ∃ w, R.DropsReceiver t w) ∧
      (R.after (t + 1)).common = (R.after t).common.loseQueue := by
  obtain ⟨hj, hj', ht⟩ := h
  have hsame : (R.after (t + 1)).common.core.queue ≠ (R.after t).common.core.queue :=
    fun hq => hj' (hq ▸ hj)
  cases effect_of_step (R.step t) with
  | @works w desk others h =>
    generalize he : (R.after t).errand w = e at h
    generalize he' : (R.after (t + 1)).errand w = e' at h
    cases h with
    | calm h => exact absurd h.queue hsame
    | numbers hc | counts hc | refuses hc | raises hc | bumps hc =>
      exact absurd (by rw [hc]; rfl) hsame
    | reads hc => exact absurd (by rw [hc]) hsame
    | sends _ hc | tells _ hc =>
      refine absurd ?_ hj'
      rw [hc]
      exact List.mem_append_left _ hj
    | loses hc how =>
      refine ⟨?_, hc⟩
      rcases how with ⟨hstage, hr⟩ | ⟨forStop, cause, hstage, hstage'⟩
      · exact .inr ⟨w, he.trans hstage, hr⟩
      · exact .inl ⟨w, forStop, cause, he.trans hstage, he'.trans hstage'⟩
  | stays h =>
    generalize hd : (R.after t).desk = d at h
    generalize hd' : (R.after (t + 1)).desk = d' at h
    cases h with
    | calm h => exact absurd h.queue hsame
    | discards hc | settles hc => exact absurd (by rw [hc]; rfl) hsame
    | takes hq hc =>
      rw [hq, List.mem_cons] at hj
      rcases hj with hj | hj
      · obtain rfl := Message.job.inj hj
        exact absurd ⟨hd, hd'⟩ ht
      · exact absurd (by rw [hc]; exact hj) hj'
    | halts hq hc =>
      rw [hq, List.mem_cons] at hj
      rcases hj with hj | hj
      · cases hj
      · exact absurd (by rw [hc]; exact hj) hj'
    | leaves hc =>
      have hhalting : (R.after t).desk.isHalting = true := by rw [hd]; rfl
      have hnil : (R.after t).common.core.queue = [] := by
        cases R.station t with
        | kept h | carried h | lost h => cases h.desk.symm.trans hd
        | borne h | ready h | held h | closing h => cases h.desk.symm.trans hhalting
        | sent h =>
          cases h with
          | asked _ desk => cases desk.symm.trans hhalting
          | halting _ _ queue | ended _ _ queue => exact queue
      rw [hnil] at hj
      cases hj

theorem over_of_loses {t : ℕ} {j : Job σ V} (h : R.Loses t j) :
    (R.after (t + 1)).common.hasReader = false ∧
      (R.after (t + 1)).common.core.owner = .unborn := by
  obtain ⟨how, hcommon⟩ := loses_cases h
  have hunborn : (R.after t).common.core.owner = .unborn := by
    rcases how with ⟨w, forStop, cause, he, -⟩ | ⟨w, -, hr⟩
    · exact ((R.station t).of_carries (w := w) (by rw [he]; rfl)).1.owner
    · exact ((R.station t).of_hasReceiver hr).1.owner
  rw [hcommon]
  refine ⟨?_, hunborn⟩
  rw [Common.hasReader]
  simp [Common.loseQueue, hunborn]

theorem not_loses_of_finished {t u : ℕ} {j : Job σ V}
    (h : (R.after t).common.core.owner = .finished) : ¬ R.Loses u j := by
  intro hl
  obtain ⟨hr, hunborn⟩ := over_of_loses hl
  rcases Nat.lt_or_ge u t with hut | htu
  · have := (over_of_le hr hut).2
    rw [h, hunborn] at this
    cases this
  · have hover : (R.after t).Over := by
      refine (R.station t).isOver ?_
      cases R.station t with
      | kept h' | carried h' | lost h' => cases h.symm.trans h'.owner
      | borne h' | ready h' | held h' | closing h' => cases h.symm.trans h'.owner
      | sent _ hr hc => rw [Common.hasReader, hr, hc, h]; rfl
    have hqueue := (over_of_le hover.not_hasReader htu).1.queue
    have hj := hl.1
    rw [hqueue] at hj
    cases hj

end ThreadsRun

end SymbolIndex
