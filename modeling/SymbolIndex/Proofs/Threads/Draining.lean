import SymbolIndex.Proofs.Threads.History

/-!
# Stops and drops

A stop, or a drop, that waits for the owner leaves nothing behind. But there is only one handle to
wait with: whoever does not find it returns at once, also while another stop has it and still
waits, or while somebody is only about to leave it in its place.

* `ThreadsRun.exists_dropper`: whoever lets go of the serializer is alone with it;
* `ThreadsRun.where_handle`: where the handle is, if it is not in its place;
* `ThreadsRun.overtaken`, `stopped_of_dropped`: what stops and drops leave behind, and why;
* `ThreadsRun.offered_of_loses`: which jobs are lost;
* `ThreadsRun.Drains`, `drains`: all of that, and a run in which a second stop returns early.
-/

namespace SymbolIndex

open Serializer

variable {σ V : Type}

namespace Threads

variable {s s' : Threads σ V}

theorem finish_isDropped (core : Serializer σ V) (r : Running σ V) (result : JobResult V) :
    (s.finish core r result).isDropped = s.isDropped := by
  unfold finish
  split
  · rfl
  · split <;> rfl

theorem unwind_isDropped (r : Running σ V) (p : Payload) :
    (s.unwind r p).isDropped = s.isDropped := by
  unfold unwind
  split <;> rfl

theorem OwnerStep.isDropped (hs : OwnerStep s s') : s'.isDropped = s.isDropped := by
  cases hs with
  | ends => exact finish_isDropped ..
  | panics => exact unwind_isDropped ..
  | _ => rfl

theorem Step.rests_of_isDropped {e : Event σ V} (hs : Step s e s') (hd : s.isDropped = true)
    {w : Who} (hw : ∃ last, s.errand w = .rests last) : ∃ last, s'.errand w = .rests last := by
  have hwork : ∀ v fault, ∃ last, (s.work v fault).errand w = .rests last := by
    intro v fault
    obtain ⟨last, he⟩ := hw
    by_cases hv : w = v
    · subst hv
      rw [work_errand_self, he]
      exact ⟨last, rfl⟩
    · rw [work_errand_of_ne s hv, he]
      exact ⟨last, rfl⟩
  have hrests : ∀ v last, ∃ last', (s.withErrand v (.rests last)).errand w = .rests last' := by
    intro v last
    by_cases hv : w = v
    · subst hv
      rw [withErrand_self]
      exact ⟨last, rfl⟩
    · rwa [withErrand_of_ne s hv]
  cases hs with
  | rests | releases => exact hw
  | works => exact hwork _ _
  | asks _ hd' => cases hd.symm.trans hd'
  | givesUp => exact hrests _ _
  | owner ha hs =>
    generalize s.ownerStep = s' at hs
    cases hs with
    | works => exact hwork _ _
    | begins _ _ _ _ hd' => cases hd.symm.trans hd'
    | answered => exact hrests _ _
    | ends => rwa [finish_errand]
    | panics => rwa [unwind_errand]
    | _ => exact hw

theorem Step.isDropped {e : Event σ V} (hs : Step s e s') (hd : s.isDropped = true) :
    s'.isDropped = true := by
  cases hs with
  | asks _ hd' => cases hd.symm.trans hd'
  | owner ha hs => exact hs.isDropped.trans hd
  | _ => exact hd

theorem Step.eq_of_rests {e : Event σ V} (hs : Step s e s') (hd : s.isDropped = true)
    (hrests : ∀ w, ∃ last, s.errand w = .rests last) (ho : s.common.core.owner ≠ .alive)
    (hfree : s.desk = .free) : s'.common = s.common ∧ s'.desk = s.desk := by
  cases hs with
  | rests => exact ⟨rfl, rfl⟩
  | asks _ hd' => cases hd.symm.trans hd'
  | releases hdesk => cases hfree.symm.trans hdesk
  | owner ha => exact absurd ha ho
  | @works i fault =>
    obtain ⟨last, he⟩ := hrests (.thread i)
    rw [work_common, he]
    exact ⟨rfl, rfl⟩
  | @givesUp i n he =>
    obtain ⟨last, he'⟩ := hrests (.thread i)
    cases he.symm.trans he'

theorem eq_drop_of_isDrop {q : Wish σ V} (h : q.isDrop = true) : q = .drop := by
  cases q <;> first | rfl | cases h

end Threads

namespace ThreadsRun

open Threads

variable {R : ThreadsRun σ V}

/-! ## Letting go -/

/-- Whoever lets go of the serializer is alone with the job that is being run. -/
theorem exists_dropper {t : ℕ} (h : (R.after t).isDropped = true) :
    ∃ i, ∀ w, w ≠ .thread i → ∃ last, (R.after t).errand w = .rests last := by
  induction t with
  | zero => cases h
  | succ t ih =>
    by_cases hd : (R.after t).isDropped = true
    · obtain ⟨i, hi⟩ := ih hd
      exact ⟨i, fun w hw => (R.step t).rests_of_isDropped hd (hi w hw)⟩
    · have halone := R.alone t
      have hstep := R.step t
      generalize R.after (t + 1) = s' at hstep h ⊢
      generalize R.events t = event at hstep halone
      cases hstep with
      | rests | works | givesUp | releases => exact absurd h hd
      | owner _ hs => exact absurd (hs.isDropped.symm.trans h) hd
      | @asks i q last he hd' =>
        obtain rfl := eq_drop_of_isDrop h
        refine ⟨i, fun w hw => ?_⟩
        obtain ⟨last, hlast⟩ := (halone i rfl).errand w hw
        exact ⟨last, (withErrand_of_ne _ hw _).trans hlast⟩

theorem isDropped_of_surveys {t : ℕ} {w : Who} (h : (R.after t).errand w = .stops .surveys) :
    (R.after t).isDropped = true := by
  induction t with
  | zero => cases h
  | succ t ih =>
    by_cases hsame : (R.after t).errand w = .stops .surveys
    · exact (R.step t).isDropped (ih hsame)
    · by_cases hi : ((R.after t).errand w).isIdle = true
      · rcases (R.step t).begun hi with hi' | ⟨q, hq, hd⟩
        · rw [h] at hi'
          cases hi'
        · exact hd (by rw [h] at hq; cases q <;> first | rfl | cases hq)
      · obtain ⟨fault, hs⟩ := (R.step t).worked (Bool.eq_false_iff.mpr hi)
          fun heq => hsame (heq.symm.trans h)
        rw [hs, work_errand_self] at h
        cases before_of_step h

/-! ## Where the handle is -/

/-- The thread has taken the receiver for the owner, and has not left the handle in its place. -/
def IsStarting (R : ThreadsRun σ V) (t : ℕ) (w : Who) : Prop :=
  ∃ stage forStop, (R.after t).errand w = .starts stage forStop ∧ stage ≠ .takesReceiver

theorem isStarting_of_place {t : ℕ} {w : Who} {p : Place}
    (h : ((R.after t).errand w).place = some p) (hp : p = .carries ∨ p = .bears) :
    R.IsStarting t w := by
  cases he : (R.after t).errand w with
  | starts stage forStop =>
    refine ⟨stage, forStop, he, ?_⟩
    rintro rfl
    rw [he] at h
    cases h
  | stops stage =>
    rw [he] at h
    rcases hp with rfl | rfl <;> cases stage <;> cases h
  | _ =>
    rw [he] at h
    cases h

/-- Where the handle is not to be found, nobody has taken the receiver yet, or somebody else starts
the owner, or a stop has taken the handle. -/
theorem where_handle {t : ℕ} {w : Who} (hr : (R.after t).common.hasReader = true)
    (hh : (R.after t).common.core.hasHandle = false) (hp : ((R.after t).errand w).place = none) :
    (R.after t).common.core.hasReceiver = true ∨ (∃ v, v ≠ w ∧ R.IsStarting t v) ∨
      Taken (R.after t) := by
  have hstarting : ∀ {v p}, (R.after t).Has v p → p = .carries ∨ p = .bears →
      ∃ v, v ≠ w ∧ R.IsStarting t v := by
    intro v p has hp'
    refine ⟨v, ?_, isStarting_of_place has.self hp'⟩
    rintro rfl
    cases hp.symm.trans has.self
  have htaken : ∀ {v p}, (R.after t).Has v p → p ≠ .bears →
      (R.after t).common.core.owner = .alive → Taken (R.after t) := by
    intro v p has hne ha
    exact ⟨by rw [ha]; decide, hh, fun u hu => hne (has.eq hu).2.symm⟩
  cases R.station t with
  | kept _ hr' => exact .inl hr'
  | carried _ _ _ has => exact .inr (.inl (hstarting has (.inl rfl)))
  | lost h hr' hc => rw [Common.hasReader, hr', hc, h.owner] at hr; cases hr
  | borne _ _ has => exact .inr (.inl (hstarting has (.inr rfl)))
  | ready _ hh' => cases hh.symm.trans hh'
  | held h _ has => exact .inr (.inr (htaken has (by decide) h.owner))
  | closing h _ has => exact .inr (.inr (htaken has (by decide) h.owner))
  | sent h _ _ _ free =>
    refine .inr (.inr ⟨?_, hh, fun u hu => by cases (free u).symm.trans hu⟩)
    cases h with
    | asked owner | halting owner | ended owner => rw [owner]; decide

theorem taken_by_other {m t i : ℕ} {stage : StopStage} (hm : m ≤ t)
    (he : (R.after t).errand (.thread i) = .stops stage) (hs : hasTaken stage = false)
    (hr : (R.after t).common.hasReader = true) (h : Taken (R.after m)) :
    ∃ u < t, ∃ w, w ≠ .thread i ∧ R.TakesHandle u w := by
  obtain ⟨u, hu, w, hw⟩ := exists_takesHandle h
  refine ⟨u, by omega, w, ?_, hw⟩
  rintro rfl
  rcases taken_or_finished hw (show u < t by omega) with ⟨stage', he', hs'⟩ | ho
  · obtain rfl := Errand.stops.inj (he.symm.trans he')
    cases hs.symm.trans hs'
  · cases hr.symm.trans (over_of_finished ho).not_hasReader

theorem hasReader_of_ge {t u : ℕ} (htu : t ≤ u) (h : (R.after u).common.hasReader = true) :
    (R.after t).common.hasReader = true := by
  refine Bool.eq_true_of_not_eq_false fun hr => ?_
  cases h.symm.trans (over_of_le hr htu).1.not_hasReader

theorem starts_of_hasReceiver {t : ℕ} (hr : (R.after t).common.core.hasReceiver = true)
    (hr' : (R.after (t + 1)).common.core.hasReceiver = false)
    (hreader : (R.after (t + 1)).common.hasReader = true) : ∃ w, R.IsStarting (t + 1) w := by
  obtain ⟨hunborn, hcarried, free⟩ := (R.station t).of_hasReceiver hr
  have hsame : (R.after (t + 1)).common.core.hasReceiver ≠
      (R.after t).common.core.hasReceiver := by
    rw [hr, hr']
    exact nofun
  cases R.course t with
  | takes ha | halts ha | closes ha | leaves ha => cases ha.symm.trans hunborn.owner
  | stays hs => exact absurd hs.common.hasReceiver hsame
  | @works w fault hs =>
    have hchange := change_step (R.after t).common w fault ((R.after t).errand w)
    rw [← work_common, ← work_errand_self, ← hs] at hchange
    cases hchange with
    | keeps hk => exact absurd hk.hasReceiver hsame
    | takesReceiver _ _ he' => exact ⟨w, _, _, he', nofun⟩
    | loses _ _ hc =>
      rw [hc, Common.hasReader] at hreader
      simp [Common.loseQueue, hunborn.owner] at hreader
    | spawns place | fails place | runs place | leavesHandle place | closes place | sends place =>
      cases (free w).symm.trans place
    | takesHandle hh => cases hunborn.hasHandle.symm.trans hh

theorem exists_starts {t u : ℕ} (htu : t ≤ u) (hr : (R.after t).common.core.hasReceiver = true)
    (hr' : (R.after u).common.core.hasReceiver = false)
    (hreader : (R.after u).common.hasReader = true) :
    ∃ v, t ≤ v ∧ v ≤ u ∧ ∃ w, R.IsStarting v w := by
  induction u, htu using Nat.le_induction with
  | base => cases hr.symm.trans hr'
  | succ u htu ih =>
    cases hu : (R.after u).common.core.hasReceiver with
    | true => exact ⟨u + 1, by omega, le_rfl, starts_of_hasReceiver hu hr' hreader⟩
    | false =>
      obtain ⟨v, hv, hvu, hw⟩ := ih hu (hasReader_of_ge u.le_succ hreader)
      exact ⟨v, hv, by omega, hw⟩

/-! ## What stops leave behind -/

/-- A stop, or a drop, returns. -/
def Returns (R : ThreadsRun σ V) (t i : ℕ) : Prop :=
  ∃ stage, R.Passes t (.thread i) (.stops stage) (.rests (some .done))

theorem returns_cases {t i : ℕ} {stage : StopStage}
    (h : R.Passes t (.thread i) (.stops stage) (.rests (some .done))) :
    (R.after (t + 1)).desk = (R.after t).desk ∧
      (R.after (t + 1)).common.core.queue = (R.after t).common.core.queue ∧
      (stage = .surveys ∧ (R.after t).common.core.hasHandle = false ∧
          (R.after t).common.core.stranded = 0 ∨
        stage = .marksStopped ∨ stage = .joins ∧ (R.after t).common.core.owner = .finished) := by
  obtain ⟨fault, hcommon, he, hdesk⟩ := common_of_passes h rfl nofun
  refine ⟨hdesk, ?_, ?_⟩
  · cases stage with
    | surveys | marksStopped | joins => rw [hcommon]; rfl
    | _ =>
      simp only [Errand.step, StopStage.step] at he
      first
        | cases he
        | split at he <;> cases he
  · cases stage with
    | surveys =>
      simp only [Errand.step, StopStage.step] at he
      split at he
      · next hnone => exact .inl ⟨rfl, hnone⟩
      · cases he
    | marksStopped => exact .inr (.inl rfl)
    | joins =>
      simp only [Errand.step, StopStage.step] at he
      split at he
      · next ho => exact .inr (.inr ⟨rfl, ho⟩)
      · cases he
    | _ =>
      simp only [Errand.step, StopStage.step] at he
      first
        | cases he
        | split at he <;> cases he

/-- A thread has been at a stop all the time. -/
def StopsSince (R : ThreadsRun σ V) (m t : ℕ) (w : Who) : Prop :=
  m ≤ t ∧ ∀ u, m ≤ u → u ≤ t → ∃ stage, (R.after u).errand w = .stops stage

theorem StopsSince.trans {m t u : ℕ} {w : Who} (h : R.StopsSince m t w) (h' : R.StopsSince t u w) :
    R.StopsSince m u w := by
  refine ⟨h.1.trans h'.1, fun v hmv hvu => ?_⟩
  rcases Nat.le_total v t with hvt | htv
  · exact h.2 v hmv hvt
  · exact h'.2 v htv hvu

theorem before_stage {t : ℕ} {w : Who} {stage : StopStage}
    (h : (R.after t).errand w = .stops stage) (hq : ∀ q : Wish σ V, q.errand ≠ .stops stage) :
    ∃ u e, (R.after u).errand w = e ∧ u ≤ t ∧ Before (R.after u).common stage e ∧
      ∀ stage', e = .stops stage' → R.StopsSince u t w := by
  obtain ⟨u, hut, hb, hsince⟩ := R.before h hq
  refine ⟨u, _, rfl, hut.le, hb, fun stage' he => ⟨hut.le, fun v huv hvt => ?_⟩⟩
  rcases Nat.lt_or_eq_of_le huv with huv | rfl
  · exact ⟨stage, hsince v huv hvt⟩
  · exact ⟨stage', he⟩

theorem hasReceiver_of_ge {t u : ℕ} (htu : t ≤ u)
    (h : (R.after u).common.core.hasReceiver = true) :
    (R.after t).common.core.hasReceiver = true := by
  induction u, htu using Nat.le_induction with
  | base => exact h
  | succ u _ ih => exact ih (hasReceiver_of_succ h)

theorem unfinished_eq {t : ℕ} (hd : (R.after (t + 1)).desk = (R.after t).desk)
    (hq : (R.after (t + 1)).common.core.queue = (R.after t).common.core.queue) :
    (R.after (t + 1)).unfinished = (R.after t).unfinished := by
  rw [Threads.unfinished, hd, hq]
  rfl

theorem accepted_pos {a t : ℕ} {j : Job σ V} (h : R.Sends a j) (hat : a < t) :
    0 < R.accepted t := by
  classical
  exact Nat.pos_of_ne_zero (Nat.count_ne_iff_exists.mpr ⟨a, hat, j, h⟩)

/-- What a stop that has found no handle came across. -/
theorem overtaken_of_marksStopped {t i : ℕ}
    (h : (R.after t).errand (.thread i) = .stops .marksStopped)
    (hr : (R.after t).common.hasReader = true) :
    (∃ u < t, ∃ w, w ≠ .thread i ∧ R.TakesHandle u w) ∨
      ∃ m, R.StopsSince m t (.thread i) ∧ ∃ w, w ≠ .thread i ∧ R.IsStarting m w := by
  obtain ⟨d, hdt, hb, hsince⟩ := R.before h fun q hq => by cases q <;> cases hq
  generalize hd : (R.after d).errand (.thread i) = e at hb
  cases hb with
  | marksStopped =>
    obtain ⟨f, hfd, hb, hsince'⟩ := R.before hd fun q hq => by cases q <;> cases hq
    generalize hf : (R.after f).errand (.thread i) = e at hb
    cases hb with
    | dropsReceiver hh =>
      have hstops : ∀ m, f ≤ m → m ≤ t → R.StopsSince m t (.thread i) := by
        refine fun m hfm hmt => ⟨hmt, fun u hmu hut => ?_⟩
        rcases Nat.lt_or_eq_of_le (hfm.trans hmu) with hfu | rfl
        · rcases Nat.lt_or_ge d u with hdu | hud
          · exact ⟨_, hsince u hdu hut⟩
          · exact ⟨_, hsince' u hfu hud⟩
        · exact ⟨_, hf⟩
      -- had the receiver still been there, it would be gone for good
      have hgone : (R.after d).common.core.hasReceiver = false := by
        refine Bool.eq_false_iff.mpr fun hkept => ?_
        obtain ⟨fault, hcommon, -⟩ :=
          common_of_passes ⟨hd, hsince (d + 1) (by omega) hdt⟩ rfl nofun
        have hreader := hasReader_of_ge (show d + 1 ≤ t from hdt) hr
        rw [hcommon, Errand.step, StopStage.step, if_pos hkept, Common.hasReader] at hreader
        simp [Common.loseQueue, ((R.station d).of_hasReceiver hkept).1.owner] at hreader
      rcases R.where_handle (hasReader_of_ge (by omega) hr) hh (by rw [hf]; rfl) with
        hkept | ⟨w, hw, hstart⟩ | htaken
      · obtain ⟨m, hfm, hmd, w, hstart⟩ :=
          exists_starts hfd.le hkept hgone (hasReader_of_ge hdt.le hr)
        refine .inr ⟨m, hstops m hfm (by omega), w, ?_, hstart⟩
        rintro rfl
        obtain ⟨stage, hstage⟩ := (hstops m hfm (by omega)).2 m le_rfl (by omega)
        obtain ⟨stage', forStop, hstage', -⟩ := hstart
        cases hstage.symm.trans hstage'
      · exact .inr ⟨f, hstops f le_rfl (by omega), w, hw, hstart⟩
      · exact .inl (taken_by_other (by omega) h rfl hr htaken)

theorem rests_of_dropped {t i : ℕ} {stage : StopStage} (hd : (R.after t).isDropped = true)
    (he : (R.after t).errand (.thread i) = .stops stage) (w : Who) (hw : w ≠ .thread i) :
    ∃ last, (R.after t).errand w = .rests last := by
  obtain ⟨k, hk⟩ := R.exists_dropper hd
  by_cases hik : Who.thread i = .thread k
  · exact hk w (hik ▸ hw)
  · obtain ⟨last, hlast⟩ := hk _ hik
    cases hlast.symm.trans he

theorem unfinished_of_dropped {t u : ℕ} (hd : (R.after t).isDropped = true)
    (hrests : ∀ w, ∃ last, (R.after t).errand w = .rests last)
    (ho : (R.after t).common.core.owner ≠ .alive) (hfree : (R.after t).desk = .free)
    (hz : (R.after t).unfinished = 0) (htu : t ≤ u) : (R.after u).unfinished = 0 := by
  suffices h : (R.after u).common = (R.after t).common ∧ (R.after u).desk = (R.after t).desk ∧
      (R.after u).isDropped = true ∧ ∀ w, ∃ last, (R.after u).errand w = .rests last by
    rw [Threads.unfinished, h.1, h.2.1]
    exact hz
  induction u, htu using Nat.le_induction with
  | base => exact ⟨rfl, rfl, hd, hrests⟩
  | succ u htu ih =>
    obtain ⟨hcommon, hdesk, hdropped, hidle⟩ := ih
    have hsame := (R.step u).eq_of_rests hdropped hidle (hcommon ▸ ho) (hdesk.trans hfree)
    exact ⟨hsame.1.trans hcommon, hsame.2.trans hdesk, (R.step u).isDropped hdropped,
      fun w => (R.step u).rests_of_isDropped hdropped (hidle w)⟩

/-- As long as nobody has taken the receiver, the counters tell whether jobs wait. -/
theorem unfinished_of_kept {t : ℕ} (hr : (R.after t).common.core.hasReceiver = true)
    (hu : ¬ (R.after t).HasUncounted) (hs : (R.after t).common.core.stranded = 0) :
    (R.after t).unfinished = 0 := by
  have hended := (R.untouched hr).ended
  have hsubmitted : (R.after t).common.core.counts.submitted = 0 := by
    rw [stranded, if_pos hr, pendingJobs] at hs
    rw [JobCounts.ended] at hended
    omega
  have haccepted : R.accepted t = 0 := by
    rw [R.submitted_eq, hsubmitted, if_neg hu]
  have hjobs : jobsIn (R.after t).common.core.queue = [] := by
    refine List.eq_nil_iff_forall_not_mem.mpr fun j hj => ?_
    obtain ⟨a, hat, ha⟩ := R.exists_sends (mem_jobsIn.mp hj)
    have := accepted_pos ha hat
    omega
  rw [Threads.unfinished, hjobs, ((R.station t).of_hasReceiver hr).1.desk]
  rfl

/-- What is left when a drop has found nothing to stop, or what it came across. -/
theorem overtaken_of_surveys {t i : ℕ}
    (h : R.Passes t (.thread i) (.stops .surveys) (.rests (some .done)))
    (hh : (R.after t).common.core.hasHandle = false) (hs : (R.after t).common.core.stranded = 0)
    (hr : (R.after t).common.hasReader = true) :
    (∀ u, t < u → (R.after u).unfinished = 0) ∨
      (∃ u < t, ∃ w, w ≠ .thread i ∧ R.TakesHandle u w) ∨
        ∃ m, R.StopsSince m t (.thread i) ∧ ∃ w, w ≠ .thread i ∧ R.IsStarting m w := by
  rcases R.where_handle hr hh (by rw [h.1]; rfl) with hkept | ⟨w, hw, hstart⟩ | htaken
  · refine .inl fun u htu => ?_
    have hd := isDropped_of_surveys h.1
    have hothers := rests_of_dropped hd h.1
    have huncounted : ¬ (R.after t).HasUncounted := by
      rintro ⟨w, hw⟩
      by_cases hwi : w = .thread i
      · rw [hwi, h.1] at hw
        cases hw
      · obtain ⟨last, hlast⟩ := hothers w hwi
        rw [hlast] at hw
        cases hw
    have hunborn := ((R.station t).of_hasReceiver hkept).1
    have hz := unfinished_of_kept hkept huncounted hs
    obtain ⟨fault, hcommon, -, hdesk⟩ := common_of_passes h rfl nofun
    have hcommon' : (R.after (t + 1)).common = (R.after t).common := hcommon
    refine unfinished_of_dropped ((R.step t).isDropped hd) (fun w => ?_) ?_ ?_ ?_ htu
    · by_cases hwi : w = .thread i
      · exact ⟨_, hwi ▸ h.2⟩
      · exact (R.step t).rests_of_isDropped hd (hothers w hwi)
    · rw [hcommon', hunborn.owner]
      exact nofun
    · rw [hdesk, hunborn.desk]
    · rw [unfinished_eq hdesk (by rw [hcommon']), hz]
  · refine .inr (.inr ⟨t, ⟨le_rfl, fun u htu hut => ⟨.surveys, ?_⟩⟩, w, hw, hstart⟩)
    rw [show u = t by omega, h.1]
  · exact .inr (.inl (taken_by_other le_rfl h.1 rfl hr htaken))

/-- **A stop that leaves something behind has been overtaken**: another one has taken the handle,
or somebody else was starting the owner in the meantime. -/
theorem overtaken {t i : ℕ} (h : R.Returns t i) :
    (∀ u, t < u → (R.after u).unfinished = 0) ∨
      (∃ u < t, ∃ w, w ≠ .thread i ∧ R.TakesHandle u w) ∨
        ∃ m, R.StopsSince m t (.thread i) ∧ ∃ w, w ≠ .thread i ∧ R.IsStarting m w := by
  obtain ⟨stage, hp⟩ := h
  cases hr : (R.after t).common.hasReader with
  | false => exact .inl fun u htu => (over_of_le hr htu.le).1.unfinished
  | true =>
    rcases (returns_cases hp).2.2 with ⟨rfl, hh, hs⟩ | rfl | ⟨-, ho⟩
    · exact overtaken_of_surveys hp hh hs hr
    · exact .inr (overtaken_of_marksStopped hp.1 hr)
    · cases hr.symm.trans (over_of_finished ho).not_hasReader

theorem isDropped_of_stopsSince {m t i : ℕ} (h : R.StopsSince m t (.thread i))
    (hd : (R.after t).isDropped = true) : (R.after m).isDropped = true := by
  obtain ⟨hmt, hsince⟩ := h
  induction t, hmt using Nat.le_induction with
  | base => exact hd
  | succ t hmt ih =>
    refine ih ?_ fun u hmu hut => hsince u hmu (by omega)
    obtain ⟨stage, he⟩ := hsince t hmt (by omega)
    by_contra hnot
    have halone := R.alone t
    have hstep := R.step t
    generalize R.after (t + 1) = s' at hstep hd
    generalize R.events t = event at hstep halone
    cases hstep with
    | rests | works | givesUp | releases => exact hnot hd
    | owner _ hs => exact hnot (hs.isDropped.symm.trans hd)
    | @asks k q last he' hd' =>
      obtain rfl := eq_drop_of_isDrop hd
      by_cases hik : Who.thread i = .thread k
      · cases he.symm.trans (hik ▸ he')
      · obtain ⟨last', hlast⟩ := (halone k rfl).errand _ hik
        cases he.symm.trans hlast

/-- **A drop only leaves something behind if a job has stopped the serializer.** -/
theorem stopped_of_dropped {t i : ℕ} (h : R.Returns t i) (hd : (R.after t).isDropped = true) :
    (∀ u, t < u → (R.after u).unfinished = 0) ∨ ∃ u < t, R.TakesHandle u .owner := by
  obtain ⟨stage, he, -⟩ := id h
  rcases overtaken h with hz | ⟨u, hut, w, hw, htakes⟩ | ⟨m, hsince, w, hw, stage', f, hstart, -⟩
  · exact .inl hz
  · cases w with
    | owner => exact .inr ⟨u, hut, htakes⟩
    | thread k =>
      obtain ⟨last, hlast⟩ := rests_of_dropped hd he _ hw
      rcases taken_or_finished htakes hut with ⟨stage', he', -⟩ | ho
      · cases hlast.symm.trans he'
      · have hr := (over_of_finished ho).not_hasReader
        exact .inl fun u htu => (over_of_le hr htu.le).1.unfinished
  · obtain ⟨stage'', he''⟩ := hsince.2 m le_rfl hsince.1
    obtain ⟨last, hlast⟩ := rests_of_dropped (isDropped_of_stopsSince hsince hd) he'' w hw
    cases hlast.symm.trans hstart

/-- A stop that drops a receiver has looked how many jobs there were, and has seen none. -/
theorem saw_none {t : ℕ} {w : Who} (h : R.DropsReceiver t w) :
    ∃ m, R.StopsSince m t w ∧ (R.after m).common.core.counts.submitted = 0 ∧
      (R.after m).errand w = .stops .readsSubmitted := by
  obtain ⟨he, hkept⟩ := h
  have hended : ∀ {u}, u ≤ t → (R.after u).common.core.counts.completed = 0 ∧
      (R.after u).common.core.counts.failed = 0 ∧ (R.after u).common.core.counts.dropped = 0 := by
    intro u hut
    have := (R.untouched (hasReceiver_of_ge hut hkept)).ended
    rw [JobCounts.ended] at this
    omega
  obtain ⟨a, e, ha, hat, hb, hsince⟩ := R.before_stage he fun q hq => by cases q <;> cases hq
  cases hb with
  | dropsReceiver hh =>
    have hsa := hsince _ rfl
    obtain ⟨b, e, hb', hba, hb, hsince⟩ := R.before_stage ha fun q hq => by cases q <;> cases hq
    obtain ⟨hunborn, -, free⟩ :=
      (R.station b).of_hasReceiver (hasReceiver_of_ge (hba.trans hat) hkept)
    cases hb with
    | sees hh => cases hunborn.hasHandle.symm.trans hh
    | starts hr =>
      obtain rfl := hr (hasReceiver_of_ge (hba.trans hat) hkept)
      cases (congrArg Errand.place hb').symm.trans (free w)
    | @counts n m hle =>
      have hsb := (hsince _ rfl).trans hsa
      obtain ⟨c, e, hc, hcb, hb, hsince⟩ := R.before_stage hb' fun q hq => by cases q <;> cases hq
      cases hb with
      | readsDropped =>
        have hsc := (hsince _ rfl).trans hsb
        obtain ⟨d, e, hd, hdc, hb, hsince⟩ := R.before_stage hc fun q hq => by cases q <;> cases hq
        cases hb with
        | readsFailed =>
          have hsd := (hsince _ rfl).trans hsc
          obtain ⟨f, e, hf, hfd, hb, hsince⟩ :=
            R.before_stage hd fun q hq => by cases q <;> cases hq
          cases hb with
          | readsCompleted =>
            refine ⟨f, (hsince _ rfl).trans hsd, ?_, hf⟩
            have hb0 := (hended (hba.trans hat)).2.2
            have hc0 := (hended (hcb.trans (hba.trans hat))).2.1
            have hd0 := (hended (hdc.trans (hcb.trans (hba.trans hat)))).1
            omega

/-- **A stop only loses jobs that somebody offered in the meantime**: since it looked how many jobs
there were, and saw none. -/
theorem offered_of_loses {t : ℕ} {j : Job σ V} {w : Who} (h : R.Loses t j)
    (hw : R.DropsReceiver t w) :
    ∃ m, R.StopsSince m t w ∧ ∃ u, m ≤ u ∧ u ≤ t ∧ ∃ v o stage, v ≠ w ∧
      (R.after u).errand v = .offers o stage := by
  obtain ⟨m, hsince, hsubmitted, hstage⟩ := saw_none hw
  refine ⟨m, hsince, ?_⟩
  by_contra hnone
  push Not at hnone
  have hoffers : ∀ u, m ≤ u → u ≤ t → ∀ v o stage, (R.after u).errand v ≠ .offers o stage := by
    intro u hmu hut v o stage he
    by_cases hv : v = w
    · obtain ⟨stage', he'⟩ := hsince.2 u hmu hut
      rw [hv, he'] at he
      cases he
    · exact hnone u hmu hut v o stage hv he
  have haccepted : ∀ u, m ≤ u → u ≤ t → R.accepted u = 0 := by
    intro u hmu
    induction u, hmu using Nat.le_induction with
    | base =>
      intro hmt
      rw [R.submitted_eq, hsubmitted, if_neg]
      rintro ⟨v, hv⟩
      cases he : (R.after m).errand v with
      | offers o stage => exact hoffers m le_rfl hmt v o stage he
      | _ => rw [he] at hv; cases hv
    | succ u hmu ih =>
      intro hut
      rw [accepted_succ_of_not, ih (by omega)]
      rintro k ⟨v, o, n, ⟨he, -⟩, -⟩
      exact hoffers u hmu (by omega) v o _ he
  obtain ⟨a, hat, ha⟩ := R.exists_sends h.1
  have := accepted_pos ha hat
  have := haccepted t hsince.1 le_rfl
  omega

/-- **What becomes of accepted jobs when none is left**: each has ended, or was lost. -/
theorem ends_or_loses {a t : ℕ} {j : Job σ V} (h : R.Sends a j) (hat : a < t)
    (hu : (R.after t).unfinished = 0) :
    (∃ v < t, ∃ e, R.Ends v j.seq e) ∨ ∃ v < t, R.Loses v j := by
  rw [Threads.unfinished, Nat.add_eq_zero_iff] at hu
  rcases R.queued_or h hat with hq | ⟨u, hau, hut, ht⟩ | ⟨u, hau, hut, hl⟩
  · rw [← mem_jobsIn, List.length_eq_zero_iff.mp hu.1] at hq
    cases hq
  · rcases R.held_or_ends ht hut with hheld | ⟨v, huv, hvt, e, he⟩
    · rw [hheld] at hu
      cases hu.2
    · exact .inl ⟨v, hvt, e, he⟩
  · exact .inr ⟨u, hut, hl⟩

/-- What stops and drops leave behind. -/
structure Drains (R : ThreadsRun σ V) : Prop where
  /-- a stop that has waited for the owner leaves no job behind, then or later, and none is lost -/
  joined : ∀ t i, R.Passes t (.thread i) (.stops .joins) (.rests (some .done)) → ∀ u, t < u →
    (R.after u).unfinished = 0 ∧ ∀ a < u, ∀ j, R.Sends a j → ∃ v < u, ∃ e, R.Ends v j.seq e
  /-- so does every other one, unless another stop has taken the handle, or somebody else was
  starting the owner in the meantime -/
  overtaken : ∀ t i, R.Returns t i → (∀ u, t < u → (R.after u).unfinished = 0) ∨
    (∃ u < t, ∃ w, w ≠ .thread i ∧ R.TakesHandle u w) ∨
      ∃ m, R.StopsSince m t (.thread i) ∧ ∃ w, w ≠ .thread i ∧ R.IsStarting m w
  /-- a drop does unless a job has stopped the serializer -/
  dropped : ∀ t i, R.Returns t i → (R.after t).isDropped = true →
    (∀ u, t < u → (R.after u).unfinished = 0) ∨ ∃ u < t, R.TakesHandle u .owner
  /-- a job that has been accepted and is not left behind has ended, or was lost -/
  ended : ∀ a t j, R.Sends a j → a < t → (R.after t).unfinished = 0 →
    (∃ v < t, ∃ e, R.Ends v j.seq e) ∨ ∃ v < t, R.Loses v j
  /-- that happens if the owner cannot be spawned, or if a stop has seen no job and somebody has
  offered one in the meantime -/
  losses : ∀ t j, R.Loses t j → R.FailsToSpawn t ∨ ∃ w, R.DropsReceiver t w ∧
    ∃ m, R.StopsSince m t w ∧ ∃ u, m ≤ u ∧ u ≤ t ∧ ∃ v o stage, v ≠ w ∧
      (R.after u).errand v = .offers o stage

/-- **What stops and drops leave behind.** -/
theorem drains (R : ThreadsRun σ V) : R.Drains where
  joined t i h u htu := by
    obtain ⟨-, -, ⟨hstage, -⟩ | hstage | ⟨-, ho⟩⟩ := returns_cases h
    · cases hstage
    · cases hstage
    · have hz := (over_of_le (over_of_finished ho).not_hasReader htu.le).1.unfinished
      refine ⟨hz, fun a hau j hs => ?_⟩
      rcases ends_or_loses hs hau hz with hends | ⟨v, -, hl⟩
      · exact hends
      · exact absurd hl (not_loses_of_finished ho)
  overtaken _ _ h := overtaken h
  dropped _ _ h hd := stopped_of_dropped h hd
  ended _ _ _ h hat hu := ends_or_loses h hat hu
  losses t j h := by
    rcases (loses_cases h).1 with hfails | ⟨w, hw⟩
    · exact .inl hfails
    · exact .inr ⟨w, hw, offered_of_loses h hw⟩

/-- A job waits at a gate, a first stop waits for it, and a second one is asked for. -/
def stoppedTwice : ThreadsRun Unit Unit :=
  ofEvents "index" false ()
    ([.ask 0 .start] ++ List.replicate 4 (.step 0 none) ++
      [.ask 0 (.submit .uninterruptible [.gate])] ++ List.replicate 6 (.step 0 none) ++
      List.replicate 3 .owner ++ [.ask 1 .stop] ++ List.replicate 6 (.step 1 none) ++
      [.ask 2 .stop] ++ List.replicate 9 (.step 2 none)) (by simp)

/-- The second stop returns while the job is being run. -/
theorem returns_early_stoppedTwice :
    stoppedTwice.Returns 31 2 ∧ (stoppedTwice.after 32).desk.holds = some 0 :=
  ⟨⟨.marksStopped, by rfl, by rfl⟩, by rfl⟩

end ThreadsRun

end SymbolIndex
