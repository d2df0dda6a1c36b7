import SymbolIndex.Proofs.Threads.Desks
import SymbolIndex.Proofs.Threads.Draining

/-!
# What is counted in a run

Every number is that of a job that was accepted, and every such job is counted as submitted, and as
completed, failed or dropped in the end, unless it is lost with the receiver. But that takes more
than one step each time, and others may look in between.

* `ThreadsRun.counts_of_ends`, `counts_of_runs`, `counts_of_turn`, `counts_of_notStarted`: what is
  counted when;
* `ThreadsRun.dropped_or_ran`: how a job ends;
* `ThreadsRun.Accounts`, `ThreadsRun.accounts`: what is counted in a run;
* `ThreadsRun.miscounts`: what does not add up.
-/

namespace SymbolIndex

open Serializer

variable {σ V : Type}

namespace ThreadsRun

open Threads

variable {R : ThreadsRun σ V}

theorem counts_of_ends {t n : ℕ} {e : JobEnd} (h : R.Ends t n e) :
    (R.after (t + 1)).common.core.counts = (R.after t).common.core.counts.plus e := by
  have hne : (R.after (t + 1)).desk.holds ≠ (R.after t).desk.holds := by
    rw [h.holds.1, h.holds.2]
    exact nofun
  cases R.tally t with
  | calm _ _ holds | loses _ _ holds => exact absurd holds hne
  | sends _ _ _ holds | counts _ _ _ holds | refuses _ _ _ holds => exact absurd holds hne
  | takes ht => cases h.holds.1.symm.trans ht.holds.1
  | ends h' counts =>
    obtain rfl := Option.some.inj (h.holds.1.symm.trans h'.holds.1)
    rw [counts, ends_of_ends h h']

/-- While a job is being run, with all the calls inside of it, only submissions are counted. -/
theorem counts_of_runs {t : ℕ} {r : Running σ V} (h : (R.after (t + 1)).desk = .runs r) :
    (R.after (t + 1)).common.core.counts = (R.after t).common.core.counts ∨ R.Counts t ∨
      R.Refuses t := by
  rcases R.counts_cases t with hc | hc | hc | ⟨n, e, he⟩
  · exact .inl hc
  · exact .inr (.inl hc)
  · exact .inr (.inr hc)
  · have hnone := he.holds.2
    rw [h] at hnone
    cases hnone

theorem counts_of_turn {t : ℕ} {r r' : Running σ V} (h : (R.after t).desk = .runs r)
    (h' : (R.after (t + 1)).desk = .runs r') (hne : r'.outer.length ≠ r.outer.length) :
    (R.after (t + 1)).common.core.counts = (R.after t).common.core.counts := by
  have hdesk : (R.after (t + 1)).desk ≠ (R.after t).desk := by
    intro heq
    rw [h, h', Desk.runs.injEq] at heq
    exact hne (by rw [heq])
  rcases R.counts_of_runs h' with hc | ⟨w, o, n, hp⟩ | ⟨w, o, hp⟩
  · exact hc
  · obtain ⟨-, -, -, heq⟩ := common_of_passes hp rfl (by simp)
    exact absurd heq hdesk
  · obtain ⟨-, -, -, heq⟩ := common_of_passes hp rfl (by simp)
    exact absurd heq hdesk

theorem counts_of_notStarted {t : ℕ} {w : Who} {o : Offer σ V}
    (h : R.Passes t w (.offers o .looksRunning) (.rests (some (.fails .notStarted)))) :
    (R.after (t + 1)).common = (R.after t).common := by
  obtain ⟨fault, hcommon, -⟩ := common_of_passes h rfl nofun
  rw [hcommon, Errand.step, OfferStage.step]
  split <;> rfl

theorem sends_of_ends {t n : ℕ} {e : JobEnd} (h : R.Ends t n e) :
    ∃ a < t, ∃ j, R.Sends a j ∧ j.seq = n := by
  obtain ⟨u, hut, j, ht, hj, -⟩ := takes_of_ends h
  obtain ⟨a, hau, ha⟩ :=
    R.exists_sends (mem_jobsIn.mp (jobs_of_takes ht ▸ List.mem_cons_self))
  exact ⟨a, by omega, j, ha, hj⟩

/-- How a job ends that has been taken: it was to be dropped when the owner looked, or was run. -/
theorem dropped_or_ran {t n : ℕ} {e : JobEnd} (h : R.Ends t n e) :
    (e = .dropped ∧ ∃ u < t, ∃ j, j.seq = n ∧ (R.after u).desk = .judges j ∧
        (R.after u).common.core.Dismisses j) ∨
      e ≠ .dropped ∧ ∃ u < t, ∃ r, (R.after u).desk = .runs r ∧ r.seq = n := by
  cases h with
  | @dropped j n hn hd =>
    obtain ⟨u, hu, hj, hj'⟩ := judges_of_discards hd
    refine .inl ⟨rfl, u, hu, j, hn, hj, ?_⟩
    have hstep := R.deskStep u
    rw [hj, hj'] at hstep
    cases hstep with
    | drops h => exact h
  | @settled n succeeded hd =>
    refine .inr ⟨by cases succeeded <;> exact nofun, runs_of_settles hd⟩

/-- What is counted in a run. -/
structure Accounts (R : ThreadsRun σ V) : Prop where
  /-- unless somebody is about to send a job, the numbers that have been handed out are those of
  the jobs that have been accepted, if none was handed out in vain -/
  numbers : ∀ t, (∀ n, ¬ (R.after t).IsSending n) → (∀ u < t, ¬ R.Wastes u) →
    (R.after t).common.core.nextSeq = R.accepted t
  /-- that only happens where nobody has the other end of the queue any more -/
  wasted : ∀ t, R.Wastes t → (R.after t).common.hasReader = false
  /-- unless somebody has sent a job and not counted it yet, the jobs that have been accepted are
  counted as submitted -/
  submitted : ∀ t, ¬ (R.after t).HasUncounted →
    (R.after t).common.core.counts.submitted = R.accepted t
  /-- and they and those that were refused are those that have ended or are left, if none is
  lost -/
  balance : ∀ t, ¬ (R.after t).HasUncounted → (∀ u < t, ∀ j, ¬ R.Loses u j) →
    (R.after t).common.core.counts.submitted + R.refused t =
      (R.after t).common.core.counts.completed + (R.after t).common.core.counts.failed +
        (R.after t).common.core.counts.dropped + (R.after t).unfinished
  /-- the end of a job is counted as what it is -/
  counted : ∀ t n e, R.Ends t n e →
    (R.after (t + 1)).common.core.counts = (R.after t).common.core.counts.plus e
  /-- a job that has been accepted ends once -/
  once : ∀ t n e, R.Ends t n e → (∃ a < t, ∃ j, R.Sends a j ∧ j.seq = n) ∧
    ∀ u e', R.Ends u n e' → u = t ∧ e' = e
  /-- what is refused is counted as dropped -/
  refused : ∀ t, R.Refuses t →
    (R.after (t + 1)).common.core.counts = (R.after t).common.core.counts.plus .dropped
  /-- nothing else is counted, but what is submitted -/
  others : ∀ t, (∀ n e, ¬ R.Ends t n e) → ¬ R.Refuses t → ¬ R.Counts t →
    (R.after (t + 1)).common.core.counts = (R.after t).common.core.counts
  /-- nothing is counted of a call where the serializer is seen not to run -/
  notStarted : ∀ t w o,
    R.Passes t w (.offers o .looksRunning) (.rests (some (.fails .notStarted))) →
      (R.after (t + 1)).common.core.counts = (R.after t).common.core.counts
  /-- and none of those inside of a job, but what is submitted or refused in the meantime -/
  nested : ∀ t r r', (R.after t).desk = .runs r → (R.after (t + 1)).desk = .runs r' →
    ((R.after (t + 1)).common.core.counts = (R.after t).common.core.counts ∨ R.Counts t ∨
      R.Refuses t) ∧
    (r'.outer.length ≠ r.outer.length →
      (R.after (t + 1)).common.core.counts = (R.after t).common.core.counts)
  /-- a stop, or a drop, leaves nothing behind, then or later, if no other one has taken the
  handle and nobody else was starting the owner in the meantime -/
  drained : ∀ t i, R.Returns t i → (∀ u < t, ∀ w, w ≠ .thread i → ¬ R.TakesHandle u w) →
    (∀ m w, R.StopsSince m t (.thread i) → w ≠ .thread i → ¬ R.IsStarting m w) →
      ∀ u, t < u → (R.after u).unfinished = 0
  /-- then the jobs that were accepted have ended, if none is lost -/
  ended : ∀ a t j, R.Sends a j → a < t → (R.after t).unfinished = 0 →
    (∀ u < t, ¬ R.Loses u j) → ∃ v < t, ∃ e, R.Ends v j.seq e
  /-- jobs are accepted, and the owner takes them, in the order of their numbers -/
  inOrder : ∀ t u j k, t < u →
    (R.Sends t j → R.Sends u k → j.seq < k.seq) ∧ (R.Takes t j → R.Takes u k → j.seq < k.seq)
  /-- those that could be cancelled and were below the mark when the owner looked are dropped, and
  all others are run -/
  ran : ∀ t n e, R.Ends t n e →
    (e = .dropped ∧ ∃ u < t, ∃ j, j.seq = n ∧ (R.after u).desk = .judges j ∧
        (R.after u).common.core.Dismisses j) ∨
      e ≠ .dropped ∧ ∃ u < t, ∃ r, (R.after u).desk = .runs r ∧ r.seq = n

theorem submitted_of_counted {t : ℕ} (h : ¬ (R.after t).HasUncounted) :
    (R.after t).common.core.counts.submitted = R.accepted t := by
  rw [R.submitted_eq, if_neg h, Nat.add_zero]

/-- **What is counted in a run.** -/
theorem accounts (R : ThreadsRun σ V) : R.Accounts where
  numbers t h hw := by
    rw [nextSeq_eq hw, if_neg fun ⟨n, hn⟩ => h n hn, Nat.add_zero]
  wasted _ h := not_hasReader_of_wastes h
  submitted _ h := submitted_of_counted h
  balance t h hl := by
    rw [submitted_of_counted h, balance hl, JobCounts.ended]
  counted _ _ _ h := counts_of_ends h
  once t n e h := by
    refine ⟨sends_of_ends h, fun u e' h' => ?_⟩
    exact ends_unique h' h
  refused _ h := (counts_of_refuses h).1
  others t he hr hc := by
    rcases R.counts_cases t with h | h | h | ⟨n, e, h⟩
    · exact h
    · exact absurd h hc
    · exact absurd h hr
    · exact absurd h (he n e)
  notStarted _ _ _ h := by rw [counts_of_notStarted h]
  nested _ _ _ h h' := ⟨counts_of_runs h', counts_of_turn h h'⟩
  drained t i h hfirst hstart := by
    rcases overtaken h with hz | ⟨u, hut, w, hw, ht⟩ | ⟨m, hm, w, hw, hs⟩
    · exact hz
    · exact absurd ht (hfirst u hut w hw)
    · exact absurd hs (hstart m w hm hw)
  ended a t j hs hat hz hl := by
    refine (ends_or_loses hs hat hz).resolve_right ?_
    rintro ⟨v, hv, h⟩
    exact hl v hv h
  inOrder _ _ _ _ htu := ⟨fun h h' => lt_of_sends h h' htu, fun h h' => lt_of_takes h h' htu⟩
  ran _ _ _ h := dropped_or_ran h

/-- A call inside of a job leaves a job behind. -/
def submittedInside : ThreadsRun Unit Unit :=
  ofEvents "index" false ()
    ([.ask 0 .start] ++ List.replicate 4 (.step 0 none) ++
      [.ask 0 (.submit .uninterruptible
        [.call .uninterruptible [.submit .uninterruptible []] false])] ++
      List.replicate 6 (.step 0 none) ++ List.replicate 10 .owner) (by simp)

/-- A caller sees that the serializer runs, and is refused since it has been stopped by then. -/
def calledLate : ThreadsRun Unit Unit :=
  ofEvents "index" false ()
    ([.ask 0 .start] ++ List.replicate 4 (.step 0 none) ++
      [.ask 1 (.call .uninterruptible [] false)] ++ [.step 1 none] ++
      [.ask 2 .stop] ++ List.replicate 6 (.step 2 none) ++ List.replicate 4 (.step 1 none))
    (by simp)

/-- A stop sees no job, and drops the receiver after somebody has left a job behind. -/
def submittedLate : ThreadsRun Unit Unit :=
  ofEvents "index" false ()
    ([.ask 1 .stop] ++ List.replicate 6 (.step 1 none) ++
      [.ask 0 (.submit .uninterruptible [])] ++ List.replicate 6 (.step 0 none) ++
      List.replicate 2 (.step 1 none)) (by simp)

/-- A stop returns while somebody else is starting the owner, for whom a job waits. -/
def stoppedEarly : ThreadsRun Unit Unit :=
  ofEvents "index" false ()
    ([.ask 0 (.submit .uninterruptible [])] ++ List.replicate 6 (.step 0 none) ++
      [.ask 0 .start] ++ [.step 0 none] ++ [.ask 1 .stop] ++ List.replicate 9 (.step 1 none))
    (by simp)

/-- These do not add up: a call inside of a job during which something is counted, a refused call
that is counted, a number that is handed out to a job that is not counted, a job that neither ends
nor is left, and a job that is left when the only stop has returned. -/
theorem miscounts :
    ((∃ r r', (submittedInside.after 16).desk = .runs r ∧ r.outer.length = 1 ∧
        (submittedInside.after 22).desk = .runs r' ∧ r'.outer.length = 1) ∧
      (submittedInside.after 16).common.core.counts = ⟨1, 0, 0, 0⟩ ∧
      (submittedInside.after 22).common.core.counts = ⟨2, 0, 0, 0⟩) ∧
    ((calledLate.after 18).errand (.thread 1) = .rests (some (.fails .notStarted)) ∧
      (calledLate.after 18).common.core.counts = ⟨0, 0, 0, 1⟩) ∧
    ((submittedLate.after 11).common.core.owner = .unborn ∧
      (submittedLate.after 11).common.core.nextSeq = 1 ∧
      (submittedLate.after 11).common.core.counts = ⟨0, 0, 0, 0⟩) ∧
    (submittedLate.Returns 15 1 ∧ (submittedLate.after 16).common.core.counts = ⟨1, 0, 0, 0⟩ ∧
      (submittedLate.after 16).unfinished = 0) ∧
    stoppedEarly.Returns 18 1 ∧ (stoppedEarly.after 19).unfinished = 1 :=
  ⟨⟨⟨_, _, by rfl, by rfl, by rfl, by rfl⟩, by rfl, by rfl⟩, ⟨by rfl, by rfl⟩,
    ⟨by rfl, by rfl, by rfl⟩, ⟨⟨.marksStopped, by rfl, by rfl⟩, by rfl, by rfl⟩,
    ⟨.marksStopped, by rfl, by rfl⟩, by rfl⟩

end ThreadsRun

end SymbolIndex
