import Mathlib.Data.Nat.Count
import SymbolIndex.Proofs.Threads.Moments

/-!
# The accounts of threads

What a serializer has counted, at any moment, although its threads send, count and refuse jobs, and
the owner ends them, in steps that come in any order.

* `ThreadsRun.Passes`, `Sends`, `Counts`, `Refuses`, `Takes`, `Ends`, `Loses`: what threads do, told
  by the stages that they come to;
* `ThreadsRun.Tally`, `tally`: what is counted at a moment;
* `ThreadsRun.counts_cases`: nothing else is counted;
* `ThreadsRun.submitted_eq`, `ThreadsRun.balance`: what is counted adds up.
-/

namespace SymbolIndex

open Serializer

variable {σ V : Type}

namespace Threads

/-- Somebody has sent a job and not counted it. -/
def HasUncounted (s : Threads σ V) : Prop := ∃ w, (s.errand w).isUncounted = true

/-- How many jobs wait in the queue or have been taken and not counted yet. -/
def unfinished (s : Threads σ V) : ℕ :=
  (jobsIn s.common.core.queue).length + s.desk.holds.isSome.toNat

end Threads

namespace ThreadsRun

open Threads

variable (R : ThreadsRun σ V)

/-! ## What threads do -/

/-- A thread comes from one step of an errand to another. -/
def Passes (t : ℕ) (w : Who) (e e' : Errand σ V) : Prop :=
  (R.after t).errand w = e ∧ (R.after (t + 1)).errand w = e'

/-- A job is sent, and so accepted. -/
def Sends (t : ℕ) (j : Job σ V) : Prop :=
  ∃ w o n, R.Passes t w (.offers o (.sends n)) (.offers o (.counts n)) ∧ j = o.job n

/-- A job that has been sent is counted. -/
def Counts (t : ℕ) : Prop :=
  ∃ w o n, R.Passes t w (.offers o (.counts n)) (.offers o (.unlocks (some n)))

/-- A job is refused. -/
def Refuses (t : ℕ) : Prop :=
  ∃ w o, R.Passes t w (.offers o .refuses) (.offers o (.unlocks none))

/-- The owner takes a job. -/
def Takes (t : ℕ) (j : Job σ V) : Prop :=
  (R.after t).desk = .free ∧ (R.after (t + 1)).desk = .judges j

/-- The owner counts the end of a job. -/
inductive Ends (t : ℕ) : ℕ → JobEnd → Prop
  | dropped {j : Job σ V} {n : ℕ} (hn : j.seq = n) (hd : (R.after t).desk = .discards j)
    (hd' : (R.after (t + 1)).desk = .forgets j) : Ends t n .dropped
  | settled {n : ℕ} {succeeded : Bool} (hd : (R.after t).desk = .settles n succeeded)
    (hd' : (R.after (t + 1)).desk = .free) : Ends t n (.of succeeded)

/-- A job disappears that the owner has not taken. -/
def Loses (t : ℕ) (j : Job σ V) : Prop :=
  .job j ∈ (R.after t).common.core.queue ∧ .job j ∉ (R.after (t + 1)).common.core.queue ∧
    ¬ R.Takes t j

variable {R}

/-! ## What is known of it -/

theorem worked_of_passes {t : ℕ} {w : Who} {e e' : Errand σ V} (h : R.Passes t w e e')
    (hi : e.isIdle = false) (hne : e' ≠ e) :
    ∃ fault, R.after (t + 1) = (R.after t).work w fault := by
  obtain ⟨rfl, rfl⟩ := h
  exact (R.step t).worked hi hne

theorem common_of_passes {t : ℕ} {w : Who} {e e' : Errand σ V} (h : R.Passes t w e e')
    (hi : e.isIdle = false) (hne : e' ≠ e) :
    ∃ fault, (R.after (t + 1)).common = (e.step (R.after t).common w fault).1 ∧
      e' = (e.step (R.after t).common w fault).2 ∧ (R.after (t + 1)).desk = (R.after t).desk := by
  obtain ⟨fault, hs⟩ := worked_of_passes h hi hne
  obtain ⟨rfl, rfl⟩ := h
  exact ⟨fault, by rw [hs, work_common], by rw [hs, work_errand_self], by rw [hs]; rfl⟩

theorem common_of_sends {t : ℕ} {j : Job σ V} (h : R.Sends t j) :
    (R.after t).common.hasReader = true ∧ (R.after (t + 1)).common =
      { (R.after t).common with core := (R.after t).common.core.send (.job j) } := by
  obtain ⟨w, o, n, hp, rfl⟩ := h
  obtain ⟨fault, hcommon, he, -⟩ := common_of_passes hp rfl (by simp)
  simp only [Errand.step, OfferStage.step] at hcommon he
  split at he
  · next hr =>
    rw [if_pos hr] at hcommon
    exact ⟨hr, hcommon⟩
  · simp at he

theorem counts_of_counts {t : ℕ} (h : R.Counts t) :
    (R.after (t + 1)).common.core.counts = (R.after t).common.core.counts.accepting := by
  obtain ⟨w, o, n, hp⟩ := h
  obtain ⟨fault, hcommon, -⟩ := common_of_passes hp rfl (by simp)
  rw [hcommon]
  rfl

theorem counts_of_refuses {t : ℕ} (h : R.Refuses t) :
    (R.after (t + 1)).common.core.counts = (R.after t).common.core.counts.plus .dropped ∧
      (R.after (t + 1)).desk = (R.after t).desk := by
  obtain ⟨w, o, hp⟩ := h
  obtain ⟨fault, hcommon, -, hdesk⟩ := common_of_passes hp rfl (by simp)
  rw [hcommon]
  exact ⟨rfl, hdesk⟩

theorem Ends.holds {t n : ℕ} {e : JobEnd} (h : R.Ends t n e) :
    (R.after t).desk.holds = some n ∧ (R.after (t + 1)).desk.holds = none := by
  cases h with
  | dropped hn hd hd' =>
    rw [hd, hd', ← hn]
    exact ⟨rfl, rfl⟩
  | settled hd hd' =>
    rw [hd, hd']
    exact ⟨rfl, rfl⟩

theorem Takes.holds {t : ℕ} {j : Job σ V} (h : R.Takes t j) :
    (R.after t).desk.holds = none ∧ (R.after (t + 1)).desk.holds = some j.seq := by
  rw [h.1, h.2]
  exact ⟨rfl, rfl⟩

/-! ## What is counted at a moment -/

variable (R) in
/-- What is counted at a moment. -/
inductive Tally (t : ℕ) : Prop
  | calm (counts : (R.after (t + 1)).common.core.counts = (R.after t).common.core.counts)
    (jobs : jobsIn (R.after (t + 1)).common.core.queue = jobsIn (R.after t).common.core.queue)
    (holds : (R.after (t + 1)).desk.holds = (R.after t).desk.holds)
  | sends {j : Job σ V} (h : R.Sends t j)
    (counts : (R.after (t + 1)).common.core.counts = (R.after t).common.core.counts)
    (jobs : jobsIn (R.after (t + 1)).common.core.queue =
      jobsIn (R.after t).common.core.queue ++ [j])
    (holds : (R.after (t + 1)).desk.holds = (R.after t).desk.holds)
  | counts (h : R.Counts t)
    (counts : (R.after (t + 1)).common.core.counts = (R.after t).common.core.counts.accepting)
    (jobs : jobsIn (R.after (t + 1)).common.core.queue = jobsIn (R.after t).common.core.queue)
    (holds : (R.after (t + 1)).desk.holds = (R.after t).desk.holds)
  | refuses (h : R.Refuses t)
    (counts : (R.after (t + 1)).common.core.counts = (R.after t).common.core.counts.plus .dropped)
    (jobs : jobsIn (R.after (t + 1)).common.core.queue = jobsIn (R.after t).common.core.queue)
    (holds : (R.after (t + 1)).desk.holds = (R.after t).desk.holds)
  | takes {j : Job σ V} (h : R.Takes t j)
    (counts : (R.after (t + 1)).common.core.counts = (R.after t).common.core.counts)
    (jobs : jobsIn (R.after t).common.core.queue =
      j :: jobsIn (R.after (t + 1)).common.core.queue)
  | ends {n : ℕ} {e : JobEnd} (h : R.Ends t n e)
    (counts : (R.after (t + 1)).common.core.counts = (R.after t).common.core.counts.plus e)
    (jobs : jobsIn (R.after (t + 1)).common.core.queue = jobsIn (R.after t).common.core.queue)
  /-- the receiver is dropped, and the queue with it -/
  | loses (counts : (R.after (t + 1)).common.core.counts = (R.after t).common.core.counts)
    (jobs : jobsIn (R.after (t + 1)).common.core.queue = [])
    (holds : (R.after (t + 1)).desk.holds = (R.after t).desk.holds)

theorem tally_of_deed {t : ℕ} {w : Who} {e e' : Errand σ V} (hp : R.Passes t w e e')
    (hd : (R.after (t + 1)).desk = (R.after t).desk)
    (h : Deed (R.after t).common (R.after (t + 1)).common e e') : R.Tally t := by
  have hholds := congrArg Desk.holds hd
  cases h with
  | calm h => exact .calm h.counts (by rw [h.queue]) hholds
  | numbers hc | raises hc | bumps hc => exact .calm (by rw [hc]; rfl) (by rw [hc]; rfl) hholds
  | reads hc => exact .calm (by rw [hc]) (by rw [hc]) hholds
  | tells hr hc => exact .calm (by rw [hc]; rfl) (by rw [hc]; simp [send]) hholds
  | sends hr hc =>
    exact .sends ⟨w, _, _, hp, rfl⟩ (by rw [hc]; rfl) (by rw [hc]; simp [send]) hholds
  | counts hc => exact .counts ⟨w, _, _, hp⟩ (by rw [hc]; rfl) (by rw [hc]; rfl) hholds
  | refuses hc => exact .refuses ⟨w, _, hp⟩ (by rw [hc]; rfl) (by rw [hc]; rfl) hholds
  | loses hc => exact .loses (by rw [hc]; rfl) (by rw [hc]; rfl) hholds

theorem tally_of_deskDeed {t : ℕ} {d d' : Desk σ V} (hd : (R.after t).desk = d)
    (hd' : (R.after (t + 1)).desk = d')
    (h : DeskDeed (R.after t).common (R.after (t + 1)).common d d') : R.Tally t := by
  cases h with
  | calm h holds => exact .calm h.counts (by rw [h.queue]) (by rw [hd, hd', holds])
  | takes hq hc => exact .takes ⟨hd, hd'⟩ (by rw [hc]) (by rw [hc, hq]; simp)
  | halts hq hc => exact .calm (by rw [hc]) (by rw [hc, hq]; simp) (by rw [hd, hd']; rfl)
  | discards hc => exact .ends (.dropped rfl hd hd') (by rw [hc]; rfl) (by rw [hc]; rfl)
  | @settles n succeeded hc =>
    refine .ends (.settled hd hd') ?_ (by rw [hc]; rfl)
    rw [hc]
    cases succeeded <;> rfl
  | leaves hc => exact .loses (by rw [hc]; rfl) (by rw [hc]; rfl) (by rw [hd, hd']; rfl)

/-- **What is counted at a moment.** -/
theorem tally (t : ℕ) : R.Tally t := by
  cases effect_of_step (R.step t) with
  | works desk others h => exact tally_of_deed ⟨rfl, rfl⟩ desk h
  | stays h => exact tally_of_deskDeed rfl rfl h

theorem counts_cases (t : ℕ) :
    (R.after (t + 1)).common.core.counts = (R.after t).common.core.counts ∨
      R.Counts t ∨ R.Refuses t ∨ ∃ n e, R.Ends t n e := by
  cases R.tally t with
  | calm counts | sends _ counts | takes _ counts | loses counts => exact .inl counts
  | counts h => exact .inr (.inl h)
  | refuses h => exact .inr (.inr (.inl h))
  | ends h => exact .inr (.inr (.inr ⟨_, _, h⟩))

/-! ## What is sent and not counted -/

theorem jobs_of_sends {t : ℕ} {j : Job σ V} (h : R.Sends t j) :
    jobsIn (R.after (t + 1)).common.core.queue = jobsIn (R.after t).common.core.queue ++ [j] := by
  rw [(common_of_sends h).2]
  simp [send]

/-- Whoever is behind the lock is the only one who may send or count. -/
theorem not_isUncounted_of_isInside {t : ℕ} {w v : Who}
    (h : ((R.after t).errand w).isInside = true) (hv : v ≠ w) :
    ((R.after t).errand v).isUncounted = false := by
  cases hu : ((R.after t).errand v).isUncounted with
  | false => rfl
  | true =>
    have hlock := ((R.locked t v).mp (isInside_of_isUncounted hu)).symm.trans ((R.locked t w).mp h)
    exact absurd (Option.some.inj hlock) hv

theorem hasUncounted_of_sends {t : ℕ} {j : Job σ V} (h : R.Sends t j) :
    ¬ (R.after t).HasUncounted ∧ (R.after (t + 1)).HasUncounted := by
  obtain ⟨w, o, n, ⟨he, he'⟩, -⟩ := h
  refine ⟨?_, w, by rw [he']; rfl⟩
  rintro ⟨v, hv⟩
  by_cases hvw : v = w
  · rw [hvw, he] at hv
    cases hv
  · rw [not_isUncounted_of_isInside (by rw [he]; rfl) hvw] at hv
    cases hv

theorem hasUncounted_of_counts {t : ℕ} (h : R.Counts t) :
    (R.after t).HasUncounted ∧ ¬ (R.after (t + 1)).HasUncounted := by
  obtain ⟨w, o, n, he, he'⟩ := h
  refine ⟨⟨w, by rw [he]; rfl⟩, ?_⟩
  rintro ⟨v, hv⟩
  by_cases hvw : v = w
  · rw [hvw, he'] at hv
    cases hv
  · rw [not_isUncounted_of_isInside (by rw [he']; rfl) hvw] at hv
    cases hv

theorem isUncounted_of_deed {c c' : Common σ V} {e e' : Errand σ V} (h : Deed c c' e e') :
    e'.isUncounted = e.isUncounted ∨
      (∃ o n, e = .offers o (.sends n) ∧ e' = .offers o (.counts n)) ∨
      ∃ o n, e = .offers o (.counts n) ∧ e' = .offers o (.unlocks (some n)) := by
  cases h with
  | calm _ before plain | loses _ _ before plain =>
    exact .inl ((isUncounted_of_isPlain plain).trans before.symm)
  | sends => exact .inr (.inl ⟨_, _, rfl, rfl⟩)
  | counts => exact .inr (.inr ⟨_, _, rfl, rfl⟩)
  | _ => exact .inl rfl

theorem hasUncounted_iff {t : ℕ} (hs : ∀ j, ¬ R.Sends t j) (hc : ¬ R.Counts t) :
    (R.after (t + 1)).HasUncounted ↔ (R.after t).HasUncounted := by
  refine exists_congr fun v => ?_
  suffices ((R.after (t + 1)).errand v).isUncounted = ((R.after t).errand v).isUncounted by
    rw [this]
  cases effect_of_step (R.step t) with
  | @works w desk others h =>
    by_cases hv : v = w
    · subst hv
      rcases isUncounted_of_deed h with heq | ⟨o, n, he, he'⟩ | ⟨o, n, he, he'⟩
      · exact heq
      · exact absurd ⟨v, o, n, ⟨he, he'⟩, rfl⟩ (hs (o.job n))
      · exact absurd ⟨v, o, n, he, he'⟩ hc
    · rw [others v hv]
  | stays h errands =>
    rcases errands v with heq | ⟨hi, hp⟩
    · rw [heq]
    · rw [isUncounted_of_isPlain hp, isUncounted_of_isIdle hi]

/-! ## What is counted adds up -/

variable (R) in
open Classical in
/-- How many jobs have been accepted. -/
noncomputable def accepted (t : ℕ) : ℕ := Nat.count (fun u => ∃ j, R.Sends u j) t

variable (R) in
open Classical in
/-- How many jobs have been refused. -/
noncomputable def refused (t : ℕ) : ℕ := Nat.count R.Refuses t

theorem accepted_succ_of_sends {t : ℕ} {j : Job σ V} (h : R.Sends t j) :
    R.accepted (t + 1) = R.accepted t + 1 := by
  classical
  rw [accepted, Nat.count_succ, if_pos ⟨j, h⟩]
  rfl

theorem accepted_succ_of_not {t : ℕ} (h : ∀ j, ¬ R.Sends t j) :
    R.accepted (t + 1) = R.accepted t := by
  classical
  rw [accepted, Nat.count_succ, if_neg fun ⟨j, hj⟩ => h j hj]
  rfl

theorem refused_succ_of_refuses {t : ℕ} (h : R.Refuses t) :
    R.refused (t + 1) = R.refused t + 1 := by
  classical
  rw [refused, Nat.count_succ, if_pos h]
  rfl

theorem refused_succ_of_not {t : ℕ} (h : ¬ R.Refuses t) : R.refused (t + 1) = R.refused t := by
  classical
  rw [refused, Nat.count_succ, if_neg h]
  rfl

open Classical in
/-- **Every job that has been accepted has been counted**, but for the last one while whoever has
sent it has not come to that. -/
theorem submitted_eq (t : ℕ) :
    R.accepted t = (R.after t).common.core.counts.submitted +
      if (R.after t).HasUncounted then 1 else 0 := by
  induction t with
  | zero => rw [if_neg fun ⟨w, hw⟩ => nomatch hw]; rfl
  | succ t ih =>
    by_cases hs : ∃ j, R.Sends t j
    · obtain ⟨j, hj⟩ := hs
      obtain ⟨hbefore, hafter⟩ := hasUncounted_of_sends hj
      rw [if_neg hbefore] at ih
      rw [accepted_succ_of_sends hj, ih, if_pos hafter, (common_of_sends hj).2]
      rfl
    · push Not at hs
      rw [accepted_succ_of_not hs, ih]
      by_cases hc : R.Counts t
      · obtain ⟨hbefore, hafter⟩ := hasUncounted_of_counts hc
        rw [if_pos hbefore, if_neg hafter, counts_of_counts hc, JobCounts.accepting_submitted]
      · rw [if_congr (hasUncounted_iff hs hc) rfl rfl, Nat.add_right_cancel_iff]
        cases R.tally t with
        | calm counts | sends _ counts | takes _ counts | loses counts => rw [counts]
        | counts h => exact absurd h hc
        | refuses _ counts | ends _ counts => rw [counts, JobCounts.plus_submitted]

theorem not_sends_of_length {t : ℕ} (h : (jobsIn (R.after (t + 1)).common.core.queue).length ≤
    (jobsIn (R.after t).common.core.queue).length) (j : Job σ V) : ¬ R.Sends t j := by
  intro hs
  rw [jobs_of_sends hs, List.length_append, List.length_singleton] at h
  omega

theorem not_refuses_of_dropped {t : ℕ} (h : (R.after (t + 1)).common.core.counts.dropped =
    (R.after t).common.core.counts.dropped) : ¬ R.Refuses t := by
  intro hr
  rw [(counts_of_refuses hr).1] at h
  exact Nat.succ_ne_self _ h

theorem jobs_eq_nil_of_loses {t : ℕ} (hl : ∀ j, ¬ R.Loses t j)
    (jobs : jobsIn (R.after (t + 1)).common.core.queue = [])
    (holds : (R.after (t + 1)).desk.holds = (R.after t).desk.holds) :
    jobsIn (R.after t).common.core.queue = [] := by
  refine List.eq_nil_iff_forall_not_mem.mpr fun j hj => hl j ⟨mem_jobsIn.mp hj, ?_, fun ht => ?_⟩
  · rw [← mem_jobsIn, jobs]
    exact List.not_mem_nil
  · obtain ⟨hnone, hsome⟩ := ht.holds
    rw [holds, hnone] at hsome
    cases hsome

/-- **What is counted adds up**: the jobs that have been accepted and those that have been refused
are those that have ended, and those that are left, if none has been lost. -/
theorem balance {t : ℕ} (hl : ∀ u < t, ∀ j, ¬ R.Loses u j) :
    R.accepted t + R.refused t =
      (R.after t).common.core.counts.ended + (R.after t).unfinished := by
  induction t with
  | zero => rfl
  | succ t ih =>
    specialize ih fun u hu => hl u (by omega)
    unfold Threads.unfinished at ih ⊢
    cases R.tally t with
    | calm counts jobs holds =>
      rw [accepted_succ_of_not (not_sends_of_length (by rw [jobs])),
        refused_succ_of_not (not_refuses_of_dropped (by rw [counts])), counts, jobs, holds, ih]
    | counts _ counts jobs holds =>
      rw [accepted_succ_of_not (not_sends_of_length (by rw [jobs])),
        refused_succ_of_not (not_refuses_of_dropped (by rw [counts]; rfl)), counts, jobs, holds, ih]
      rfl
    | sends hj counts jobs holds =>
      rw [accepted_succ_of_sends hj, refused_succ_of_not (not_refuses_of_dropped (by rw [counts])),
        counts, jobs, holds, List.length_append, List.length_singleton]
      omega
    | refuses hr counts jobs holds =>
      rw [accepted_succ_of_not (not_sends_of_length (by rw [jobs])), refused_succ_of_refuses hr,
        counts, jobs, holds, JobCounts.plus_ended]
      omega
    | takes ht counts jobs =>
      obtain ⟨hnone, hsome⟩ := ht.holds
      rw [jobs, hnone] at ih
      rw [accepted_succ_of_not (not_sends_of_length (by rw [jobs]; simp)),
        refused_succ_of_not (not_refuses_of_dropped (by rw [counts])), counts, hsome, ih]
      simp
    | ends he counts jobs =>
      obtain ⟨hsome, hnone⟩ := he.holds
      have hr : ¬ R.Refuses t := fun hr => by
        rw [(counts_of_refuses hr).2, hsome] at hnone
        cases hnone
      rw [hsome] at ih
      rw [accepted_succ_of_not (not_sends_of_length (by rw [jobs])), refused_succ_of_not hr, counts,
        jobs, hnone, JobCounts.plus_ended]
      simp at ih ⊢
      omega
    | loses counts jobs holds =>
      have hnil := jobs_eq_nil_of_loses (hl t (by omega)) jobs holds
      rw [hnil] at ih
      rw [accepted_succ_of_not (not_sends_of_length (by rw [jobs]; simp)),
        refused_succ_of_not (not_refuses_of_dropped (by rw [counts])), counts, jobs, holds, ih]

end ThreadsRun

end SymbolIndex
