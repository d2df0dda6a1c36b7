import Mathlib.Data.Nat.Count
import SymbolIndex.Proofs.Serializer.Counts
import SymbolIndex.Proofs.Serializer.Order

/-!
# The accounts of a serializer

Every job that is accepted is over in exactly one way, and is counted once for it.

* `Run.refused`: how many submissions were refused;
* `Run.Settles`, `Run.settles_unique`, `Run.settled_iff`: the ends of jobs;
* `Run.balance`: what is counted adds up;
* `Run.counts_of_settles`, `Run.counts_of_quiet`: what is counted in a move.
-/

namespace SymbolIndex

variable {σ V : Type}

/-- A job is left behind that nobody waits for. -/
def Request.isSubmission : Request σ V → Bool
  | .enqueue _ _ .discard | .enqueue _ _ (.callback _) => true
  | _ => false

namespace Serializer

theorem exists_action {s : Serializer σ V} {q : Request σ V} (h : s.requestOf .owner = some q) :
    ∃ a : Action σ V, a.request = some q := by
  rw [requestOf] at h
  split at h
  · obtain ⟨r, -, hr⟩ := Option.bind_eq_some_iff.mp h
    obtain ⟨a, -, ha⟩ := Option.bind_eq_some_iff.mp hr
    exact ⟨a, ha⟩
  · cases h

/-- Those who wait for a job only ask for it while the serializer runs. -/
theorem isSubmission_of_refused {s : Serializer σ V} {m : Move σ V} {kind : JobKind}
    {script : Script σ V} {delivery : Delivery σ V}
    (h : s.requestOf m = some (.enqueue kind script delivery)) (ho : s.isOpen = false) :
    (Request.enqueue kind script delivery).isSubmission = true := by
  cases delivery with
  | discard | callback c => rfl
  | reply =>
    cases m with
    | call kind' script' =>
      rw [requestOf, isRunning_of_not_isOpen ho] at h
      cases h
    | owner =>
      obtain ⟨a, ha⟩ := exists_action h
      cases a <;> cases ha
    | _ => cases h

end Serializer

namespace Run

open Serializer

variable (R : Run σ V)

theorem tally (t : ℕ) : Tally (R.after t) (R.moves t) (R.after (t + 1)) := tally_of_step (R.step t)

/-! ## Refusals -/

/-- A submission is refused in a move. -/
def isRefused (t : ℕ) : Bool := (R.request t).any Request.isSubmission && !(R.after t).isOpen

/-- How many submissions have been refused. -/
def refused (t : ℕ) : ℕ := Nat.count (fun u => R.isRefused u) t

theorem refused_succ (t : ℕ) : R.refused (t + 1) = R.refused t + (R.isRefused t).toNat := by
  rw [refused, Nat.count_succ, ← refused]
  cases R.isRefused t <;> rfl

theorem isRefused_iff (t : ℕ) :
    R.isRefused t = true ↔ (R.after t).isOpen = false ∧
      ∃ kind script delivery, R.request t = some (.enqueue kind script delivery) := by
  rw [isRefused, Bool.and_eq_true, Bool.not_eq_true', and_comm]
  refine and_congr_right fun ho => ?_
  rw [Option.any_eq_true]
  constructor
  · rintro ⟨q, hq, hs⟩
    cases q with
    | enqueue kind script delivery => exact ⟨kind, script, delivery, hq⟩
    | _ => cases hs
  · rintro ⟨kind, script, delivery, hq⟩
    exact ⟨_, hq, isSubmission_of_refused hq ho⟩

/-! ## What a move counts -/

theorem quiet_of_not_enqueue {t : ℕ}
    (h : ∀ kind script delivery, R.request t ≠ some (.enqueue kind script delivery)) :
    R.newJob t = none ∧ R.isRefused t = false := by
  refine ⟨?_, Bool.eq_false_iff.mpr fun hr => ?_⟩
  · rw [newJob]
    cases hq : R.request t with
    | none => rfl
    | some q =>
      cases q with
      | enqueue kind script delivery => exact absurd hq (h kind script delivery)
      | _ => rfl
  · obtain ⟨-, kind, script, delivery, hq⟩ := (R.isRefused_iff t).mp hr
    exact h kind script delivery hq

theorem quiet_of_request {t : ℕ} (h : R.request t = none) :
    R.newJob t = none ∧ R.isRefused t = false :=
  R.quiet_of_not_enqueue fun _ _ _ hq => nomatch h.symm.trans hq

/-- **What is counted adds up**: the jobs that were accepted and the submissions that were refused
are those that have ended or were dropped, and those that are left. -/
theorem balance (t : ℕ) :
    (R.after t).counts.submitted = (R.accepted t).length ∧
      (R.after t).counts.submitted + R.refused t =
        (R.after t).counts.ended + (R.after t).unfinished := by
  induction t with
  | zero => exact ⟨rfl, rfl⟩
  | succ t ih =>
    obtain ⟨hs, hb⟩ := ih
    rw [accepted_succ, refused_succ]
    unfold unfinished at hb ⊢
    cases R.tally t with
    | keeps hq jobs busy counts =>
      obtain ⟨hnew, hrefused⟩ := R.quiet_of_not_enqueue hq
      rw [counts, jobs, busy, hnew, hrefused]
      exact ⟨by simpa using hs, hb⟩
    | @accepts j hj jobs busy counts =>
      have hrefused : R.isRefused t = false := by simp [isRefused, R.isOpen_of_newJob hj]
      rw [counts, jobs, busy, show R.newJob t = some j from hj, hrefused]
      simp only [JobCounts.accepting_submitted, JobCounts.accepting_ended, List.length_append,
        Option.toList_some, List.length_singleton, Bool.toNat_false]
      omega
    | refuses hq ho jobs busy counts =>
      have hrefused : R.isRefused t = true := (R.isRefused_iff t).mpr ⟨ho, _, _, _, hq⟩
      rw [counts, jobs, busy, R.newJob_of_not_isOpen ho, hrefused]
      simp only [JobCounts.plus_submitted, JobCounts.plus_ended, Option.toList_none,
        List.append_nil, Bool.toNat_true]
      omega
    | starts hq queue idle busy counts =>
      obtain ⟨hnew, hrefused⟩ := R.quiet_of_request hq
      rw [queue, idle] at hb
      rw [counts, busy, hnew, hrefused]
      simp only [jobsIn_cons_job, List.length_cons, Option.toList_none, List.append_nil,
        Option.isSome_none, Bool.toNat_true, Bool.toNat_false] at hb ⊢
      omega
    | drops hq queue idle idle' counts =>
      obtain ⟨hnew, hrefused⟩ := R.quiet_of_request hq
      rw [queue, idle] at hb
      rw [counts, idle', hnew, hrefused]
      simp only [jobsIn_cons_job, List.length_cons, Option.toList_none, List.append_nil,
        Option.isSome_none, Bool.toNat_false, JobCounts.plus_submitted,
        JobCounts.plus_ended] at hb ⊢
      omega
    | ends hm ha hq jobs hr h idle' counts =>
      obtain ⟨hnew, hrefused⟩ := R.quiet_of_request hq
      rw [hr] at hb
      rw [counts, jobs, idle', hnew, hrefused]
      simp only [Option.toList_none, List.append_nil, Option.isSome_none, Option.isSome_some,
        Bool.toNat_true, Bool.toNat_false, JobCounts.plus_submitted, JobCounts.plus_ended] at hb ⊢
      omega

/-! ## The ends of jobs -/

/-- The owner panics in a move. -/
def Panics (t : ℕ) : Prop :=
  ∃ r p, (R.after t).current = some r ∧ (R.after t).nextTurn r = .panics p

/-- A move brings a job to an end: it is dropped, or its work has returned a value and nothing has
panicked, or it has failed. -/
inductive Settles (t n : ℕ) : JobEnd → Prop
  | dropped {j : Job σ V} (h : R.Drops t j) (hn : j.seq = n) : Settles t n .dropped
  | completed (h : R.Ends t n) (hp : ¬ R.Panics t) {u : ℕ} {v : Option V} (hu : u ≤ t)
    (hw : R.WorkEnds u n (.result (.ok v))) : Settles t n .completed
  | failed (h : R.Ends t n)
    (hf : R.Panics t ∨ ∃ u ≤ t, ∃ e, R.WorkEnds u n (.result (.error e))) : Settles t n .failed

variable {R}

theorem settles_of_endsWith {t : ℕ} {r : Running σ V} {succeeded : Bool}
    (hm : R.moves t = .owner) (ha : (R.after t).owner = .alive)
    (hr : (R.after t).current = some r) (h : (R.after t).EndsWith r succeeded)
    (hc : (R.after (t + 1)).current = none) : R.Settles t r.seq (.of succeeded) := by
  have hends : R.Ends t r.seq := ⟨⟨r, hr, rfl⟩, hc⟩
  have hquiet : ∀ s' result, (R.after t).nextTurn r = .ends s' result → ¬ R.Panics t := by
    rintro s' result ht ⟨r', p, hr', ht'⟩
    obtain rfl := Option.some.inj (hr.symm.trans hr')
    rw [ht] at ht'
    cases ht'
  have hresult : ∀ u ≤ t, ∀ result s' result', R.WorkEnds u r.seq (.result result) →
      (R.after t).nextTurn r = .ends s' result' → R.Settles t r.seq (.of result.isOk) := by
    intro u hu result s' result' hw ht
    cases result with
    | ok v => exact .completed hends (hquiet _ _ ht) hu hw
    | error e => exact .failed hends (.inr ⟨u, hu, e, hw⟩)
  cases h with
  | panics ht => exact .failed hends (.inl ⟨r, _, hr, ht⟩)
  | @works s' result ht hg ho =>
    refine hresult t le_rfl result s' result ?_ ht
    rw [WorkEnds, hm, ending_owner ha hr, outcome?, hg, ht, ho]
    rfl
  | calledBack ht hg =>
    obtain ⟨u, hu, c, result, htells, rfl⟩ := R.tells_of_calledBack hr hg
    exact hresult u hu.le result _ _ (R.tells_iff.mp htells).1 ht

theorem Settles.over {t n : ℕ} {e : JobEnd} (h : R.Settles t n e) :
    (∃ j, R.Drops t j ∧ j.seq = n) ∨ R.Ends t n := by
  cases h with
  | dropped h hn => exact .inl ⟨_, h, hn⟩
  | completed h => exact .inr h
  | failed h => exact .inr h

/-- A job whose work has returned a value only fails if its callback panics. -/
theorem not_failed_of_completed {t u n : ℕ} {v : Option V} (hp : ¬ R.Panics t)
    (hw : R.WorkEnds u n (.result (.ok v))) :
    ¬ (R.Panics t ∨ ∃ u ≤ t, ∃ e, R.WorkEnds u n (.result (.error e))) := by
  rintro (hpanics | ⟨u', -, e, hw'⟩)
  · exact hp hpanics
  · cases (R.workEnds_unique hw hw').2

/-- **A job is over once**, and in one way. -/
theorem settles_unique {t u n : ℕ} {e e' : JobEnd} (h : R.Settles t n e)
    (h' : R.Settles u n e') : t = u ∧ e = e' := by
  have hdrops : ∀ {t u : ℕ} {j : Job σ V}, R.Drops t j → j.seq = n → ¬ R.Ends u n := by
    rintro t u j hd rfl hu
    exact R.not_busy_of_drops hd hu.1
  cases h with
  | @dropped j hj hn =>
    cases h' with
    | @dropped k hk hkn => exact ⟨(R.leaves_unique hj.1 hk.1 (hn.trans hkn.symm)).1, rfl⟩
    | completed hu | failed hu => exact absurd hu (hdrops hj hn)
  | completed ht hp hle hw =>
    cases h' with
    | dropped hk hkn => exact absurd ht (hdrops hk hkn)
    | completed hu => exact ⟨R.ends_unique ht hu, rfl⟩
    | failed hu hf =>
      obtain rfl := R.ends_unique ht hu
      exact absurd hf (not_failed_of_completed hp hw)
  | failed ht hf =>
    cases h' with
    | dropped hk hkn => exact absurd ht (hdrops hk hkn)
    | failed hu => exact ⟨R.ends_unique ht hu, rfl⟩
    | completed hu hp hle hw =>
      obtain rfl := R.ends_unique ht hu
      exact absurd hf (not_failed_of_completed hp hw)

theorem settles_of_ends {t n : ℕ} (h : R.Ends t n) :
    ∃ e, R.Settles t n e ∧ (R.after (t + 1)).counts = (R.after t).counts.plus e := by
  obtain ⟨⟨r, hr, rfl⟩, hc⟩ := h
  have hbusy : (R.after (t + 1)).current.isSome ≠ (R.after t).current.isSome := by simp [hc, hr]
  cases R.tally t with
  | keeps _ _ busy => exact absurd busy hbusy
  | accepts _ _ busy => exact absurd busy hbusy
  | refuses _ _ _ busy => exact absurd busy hbusy
  | starts _ _ idle | drops _ _ idle => rw [hr] at idle; cases idle
  | ends hm ha _ _ hr' h _ counts =>
    obtain rfl := Option.some.inj (hr.symm.trans hr')
    exact ⟨_, settles_of_endsWith hm ha hr h hc, counts⟩

/-- **The end of a job is counted.** -/
theorem counts_of_settles {t n : ℕ} {e : JobEnd} (h : R.Settles t n e) :
    (R.after (t + 1)).counts = (R.after t).counts.plus e := by
  rcases h.over with ⟨j, hj, hn⟩ | hends
  · obtain ⟨-, rfl⟩ := settles_unique h (.dropped hj hn)
    have hlen : (jobsIn (R.after t).queue).length =
        (jobsIn (R.after (t + 1)).queue).length + 1 := by
      rw [show (R.after t).queue = _ from hj.1, jobsIn_cons_job, List.length_cons]
    cases R.tally t with
    | keeps _ jobs => rw [jobs] at hlen; omega
    | accepts _ jobs => rw [jobs, List.length_append] at hlen; omega
    | refuses _ _ jobs => rw [jobs] at hlen; omega
    | starts _ _ _ busy => rw [hj.2] at busy; cases busy
    | drops _ _ _ _ counts => exact counts
    | ends _ _ _ _ hr => rw [(R.of_leaves hj.1).2] at hr; cases hr
  · obtain ⟨e', he', hcounts⟩ := settles_of_ends hends
    rw [(settles_unique h he').2, hcounts]

theorem counts_of_newJob {t : ℕ} {j : Job σ V} (h : R.newJob t = some j) :
    (R.after (t + 1)).counts = (R.after t).counts.accepting := by
  have hnone : R.newJob t ≠ none := by simp [h]
  cases R.tally t with
  | keeps hq => exact absurd (R.quiet_of_not_enqueue hq).1 hnone
  | accepts _ _ _ counts => exact counts
  | refuses _ ho => exact absurd (R.newJob_of_not_isOpen ho) hnone
  | starts hq | drops hq => exact absurd (R.quiet_of_request hq).1 hnone
  | ends _ _ hq => exact absurd (R.quiet_of_request hq).1 hnone

theorem counts_of_isRefused {t : ℕ} (h : R.isRefused t = true) :
    (R.after (t + 1)).counts = (R.after t).counts.plus .dropped := by
  have hquiet : R.isRefused t ≠ false := by simp [h]
  cases R.tally t with
  | keeps hq => exact absurd (R.quiet_of_not_enqueue hq).2 hquiet
  | accepts hj =>
    cases ((R.isRefused_iff t).mp h).1.symm.trans (R.isOpen_of_newJob hj)
  | refuses _ _ _ _ counts => exact counts
  | starts hq | drops hq => exact absurd (R.quiet_of_request hq).2 hquiet
  | ends _ _ hq => exact absurd (R.quiet_of_request hq).2 hquiet

theorem counts_of_quiet {t : ℕ} (hn : R.newJob t = none) (hr : R.isRefused t = false)
    (hs : ∀ n e, ¬ R.Settles t n e) : (R.after (t + 1)).counts = (R.after t).counts := by
  cases R.tally t with
  | keeps _ _ _ counts => exact counts
  | accepts hj => cases (show R.newJob t = _ from hj).symm.trans hn
  | refuses hq ho => rw [(R.isRefused_iff t).mpr ⟨ho, _, _, _, hq⟩] at hr; cases hr
  | starts _ _ _ _ counts => exact counts
  | drops _ queue _ idle => exact absurd (.dropped ⟨queue, idle⟩ rfl) (hs _ _)
  | ends hm ha _ _ hr h idle => exact absurd (settles_of_endsWith hm ha hr h idle) (hs _ _)

variable (R) in
/-- A job that has been accepted is not over: it is queued or being run. -/
def Pending (t : ℕ) (j : Job σ V) : Prop := .job j ∈ (R.after t).queue ∨ R.Busy t j.seq

theorem Settles.lt_taken {t u n : ℕ} {e : JobEnd} (h : R.Settles t n e) (htu : t < u) :
    n < R.taken u := by
  rcases h.over with ⟨j, hj, rfl⟩ | ⟨hbusy, -⟩
  · have hle := R.taken_mono (show t + 1 ≤ u from htu)
    rw [R.taken_succ_of_leaves hj.1, ← R.seq_of_leaves hj.1] at hle
    exact hle
  · obtain ⟨s, hst, j, -, hj, rfl, -⟩ := R.starts_of_busy hbusy
    have hle := R.taken_mono (show s + 1 ≤ u by omega)
    rw [R.taken_succ_of_leaves hj.1, ← R.seq_of_leaves hj.1] at hle
    exact hle

/-- **A job that has been accepted is over or it is not.** -/
theorem settled_iff {t : ℕ} {j : Job σ V} (hj : j ∈ R.accepted t) :
    (∃ u < t, ∃ e, R.Settles u j.seq e) ↔ ¬ R.Pending t j := by
  constructor
  · rintro ⟨u, hu, e, h⟩ (hqueue | hbusy)
    · exact absurd (h.lt_taken hu) (Nat.not_lt.mpr ((R.mem_queue_iff_taken_le hj).mp hqueue))
    · rcases h.over with ⟨k, hk, hkn⟩ | hends
      · exact R.not_busy_of_drops hk (hkn ▸ hbusy)
      · exact R.not_busy_of_ends hends hu hbusy
  · intro hp
    have hlt : j.seq < R.taken t :=
      Nat.lt_of_not_le fun hle => hp (.inl ((R.mem_queue_iff_taken_le hj).mpr hle))
    obtain ⟨u, hu, k, hk, hseq⟩ := R.exists_leaves hlt
    rcases R.starts_or_drops hk with ⟨hs, -⟩ | ⟨hd, -⟩
    · rcases R.ends_or_busy (R.busy_of_starts hs) hu with ⟨e, -, het, hends⟩ | hbusy
      · obtain ⟨e', he', -⟩ := settles_of_ends hends
        exact ⟨e, het, e', hseq ▸ he'⟩
      · exact absurd (.inr (hseq ▸ hbusy)) hp
    · exact ⟨u, hu, .dropped, .dropped hd hseq⟩

end Run

end SymbolIndex
