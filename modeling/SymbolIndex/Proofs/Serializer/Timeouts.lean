import Mathlib.Logic.Function.Basic
import SymbolIndex.Proofs.Serializer.Accounts
import SymbolIndex.Proofs.Serializer.Cancellation
import SymbolIndex.Proofs.Serializer.Forgetting
import SymbolIndex.Proofs.Serializer.Rest

/-!
# Timeouts

A thread that waits for a job may stop doing so before it has been told anything. That releases the
thread, and nothing else: had it left the job behind in the first place, the same would have
happened move by move.

* `Timeout`, `Run.TimesOut`: a thread stops waiting for its job;
* `Run.leaving`, `Run.after_leaving`: what happens if it leaves the job behind instead;
* `Run.starts_leaving`, `Run.settles_leaving`: the same happens to all jobs;
* `Run.Fate`: what becomes of the job itself;
* `Run.Releases`, `Run.releases_of_timesOut`: a timeout releases the caller and nothing else.
-/

namespace SymbolIndex

open Serializer

variable {σ V : Type}

/-- A call of a thread that stops waiting for it. -/
structure Timeout (σ V : Type) where
  /-- the move in which the thread asks for the job -/
  asked : ℕ
  kind : JobKind
  script : Script σ V
  /-- the number of the job -/
  seq : ℕ
  /-- how many moves have been made when the thread stops waiting -/
  released : ℕ

/-- The job that the thread waits for. -/
def Timeout.job (C : Timeout σ V) : Job σ V := ⟨C.seq, C.kind, C.script, .reply⟩

/-- The job that it might have left behind. -/
def Timeout.left (C : Timeout σ V) : Job σ V := ⟨C.seq, C.kind, C.script, .discard⟩

theorem Timeout.forgetting_job (C : Timeout σ V) : C.job.forgetting C.seq = C.left := by
  rw [job, Job.forgetting, Delivery.forgetting_reply]
  rfl

namespace Run

variable (R : Run σ V) (C : Timeout σ V)

/-- The call is accepted, and the thread has not been told anything when it stops waiting. -/
structure TimesOut : Prop where
  asks : R.moves C.asked = .call C.kind C.script
  accepted : ((R.after C.asked).call C.kind C.script).1 = .ok C.seq
  waits : C.asked < C.released
  unanswered : (R.after C.released).replyTo C.seq = none

/-- The run in which the thread leaves the job behind instead, and all else is the same. -/
def leaving : Run σ V :=
  { R with moves := Function.update R.moves C.asked (.submit C.kind C.script) }

variable {R C}

/-! ## The same run, but for the caller -/

theorem moves_leaving {u : ℕ} (h : u ≠ C.asked) : (R.leaving C).moves u = R.moves u :=
  Function.update_of_ne h _ _

theorem moves_leaving_asked : (R.leaving C).moves C.asked = .submit C.kind C.script :=
  Function.update_self _ _ _

theorem TimesOut.number (h : R.TimesOut C) :
    C.seq = (R.after C.asked).nextSeq ∧ (R.after C.asked).isRunning = true := by
  have ha := h.accepted
  rw [call] at ha
  split at ha
  · next hr =>
    rw [enqueue_of_isOpen (isOpen_of_isRunning hr)] at ha
    exact ⟨(Except.ok.inj ha).symm, hr⟩
  · cases ha

theorem TimesOut.request (h : R.TimesOut C) :
    R.request C.asked = some (.enqueue C.kind C.script .reply) := by
  rw [Run.request, h.asks, requestOf, if_pos h.number.2]

theorem TimesOut.serves (h : R.TimesOut C) :
    R.after (C.asked + 1) = (R.after C.asked).serve (.enqueue C.kind C.script .reply) := by
  have hmove : (R.after C.asked).move (.call C.kind C.script) =
      (R.after C.asked).serveAll ((R.after C.asked).requestOf (.call C.kind C.script)) :=
    move_eq_serveAll nofun nofun
  rw [after, h.asks, hmove, ← h.asks, ← Run.request, h.request]
  rfl

theorem TimesOut.newJob (h : R.TimesOut C) : R.newJob C.asked = some C.job := by
  rw [Run.newJob, h.request, Option.bind_some, acceptedBy,
    if_pos (isOpen_of_isRunning h.number.2), ← h.number.1]
  rfl

theorem forgetting_after {u n : ℕ} (h : (R.after u).nextSeq ≤ n) :
    (R.after u).forgetting n = R.after u := by
  have hlt : ∀ j ∈ R.accepted u, j.seq ≠ n := fun j hj =>
    ((R.seq_lt_of_mem_accepted hj).trans_le h).ne
  refine forgetting_of_unused (fun j hj => hlt j ((R.jobsIn_suffix u).subset hj))
    (fun r hr => ?_) fun reply hreply => ?_
  · obtain ⟨j, hj, hseq, -⟩ := R.mem_accepted_of_busy hr
    exact hseq ▸ hlt j hj
  · obtain ⟨v, hv, j, hj, hseq, -⟩ := (R.mem_replies_iff u reply.1 reply.2).mp hreply
    exact hseq ▸ hlt j ((R.accepted_prefix hv.le).subset hj)

theorem after_leaving_before {u : ℕ} (h : u ≤ C.asked) : (R.leaving C).after u = R.after u := by
  induction u with
  | zero => rfl
  | succ u ih =>
    rw [after, after, ih (by omega), moves_leaving (by omega)]

/-- **Leaving the job behind makes no difference** but that nobody waits for it. -/
theorem after_leaving (h : R.TimesOut C) (u : ℕ) :
    (R.leaving C).after u = (R.after u).forgetting C.seq := by
  have hbefore : ∀ {u}, u ≤ C.asked → (R.leaving C).after u = (R.after u).forgetting C.seq := by
    intro u hu
    have hseq := R.nextSeq_mono hu
    rw [← h.number.1] at hseq
    rw [after_leaving_before hu, forgetting_after hseq]
  induction u with
  | zero => exact hbefore (Nat.zero_le _)
  | succ u ih =>
    rcases lt_trichotomy u C.asked with hu | rfl | hu
    · exact hbefore hu
    · rw [after, ih, moves_leaving_asked, h.serves, h.number.1, forgetting_move_submit]
    · have hne : C.seq ≠ (R.after u).nextSeq := by
        have hmono := R.nextSeq_mono (show C.asked + 1 ≤ u from hu)
        obtain ⟨hseq, hsucc⟩ := R.seq_of_newJob h.newJob
        rw [show C.job.seq = C.seq from rfl] at hseq
        omega
      rw [after, ih, moves_leaving hu.ne', forgetting_move hne, after]

theorem queue_leaving (h : R.TimesOut C) (u : ℕ) :
    ((R.leaving C).after u).queue = (R.after u).queue.map (Message.forgetting C.seq) := by
  rw [after_leaving h]
  rfl

theorem current_leaving (h : R.TimesOut C) (u : ℕ) :
    ((R.leaving C).after u).current = (R.after u).current.map (Running.forgetting C.seq) := by
  rw [after_leaving h]
  rfl

/-! ## What is asked for -/

theorem request_leaving (h : R.TimesOut C) {u : ℕ} (hu : u ≠ C.asked) :
    (R.leaving C).request u = R.request u := by
  rw [Run.request, after_leaving h, moves_leaving hu, forgetting_requestOf, Run.request]

theorem request_leaving_asked :
    (R.leaving C).request C.asked = some (.enqueue C.kind C.script .discard) := by
  rw [Run.request, moves_leaving_asked]
  rfl

theorem newJob_leaving_asked (h : R.TimesOut C) : (R.leaving C).newJob C.asked = some C.left := by
  rw [Run.newJob, request_leaving_asked, after_leaving_before le_rfl, Option.bind_some, acceptedBy,
    if_pos (isOpen_of_isRunning h.number.2), ← h.number.1]
  rfl

theorem clearsQueue_leaving (h : R.TimesOut C) (u : ℕ) :
    (R.leaving C).ClearsQueue u ↔ R.ClearsQueue u := by
  unfold ClearsQueue
  rcases eq_or_ne u C.asked with rfl | hu
  · rw [request_leaving_asked, h.request]
    exact iff_of_false nofun nofun
  · rw [request_leaving h hu]

theorem isRefused_leaving (h : R.TimesOut C) (u : ℕ) :
    (R.leaving C).isRefused u = R.isRefused u := by
  have hopen : ((R.leaving C).after u).isOpen = (R.after u).isOpen := by
    rw [after_leaving h]
    rfl
  rcases eq_or_ne u C.asked with rfl | hu
  · rw [isRefused, isRefused, hopen, isOpen_of_isRunning h.number.2, Bool.not_true,
      Bool.and_false, Bool.and_false]
  · rw [isRefused, isRefused, hopen, request_leaving h hu]

/-! ## What happens to the jobs -/

theorem busy_leaving (h : R.TimesOut C) (u k : ℕ) : (R.leaving C).Busy u k ↔ R.Busy u k := by
  unfold Busy
  rw [current_leaving h]
  cases (R.after u).current with
  | none => exact iff_of_false nofun nofun
  | some r => simp [Running.forgetting]

theorem idle_leaving (h : R.TimesOut C) (u : ℕ) :
    ((R.leaving C).after u).current = none ↔ (R.after u).current = none := by
  rw [current_leaving h, Option.map_eq_none_iff]

theorem leaves_leaving (h : R.TimesOut C) {u : ℕ} {k : Job σ V} :
    (R.leaving C).Leaves u k ↔ ∃ j, R.Leaves u j ∧ j.forgetting C.seq = k := by
  unfold Leaves
  rw [queue_leaving h, queue_leaving h]
  constructor
  · intro hk
    have hlength := congrArg List.length hk
    rw [List.length_cons, List.length_map, List.length_map] at hlength
    rcases R.queue_succ u with ⟨j, -, -, -, hq⟩ | ⟨-, -, hq | hq⟩ | ⟨-, -, -, msg, hq⟩
    · rw [hq, List.length_append] at hlength; omega
    · rw [hq] at hlength; omega
    · rw [hq, List.length_append] at hlength; omega
    · rw [hq, List.map_cons] at hk
      cases msg with
      | job j => exact ⟨j, hq, Message.job.inj (List.cons.inj hk).1⟩
      | stop => cases (List.cons.inj hk).1
  · rintro ⟨j, hj, rfl⟩
    rw [hj]
    rfl

theorem drops_leaving (h : R.TimesOut C) {u : ℕ} {k : Job σ V} :
    (R.leaving C).Drops u k ↔ ∃ j, R.Drops u j ∧ j.forgetting C.seq = k := by
  unfold Drops
  rw [leaves_leaving h, idle_leaving h]
  exact ⟨fun ⟨⟨j, hj, hk⟩, hc⟩ => ⟨j, ⟨hj, hc⟩, hk⟩, fun ⟨j, ⟨hj, hc⟩, hk⟩ => ⟨⟨j, hj, hk⟩, hc⟩⟩

theorem starts_leaving (h : R.TimesOut C) {u : ℕ} {k : Job σ V} :
    (R.leaving C).Starts u k ↔ ∃ j, R.Starts u j ∧ j.forgetting C.seq = k := by
  constructor
  · intro hk
    obtain ⟨j, hj, hjk⟩ := (leaves_leaving h).mp hk.1
    rcases R.starts_or_drops hj with ⟨hs, -⟩ | ⟨hd, -⟩
    · exact ⟨j, hs, hjk⟩
    · cases ((idle_leaving h _).mpr hd.2).symm.trans hk.2
  · rintro ⟨j, hj, rfl⟩
    refine ⟨(leaves_leaving h).mpr ⟨j, hj.1, rfl⟩, ?_⟩
    rw [current_leaving h, hj.2, after_leaving h]
    rfl

theorem ends_leaving (h : R.TimesOut C) (u k : ℕ) : (R.leaving C).Ends u k ↔ R.Ends u k := by
  unfold Ends
  rw [busy_leaving h, idle_leaving h]

theorem nextTurn_leaving (h : R.TimesOut C) {u : ℕ} {r : Running σ V} :
    ((R.leaving C).after u).nextTurn (r.forgetting C.seq) =
      ((R.after u).nextTurn r).forgetting C.seq := by
  rw [after_leaving h, forgetting_nextTurn]

theorem panics_leaving (h : R.TimesOut C) (u : ℕ) : (R.leaving C).Panics u ↔ R.Panics u := by
  unfold Panics
  rw [current_leaving h]
  constructor
  · rintro ⟨r', p, hr, hp⟩
    obtain ⟨r, hr₀, rfl⟩ := Option.map_eq_some_iff.mp hr
    rw [nextTurn_leaving h] at hp
    refine ⟨r, p, hr₀, ?_⟩
    cases ht : (R.after u).nextTurn r <;> rw [ht] at hp <;> cases hp
    rfl
  · rintro ⟨r, p, hr, hp⟩
    refine ⟨r.forgetting C.seq, p, by rw [hr]; rfl, ?_⟩
    rw [nextTurn_leaving h, hp]
    rfl

theorem workEnds_leaving (h : R.TimesOut C) (u k : ℕ) (o : Outcome V) :
    (R.leaving C).WorkEnds u k o ↔ R.WorkEnds u k o := by
  have hending : ((R.leaving C).after u).ending ((R.leaving C).moves u) =
      (R.after u).ending (R.moves u) := by
    rw [after_leaving h, forgetting_ending]
    rcases eq_or_ne u C.asked with rfl | hu
    · rw [moves_leaving_asked, h.asks]
      rfl
    · rw [moves_leaving hu]
  unfold WorkEnds
  rw [hending]

theorem exists_drops_leaving (h : R.TimesOut C) (u k : ℕ) :
    (∃ j, (R.leaving C).Drops u j ∧ j.seq = k) ↔ ∃ j, R.Drops u j ∧ j.seq = k := by
  constructor
  · rintro ⟨j', hj', rfl⟩
    obtain ⟨j, hj, rfl⟩ := (drops_leaving h).mp hj'
    exact ⟨j, hj, rfl⟩
  · rintro ⟨j, hj, rfl⟩
    exact ⟨_, (drops_leaving h).mpr ⟨j, hj, rfl⟩, rfl⟩

theorem Settles.of_alike {R' : Run σ V} {u k : ℕ} {e : JobEnd} (h : R.Settles u k e)
    (hdrops : (∃ j, R.Drops u j ∧ j.seq = k) → ∃ j, R'.Drops u j ∧ j.seq = k)
    (hends : R.Ends u k → R'.Ends u k) (hpanics : R.Panics u ↔ R'.Panics u)
    (hwork : ∀ v o, R.WorkEnds v k o → R'.WorkEnds v k o) : R'.Settles u k e := by
  cases h with
  | dropped hd hn =>
    obtain ⟨j, hj, hn⟩ := hdrops ⟨_, hd, hn⟩
    exact .dropped hj hn
  | completed he hp hu hw => exact .completed (hends he) (hpanics.not.mp hp) hu (hwork _ _ hw)
  | failed he hf =>
    refine .failed (hends he) (hf.imp hpanics.mp fun ⟨v, hv, e, hw⟩ => ⟨v, hv, e, hwork _ _ hw⟩)

/-- **All jobs come to the same ends.** -/
theorem settles_leaving (h : R.TimesOut C) (u k : ℕ) (e : JobEnd) :
    (R.leaving C).Settles u k e ↔ R.Settles u k e := by
  have hdrops := exists_drops_leaving h u k
  have hends := ends_leaving h u k
  have hpanics := panics_leaving h u
  exact ⟨fun hs => hs.of_alike hdrops.mp hends.mp hpanics fun v o => (workEnds_leaving h v k o).mp,
    fun hs => hs.of_alike hdrops.mpr hends.mpr hpanics.symm
      fun v o => (workEnds_leaving h v k o).mpr⟩

/-! ## What becomes of the job -/

theorem mem_accepted_job (h : R.TimesOut C) {u : ℕ} (hu : C.asked < u) : C.job ∈ R.accepted u :=
  R.mem_accepted_of_newJob h.newJob hu

theorem mem_accepted_left (h : R.TimesOut C) {u : ℕ} (hu : C.asked < u) :
    C.left ∈ (R.leaving C).accepted u :=
  Run.mem_accepted_of_newJob _ (newJob_leaving_asked h) hu

theorem eq_job (h : R.TimesOut C) {u : ℕ} {j : Job σ V} (hj : j ∈ R.accepted u)
    (hn : j.seq = C.seq) : j = C.job :=
  R.eq_of_seq hj (mem_accepted_job h (Nat.lt_succ_self _)) hn

/-- The job is only over once the thread has stopped waiting, which it would have been told else. -/
theorem released_le_of_settles (h : R.TimesOut C) {u : ℕ} {e : JobEnd}
    (hs : R.Settles u C.seq e) : C.released ≤ u := by
  by_contra hlt
  have hsilent : ∀ o, (R.after C.released).replyTo C.seq ≠ some o := by
    intro o ho
    cases h.unanswered.symm.trans ho
  rcases hs.over with ⟨j, hj, hn⟩ | hends
  · obtain rfl := eq_job h (R.mem_accepted_of_leaves hj.1) hn
    exact hsilent _ (R.replyTo_of_drops hj rfl (by omega))
  · obtain ⟨v, hv, o, hw⟩ := R.exists_workEnds hends
    obtain ⟨r, hr, hseq, -⟩ := R.workEnds_cases hw
    obtain ⟨j, hj, hn, -⟩ := R.mem_accepted_of_busy hr
    obtain rfl := eq_job h hj (hn.trans hseq)
    exact hsilent o (R.replyTo_eq_some_iff.mpr ⟨v, by omega, C.job, hj, rfl, rfl, .inr hw⟩)

variable (R C) in
/-- What has become of the job, which is the same in both runs. -/
inductive Fate (u : ℕ) : Prop
  /-- it is queued or being run -/
  | pending (job : R.Pending u C.job) (left : (R.leaving C).Pending u C.left)
  /-- it was started once, and has come to its end -/
  | ran {s v e : ℕ} {o : Outcome V} {how : JobEnd}
    (starts : R.Starts s C.job ∧ (R.leaving C).Starts s C.left)
    (once : ∀ s', R.Starts s' C.job ∨ (R.leaving C).Starts s' C.left → s' = s)
    (workEnds : R.WorkEnds v C.seq o ∧ (R.leaving C).WorkEnds v C.seq o)
    (settles : R.Settles e C.seq how ∧ (R.leaving C).Settles e C.seq how)
    (order : s < v ∧ v ≤ e ∧ C.released ≤ e ∧ e < u)
  /-- it was dropped, because the queue had been cleared while it waited -/
  | dropped {v e : ℕ} (kind : C.kind = .cancellable)
    (clears : R.ClearsQueue v ∧ (R.leaving C).ClearsQueue v)
    (queued : .job C.job ∈ (R.after v).queue ∧ .job C.left ∈ ((R.leaving C).after v).queue)
    (drops : R.Drops e C.job ∧ (R.leaving C).Drops e C.left)
    (settles : R.Settles e C.seq .dropped ∧ (R.leaving C).Settles e C.seq .dropped)
    (order : v < e ∧ C.released ≤ e ∧ e < u)

theorem starts_left (h : R.TimesOut C) {u : ℕ} :
    (R.leaving C).Starts u C.left ↔ R.Starts u C.job := by
  rw [starts_leaving h]
  constructor
  · rintro ⟨j, hj, hleft⟩
    have hn : j.seq = C.seq := congrArg Job.seq hleft
    rwa [← eq_job h (R.mem_accepted_of_leaves hj.1) hn]
  · exact fun hj => ⟨C.job, hj, C.forgetting_job⟩

theorem pending_left (h : R.TimesOut C) {u : ℕ} (hu : C.asked < u) :
    (R.leaving C).Pending u C.left ↔ R.Pending u C.job := by
  refine not_iff_not.mp ?_
  rw [← settled_iff (mem_accepted_left h hu), ← settled_iff (mem_accepted_job h hu)]
  exact exists_congr fun v => and_congr_right fun _ => exists_congr fun e =>
    settles_leaving h v C.seq e

/-- **The job is run once, or dropped**, as it would be if it had been left behind. -/
theorem fate (h : R.TimesOut C) {u : ℕ} (hu : C.asked < u) : R.Fate C u := by
  by_cases hp : R.Pending u C.job
  · exact .pending hp ((pending_left h hu).mpr hp)
  obtain ⟨e, heu, how, hs⟩ := (settled_iff (mem_accepted_job h hu)).mpr hp
  have hreleased := released_le_of_settles h hs
  rcases hs.over with ⟨j, hj, hn⟩ | hends
  · obtain rfl := eq_job h (R.mem_accepted_of_leaves hj.1) hn
    obtain ⟨hkind, v, hve, hclears, hqueue⟩ := (R.drops_iff hj.1).mp hj
    have hdrops : (R.leaving C).Drops e C.left :=
      (drops_leaving h).mpr ⟨C.job, hj, C.forgetting_job⟩
    have hqueue' : .job C.left ∈ ((R.leaving C).after v).queue := by
      rw [queue_leaving h, ← C.forgetting_job]
      exact List.mem_map_of_mem hqueue
    exact .dropped hkind ⟨hclears, (clearsQueue_leaving h v).mpr hclears⟩ ⟨hqueue, hqueue'⟩
      ⟨hj, hdrops⟩ ⟨.dropped hj rfl, .dropped hdrops rfl⟩ ⟨hve, hreleased, heu⟩
  · obtain ⟨s, hse, j, hj, hstart, hn, -⟩ := R.starts_of_busy hends.1
    obtain rfl := eq_job h hj hn
    have honce : ∀ s', R.Starts s' C.job → s' = s :=
      fun s' hs' => (R.leaves_unique hs'.1 hstart.1 rfl).1
    obtain ⟨v, hve, o, hw⟩ := R.exists_workEnds hends
    have hsv : s < v := by
      obtain ⟨r, hr, hseq, -⟩ := R.workEnds_cases hw
      obtain ⟨s', hs', k, hk, hstart', hkn, -⟩ := R.starts_of_busy ⟨r, hr, hseq⟩
      obtain rfl := eq_job h hk hkn
      rwa [← honce s' hstart']
    exact .ran ⟨hstart, (starts_left h).mpr hstart⟩
      (fun s' hs' => honce s' (hs'.elim id (starts_left h).mp))
      ⟨hw, (workEnds_leaving h v C.seq o).mpr hw⟩ ⟨hs, (settles_leaving h e C.seq how).mpr hs⟩
      ⟨hsv, hve, hreleased, heu⟩

theorem not_pending_of_rest {u : ℕ} (hr : (R.after u).ownerStep = none)
    (hc : (R.after u).current = none) (hb : (R.after u).owner ≠ .unborn) (j : Job σ V) :
    ¬ R.Pending u j := by
  have hidle := R.idle_of_rest hr hc hb
  rintro (hqueue | ⟨r, hr, -⟩)
  · have hm := mem_jobsIn.mpr hqueue
    rw [hidle.queue] at hm
    cases hm
  · cases hc.symm.trans hr

/-! ## Timeouts -/

variable (R C) in
/-- A timeout releases the caller of a job and nothing else. -/
structure Releases : Prop where
  /-- until the thread asks for the job, both runs are the same -/
  before : ∀ u ≤ C.asked, (R.leaving C).after u = R.after u
  /-- then the job is accepted under the same number -/
  accepted : R.newJob C.asked = some C.job ∧ (R.leaving C).newJob C.asked = some C.left
  /-- the same jobs wait at the same places of the queue, and the job itself among them -/
  queue : ∀ u, ((R.leaving C).after u).queue = (R.after u).queue.map (Message.forgetting C.seq)
  /-- the same is asked for and comes to the same -/
  requests : ∀ u, u ≠ C.asked → (R.leaving C).request u = R.request u
  refused : ∀ u, (R.leaving C).isRefused u = R.isRefused u
  front : ∀ u, ((R.leaving C).after u).front =
    { (R.after u).front with queue := ((R.leaving C).after u).queue }
  /-- the owner is at the same place of the same job -/
  current : ∀ u,
    ((R.leaving C).after u).current = (R.after u).current.map (Running.forgetting C.seq)
  /-- the jobs have had the same effects -/
  effects : ∀ u, ((R.leaving C).after u).state = (R.after u).state ∧
    ((R.leaving C).after u).log = (R.after u).log
  /-- all other callers have been told the same -/
  replies : ∀ u n, n ≠ C.seq → ((R.leaving C).after u).replyTo n = (R.after u).replyTo n
  /-- as many jobs have been counted, in the same way -/
  counts : ∀ u, ((R.leaving C).after u).counts = (R.after u).counts
  /-- the same jobs are started and dropped, in the same moves -/
  starts : ∀ u k, (R.leaving C).Starts u k ↔ ∃ j, R.Starts u j ∧ j.forgetting C.seq = k
  drops : ∀ u k, (R.leaving C).Drops u k ↔ ∃ j, R.Drops u j ∧ j.forgetting C.seq = k
  /-- their work ends with the same outcomes, and they come to the same ends -/
  workEnds : ∀ u n o, (R.leaving C).WorkEnds u n o ↔ R.WorkEnds u n o
  ends : ∀ u n, (R.leaving C).Ends u n ↔ R.Ends u n
  settles : ∀ u n e, (R.leaving C).Settles u n e ↔ R.Settles u n e
  /-- when the thread stops waiting, the job is queued or being run -/
  pending : R.Pending C.released C.job
  /-- it is run once, or dropped -/
  fate : ∀ u, C.asked < u → R.Fate C u
  /-- and that is done when the owner has nothing left to do -/
  rests : ∀ u, (R.after u).ownerStep = none → (R.after u).current = none →
    (R.after u).owner ≠ .unborn → ¬ R.Pending u C.job

/-- **A timeout releases only the caller.** -/
theorem releases_of_timesOut (h : R.TimesOut C) : R.Releases C where
  before _ := after_leaving_before
  accepted := ⟨h.newJob, newJob_leaving_asked h⟩
  queue := queue_leaving h
  requests _ := request_leaving h
  refused := isRefused_leaving h
  front u := by rw [after_leaving h]; rfl
  current := current_leaving h
  effects u := by rw [after_leaving h]; exact ⟨rfl, rfl⟩
  replies u n hn := by rw [after_leaving h, replyTo_forgetting _ hn]
  counts u := by rw [after_leaving h]; rfl
  starts _ _ := starts_leaving h
  drops _ _ := drops_leaving h
  workEnds := workEnds_leaving h
  ends := ends_leaving h
  settles := settles_leaving h
  pending := by
    by_contra hp
    obtain ⟨u, hu, e, hs⟩ := (settled_iff (mem_accepted_job h h.waits)).mpr hp
    have := released_le_of_settles h hs
    omega
  fate _ := Run.fate h
  rests _ hr hc hb := not_pending_of_rest hr hc hb C.job

/-- A thread waits for a job that is held up at a gate, and stops waiting before it opens. -/
def impatientRun : Run ℕ ℕ where
  name := "index"
  background := true
  state := 0
  moves
    | 0 => .start
    | 1 => .call .uninterruptible [.gate, .perform fun _ n => (.ok n, n + 1)]
    | 2 => .submit .uninterruptible [.note 7]
    | 5 => .release
    | _ => .owner

/-- It stops waiting after five moves. -/
def impatientCall : Timeout ℕ ℕ where
  asked := 1
  kind := .uninterruptible
  script := [.gate, .perform fun _ n => (.ok n, n + 1)]
  seq := 0
  released := 5

theorem releases_impatientCall :
    impatientRun.TimesOut impatientCall ∧ impatientRun.Releases impatientCall :=
  have h : impatientRun.TimesOut impatientCall := ⟨rfl, rfl, by decide, rfl⟩
  ⟨h, releases_of_timesOut h⟩

example : (impatientRun.after 12).state = 1 ∧
    ((impatientRun.leaving impatientCall).after 12).state = 1 ∧
    (impatientRun.after 12).counts = ⟨2, 2, 0, 0⟩ ∧
    ((impatientRun.leaving impatientCall).after 12).counts = ⟨2, 2, 0, 0⟩ :=
  ⟨rfl, rfl, rfl, rfl⟩

end Run

end SymbolIndex
