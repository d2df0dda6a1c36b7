import SymbolIndex.Proofs.Serializer.Ready
import SymbolIndex.Proofs.Serializer.Shut

/-!
# The owner at rest

Whatever the owner does leaves less to do, so it comes to rest. Then either a job is held up, or all
jobs that have been accepted are done and everybody who waits for one has been told about it.

* `weight_lt_of_ownerStep`, `ownerStep_settle`: the owner comes to rest;
* `Idle`, `Run.done_of_idle`: all jobs are done when none is left;
* `Run.done_of_rest`, `Run.exists_replyTo`: what is done when the owner rests.
-/

namespace SymbolIndex

variable {σ V : Type}

namespace Serializer

/-! ## Weights -/

theorem queueWeight_append (queue more : List (Message σ V)) :
    queueWeight (queue ++ more) = queueWeight queue + queueWeight more := by
  induction queue with
  | nil => simp [queueWeight]
  | cons msg queue ih => simp [queueWeight, ih, Nat.add_assoc]

theorem actionWeight_pos (a : Action σ V) : 0 < actionWeight a := by
  cases a <;> simp [actionWeight]

theorem runningWeight_pos (r : Running σ V) : 0 < runningWeight r := by
  unfold runningWeight framesWeight
  omega

/-- How many steps a request may lead to. -/
def requestWeight : Request σ V → ℕ
  | .enqueue _ script delivery => scriptWeight script + deliveryWeight delivery + 2
  | .stop | .drop => 1
  | _ => 0

theorem requestWeight_lt {a : Action σ V} {q : Request σ V} (h : a.request = some q) :
    requestWeight q < actionWeight a := by
  cases a with
  | submit kind script =>
    obtain rfl := Option.some.inj h
    simp [requestWeight, actionWeight, deliveryWeight]
  | submitWith kind script tag callback =>
    obtain rfl := Option.some.inj h
    simp only [requestWeight, actionWeight, deliveryWeight]
    omega
  | interrupt | interruptPending | stop =>
    obtain rfl := Option.some.inj h
    simp [requestWeight, actionWeight]
  | _ => cases h

theorem queueWeight_serve (s : Serializer σ V) (q : Request σ V) :
    queueWeight (s.serve q).queue ≤ queueWeight s.queue + requestWeight q := by
  have hstop : ∀ s' : Serializer σ V,
      queueWeight s'.stop.2.queue ≤ queueWeight s'.queue + 1 := by
    intro s'
    rcases (stop_queue s').2 with hq | hq
    · rw [hq]
      omega
    · rw [hq, queueWeight_append]
      simp [queueWeight, messageWeight]
  cases q with
  | enqueue kind script delivery =>
    cases ho : s.isOpen with
    | true =>
      rw [serve, enqueue_of_isOpen ho, queueWeight_append]
      simp [queueWeight, messageWeight, requestWeight]
    | false =>
      rw [serve, enqueue_of_not_isOpen ho]
      exact Nat.le_add_right _ _
  | start =>
    rw [serve, (start_queue s).1]
    exact Nat.le_add_right _ _
  | interrupt | interruptPending => exact Nat.le_add_right _ _
  | stop => exact hstop s
  | drop =>
    rw [serve, drop]
    split
    · exact Nat.le_add_right _ _
    · exact hstop s

theorem framesWeight_catcher {frame caller : Frame σ V} {outer rest : List (Frame σ V)}
    (h : catcher frame outer = some (caller, rest)) :
    framesWeight (caller :: rest) ≤ framesWeight outer := by
  obtain ⟨lead, rfl⟩ := catcher_suffix h
  clear h
  induction lead with
  | nil => exact le_rfl
  | cons f lead ih => exact ih.trans (Nat.le_add_left _ _)

theorem runningWeight_act {s s' : Serializer σ V} {r r' : Running σ V} {a : Action σ V}
    (ha : ∀ kind script catches, a ≠ .call kind script catches) (h : s.act r a = .goesOn s' r') :
    runningWeight r' ≤ runningWeight r := by
  cases a with
  | call kind script catches => exact absurd rfl (ha kind script catches)
  | perform work =>
    simp only [act] at h
    split at h <;> simp only [Turn.goesOn.injEq, reduceCtorEq] at h
    obtain ⟨-, rfl⟩ := h
    exact le_rfl
  | check | awaitInterrupt =>
    simp only [act] at h
    split at h <;> simp only [Turn.goesOn.injEq, reduceCtorEq] at h
    obtain ⟨-, rfl⟩ := h
    exact le_rfl
  | panic p =>
    obtain ⟨frame, outer, hc, -, rfl⟩ := exists_of_raise h
    have hframes := framesWeight_catcher hc
    simp only [runningWeight, framesWeight] at hframes ⊢
    omega
  | fail e | gate => cases h
  | _ =>
    obtain ⟨-, rfl⟩ := Turn.goesOn.inj h
    exact le_rfl

theorem weight_act {s s' : Serializer σ V} {r r' : Running σ V} {a : Action σ V}
    (h : s.act r a = .goesOn s' r') :
    queueWeight s'.queue + runningWeight r' <
      queueWeight s.queue + runningWeight r + actionWeight a := by
  have hqueue : queueWeight s'.queue < queueWeight s.queue + actionWeight a := by
    have hpos := actionWeight_pos a
    rw [show s'.queue = _ from congrArg Front.queue (front_act h)]
    cases ha : a.request with
    | none => exact Nat.lt_add_of_pos_right hpos
    | some q =>
      have hserve := queueWeight_serve s q
      have hlt := requestWeight_lt ha
      exact Nat.lt_of_le_of_lt hserve (Nat.add_lt_add_left hlt _)
  by_cases ha : ∃ kind script catches, a = .call kind script catches
  · obtain ⟨kind, script, catches, rfl⟩ := ha
    obtain ⟨rfl, rfl⟩ := Turn.goesOn.inj h
    simp only [actionWeight, runningWeight, framesWeight]
    omega
  · have := runningWeight_act (fun kind script catches he => ha ⟨kind, script, catches, he⟩) h
    omega

theorem weight_nextTurn {s s' : Serializer σ V} {r r' : Running σ V}
    (h : s.nextTurn r = .goesOn s' r') :
    queueWeight s'.queue + runningWeight r' < queueWeight s.queue + runningWeight r := by
  unfold nextTurn at h
  cases hs : r.frame.script with
  | nil => rw [hs] at h; cases h
  | cons a rest =>
    rw [hs] at h
    have hr : runningWeight r =
        runningWeight { r with frame := { r.frame with script := rest } } + actionWeight a := by
      simp only [runningWeight, framesWeight, hs, scriptWeight]
      omega
    have := weight_act h
    omega

/-- How many steps the job may lead to that is being run, if there is one. -/
def currentWeight (s : Serializer σ V) : ℕ := (s.current.map runningWeight).getD 0

theorem weight_eq (s : Serializer σ V) : s.weight = queueWeight s.queue + s.currentWeight := rfl

theorem currentWeight_finishFrame (s : Serializer σ V) (r : Running σ V) (result : JobResult V) :
    (s.finishFrame r result).currentWeight < runningWeight r := by
  have hpos := runningWeight_pos r
  unfold finishFrame finish
  cases ho : r.outer with
  | cons frame outer =>
    simp only [currentWeight, Option.map_some, Option.getD_some, runningWeight, framesWeight, ho]
    omega
  | nil =>
    cases hg : r.stage with
    | callback succeeded => exact hpos
    | work =>
      cases hd : r.delivery with
      | discard | reply => exact hpos
      | callback c =>
        simp only [currentWeight, Option.map_some, Option.getD_some, runningWeight, framesWeight,
          ho, hg, hd, deliveryWeight]
        omega

theorem currentWeight_unwind (s : Serializer σ V) (r : Running σ V) (p : Payload) :
    (s.unwind r p).currentWeight = 0 := by
  rw [currentWeight, current_unwind]
  rfl

theorem weight_begin {s : Serializer σ V} (hc : s.current = none) (j : Job σ V) :
    (s.begin j).weight < queueWeight s.queue + messageWeight (.job j) := by
  rw [weight_eq, show (s.begin j).queue = s.queue from congrArg Front.queue (front_begin s j)]
  refine Nat.add_lt_add_left ?_ _
  unfold begin dismiss
  split
  · have hzero : s.currentWeight = 0 := by rw [currentWeight, hc]; rfl
    have hpos : 0 < messageWeight (.job j) := by simp [messageWeight]
    cases j.delivery <;> exact hzero ▸ hpos
  · simp only [currentWeight, goOn, starting, Option.map_some, Option.getD_some, runningWeight,
      framesWeight, messageWeight]
    omega

/-- **Every step of the owner leaves less to do.** -/
theorem weight_lt_of_ownerStep {s s' : Serializer σ V} (h : s.ownerStep = some s') :
    s'.weight < s.weight := by
  have ha : s.owner = .alive := by
    unfold ownerStep at h
    split at h
    · assumption
    · cases h
  cases hc : s.current with
  | none =>
    rw [ownerStep_of_idle ha hc, receive] at h
    have hw : s.weight = queueWeight s.queue := by rw [weight_eq, currentWeight, hc]; rfl
    cases hq : s.queue with
    | nil => rw [hq] at h; cases h
    | cons msg queue =>
      rw [hw, hq, queueWeight]
      rw [hq] at h
      cases msg with
      | job j =>
        obtain rfl := Option.some.inj h
        rw [Nat.add_comm]
        exact weight_begin (s := { s with queue }) hc j
      | stop =>
        obtain rfl := Option.some.inj h
        simp [weight_eq, currentWeight, hc, messageWeight]
  | some r =>
    rw [ownerStep_of_busy ha hc, advance] at h
    have hw : s.weight = queueWeight s.queue + runningWeight r := by
      rw [weight_eq, currentWeight, hc]
      rfl
    cases ht : s.nextTurn r with
    | waits => rw [ht] at h; cases h
    | goesOn s₁ r₁ =>
      rw [ht] at h
      obtain rfl := Option.some.inj h
      have hlt := weight_nextTurn ht
      rw [← hw] at hlt
      exact hlt
    | ends s₁ result =>
      rw [ht] at h
      obtain rfl := Option.some.inj h
      have hqueue : (s₁.finishFrame r result).queue = s.queue := by
        have hfront := congrArg Front.queue (front_finishFrame s₁ r result)
        rw [nextTurn_of_ends ht] at hfront ⊢
        exact hfront
      rw [hw, weight_eq, hqueue]
      exact Nat.add_lt_add_left (currentWeight_finishFrame s₁ r result) _
    | panics p =>
      rw [ht] at h
      obtain rfl := Option.some.inj h
      have hqueue : (s.unwind r p).queue = s.queue := congrArg Front.queue (front_unwind s r p)
      rw [hw, weight_eq, hqueue, currentWeight_unwind]
      exact Nat.add_lt_add_left (runningWeight_pos r) _

theorem ownerStep_steps {n : ℕ} {s : Serializer σ V} (h : s.weight ≤ n) :
    (steps n s).ownerStep = none := by
  induction n generalizing s with
  | zero =>
    cases hs : s.ownerStep with
    | none => exact hs
    | some s' =>
      have := weight_lt_of_ownerStep hs
      omega
  | succ n ih =>
    cases hs : s.ownerStep with
    | none => rw [steps_of_rest hs]; exact hs
    | some s' =>
      have := weight_lt_of_ownerStep hs
      rw [steps_succ hs]
      exact ih (by omega)

/-- **The owner comes to rest.** -/
theorem ownerStep_settle (s : Serializer σ V) : s.settle.ownerStep = none := ownerStep_steps le_rfl

/-- No job is queued or being run. -/
structure Idle (s : Serializer σ V) : Prop where
  queue : jobsIn s.queue = []
  current : s.current = none

end Serializer

namespace Run

open Serializer

variable (R : Run σ V)

/-! ## What is done when the owner rests -/

theorem idle_of_rest {t : ℕ} (hr : (R.after t).ownerStep = none)
    (hc : (R.after t).current = none) (hb : (R.after t).owner ≠ .unborn) : (R.after t).Idle := by
  refine ⟨?_, hc⟩
  cases ho : (R.after t).owner with
  | unborn => exact absurd ho hb
  | finished => exact (R.stopsLast t).2.2 ho
  | alive =>
    rw [ownerStep_of_idle ho hc, receive] at hr
    cases hq : (R.after t).queue with
    | nil => rfl
    | cons msg queue => cases msg <;> rw [hq] at hr <;> cases hr

/-- **All is done that has been accepted** when no job is left: it has been dropped, or has
ended. -/
theorem done_of_idle {t : ℕ} (h : (R.after t).Idle) {j : Job σ V} (hj : j ∈ R.accepted t) :
    (∃ u < t, R.Drops u j) ∨ ∃ u e, u < e ∧ e < t ∧ R.Starts u j ∧ R.Ends e j.seq := by
  have hlt : j.seq < R.taken t := by
    rw [taken, h.queue]
    exact (List.getElem?_eq_some_iff.mp (R.getElem?_of_mem_accepted hj)).1
  obtain ⟨u, hu, k, hk, hseq⟩ := R.exists_leaves hlt
  obtain rfl := R.eq_of_seq (R.mem_accepted_of_leaves hk) hj hseq
  rcases R.starts_or_drops hk with ⟨hs, -⟩ | ⟨hd, -⟩
  · obtain ⟨e, hue, het, he⟩ := R.exists_ends (R.busy_of_starts hs) h.current hu
    exact .inr ⟨u, e, hue, het, hs, he⟩
  · exact .inl ⟨u, hu, hd⟩

/-- When the owner rests, all is done unless a job is held up. -/
theorem done_of_rest {t : ℕ} (hr : (R.after t).ownerStep = none)
    (hc : (R.after t).current = none) (hb : (R.after t).owner ≠ .unborn) {j : Job σ V}
    (hj : j ∈ R.accepted t) :
    (∃ u < t, R.Drops u j) ∨ ∃ u e, u < e ∧ e < t ∧ R.Starts u j ∧ R.Ends e j.seq :=
  R.done_of_idle (R.idle_of_rest hr hc hb) hj

theorem exists_replyTo {t : ℕ} (hr : (R.after t).ownerStep = none)
    (hc : (R.after t).current = none) (hb : (R.after t).owner ≠ .unborn) {j : Job σ V}
    (hj : j ∈ R.accepted t) (hd : j.delivery = .reply) :
    ∃ o, (R.after t).replyTo j.seq = some o := by
  rcases R.done_of_rest hr hc hb hj with ⟨u, hu, hdrop⟩ | ⟨-, e, -, het, -, he⟩
  · exact ⟨_, R.replyTo_of_drops hdrop hd hu⟩
  · obtain ⟨v, hv, o, hw⟩ := R.exists_workEnds he
    obtain ⟨r, hrun, hseq, -⟩ := R.workEnds_cases hw
    obtain ⟨k, hk, hkseq, -⟩ := R.mem_accepted_of_busy hrun
    obtain rfl := R.eq_of_seq hk hj (hkseq.trans hseq)
    exact ⟨o, R.replyTo_eq_some_iff.mpr ⟨v, by omega, k, hk, rfl, hd, .inr hw⟩⟩

end Run

end SymbolIndex
