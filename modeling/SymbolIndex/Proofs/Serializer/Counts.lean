import SymbolIndex.Proofs.Serializer.Turns

/-!
# Counts

A serializer counts the jobs that it has accepted, and how each of them has ended. A submission that
it refuses counts as dropped, although no job has been dropped.

* `JobEnd`, `JobCounts.plus`: what a job counts as once it is over;
* `unfinished`: the jobs that are not over;
* `counts_serve`, `serves_nextTurn`: requests and turns only count what they accept or refuse;
* `EndsWith`: whether a job that ends has succeeded;
* `Tally`, `tally_of_step`: what a move counts.
-/

namespace SymbolIndex

variable {σ V : Type}

/-- What a job counts as once it is over. -/
inductive JobEnd where
  | completed | failed | dropped
  deriving DecidableEq, Repr

/-- How a job ends that has succeeded or not. -/
def JobEnd.of (succeeded : Bool) : JobEnd := if succeeded then .completed else .failed

namespace JobCounts

/-- The counts with one more end of a job. -/
def plus (c : JobCounts) : JobEnd → JobCounts
  | .completed => { c with completed := c.completed + 1 }
  | .failed => { c with failed := c.failed + 1 }
  | .dropped => { c with dropped := c.dropped + 1 }

/-- The counts with one more job that has been accepted. -/
def accepting (c : JobCounts) : JobCounts := { c with submitted := c.submitted + 1 }

/-- How many ends of jobs have been counted. -/
def ended (c : JobCounts) : ℕ := c.completed + c.failed + c.dropped

@[simp] theorem plus_submitted (c : JobCounts) (e : JobEnd) :
    (c.plus e).submitted = c.submitted := by
  cases e <;> rfl

@[simp] theorem plus_ended (c : JobCounts) (e : JobEnd) : (c.plus e).ended = c.ended + 1 := by
  cases e <;> simp only [plus, ended] <;> omega

@[simp] theorem accepting_submitted (c : JobCounts) :
    c.accepting.submitted = c.submitted + 1 := rfl

@[simp] theorem accepting_ended (c : JobCounts) : c.accepting.ended = c.ended := rfl

end JobCounts

namespace Serializer

/-- How many jobs are not over: those that are queued and the one that is being run. -/
def unfinished (s : Serializer σ V) : ℕ := (jobsIn s.queue).length + s.current.isSome.toNat

/-! ## Requests -/

theorem counts_start (s : Serializer σ V) : s.start.counts = s.counts := by
  unfold start
  split <;> rfl

theorem counts_stop (s : Serializer σ V) : s.stop.2.counts = s.counts := by
  have h : s.started.counts = s.counts := by
    unfold started
    split
    · exact counts_start s
    · rfl
  rw [← h]
  unfold stop halt
  split <;> rfl

/-- **A request counts the job that it makes**, as accepted or, if it is refused, as dropped. -/
theorem counts_serve (s : Serializer σ V) (q : Request σ V) :
    (s.serve q).counts =
      match q with
      | .enqueue _ _ _ => if s.isOpen then s.counts.accepting else s.counts.plus .dropped
      | _ => s.counts := by
  cases q with
  | enqueue kind script delivery =>
    cases ho : s.isOpen with
    | true =>
      rw [serve, enqueue_of_isOpen ho]
      rfl
    | false =>
      rw [serve, enqueue_of_not_isOpen ho]
      rfl
  | start => exact counts_start s
  | interrupt | interruptPending => rfl
  | stop => exact counts_stop s
  | drop =>
    rw [serve, drop]
    split
    · rfl
    · exact counts_stop s

/-! ## Turns -/

/-- **A turn serves the request that its action makes**, and beside that only works on the state and
on the log. -/
theorem serves_act {s s' : Serializer σ V} {r r' : Running σ V} {a : Action σ V}
    (h : s.act r a = .goesOn s' r') :
    s' = { s.serveAll a.request with state := s'.state, log := s'.log } := by
  cases a with
  | perform work =>
    simp only [act] at h
    split at h <;> simp only [Turn.goesOn.injEq, reduceCtorEq] at h
    obtain ⟨rfl, -⟩ := h
    rfl
  | check | awaitInterrupt =>
    simp only [act] at h
    split at h <;> simp only [Turn.goesOn.injEq, reduceCtorEq] at h
    obtain ⟨rfl, -⟩ := h
    rfl
  | panic p =>
    obtain ⟨-, -, -, rfl, -⟩ := exists_of_raise h
    rfl
  | fail e | gate => cases h
  | _ =>
    obtain ⟨rfl, -⟩ := Turn.goesOn.inj h
    rfl

theorem serves_nextTurn {s s' : Serializer σ V} {r r' : Running σ V}
    (h : s.nextTurn r = .goesOn s' r') :
    s' = { s.serveAll (requestIn r) with state := s'.state, log := s'.log } := by
  unfold nextTurn at h
  unfold requestIn
  cases hr : r.frame.script with
  | nil => rw [hr] at h; cases h
  | cons a rest => rw [hr] at h; exact serves_act h

/-- Whether a job that ends in its next turn has succeeded: its work has returned a value, and
neither the work nor the callback has panicked. -/
inductive EndsWith (s : Serializer σ V) (r : Running σ V) : Bool → Prop
  | panics {p : Payload} (ht : s.nextTurn r = .panics p) : EndsWith s r false
  | works {s' : Serializer σ V} {result : JobResult V} (ht : s.nextTurn r = .ends s' result)
    (hg : r.stage = .work) (ho : r.outer = []) : EndsWith s r result.isOk
  | calledBack {s' : Serializer σ V} {result : JobResult V} {succeeded : Bool}
    (ht : s.nextTurn r = .ends s' result) (hg : r.stage = .callback succeeded) :
    EndsWith s r succeeded

theorem counts_finishFrame {s s' : Serializer σ V} {r : Running σ V} {result : JobResult V}
    (ht : s.nextTurn r = .ends s' result) :
    ((s'.finishFrame r result).current.isSome = true ∧ (s'.finishFrame r result).counts = s.counts) ∨
      ∃ b, s.EndsWith r b ∧ (s'.finishFrame r result).current = none ∧
        (s'.finishFrame r result).counts = s.counts.plus (.of b) := by
  have hcounts : s'.counts = s.counts := by rw [nextTurn_of_ends ht]
  rw [← hcounts]
  unfold finishFrame
  cases ho : r.outer with
  | cons frame outer => exact .inl ⟨rfl, rfl⟩
  | nil =>
    unfold finish
    cases hg : r.stage with
    | callback succeeded =>
      exact .inr ⟨succeeded, .calledBack ht hg, rfl, by cases succeeded <;> rfl⟩
    | work =>
      cases hd : r.delivery with
      | callback c => exact .inl ⟨rfl, rfl⟩
      | discard | reply =>
        exact .inr ⟨result.isOk, .works ht hg ho, rfl, by cases result <;> rfl⟩

theorem counts_unwind (s : Serializer σ V) (r : Running σ V) (p : Payload) :
    (s.unwind r p).counts = s.counts.plus .failed := by
  unfold unwind
  cases r.stage <;> cases r.delivery <;> rfl

/-! ## What a move counts -/

/-- What a move counts. -/
inductive Tally (s : Serializer σ V) (m : Move σ V) (s' : Serializer σ V) : Prop
  /-- it counts nothing -/
  | keeps (hq : ∀ kind script delivery, s.requestOf m ≠ some (.enqueue kind script delivery))
    (jobs : jobsIn s'.queue = jobsIn s.queue) (busy : s'.current.isSome = s.current.isSome)
    (counts : s'.counts = s.counts)
  /-- a job is accepted -/
  | accepts {j : Job σ V} (hj : (s.requestOf m).bind s.acceptedBy = some j)
    (jobs : jobsIn s'.queue = jobsIn s.queue ++ [j]) (busy : s'.current.isSome = s.current.isSome)
    (counts : s'.counts = s.counts.accepting)
  /-- a job is refused -/
  | refuses {kind : JobKind} {script : Script σ V} {delivery : Delivery σ V}
    (hq : s.requestOf m = some (.enqueue kind script delivery)) (ho : s.isOpen = false)
    (jobs : jobsIn s'.queue = jobsIn s.queue) (busy : s'.current.isSome = s.current.isSome)
    (counts : s'.counts = s.counts.plus .dropped)
  /-- a job is started -/
  | starts {j : Job σ V} (hq : s.requestOf m = none) (queue : s.queue = .job j :: s'.queue)
    (idle : s.current = none) (busy : s'.current.isSome = true) (counts : s'.counts = s.counts)
  /-- a job is dropped -/
  | drops {j : Job σ V} (hq : s.requestOf m = none) (queue : s.queue = .job j :: s'.queue)
    (idle : s.current = none) (idle' : s'.current = none)
    (counts : s'.counts = s.counts.plus .dropped)
  /-- a job ends -/
  | ends {r : Running σ V} {succeeded : Bool} (hm : m = .owner) (ha : s.owner = .alive)
    (hq : s.requestOf m = none)
    (jobs : jobsIn s'.queue = jobsIn s.queue) (hr : s.current = some r)
    (h : s.EndsWith r succeeded) (idle' : s'.current = none)
    (counts : s'.counts = s.counts.plus (.of succeeded))

theorem tally_of_serve {s s' : Serializer σ V} {m : Move σ V} {q : Request σ V}
    (hq : s.requestOf m = some q) (hqueue : s'.queue = (s.serve q).queue)
    (hbusy : s'.current.isSome = s.current.isSome) (hcounts : s'.counts = (s.serve q).counts) :
    Tally s m s' := by
  rw [counts_serve] at hcounts
  cases q with
  | enqueue kind script delivery =>
    cases ho : s.isOpen with
    | true =>
      refine .accepts (j := ⟨s.nextSeq, kind, script, delivery⟩) ?_ ?_ hbusy ?_
      · rw [hq, Option.bind_some, acceptedBy, if_pos ho]
      · rw [hqueue, serve, enqueue_of_isOpen ho, jobsIn_append]
        rfl
      · rw [hcounts, if_pos ho]
    | false =>
      refine .refuses hq ho ?_ hbusy ?_
      · rw [hqueue]
        exact jobsIn_serve (by rw [acceptedBy, ho]; rfl)
      · rw [hcounts, ho]
        rfl
  | start | interrupt | interruptPending | stop | drop =>
    refine .keeps (fun _ _ _ h => ?_) ?_ hbusy hcounts
    · rw [hq] at h
      cases h
    · rw [hqueue]
      exact jobsIn_serve rfl

theorem tally_of_serveAll {s s' : Serializer σ V} {m : Move σ V}
    (hqueue : s'.queue = (s.serveAll (s.requestOf m)).queue)
    (hbusy : s'.current.isSome = s.current.isSome)
    (hcounts : s'.counts = (s.serveAll (s.requestOf m)).counts) : Tally s m s' := by
  cases hq : s.requestOf m with
  | none =>
    rw [hq] at hqueue hcounts
    exact .keeps (by simp [hq]) (congrArg jobsIn hqueue) hbusy hcounts
  | some q =>
    rw [hq] at hqueue hcounts
    exact tally_of_serve hq hqueue hbusy hcounts

theorem tally_begin {s : Serializer σ V} {j : Job σ V} {queue : List (Message σ V)}
    (hc : s.current = none) (hq : s.queue = .job j :: queue) :
    Tally s .owner ((s.behind queue).begin j) := by
  have hr := requestOf_owner_of_idle hc
  have hqueue : ((s.behind queue).begin j).queue = queue :=
    congrArg Front.queue (front_begin (s.behind queue) j)
  rw [← hqueue] at hq
  by_cases hd : (s.behind queue).Dismisses j
  · refine .drops hr hq hc ?_ ?_ <;> rw [begin, if_pos hd, dismiss] <;> cases j.delivery
    all_goals first | exact hc | rfl
  · refine .starts hr hq hc ?_ ?_ <;> rw [begin, if_neg hd] <;> rfl

/-- **Every move counts one of these.** -/
theorem tally_of_step {s s' : Serializer σ V} {m : Move σ V} (h : Step s m s') : Tally s m s' := by
  cases h with
  | rests hm hq => exact tally_of_serveAll (by rw [hq]; rfl) rfl (by rw [hq]; rfl)
  | serves hm hq =>
    refine tally_of_serve hq rfl ?_ rfl
    exact congrArg (fun b : Back σ V => b.current.isSome) (back_serve s _)
  | releases hr hs => exact tally_of_serveAll rfl (by rw [hr]; rfl) rfl
  | begins ha hc hq => exact tally_begin hc hq
  | halts ha hc hq =>
    exact .keeps (by simp [requestOf_owner_of_idle hc]) (by rw [hq]; rfl) rfl rfl
  | goesOn ha hr ht =>
    have hs := serves_nextTurn ht
    rw [← requestOf_owner ha hr] at hs
    refine tally_of_serveAll ?_ (by rw [hr]; rfl) ?_
    · rw [hs]
      rfl
    · rw [hs]
      rfl
  | @ends r s₁ result ha hr ht =>
    have hq : s.requestOf .owner = none :=
      (requestOf_owner ha hr).trans (requestIn_eq_none fun s' r' => by rw [ht]; simp)
    have hqueue : (s₁.finishFrame r result).queue = s.queue := by
      rw [show (s₁.finishFrame r result).queue = s₁.queue from
        congrArg Front.queue (front_finishFrame s₁ r result), nextTurn_of_ends ht]
    rcases counts_finishFrame ht with ⟨hbusy, hcounts⟩ | ⟨b, hb, hidle, hcounts⟩
    · exact .keeps (by simp [hq]) (by rw [hqueue]) (by rw [hbusy, hr]; rfl) hcounts
    · exact .ends rfl ha hq (by rw [hqueue]) hr hb hidle hcounts
  | @panics r p ha hr ht =>
    have hq : s.requestOf .owner = none :=
      (requestOf_owner ha hr).trans (requestIn_eq_none fun s' r' => by rw [ht]; simp)
    refine .ends rfl ha hq ?_ hr (.panics ht) (current_unwind s r p) (counts_unwind s r p)
    rw [show (s.unwind r p).queue = s.queue from congrArg Front.queue (front_unwind s r p)]

end Serializer

end SymbolIndex
