import SymbolIndex.Proofs.Serializer.Requests

/-!
# Turns

What the turns of a job change behind the front: the job that is being run, what it has noted, and
what callers have been told.

* `Back`, `back_serve`: requests leave all of that alone;
* `Note.toldTo?`, `told`: the callbacks that have been told a result;
* `Continues`, `continues_nextTurn`: a turn after which a job goes on;
* `outcome?`, `ending`: the outcome with which the work of a job ends;
* `Progress`, `progress_of_step`: what a move does to the job that is being run;
* `Uptake`, `uptake_of_step`: what a move does while there is none.
-/

namespace SymbolIndex

/-- What a callback has been told, if that is what was noted. -/
def Note.toldTo? {V : Type} : Note V → Option (V × JobResult V)
  | .callback tag result => some (tag, result)
  | _ => none

/-- The callbacks that have been told a result, with what they have been told. -/
def told {V : Type} (log : List (Note V)) : List (V × JobResult V) := log.filterMap Note.toldTo?

@[simp] theorem told_append {V : Type} (log more : List (Note V)) :
    told (log ++ more) = told log ++ told more := List.filterMap_append

/-- The part of a serializer that only its owner works on. -/
structure Back (σ V : Type) where
  state : σ
  current : Option (Running σ V)
  replies : List (ℕ × Outcome V)
  log : List (Note V)

namespace Serializer

variable {σ V : Type}

/-- The back of a serializer. -/
def back (s : Serializer σ V) : Back σ V := ⟨s.state, s.current, s.replies, s.log⟩

theorem back_start (s : Serializer σ V) : s.start.back = s.back := by
  unfold start
  split <;> rfl

theorem back_enqueue (s : Serializer σ V) (kind : JobKind) (script : Script σ V)
    (delivery : Delivery σ V) : (s.enqueue kind script delivery).2.back = s.back := by
  unfold enqueue
  cases s.phase <;> rfl

theorem back_stop (s : Serializer σ V) : s.stop.2.back = s.back := by
  have h : s.started.back = s.back := by
    unfold started
    split
    · exact back_start s
    · rfl
  rw [← h]
  unfold stop halt
  split <;> rfl

theorem back_serve (s : Serializer σ V) (q : Request σ V) : (s.serve q).back = s.back := by
  cases q with
  | start => exact back_start s
  | enqueue kind script delivery => exact back_enqueue s kind script delivery
  | interrupt | interruptPending => rfl
  | stop => exact back_stop s
  | drop =>
    rw [serve, drop]
    split
    · rfl
    · exact back_stop s

/-! ## Turns after which a job goes on -/

/-- The job `r` goes on as `r'`: it is the same job at the same stage, no caller and no callback is
told anything by that. -/
structure Continues (s : Serializer σ V) (r : Running σ V) (s' : Serializer σ V)
    (r' : Running σ V) : Prop where
  seq : r'.seq = r.seq
  delivery : r'.delivery = r.delivery
  stage : r'.stage = r.stage
  replies : s'.replies = s.replies
  log : ∃ notes, s'.log = s.log ++ notes ∧ told notes = []

theorem Continues.silent {s s' : Serializer σ V} {r r' : Running σ V} (hs : r'.seq = r.seq)
    (hd : r'.delivery = r.delivery) (ht : r'.stage = r.stage) (hr : s'.replies = s.replies)
    (hl : s'.log = s.log) : Continues s r s' r' :=
  ⟨hs, hd, ht, hr, [], by rw [hl, List.append_nil], rfl⟩

theorem Continues.noted {s s' : Serializer σ V} {n : Note V} (r : Running σ V)
    (hb : s'.back = s.back) (hn : n.toldTo? = none) : Continues s r (s'.withNote n) r := by
  have hl : s'.log = s.log := congrArg Back.log hb
  have hr : s'.replies = s.replies := congrArg Back.replies hb
  refine ⟨rfl, rfl, rfl, hr, [n], ?_, ?_⟩
  · rw [withNote, hl]
  · rw [told, List.filterMap_cons_none hn, List.filterMap_nil]

theorem continues_act {s s' : Serializer σ V} {r r' : Running σ V} {a : Action σ V}
    (h : s.act r a = .goesOn s' r') : Continues s r s' r' := by
  cases a with
  | perform work =>
    simp only [act] at h
    split at h <;> simp only [Turn.goesOn.injEq, reduceCtorEq] at h
    obtain ⟨rfl, rfl⟩ := h
    exact .silent rfl rfl rfl rfl rfl
  | check | awaitInterrupt =>
    simp only [act] at h
    split at h <;> simp only [Turn.goesOn.injEq, reduceCtorEq] at h
    obtain ⟨rfl, rfl⟩ := h
    exact .silent rfl rfl rfl rfl rfl
  | panic p =>
    obtain ⟨frame, outer, -, rfl, rfl⟩ := exists_of_raise h
    exact { Continues.noted r (n := .called (.panicked p)) rfl rfl with }
  | fail e | gate => cases h
  | answer v | call kind script catches | interrupt | interruptPending =>
    obtain ⟨rfl, rfl⟩ := Turn.goesOn.inj h
    exact .silent rfl rfl rfl rfl rfl
  | note v | interrupted | thread | owner | running | counts =>
    obtain ⟨rfl, rfl⟩ := Turn.goesOn.inj h
    exact .noted r rfl rfl
  | stop =>
    obtain ⟨rfl, rfl⟩ := Turn.goesOn.inj h
    exact .noted r (back_stop s) rfl
  | submit kind script =>
    obtain ⟨rfl, rfl⟩ := Turn.goesOn.inj h
    exact .noted r (back_enqueue s kind script .discard) rfl
  | submitWith kind script tag callback =>
    obtain ⟨rfl, rfl⟩ := Turn.goesOn.inj h
    exact .noted r (back_enqueue s kind script (.callback ⟨tag, callback⟩)) rfl

/-- **A job that goes on stays the job it was.** -/
theorem continues_nextTurn {s s' : Serializer σ V} {r r' : Running σ V}
    (h : s.nextTurn r = .goesOn s' r') : Continues s r s' r' := by
  unfold nextTurn at h
  split at h
  · cases h
  · exact { continues_act h with }

/-! ## The ends of jobs -/

/-- The outcome with which the work of a job ends in its next turn, if it does. A panic that nothing
catches ends all calls inside of the job with it. -/
def outcome? (s : Serializer σ V) (r : Running σ V) : Option (Outcome V) :=
  match r.stage, s.nextTurn r, r.outer with
  | .work, .ends _ result, [] => some (.result result)
  | .work, .panics p, _ => some (.panicked p)
  | _, _, _ => none

/-- The job whose work ends in a move, and its outcome. -/
def ending (s : Serializer σ V) : Move σ V → Option (ℕ × Outcome V)
  | .owner =>
    if s.owner = .alive then s.current.bind fun r => (s.outcome? r).map (r.seq, ·) else none
  | _ => none

/-- What the caller of a job is told when its work has ended. -/
def answers (r : Running σ V) (o : Outcome V) : List (ℕ × Outcome V) :=
  match r.delivery with
  | .reply => [(r.seq, o)]
  | _ => []

/-- The job in the callback that is told its result. -/
def callingBack (r : Running σ V) (c : Callback σ V) (result : JobResult V) : Running σ V :=
  { r with
    stage := .callback result.isOk
    frame := { script := c.script, token := none }
    outer := [] }

/-- What a move does to the job that is being run. -/
inductive Progress (s : Serializer σ V) (m : Move σ V) (r : Running σ V) (s' : Serializer σ V) :
    Prop
  /-- the job goes on -/
  | goesOn {r' : Running σ V} (he : s.ending m = none) (hc : s'.current = some r')
    (seq : r'.seq = r.seq) (delivery : r'.delivery = r.delivery) (stage : r'.stage = r.stage)
    (replies : s'.replies = s.replies) (log : told s'.log = told s.log)
  /-- its work has ended, and its callback is told the result -/
  | callsBack {c : Callback σ V} {result : JobResult V}
    (he : s.ending m = some (r.seq, .result result)) (stage : r.stage = .work)
    (delivery : r.delivery = .callback c) (hc : s'.current = some (callingBack r c result))
    (replies : s'.replies = s.replies) (log : s'.log = s.log ++ [.callback c.tag result])
  /-- its work has ended, and the job with it -/
  | ends {o : Outcome V} (he : s.ending m = some (r.seq, o)) (stage : r.stage = .work)
    (delivery : ∀ c, r.delivery = .callback c → ∃ p, o = .panicked p) (hc : s'.current = none)
    (replies : s'.replies = s.replies ++ answers r o) (log : s'.log = s.log)
  /-- its callback has ended, and the job with it -/
  | returns {succeeded : Bool} (he : s.ending m = none) (stage : r.stage = .callback succeeded)
    (hc : s'.current = none) (replies : s'.replies = s.replies) (log : s'.log = s.log)

theorem ending_owner {s : Serializer σ V} {r : Running σ V} (ha : s.owner = .alive)
    (hr : s.current = some r) : s.ending .owner = (s.outcome? r).map (r.seq, ·) := by
  rw [ending, if_pos ha, hr, Option.bind_some]

theorem ending_of_idle {s : Serializer σ V} (m : Move σ V) (hc : s.current = none) :
    s.ending m = none := by
  cases m <;> simp [ending, hc]

theorem progress_finishFrame {s s' : Serializer σ V} {r : Running σ V} {result : JobResult V}
    (ha : s.owner = .alive) (hr : s.current = some r) (ht : s.nextTurn r = .ends s' result) :
    Progress s .owner r (s'.finishFrame r result) := by
  have hs := nextTurn_of_ends ht
  have hreplies : s'.replies = s.replies := by rw [hs]
  have hlog : s'.log = s.log := by rw [hs]
  unfold finishFrame
  cases ho : r.outer with
  | cons frame outer =>
    refine .goesOn ?_ rfl rfl rfl rfl hreplies ?_
    · rw [ending_owner ha hr, outcome?, ht, ho]
      cases r.stage <;> rfl
    · simp [withNote, hlog, told, Note.toldTo?]
  | nil =>
    unfold finish
    cases hg : r.stage with
    | callback succeeded =>
      refine .returns ?_ hg rfl hreplies hlog
      rw [ending_owner ha hr, outcome?, hg]
      rfl
    | work =>
      have he : s.ending .owner = some (r.seq, .result result) := by
        rw [ending_owner ha hr, outcome?, hg, ht, ho]
        rfl
      cases hd : r.delivery with
      | discard =>
        refine .ends he hg (by simp [hd]) rfl ?_ hlog
        simp [countEnd, answers, hd, hreplies]
      | reply =>
        refine .ends he hg (by simp [hd]) rfl ?_ hlog
        simp [countEnd, withReply, answers, hd, hreplies]
      | callback c =>
        refine .callsBack he hg hd (by simp [callingBack, hd]) hreplies ?_
        simp [withNote, hlog]

theorem current_unwind (s : Serializer σ V) (r : Running σ V) (p : Payload) :
    (s.unwind r p).current = none := by
  unfold unwind
  cases r.stage <;> cases r.delivery <;> rfl

theorem state_unwind (s : Serializer σ V) (r : Running σ V) (p : Payload) :
    (s.unwind r p).state = s.state := by
  unfold unwind
  cases r.stage <;> cases r.delivery <;> rfl

theorem progress_unwind {s : Serializer σ V} {r : Running σ V} {p : Payload}
    (ha : s.owner = .alive) (hr : s.current = some r) (ht : s.nextTurn r = .panics p) :
    Progress s .owner r (s.unwind r p) := by
  unfold unwind
  cases hg : r.stage with
  | callback succeeded =>
    refine .returns ?_ hg rfl rfl rfl
    rw [ending_owner ha hr, outcome?, hg]
    rfl
  | work =>
    have he : s.ending .owner = some (r.seq, .panicked p) := by
      rw [ending_owner ha hr, outcome?, hg, ht]
      rfl
    cases hd : r.delivery with
    | reply =>
      refine .ends he hg (by simp [hd]) rfl ?_ rfl
      simp [countEnd, withReply, answers, hd]
    | discard | callback c =>
      refine .ends he hg (fun _ _ => ⟨p, rfl⟩) rfl ?_ rfl
      simp [countEnd, answers, hd]

theorem ending_of_rests {s : Serializer σ V} (m : Move σ V) (hm : m = .owner → s.ownerStep = none) :
    s.ending m = none := by
  cases m with
  | owner =>
    by_cases ha : s.owner = .alive
    · cases hr : s.current with
      | none => exact ending_of_idle _ hr
      | some r =>
        have hs := hm rfl
        rw [ownerStep_of_busy ha hr, advance] at hs
        have ht : s.nextTurn r = .waits := by
          cases ht : s.nextTurn r <;> rw [ht] at hs <;> first | rfl | cases hs
        rw [ending_owner ha hr, outcome?, ht]
        cases r.stage <;> rfl
    · rw [ending, if_neg ha]
  | _ => rfl

theorem progress_of_back {s s' : Serializer σ V} {m : Move σ V} {r : Running σ V}
    (he : s.ending m = none) (hr : s.current = some r) (hb : s'.back = s.back) :
    Progress s m r s' :=
  .goesOn he ((congrArg Back.current hb).trans hr) rfl rfl rfl (congrArg Back.replies hb)
    (congrArg (told ∘ Back.log) hb)

/-- **What a move does to the job that is being run.** -/
theorem progress_of_step {s s' : Serializer σ V} {m : Move σ V} {r : Running σ V}
    (h : Step s m s') (hr : s.current = some r) : Progress s m r s' := by
  cases h with
  | rests hm hq => exact progress_of_back (ending_of_rests m hm) hr rfl
  | serves hm hq =>
    refine progress_of_back (ending_of_rests m fun h => absurd h hm) hr ?_
    exact back_serve s _
  | releases hr' hs =>
    obtain rfl := Option.some.inj (hr.symm.trans hr')
    exact .goesOn rfl rfl rfl rfl rfl rfl rfl
  | begins ha hc hq => rw [hr] at hc; cases hc
  | halts ha hc hq => rw [hr] at hc; cases hc
  | goesOn ha hr' ht =>
    obtain rfl := Option.some.inj (hr.symm.trans hr')
    have hc := continues_nextTurn ht
    obtain ⟨notes, hlog, hnotes⟩ := hc.log
    refine .goesOn ?_ rfl hc.seq hc.delivery hc.stage hc.replies ?_
    · rw [ending_owner ha hr, outcome?, ht]
      cases r.stage <;> rfl
    · simp [goOn, hlog, hnotes]
  | ends ha hr' ht =>
    obtain rfl := Option.some.inj (hr.symm.trans hr')
    exact progress_finishFrame ha hr ht
  | panics ha hr' ht =>
    obtain rfl := Option.some.inj (hr.symm.trans hr')
    exact progress_unwind ha hr ht

/-! ## Jobs that leave the queue -/

/-- What the caller of a job is told that never starts. -/
def dismissals (j : Job σ V) : List (ℕ × Outcome V) :=
  match j.delivery with
  | .reply => [(j.seq, .result (.error .dropped))]
  | _ => []

/-- What a move does while no job is being run. -/
inductive Uptake (s s' : Serializer σ V) : Prop
  /-- no job leaves the queue -/
  | none (hq : ∀ j, s.queue ≠ .job j :: s'.queue) (back : s'.back = s.back)
  /-- the first job of the queue is started -/
  | starts {j : Job σ V} (hq : s.queue = .job j :: s'.queue) (hd : ¬ s.Dismisses j)
    (back : s'.back = { s.back with current := some (s.starting j) })
  /-- the first job of the queue is dropped -/
  | drops {j : Job σ V} (hq : s.queue = .job j :: s'.queue) (hd : s.Dismisses j)
    (back : s'.back = { s.back with replies := s.replies ++ dismissals j })

theorem back_dismiss (s : Serializer σ V) (j : Job σ V) :
    (s.dismiss j).back = { s.back with replies := s.replies ++ dismissals j } := by
  unfold dismiss dismissals
  cases j.delivery <;> simp [back, countDropped, withReply]

theorem uptake_begin {s : Serializer σ V} {j : Job σ V} {queue : List (Message σ V)}
    (hq : s.queue = .job j :: queue) : Uptake s ((s.behind queue).begin j) := by
  have hqueue : ((s.behind queue).begin j).queue = queue :=
    congrArg Front.queue (front_begin (s.behind queue) j)
  rw [← hqueue] at hq
  by_cases hd : (s.behind queue).Dismisses j
  · refine .drops hq hd ?_
    rw [begin, if_pos hd]
    exact back_dismiss (s.behind queue) j
  · refine .starts hq hd ?_
    rw [begin, if_neg hd]
    rfl

theorem queue_ne_of_serve (s : Serializer σ V) (q : Request σ V) (msg : Message σ V) :
    s.queue ≠ msg :: (s.serve q).queue := by
  intro h
  have hl := congrArg List.length h
  rw [List.length_cons] at hl
  rcases queue_serve s q with ⟨j, -, hq, -⟩ | ⟨-, -, hq | hq⟩
  · rw [hq, List.length_append] at hl; omega
  · rw [hq] at hl; omega
  · rw [hq, List.length_append] at hl; omega

/-- **What a move does while no job is being run.** -/
theorem uptake_of_step {s s' : Serializer σ V} {m : Move σ V} (h : Step s m s')
    (hc : s.current = none) : Uptake s s' := by
  cases h with
  | rests hm hq => exact .none (fun j h => List.cons_ne_self _ _ h.symm) rfl
  | serves hm hq => exact .none (fun j => queue_ne_of_serve s _ _) (back_serve s _)
  | begins ha hc' hq => exact uptake_begin hq
  | halts ha hc' hq => exact .none (fun j h => by rw [hq] at h; cases h) rfl
  | releases hr hs => rw [hc] at hr; cases hr
  | goesOn ha hr ht | ends ha hr ht | panics ha hr ht => rw [hc] at hr; cases hr

theorem replies_prefix (s : Serializer σ V) (m : Move σ V) : s.replies <+: (s.move m).replies := by
  have hstep := step_move s m
  cases hc : s.current with
  | none =>
    cases uptake_of_step hstep hc with
    | none hq hb | starts hq hd hb =>
      exact ⟨[], by rw [List.append_nil]; exact (congrArg Back.replies hb).symm⟩
    | drops hq hd hb =>
      rw [show (s.move m).replies = s.replies ++ _ from congrArg Back.replies hb]
      exact List.prefix_append _ _
  | some r =>
    cases progress_of_step hstep hc with
    | goesOn he hc' hs hd hg hreplies | callsBack he hg hd hc' hreplies
    | returns he hg hc' hreplies =>
      exact ⟨[], by rw [List.append_nil, hreplies]⟩
    | ends he hg hd hc' hreplies =>
      rw [hreplies]
      exact List.prefix_append _ _

theorem replyTo_move {s : Serializer σ V} {n : ℕ} {o : Outcome V} (h : s.replyTo n = some o)
    (m : Move σ V) : (s.move m).replyTo n = some o := by
  obtain ⟨more, hm⟩ := s.replies_prefix m
  unfold replyTo at h ⊢
  rw [← hm, List.lookup_append, h, Option.some_or]

end Serializer

end SymbolIndex
