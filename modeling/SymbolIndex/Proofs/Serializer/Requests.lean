import Mathlib.Tactic.Common
import SymbolIndex.Serializer.Owner

/-!
# Requests and moves

Threads work on a serializer through requests, and the owner makes the same requests on behalf of
the jobs that it runs. What requests work on is the front of the serializer, of which the owner
itself only takes messages.

* `Request`, `serve`: requests;
* `Front`, `front`: the front of a serializer, which the end of a job leaves alone;
* `Move`, `move`: everything that can happen to a serializer;
* `requestOf`, `front_of_step`: the request that a move makes is all it does to the front;
* `jobsIn`, `acceptedBy`, `queue_serve`: the jobs in the queue, of which requests only add one at
  the end.
-/

namespace SymbolIndex

/-- What is asked of a serializer, by a thread or by a job. -/
inductive Request (σ V : Type) where
  | start
  | enqueue (kind : JobKind) (script : Script σ V) (delivery : Delivery σ V)
  | interrupt
  | interruptPending
  | stop
  | drop

/-- The request that an action of a job makes. -/
def Action.request {σ V : Type} : Action σ V → Option (Request σ V)
  | .interrupt => some .interrupt
  | .interruptPending => some .interruptPending
  | .stop => some .stop
  | .submit kind script => some (.enqueue kind script .discard)
  | .submitWith kind script tag callback =>
    some (.enqueue kind script (.callback ⟨tag, callback⟩))
  | _ => none

/-- What can happen to a serializer: a thread asks for something, a gate opens, or the owner takes
a step. -/
inductive Move (σ V : Type) where
  | start
  | submit (kind : JobKind) (script : Script σ V)
  | submitWith (kind : JobKind) (script : Script σ V) (c : Callback σ V)
  | call (kind : JobKind) (script : Script σ V)
  | interrupt
  | interruptPending
  | stop
  | drop
  | release
  | owner

/-- The part of a serializer that requests work on. -/
structure Front (σ V : Type) where
  phase : Phase
  hasReceiver : Bool
  hasHandle : Bool
  owner : OwnerThread
  queue : List (Message σ V)
  nextSeq : ℕ
  dropBelow : ℕ
  epoch : UInt64

/-- The front behind a message that the owner has taken. -/
def Front.behind {σ V : Type} (f : Front σ V) : Message σ V → List (Message σ V) → Front σ V
  | .job _, queue => { f with queue }
  | .stop, queue => { f with queue, owner := .finished, phase := .stopped }

namespace Serializer

variable {σ V : Type}

/-- Serve a request. -/
def serve (s : Serializer σ V) : Request σ V → Serializer σ V
  | .start => s.start
  | .enqueue kind script delivery => (s.enqueue kind script delivery).2
  | .interrupt => s.interrupt
  | .interruptPending => s.interruptPending
  | .stop => s.stop.2
  | .drop => s.drop.2

/-- Serve a request, if there is one. -/
def serveAll (s : Serializer σ V) (q : Option (Request σ V)) : Serializer σ V := q.elim s s.serve

/-- One move. An owner that has nothing to do leaves all as it is. -/
def move (s : Serializer σ V) : Move σ V → Serializer σ V
  | .start => s.start
  | .submit kind script => (s.submit kind script).2
  | .submitWith kind script c => (s.submitWith kind script c).2
  | .call kind script => (s.call kind script).2
  | .interrupt => s.interrupt
  | .interruptPending => s.interruptPending
  | .stop => s.stop.2
  | .drop => s.drop.2
  | .release => s.release
  | .owner => s.ownerStep.getD s

/-- The request that the next action of a job makes. -/
def requestIn (r : Running σ V) : Option (Request σ V) :=
  r.frame.script.head?.bind Action.request

/-- The request that a move makes. A call is only queued while the serializer runs. -/
def requestOf (s : Serializer σ V) : Move σ V → Option (Request σ V)
  | .start => some .start
  | .submit kind script => some (.enqueue kind script .discard)
  | .submitWith kind script c => some (.enqueue kind script (.callback c))
  | .call kind script => if s.isRunning then some (.enqueue kind script .reply) else none
  | .interrupt => some .interrupt
  | .interruptPending => some .interruptPending
  | .stop => some .stop
  | .drop => some .drop
  | .release => none
  | .owner => if s.owner = .alive then s.current.bind requestIn else none

/-! ## The front -/

/-- The front of a serializer. -/
def front (s : Serializer σ V) : Front σ V :=
  ⟨s.phase, s.hasReceiver, s.hasHandle, s.owner, s.queue, s.nextSeq, s.dropBelow, s.epoch⟩

@[simp] theorem front_withNote (s : Serializer σ V) (n : Note V) :
    (s.withNote n).front = s.front := rfl

@[simp] theorem front_goOn (s : Serializer σ V) (r : Running σ V) : (s.goOn r).front = s.front := rfl

@[simp] theorem front_finish (s : Serializer σ V) (r : Running σ V) (result : JobResult V) :
    (s.finish r result).front = s.front := by
  unfold finish
  cases r.stage with
  | callback succeeded => rfl
  | work => cases r.delivery <;> rfl

@[simp] theorem front_finishFrame (s : Serializer σ V) (r : Running σ V) (result : JobResult V) :
    (s.finishFrame r result).front = s.front := by
  unfold finishFrame
  cases r.outer with
  | nil => exact front_finish s r result
  | cons frame outer => rfl

@[simp] theorem front_unwind (s : Serializer σ V) (r : Running σ V) (p : Payload) :
    (s.unwind r p).front = s.front := by
  unfold unwind
  cases r.stage <;> cases r.delivery <;> rfl

theorem front_begin (s : Serializer σ V) (j : Job σ V) : (s.begin j).front = s.front := by
  unfold begin dismiss
  split
  · cases j.delivery <;> rfl
  · rfl

theorem exists_of_raise {s s' : Serializer σ V} {r r' : Running σ V} {p : Payload}
    (h : s.raise r p = .goesOn s' r') :
    ∃ frame outer, catcher r.frame r.outer = some (frame, outer) ∧
      s' = s.withNote (.called (.panicked p)) ∧ r' = { r with frame, outer } := by
  unfold raise at h
  split at h
  · next frame outer hc =>
    obtain ⟨rfl, rfl⟩ := Turn.goesOn.inj h
    exact ⟨frame, outer, hc, rfl, rfl⟩
  · cases h

theorem front_act {s s' : Serializer σ V} {r r' : Running σ V} {a : Action σ V}
    (h : s.act r a = .goesOn s' r') : s'.front = (s.serveAll a.request).front := by
  cases a with
  | perform work =>
    simp only [act] at h
    split at h <;> simp only [Turn.goesOn.injEq, reduceCtorEq] at h
    obtain ⟨rfl, -⟩ := h
    rfl
  | check | awaitInterrupt =>
    simp only [act] at h
    split at h <;> simp only [Turn.goesOn.injEq, reduceCtorEq] at h
    obtain ⟨rfl, -⟩ := h
    rfl
  | panic p =>
    obtain ⟨-, -, -, rfl, -⟩ := exists_of_raise h
    rfl
  | fail e | gate => cases h
  | _ =>
    obtain ⟨rfl, -⟩ := Turn.goesOn.inj h
    rfl

theorem front_nextTurn {s s' : Serializer σ V} {r r' : Running σ V}
    (h : s.nextTurn r = .goesOn s' r') : s'.front = (s.serveAll (requestIn r)).front := by
  unfold nextTurn at h
  unfold requestIn
  cases hr : r.frame.script with
  | nil => rw [hr] at h; cases h
  | cons a rest => rw [hr] at h; exact front_act h

theorem act_of_ends {s s' : Serializer σ V} {r : Running σ V} {a : Action σ V}
    {result : JobResult V} (h : s.act r a = .ends s' result) : s' = { s with state := s'.state } := by
  cases a with
  | perform work | check =>
    simp only [act] at h
    split at h <;> simp only [Turn.ends.injEq, reduceCtorEq] at h
    obtain ⟨rfl, -⟩ := h
    rfl
  | fail e =>
    obtain ⟨rfl, -⟩ := Turn.ends.inj h
    rfl
  | awaitInterrupt =>
    simp only [act] at h
    split at h <;> cases h
  | panic p =>
    simp only [act, raise] at h
    split at h <;> cases h
  | _ => cases h

theorem nextTurn_of_ends {s s' : Serializer σ V} {r : Running σ V} {result : JobResult V}
    (h : s.nextTurn r = .ends s' result) : s' = { s with state := s'.state } := by
  unfold nextTurn at h
  split at h
  · obtain ⟨rfl, -⟩ := Turn.ends.inj h
    rfl
  · exact act_of_ends h

theorem exists_goesOn_of_requestIn {s : Serializer σ V} {r : Running σ V} {q : Request σ V}
    (h : requestIn r = some q) : ∃ s' r', s.nextTurn r = .goesOn s' r' := by
  unfold requestIn at h
  unfold nextTurn
  cases hr : r.frame.script with
  | nil => rw [hr] at h; cases h
  | cons a rest =>
    rw [hr] at h
    cases a with
    | interrupt | interruptPending | stop => exact ⟨_, _, rfl⟩
    | submit kind script => exact ⟨_, _, rfl⟩
    | submitWith kind script tag callback => exact ⟨_, _, rfl⟩
    | _ => cases h

theorem requestIn_eq_none {s : Serializer σ V} {r : Running σ V}
    (h : ∀ s' r', s.nextTurn r ≠ .goesOn s' r') : requestIn r = none := by
  cases hq : requestIn r with
  | none => rfl
  | some q =>
    obtain ⟨s', r', ht⟩ := exists_goesOn_of_requestIn (s := s) hq
    exact absurd ht (h s' r')

/-! ## What a move does -/

/-- The serializer behind a message of its queue. -/
def behind (s : Serializer σ V) (queue : List (Message σ V)) : Serializer σ V := { s with queue }

/-- What a move does, case by case. -/
inductive Step (s : Serializer σ V) : Move σ V → Serializer σ V → Prop
  | rests {m : Move σ V} (hm : m = .owner → s.ownerStep = none) (hq : s.requestOf m = none) :
    Step s m s
  | serves {m : Move σ V} {q : Request σ V} (hm : m ≠ .owner) (hq : s.requestOf m = some q) :
    Step s m (s.serve q)
  | releases {r : Running σ V} {rest : Script σ V} (hr : s.current = some r)
    (hs : r.frame.script = .gate :: rest) :
    Step s .release (s.goOn { r with frame := { r.frame with script := rest } })
  | begins {j : Job σ V} {queue : List (Message σ V)} (ha : s.owner = .alive)
    (hc : s.current = none) (hq : s.queue = .job j :: queue) :
    Step s .owner ((s.behind queue).begin j)
  | halts {queue : List (Message σ V)} (ha : s.owner = .alive) (hc : s.current = none)
    (hq : s.queue = .stop :: queue) :
    Step s .owner { s with queue, owner := .finished, phase := .stopped }
  | goesOn {r r' : Running σ V} {s' : Serializer σ V} (ha : s.owner = .alive)
    (hr : s.current = some r) (ht : s.nextTurn r = .goesOn s' r') : Step s .owner (s'.goOn r')
  | ends {r : Running σ V} {s' : Serializer σ V} {result : JobResult V} (ha : s.owner = .alive)
    (hr : s.current = some r) (ht : s.nextTurn r = .ends s' result) :
    Step s .owner (s'.finishFrame r result)
  | panics {r : Running σ V} {p : Payload} (ha : s.owner = .alive) (hr : s.current = some r)
    (ht : s.nextTurn r = .panics p) : Step s .owner (s.unwind r p)

theorem step_release (s : Serializer σ V) : Step s .release s.release := by
  unfold release
  split
  · next r hr =>
    split
    · next rest hs => exact .releases hr hs
    · exact .rests nofun rfl
  · exact .rests nofun rfl

theorem requestOf_owner {s : Serializer σ V} {r : Running σ V} (ha : s.owner = .alive)
    (hr : s.current = some r) : s.requestOf .owner = requestIn r := by
  rw [requestOf, if_pos ha, hr, Option.bind_some]

theorem requestOf_owner_of_idle {s : Serializer σ V} (hc : s.current = none) :
    s.requestOf .owner = none := by
  rw [requestOf, hc, Option.bind_none, ite_self]

theorem ownerStep_of_not_alive {s : Serializer σ V} (ha : s.owner ≠ .alive) :
    s.ownerStep = none := by
  unfold ownerStep
  split
  · contradiction
  · rfl

theorem ownerStep_of_idle {s : Serializer σ V} (ha : s.owner = .alive) (hc : s.current = none) :
    s.ownerStep = s.receive := by
  rw [ownerStep, ha, hc, Option.elim_none]

theorem ownerStep_of_busy {s : Serializer σ V} {r : Running σ V} (ha : s.owner = .alive)
    (hr : s.current = some r) : s.ownerStep = s.advance r := by
  rw [ownerStep, ha, hr, Option.elim_some]

theorem step_receive {s : Serializer σ V} (ha : s.owner = .alive) (hc : s.current = none) :
    Step s .owner (s.ownerStep.getD s) := by
  have hs := ownerStep_of_idle ha hc
  cases hq : s.queue with
  | nil =>
    have hn : s.ownerStep = none := by rw [hs, receive, hq]
    rw [hn]
    exact .rests (fun _ => hn) (requestOf_owner_of_idle hc)
  | cons msg queue =>
    cases msg with
    | job j => rw [hs, receive, hq]; exact .begins ha hc hq
    | stop => rw [hs, receive, hq]; exact .halts ha hc hq

theorem step_advance {s : Serializer σ V} {r : Running σ V} (ha : s.owner = .alive)
    (hr : s.current = some r) : Step s .owner (s.ownerStep.getD s) := by
  have hs := ownerStep_of_busy ha hr
  cases ht : s.nextTurn r with
  | waits =>
    have hn : s.ownerStep = none := by rw [hs, advance, ht]
    rw [hn]
    refine .rests (fun _ => hn) ((requestOf_owner ha hr).trans ?_)
    exact requestIn_eq_none (s := s) fun s' r' => by rw [ht]; simp
  | goesOn s' r' => rw [hs, advance, ht]; exact .goesOn ha hr ht
  | ends s' result => rw [hs, advance, ht]; exact .ends ha hr ht
  | panics p => rw [hs, advance, ht]; exact .panics ha hr ht

theorem step_owner (s : Serializer σ V) : Step s .owner (s.ownerStep.getD s) := by
  by_cases ha : s.owner = .alive
  · cases hc : s.current with
    | none => exact step_receive ha hc
    | some r => exact step_advance ha hc
  · have hn := ownerStep_of_not_alive ha
    rw [hn]
    exact .rests (fun _ => hn) (by rw [requestOf, if_neg ha])

theorem step_call (s : Serializer σ V) (kind : JobKind) (script : Script σ V) :
    Step s (.call kind script) (s.call kind script).2 := by
  by_cases h : s.isRunning = true
  · have hc : (s.call kind script).2 = s.serve (.enqueue kind script .reply) := by
      rw [call, if_pos h, serve]
      split <;> next heq => rw [heq]
    rw [hc]
    exact .serves nofun (by rw [requestOf, if_pos h])
  · rw [call, if_neg h]
    exact .rests nofun (by rw [requestOf, if_neg h])

/-- **Every move is one of these.** -/
theorem step_move (s : Serializer σ V) (m : Move σ V) : Step s m (s.move m) := by
  cases m with
  | owner => exact step_owner s
  | release => exact step_release s
  | call kind script => exact step_call s kind script
  | start => exact .serves (q := .start) nofun rfl
  | submit kind script => exact .serves (q := .enqueue kind script .discard) nofun rfl
  | submitWith kind script c =>
    exact .serves (q := .enqueue kind script (.callback c)) nofun rfl
  | interrupt => exact .serves (q := .interrupt) nofun rfl
  | interruptPending => exact .serves (q := .interruptPending) nofun rfl
  | stop => exact .serves (q := .stop) nofun rfl
  | drop => exact .serves (q := .drop) nofun rfl

/-! ## Steps of the owner -/

theorem move_of_rest {s : Serializer σ V} (h : s.ownerStep = none) : s.move .owner = s := by
  rw [move, h, Option.getD_none]

theorem steps_of_rest {s : Serializer σ V} (h : s.ownerStep = none) (n : ℕ) : steps n s = s := by
  cases n with
  | zero => rfl
  | succ n => rw [steps, h]

theorem steps_succ {s s' : Serializer σ V} (h : s.ownerStep = some s') (n : ℕ) :
    steps (n + 1) s = steps n s' := by
  rw [steps, h]

theorem steps_move (n : ℕ) (s : Serializer σ V) : steps (n + 1) s = steps n (s.move .owner) := by
  cases ho : s.ownerStep with
  | none => rw [move_of_rest ho, steps_of_rest ho, steps_of_rest ho]
  | some s' => rw [steps_succ ho, move, ho, Option.getD_some]

theorem foldl_owner (n : ℕ) (s : Serializer σ V) :
    (List.replicate n .owner).foldl move s = steps n s := by
  induction n generalizing s with
  | zero => rfl
  | succ n ih => rw [List.replicate_succ, List.foldl_cons, ih, steps_move]

/-! ## The front after a move -/

/-- **A move changes the front by its request, or takes a message from the queue.** -/
theorem front_of_step {s s' : Serializer σ V} {m : Move σ V} (h : Step s m s') :
    s'.front = (s.serveAll (s.requestOf m)).front ∨
      s.requestOf m = none ∧ s.owner = .alive ∧ s.current = none ∧
        ∃ msg queue, s.queue = msg :: queue ∧ s'.front = s.front.behind msg queue := by
  cases h with
  | rests hm hq => exact .inl (by rw [hq]; rfl)
  | serves hm hq => exact .inl (by rw [hq]; rfl)
  | releases hr hs => exact .inl rfl
  | begins ha hc hq =>
    exact .inr ⟨requestOf_owner_of_idle hc, ha, hc, _, _, hq, front_begin _ _⟩
  | halts ha hc hq => exact .inr ⟨requestOf_owner_of_idle hc, ha, hc, _, _, hq, rfl⟩
  | goesOn ha hr ht =>
    exact .inl (by rw [front_goOn, requestOf_owner ha hr]; exact front_nextTurn ht)
  | ends ha hr ht =>
    have hq : requestIn _ = none := requestIn_eq_none fun s' r' => by rw [ht]; simp
    refine .inl ?_
    rw [front_finishFrame, requestOf_owner ha hr, hq, nextTurn_of_ends ht]
    rfl
  | panics ha hr ht =>
    have hq : requestIn _ = none := requestIn_eq_none fun s' r' => by rw [ht]; simp
    exact .inl (by rw [front_unwind, requestOf_owner ha hr, hq]; rfl)

/-! ## The jobs in the queue -/

/-- The jobs among some messages. -/
def jobsIn (queue : List (Message σ V)) : List (Job σ V) :=
  queue.filterMap fun
    | .job j => some j
    | .stop => none

@[simp] theorem jobsIn_nil : jobsIn ([] : List (Message σ V)) = [] := rfl

@[simp] theorem jobsIn_cons_job (j : Job σ V) (queue : List (Message σ V)) :
    jobsIn (.job j :: queue) = j :: jobsIn queue := rfl

@[simp] theorem jobsIn_cons_stop (queue : List (Message σ V)) :
    jobsIn (.stop :: queue) = jobsIn queue := rfl

@[simp] theorem jobsIn_append (queue more : List (Message σ V)) :
    jobsIn (queue ++ more) = jobsIn queue ++ jobsIn more := List.filterMap_append

theorem mem_jobsIn {j : Job σ V} {queue : List (Message σ V)} :
    j ∈ jobsIn queue ↔ .job j ∈ queue := by
  unfold jobsIn
  rw [List.mem_filterMap]
  constructor
  · rintro ⟨msg, hm, he⟩
    cases msg with
    | job k => exact Option.some.inj he ▸ hm
    | stop => cases he
  · exact fun hm => ⟨_, hm, rfl⟩

/-- The job that a request adds to the queue. -/
def acceptedBy (s : Serializer σ V) : Request σ V → Option (Job σ V)
  | .enqueue kind script delivery =>
    if s.isOpen then some ⟨s.nextSeq, kind, script, delivery⟩ else none
  | _ => none

theorem enqueue_of_isOpen {s : Serializer σ V} (h : s.isOpen = true) (kind : JobKind)
    (script : Script σ V) (delivery : Delivery σ V) :
    s.enqueue kind script delivery =
      (some s.nextSeq,
        { s with
          queue := s.queue ++ [.job ⟨s.nextSeq, kind, script, delivery⟩]
          nextSeq := s.nextSeq + 1
          counts := { s.counts with submitted := s.counts.submitted + 1 } }) := by
  unfold enqueue
  split
  case h_1 | h_2 => rfl
  all_goals
    next hp =>
      rw [isOpen, hp] at h
      cases h

theorem enqueue_of_not_isOpen {s : Serializer σ V} (h : s.isOpen = false) (kind : JobKind)
    (script : Script σ V) (delivery : Delivery σ V) :
    s.enqueue kind script delivery =
      (none, { s with counts := { s.counts with dropped := s.counts.dropped + 1 } }) := by
  unfold enqueue
  split
  case h_3 | h_4 => rfl
  all_goals
    next hp =>
      rw [isOpen, hp] at h
      cases h

theorem start_queue (s : Serializer σ V) :
    s.start.queue = s.queue ∧ s.start.nextSeq = s.nextSeq := by
  unfold start
  split <;> exact ⟨rfl, rfl⟩

theorem started_queue (s : Serializer σ V) :
    s.started.queue = s.queue ∧ s.started.nextSeq = s.nextSeq := by
  unfold started
  split
  · exact start_queue s
  · exact ⟨rfl, rfl⟩

theorem stop_queue (s : Serializer σ V) :
    s.stop.2.nextSeq = s.nextSeq ∧
      (s.stop.2.queue = s.queue ∨ s.stop.2.queue = s.queue ++ [.stop]) := by
  obtain ⟨hq, hn⟩ := started_queue s
  unfold stop halt
  split
  · exact ⟨hn, .inr (by rw [hq])⟩
  · exact ⟨hn, .inl hq⟩

/-- **A request appends to the queue the job that it makes, or at most a stop.** -/
theorem queue_serve (s : Serializer σ V) (q : Request σ V) :
    (∃ j, s.acceptedBy q = some j ∧ (s.serve q).queue = s.queue ++ [.job j] ∧
        j.seq = s.nextSeq ∧ (s.serve q).nextSeq = s.nextSeq + 1) ∨
      s.acceptedBy q = none ∧ (s.serve q).nextSeq = s.nextSeq ∧
        ((s.serve q).queue = s.queue ∨ (s.serve q).queue = s.queue ++ [.stop]) := by
  cases q with
  | enqueue kind script delivery =>
    cases ho : s.isOpen with
    | true =>
      refine .inl ⟨_, by rw [acceptedBy, if_pos ho], ?_⟩
      rw [serve, enqueue_of_isOpen ho]
      exact ⟨rfl, rfl, rfl⟩
    | false =>
      refine .inr ⟨by rw [acceptedBy, ho]; rfl, ?_⟩
      rw [serve, enqueue_of_not_isOpen ho]
      exact ⟨rfl, .inl rfl⟩
  | start => exact .inr ⟨rfl, (start_queue s).2, .inl (start_queue s).1⟩
  | interrupt | interruptPending => exact .inr ⟨rfl, rfl, .inl rfl⟩
  | stop => exact .inr ⟨rfl, stop_queue s⟩
  | drop =>
    refine .inr ⟨rfl, ?_⟩
    rw [serve, drop]
    split
    · exact ⟨rfl, .inl rfl⟩
    · exact stop_queue s

theorem jobsIn_serve {s : Serializer σ V} {q : Request σ V} (h : s.acceptedBy q = none) :
    jobsIn (s.serve q).queue = jobsIn s.queue := by
  rcases queue_serve s q with ⟨j, hj, -⟩ | ⟨-, -, hq | hq⟩
  · rw [h] at hj
    cases hj
  · rw [hq]
  · rw [hq, jobsIn_append, jobsIn_cons_stop, jobsIn_nil, List.append_nil]

end Serializer

end SymbolIndex
