import SymbolIndex.Proofs.Serializer.Differences

/-!
# Jobs that nobody waits for

Who waits for a job is only looked at when the job is over. So a serializer on which nobody waits
for some job does what it does if somebody waits, and only keeps no outcome of it.

* `Delivery.forgetting`, `Serializer.forgetting`: nobody waits for the job of some number;
* `forgetting_serve`, `forgetting_nextTurn`: requests and turns do not look at that;
* `forgetting_finish`, `forgetting_unwind`, `forgetting_begin`: the ends of jobs do, but nothing
  else comes of it;
* `forgetting_ownerStep`, `forgetting_move`: no move makes any other difference.
-/

namespace SymbolIndex

variable {σ V : Type}

/-- Who gets the result of the job `seq` if nobody waits for the job `n`. -/
def Delivery.forgetting (n seq : ℕ) : Delivery σ V → Delivery σ V
  | .reply => if seq = n then .discard else .reply
  | d => d

/-- The same job, but nobody waits for the job `n`. -/
def Job.forgetting (n : ℕ) (j : Job σ V) : Job σ V :=
  { j with delivery := j.delivery.forgetting n j.seq }

def Message.forgetting (n : ℕ) : Message σ V → Message σ V
  | .job j => .job (j.forgetting n)
  | .stop => .stop

def Running.forgetting (n : ℕ) (r : Running σ V) : Running σ V :=
  { r with delivery := r.delivery.forgetting n r.seq }

theorem Delivery.forgetting_reply (n : ℕ) : (reply : Delivery σ V).forgetting n n = discard :=
  if_pos rfl

theorem Delivery.forgetting_of_ne {n seq : ℕ} (h : seq ≠ n) (d : Delivery σ V) :
    d.forgetting n seq = d := by
  cases d with
  | reply => exact if_neg h
  | discard | callback c => rfl

theorem Job.forgetting_of_ne {n : ℕ} {j : Job σ V} (h : j.seq ≠ n) : j.forgetting n = j := by
  rw [Job.forgetting, Delivery.forgetting_of_ne h]

theorem Running.forgetting_of_ne {n : ℕ} {r : Running σ V} (h : r.seq ≠ n) :
    r.forgetting n = r := by
  rw [Running.forgetting, Delivery.forgetting_of_ne h]

namespace Serializer

/-- The same serializer, but nobody waits for the job `n`. -/
def forgetting (n : ℕ) (s : Serializer σ V) : Serializer σ V :=
  { s with
    queue := s.queue.map (Message.forgetting n)
    current := s.current.map (Running.forgetting n)
    replies := s.replies.filter fun reply => reply.1 ≠ n }

/-- The same turn, but nobody waits for the job `n`. -/
def Turn.forgetting (n : ℕ) : Turn σ V → Turn σ V
  | .waits => .waits
  | .goesOn s r => .goesOn (s.forgetting n) (r.forgetting n)
  | .ends s result => .ends (s.forgetting n) result
  | .panics p => .panics p

variable {n : ℕ}

theorem forgetting_of_unused {s : Serializer σ V} (hqueue : ∀ j ∈ jobsIn s.queue, j.seq ≠ n)
    (hcurrent : ∀ r, s.current = some r → r.seq ≠ n)
    (hreplies : ∀ reply ∈ s.replies, reply.1 ≠ n) : s.forgetting n = s := by
  have hq : s.queue.map (Message.forgetting n) = s.queue := by
    refine (List.map_congr_left fun msg hmsg => ?_).trans (List.map_id' _)
    cases msg with
    | job j => rw [Message.forgetting, Job.forgetting_of_ne (hqueue j (mem_jobsIn.mpr hmsg))]
    | stop => rfl
  have hc : s.current.map (Running.forgetting n) = s.current := by
    cases hr : s.current with
    | none => rfl
    | some r => rw [Option.map_some, Running.forgetting_of_ne (hcurrent r hr)]
  have hp : (s.replies.filter fun reply => reply.1 ≠ n) = s.replies :=
    List.filter_eq_self.mpr fun reply hreply => decide_eq_true (hreplies reply hreply)
  rw [forgetting, hq, hc, hp]

theorem replyTo_forgetting (s : Serializer σ V) {k : ℕ} (h : k ≠ n) :
    (s.forgetting n).replyTo k = s.replyTo k := by
  have hlookup : ∀ replies : List (ℕ × Outcome V),
      (replies.filter fun reply => reply.1 ≠ n).lookup k = replies.lookup k := by
    intro replies
    induction replies with
    | nil => rfl
    | cons reply replies ih =>
      by_cases hn : reply.1 = n
      · rw [List.filter_cons_of_neg (by simpa using hn), ih, List.lookup_cons,
          beq_false_of_ne (hn ▸ h)]
      · rw [List.filter_cons_of_pos (by simpa using hn), List.lookup_cons, List.lookup_cons, ih]
  exact hlookup s.replies

theorem forgetting_withReply (s : Serializer σ V) (o : Outcome V) :
    (s.withReply n o).forgetting n = s.forgetting n := by
  simp [withReply, forgetting]

theorem forgetting_withReply_of_ne (s : Serializer σ V) {seq : ℕ} (h : seq ≠ n) (o : Outcome V) :
    (s.withReply seq o).forgetting n = (s.forgetting n).withReply seq o := by
  simp [withReply, forgetting, h]

/-! ## Requests -/

theorem forgetting_start (s : Serializer σ V) : (s.forgetting n).start = s.start.forgetting n := by
  unfold start
  rw [apply_ite (forgetting n)]
  rfl

theorem forgetting_enqueue (s : Serializer σ V) (kind : JobKind) (script : Script σ V)
    (d : Delivery σ V) :
    (s.forgetting n).enqueue kind script (d.forgetting n s.nextSeq) =
      ((s.enqueue kind script d).1, (s.enqueue kind script d).2.forgetting n) := by
  have hphase : (s.forgetting n).phase = s.phase := rfl
  unfold enqueue
  rw [hphase]
  cases s.phase with
  | fresh | running =>
    simp only [forgetting, takeNumber, send, countSubmitted, List.map_append, List.map_cons,
      List.map_nil]
    rfl
  | stopping | stopped => rfl

theorem forgetting_started (s : Serializer σ V) :
    (s.forgetting n).started = s.started.forgetting n := by
  unfold started
  rw [apply_ite (forgetting n), forgetting_start]
  rfl

theorem forgetting_halt (s : Serializer σ V) :
    (s.forgetting n).halt = (s.halt.1, s.halt.2.forgetting n) := by
  have hhandle : (s.forgetting n).hasHandle = s.hasHandle := rfl
  unfold halt
  rw [hhandle]
  split
  · simp only [forgetting, List.map_append, List.map_cons, List.map_nil]
    rfl
  · rfl

theorem forgetting_stop (s : Serializer σ V) :
    (s.forgetting n).stop = (s.stop.1, s.stop.2.forgetting n) := by
  rw [stop, forgetting_started, forgetting_halt, stop]

theorem forgetting_drop (s : Serializer σ V) :
    (s.forgetting n).drop = (s.drop.1, s.drop.2.forgetting n) := by
  have hstranded : (s.forgetting n).stranded = s.stranded := rfl
  have hhandle : (s.forgetting n).hasHandle = s.hasHandle := rfl
  unfold drop
  rw [forgetting_stop, hstranded, hhandle]
  split <;> rfl

theorem forgetting_serve {s : Serializer σ V} (h : n ≠ s.nextSeq) (q : Request σ V) :
    (s.forgetting n).serve q = (s.serve q).forgetting n := by
  cases q with
  | start => exact forgetting_start s
  | enqueue kind script d =>
    have henqueue := forgetting_enqueue (n := n) s kind script d
    rw [Delivery.forgetting_of_ne h.symm] at henqueue
    exact congrArg Prod.snd henqueue
  | interrupt | interruptPending => rfl
  | stop => exact congrArg Prod.snd (forgetting_stop s)
  | drop => exact congrArg Prod.snd (forgetting_drop s)

theorem forgetting_submit (s : Serializer σ V) (kind : JobKind) (script : Script σ V) :
    (s.forgetting n).submit kind script =
      ((s.submit kind script).1, (s.submit kind script).2.forgetting n) :=
  forgetting_enqueue s kind script .discard

theorem forgetting_submitWith (s : Serializer σ V) (kind : JobKind) (script : Script σ V)
    (c : Callback σ V) :
    (s.forgetting n).submitWith kind script c =
      ((s.submitWith kind script c).1, (s.submitWith kind script c).2.forgetting n) :=
  forgetting_enqueue s kind script (.callback c)

/-! ## Turns -/

theorem forgetting_raise (s : Serializer σ V) (r : Running σ V) (p : Payload) :
    (s.forgetting n).raise (r.forgetting n) p = (s.raise r p).forgetting n := by
  unfold raise
  rw [show (r.forgetting n).frame = r.frame from rfl, show (r.forgetting n).outer = r.outer from rfl]
  cases catcher r.frame r.outer <;> rfl

theorem forgetting_act (s : Serializer σ V) (r : Running σ V) (a : Action σ V) :
    (s.forgetting n).act (r.forgetting n) a = (s.act r a).forgetting n := by
  cases a with
  | perform work =>
    have hwork : work ((s.forgetting n).isInterrupted (r.forgetting n).frame.token)
        (s.forgetting n).state = work (s.isInterrupted r.frame.token) s.state := rfl
    simp only [act, hwork]
    split <;> rfl
  | check | awaitInterrupt =>
    simp only [act]
    rw [apply_ite (Turn.forgetting n)]
    rfl
  | panic p => exact forgetting_raise s r p
  | stop =>
    rw [act, forgetting_stop]
    rfl
  | submit kind script =>
    rw [act, forgetting_submit]
    rfl
  | submitWith kind script tag callback =>
    rw [act, forgetting_submitWith]
    rfl
  | _ => rfl

theorem forgetting_nextTurn (s : Serializer σ V) (r : Running σ V) :
    (s.forgetting n).nextTurn (r.forgetting n) = (s.nextTurn r).forgetting n := by
  have hscript : (r.forgetting n).frame.script = r.frame.script := rfl
  unfold nextTurn
  rw [hscript]
  cases r.frame.script with
  | nil => rfl
  | cons a rest => exact forgetting_act s { r with frame := { r.frame with script := rest } } a

/-! ## The ends of jobs -/

theorem forgetting_reply (s : Serializer σ V) (seq : ℕ) (o : Outcome V) :
    (Delivery.reply : Delivery σ V).forgetting n seq = .discard ∧
        s.forgetting n = (s.withReply seq o).forgetting n ∨
      (Delivery.reply : Delivery σ V).forgetting n seq = .reply ∧
        (s.forgetting n).withReply seq o = (s.withReply seq o).forgetting n := by
  rcases eq_or_ne seq n with rfl | hn
  · exact .inl ⟨Delivery.forgetting_reply seq, (forgetting_withReply s o).symm⟩
  · exact .inr ⟨Delivery.forgetting_of_ne hn _, (forgetting_withReply_of_ne s hn o).symm⟩

theorem forgetting_finish (s : Serializer σ V) (r : Running σ V) (result : JobResult V) :
    (s.forgetting n).finish (r.forgetting n) result = (s.finish r result).forgetting n := by
  have hdelivery : (r.forgetting n).delivery = r.delivery.forgetting n r.seq := rfl
  unfold finish
  rw [show (r.forgetting n).stage = r.stage from rfl, hdelivery]
  cases r.stage with
  | callback succeeded => rfl
  | work =>
    cases hd : r.delivery with
    | discard => rfl
    | callback c => simp [forgetting, withNote, Running.forgetting, Delivery.forgetting, hd]
    | reply =>
      rcases forgetting_reply (n := n) s r.seq (.result result) with ⟨hd, h⟩ | ⟨hd, h⟩ <;>
        rw [hd] <;> exact congrArg (countEnd · _) h

theorem forgetting_finishFrame (s : Serializer σ V) (r : Running σ V) (result : JobResult V) :
    (s.forgetting n).finishFrame (r.forgetting n) result =
      (s.finishFrame r result).forgetting n := by
  unfold finishFrame
  rw [show (r.forgetting n).outer = r.outer from rfl]
  cases r.outer with
  | nil => exact forgetting_finish s r result
  | cons frame outer => rfl

theorem forgetting_unwind (s : Serializer σ V) (r : Running σ V) (p : Payload) :
    (s.forgetting n).unwind (r.forgetting n) p = (s.unwind r p).forgetting n := by
  have hdelivery : (r.forgetting n).delivery = r.delivery.forgetting n r.seq := rfl
  unfold unwind
  rw [show (r.forgetting n).stage = r.stage from rfl, hdelivery]
  cases r.stage with
  | callback succeeded => rfl
  | work =>
    cases r.delivery with
    | discard | callback c => rfl
    | reply =>
      rcases forgetting_reply (n := n) s r.seq (.panicked p) with ⟨hd, h⟩ | ⟨hd, h⟩ <;>
        rw [hd] <;> exact congrArg (countEnd · _) h

theorem forgetting_dismiss (s : Serializer σ V) (j : Job σ V) :
    (s.forgetting n).dismiss (j.forgetting n) = (s.dismiss j).forgetting n := by
  have hdelivery : (j.forgetting n).delivery = j.delivery.forgetting n j.seq := rfl
  simp only [dismiss, hdelivery]
  cases j.delivery with
  | discard | callback c => rfl
  | reply =>
    rcases forgetting_reply (n := n) s.countDropped j.seq (.result (.error .dropped)) with
      ⟨hd, h⟩ | ⟨hd, h⟩ <;> rw [hd] <;> exact h

theorem forgetting_begin (s : Serializer σ V) (j : Job σ V) :
    (s.forgetting n).begin (j.forgetting n) = (s.begin j).forgetting n := by
  unfold begin
  rw [apply_ite (forgetting n), forgetting_dismiss]
  rfl

/-! ## Moves -/

theorem forgetting_receive (s : Serializer σ V) :
    (s.forgetting n).receive = s.receive.map (forgetting n) := by
  have hqueue : (s.forgetting n).queue = s.queue.map (Message.forgetting n) := rfl
  unfold receive
  rw [hqueue]
  cases s.queue with
  | nil => rfl
  | cons msg queue =>
    cases msg with
    | job j => exact congrArg some (forgetting_begin (s.behind queue) j)
    | stop => rfl

theorem forgetting_advance (s : Serializer σ V) (r : Running σ V) :
    (s.forgetting n).advance (r.forgetting n) = (s.advance r).map (forgetting n) := by
  unfold advance
  rw [forgetting_nextTurn]
  cases s.nextTurn r with
  | waits | goesOn s' r' => rfl
  | ends s' result => exact congrArg some (forgetting_finishFrame s' r result)
  | panics p => exact congrArg some (forgetting_unwind s r p)

theorem forgetting_ownerStep (s : Serializer σ V) :
    (s.forgetting n).ownerStep = s.ownerStep.map (forgetting n) := by
  have hcurrent : (s.forgetting n).current = s.current.map (Running.forgetting n) := rfl
  unfold ownerStep
  rw [show (s.forgetting n).owner = s.owner from rfl, hcurrent]
  cases s.owner with
  | unborn | finished => rfl
  | alive =>
    cases s.current with
    | none => exact forgetting_receive s
    | some r => exact forgetting_advance s r

theorem forgetting_release (s : Serializer σ V) :
    (s.forgetting n).release = s.release.forgetting n := by
  have hcurrent : (s.forgetting n).current = s.current.map (Running.forgetting n) := rfl
  unfold release
  rw [hcurrent]
  cases hr : s.current with
  | none => rfl
  | some r =>
    simp only [Option.map_some, Running.forgetting]
    split <;> rfl

theorem forgetting_requestOf (s : Serializer σ V) (m : Move σ V) :
    (s.forgetting n).requestOf m = s.requestOf m := by
  cases m with
  | owner =>
    have hcurrent : (s.forgetting n).current = s.current.map (Running.forgetting n) := rfl
    rw [requestOf, requestOf, hcurrent, Option.bind_map]
    rfl
  | _ => rfl

theorem forgetting_outcome (s : Serializer σ V) (r : Running σ V) :
    (s.forgetting n).outcome? (r.forgetting n) = s.outcome? r := by
  unfold outcome?
  rw [forgetting_nextTurn, show (r.forgetting n).stage = r.stage from rfl,
    show (r.forgetting n).outer = r.outer from rfl]
  cases r.stage with
  | callback succeeded => rfl
  | work => cases s.nextTurn r <;> cases r.outer <;> rfl

theorem forgetting_ending (s : Serializer σ V) (m : Move σ V) :
    (s.forgetting n).ending m = s.ending m := by
  cases m with
  | owner =>
    have hcurrent : (s.forgetting n).current = s.current.map (Running.forgetting n) := rfl
    have houtcome : ∀ r : Running σ V,
        ((s.forgetting n).outcome? (r.forgetting n)).map ((r.forgetting n).seq, ·) =
          (s.outcome? r).map (r.seq, ·) := by
      intro r
      rw [forgetting_outcome]
      rfl
    rw [ending, ending, hcurrent, Option.bind_map]
    exact congrArg (fun f => if s.owner = .alive then s.current.bind f else none) (funext houtcome)
  | _ => rfl

/-- **No move looks at who waits for a job that has been accepted.** -/
theorem forgetting_move {s : Serializer σ V} (h : n ≠ s.nextSeq) (m : Move σ V) :
    (s.forgetting n).move m = (s.move m).forgetting n := by
  by_cases hm : m = .owner
  · subst hm
    rw [move, move, forgetting_ownerStep]
    cases s.ownerStep <;> rfl
  · by_cases hr : m = .release
    · subst hr
      exact forgetting_release s
    · rw [move_eq_serveAll hm hr, move_eq_serveAll hm hr, forgetting_requestOf]
      cases s.requestOf m with
      | none => rfl
      | some q => exact forgetting_serve h q

/-- A call that is not waited for is a job that is left behind. -/
theorem forgetting_move_submit (s : Serializer σ V) (kind : JobKind) (script : Script σ V) :
    (s.forgetting s.nextSeq).move (.submit kind script) =
      (s.serve (.enqueue kind script .reply)).forgetting s.nextSeq := by
  have henqueue := forgetting_enqueue (n := s.nextSeq) s kind script .reply
  rw [Delivery.forgetting_reply] at henqueue
  exact congrArg Prod.snd henqueue

end Serializer

end SymbolIndex
