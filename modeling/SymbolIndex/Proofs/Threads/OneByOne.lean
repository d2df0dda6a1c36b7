import SymbolIndex.Proofs.Serializer.Accounts
import SymbolIndex.Proofs.Serializer.Ready
import SymbolIndex.Proofs.Threads.Stations
import SymbolIndex.Proofs.Threads.Undisturbed

/-!
# One after the other

A run in which everything that is asked for is done at once is a run of threads that never disturb
each other: whatever it comes to, threads come to as well.

* `Threads.Shows`: threads that nobody disturbs any more, and what they have come to;
* `Coherent`, `Run.coherent`: what requests rely on if they are not disturbed;
* `Shows.served`, `Shows.released`, `Shows.begun`, `Shows.halted`, `Shows.wentOn`, `Shows.ended`,
  `Shows.panicked`: one move after the other;
* `Run.exists_threadsRun`: a whole run.
-/

namespace SymbolIndex

open Serializer

variable {σ V : Type}

/-- The thread rests, or waits for a job or for the end of the owner. -/
def Errand.isSettled : Errand σ V → Bool
  | .rests _ | .waits _ _ | .stops .joins => true
  | _ => false

/-- Threads with a serializer, none of which is in the middle of anything. -/
structure Threads.Shows (t : Threads σ V) (s : Serializer σ V) : Prop where
  common : t.common = .of s
  desk : t.desk = s.current.elim .free .runs
  owner : t.errand .owner = .rests none
  threads : ∀ i, (t.errand (.thread i)).isSettled = true
  /-- there always is a thread that has not asked for anything -/
  spare : ∃ n, ∀ i, n ≤ i → t.errand (.thread i) = .rests none
  held : t.isDropped = false

/-- Threads that share something else, with something else on the desk of the owner. -/
def Threads.dealt (t : Threads σ V) (c : Common σ V) (desk : Desk σ V) : Threads σ V :=
  (t.withCommon c).withDesk desk

/-- What requests rely on if they are not disturbed. -/
structure Coherent (s : Serializer σ V) : Prop where
  reader : s.isOpen = true → (Common.of s).hasReader = true
  handle : s.hasHandle = true → s.owner = .alive
  taken : s.owner = .alive → s.hasReceiver = false
  idle : s.hasReceiver = true → s.pendingJobs = 0 → s.queue = []
  last : ∀ queue, s.queue = .stop :: queue → queue = []

namespace Threads.Shows

variable {t : Threads σ V} {s s' : Serializer σ V}

/-- Threads may come to what is shared behind a move, and to what is on the desk then. -/
theorem exists_of_reaches (h : t.Shows s)
    (hr : (t.dealt (.of s) (s.current.elim .free .runs)).Reaches
      (t.dealt (.of s') (s'.current.elim .free .runs))) :
    ∃ t', t.Reaches t' ∧ t'.Shows s' := by
  have hself : t.dealt (.of s) (s.current.elim .free .runs) = t := by rw [← h.common, ← h.desk]; rfl
  rw [hself] at hr
  exact ⟨_, hr, rfl, rfl, h.owner, h.threads, h.spare, h.held⟩

/-! ## Requests of threads -/

theorem served (h : t.Shows s) {q : Wish σ V} (hq : q.isDrop = false)
    (hc : s'.current = s.current) {e : ℕ → Errand σ V} (he : ∀ i, (e i).isSettled = true)
    (hl : ∀ i, Errand.Leads (.thread i) (.of s) q.errand (.of s') (e i)) :
    ∃ t', t.Reaches t' ∧ t'.Shows s' := by
  obtain ⟨n, hspare⟩ := h.spare
  have hasks : t.happen (.ask n q) = t.brought (.thread n) (.of s) q.errand := by
    rw [happen, ask, hspare n le_rfl, h.held, hq, ← h.common]
    exact congrArg (fun held => { t.withErrand (.thread n) q.errand with isDropped := held })
      h.held.symm
  have hask : t.Reaches (t.brought (.thread n) (.of s) q.errand) := by
    rw [← hasks]
    refine .once _ fun i hi => ?_
    obtain ⟨-, rfl⟩ := Event.ask.inj hi
    cases hq
  refine ⟨_, hask.trans (t.reaches_of_leads (hl n)), rfl, ?_, ?_, fun i => ?_, ⟨n + 1, ?_⟩, h.held⟩
  · rw [hc]
    exact h.desk
  · exact (withErrand_of_ne _ (by simp) _).trans h.owner
  · by_cases hi : i = n
    · rw [hi, brought_errand]
      exact he n
    · rw [brought, withErrand_of_ne _ (by simpa using hi)]
      exact h.threads i
  · intro i hi
    rw [brought, withErrand_of_ne _ (by simp; omega)]
    exact hspare i (by omega)

theorem isSettled_stopped (i : ℕ) (wait : StopWait) :
    (Errand.stopped (.thread i) wait : Errand σ V).isSettled = true := by
  cases wait <;> rfl

theorem isSettled_called (timed : Bool) (answer : Except Error ℕ) :
    (Errand.called timed answer : Errand σ V).isSettled = true := by
  cases answer <;> rfl

theorem stopped (h : t.Shows s) (hs : Coherent s) : ∃ t', t.Reaches t' ∧ t'.Shows s.stop.2 :=
  h.served (q := .stop) rfl (congrArg Back.current (back_stop s)) (isSettled_stopped · s.stop.1)
    fun i => leads_stop (.thread i) hs.handle hs.idle

theorem released (h : t.Shows s) : t.release.Shows s.release := by
  unfold Threads.release Serializer.release
  rw [h.desk]
  cases hc : s.current with
  | none => exact h
  | some r =>
    simp only [Option.elim_some]
    cases hs : r.frame.script with
    | nil => exact h
    | cons a rest =>
      cases a with
      | gate => exact ⟨h.common, rfl, h.owner, h.threads, h.spare, h.held⟩
      | _ => exact h

/-! ## Messages -/

theorem ownerStep_free (t : Threads σ V) (ha : s.owner = .alive) {m : Message σ V}
    {queue : List (Message σ V)} (hq : s.queue = m :: queue) :
    (t.dealt (.of s) .free).ownerStep =
      t.dealt (.of (s.behind queue))
        (match m with
          | .job j => .judges j
          | .stop => .halts) := by
  refine (if_pos ha).trans ?_
  unfold receive
  rw [show (t.dealt (.of s) .free).common.core.queue = m :: queue from hq]
  cases m <;> rfl

theorem begun (h : t.Shows s) (ha : s.owner = .alive) (hc : s.current = none) {j : Job σ V}
    {queue : List (Message σ V)} (hq : s.queue = .job j :: queue) :
    ∃ t', t.Reaches t' ∧ t'.Shows ((s.behind queue).begin j) := by
  let c : Common σ V := .of (s.behind queue)
  have hjudges : (t.dealt c (.judges j)).ownerStep =
      t.dealt c (if (s.behind queue).Dismisses j then .discards j else .starts j) := if_pos ha
  refine h.exists_of_reaches ?_
  rw [hc]
  refine .trans (.ownerStep (ownerStep_free t ha hq)) <| .trans (.ownerStep hjudges) ?_
  unfold begin
  split
  · have hdiscards : (t.dealt c (.discards j)).ownerStep =
        t.dealt (.of (s.behind queue).countDropped) (.forgets j) := if_pos ha
    have hidle : ((s.behind queue).dismiss j).current = none := by
      unfold dismiss
      split <;> exact hc
    refine .trans (.ownerStep hdiscards) (.ownerStep ((if_pos ha).trans ?_))
    rw [hidle]
    unfold dismiss
    cases hd : j.delivery <;> simp only [dealt, withDesk, hd] <;> rfl
  · exact .ownerStep (if_pos ha)

theorem halted (h : t.Shows s) (hs : Coherent s) (ha : s.owner = .alive) (hc : s.current = none)
    {queue : List (Message σ V)} (hq : s.queue = .stop :: queue) :
    ∃ t', t.Reaches t' ∧
      t'.Shows { s with queue := queue, owner := .finished, phase := .stopped } := by
  obtain rfl := hs.last queue hq
  let closed : Serializer σ V := { s.behind [] with phase := .stopped }
  have hcloses : (t.dealt (.of (s.behind [])) .halts).ownerStep =
      t.dealt (.of closed) .leaves := if_pos ha
  have hloses : (Common.of closed).loseQueue = .of closed := by
    rw [loseQueue_of rfl, ← show closed.hasReceiver = false from hs.taken ha]
  refine h.exists_of_reaches ?_
  rw [hc]
  refine .trans (.ownerStep (ownerStep_free t ha hq)) <| .trans (.ownerStep hcloses) <|
    .ownerStep ((if_pos ha).trans ?_)
  simp only [dealt, withDesk, withCommon, hloses]
  rfl

end Threads.Shows

/-! ## Turns -/

theorem wish_eq_none_of_request {a : Action σ V} (h : a.request = none) : a.wish = none := by
  cases a <;> first | rfl | cases h

/-- The same turn on another serializer. -/
def Serializer.Turn.map (f : Serializer σ V → Serializer σ V) : Turn σ V → Turn σ V
  | .waits => .waits
  | .goesOn s r => .goesOn (f s) r
  | .ends s result => .ends (f s) result
  | .panics p => .panics p

theorem isInterrupted_of (s : Serializer σ V) (token : Token) :
    (Common.of s).core.isInterrupted token = s.isInterrupted token := rfl

theorem nextTurn_of {s : Serializer σ V} {r : Running σ V} (hq : requestIn r = none) :
    (Common.of s).core.nextTurn r = (s.nextTurn r).map fun s => (Common.of s).core := by
  unfold nextTurn
  unfold requestIn at hq
  cases hs : r.frame.script with
  | nil => rfl
  | cons a rest =>
    rw [hs] at hq
    cases a with
    | perform work =>
      rcases hw : work (s.isInterrupted r.frame.token) s.state with ⟨result, state⟩
      simp only [act, isInterrupted_of, show (Common.of s).core.state = s.state from rfl, hw]
      cases result <;> rfl
    | check | awaitInterrupt =>
      simp only [act]
      split
      · next hi => rw [if_pos (show s.isInterrupted r.frame.token = true from hi)]; rfl
      · next hi => rw [if_neg (show ¬ s.isInterrupted r.frame.token = true from hi)]; rfl
    | panic p =>
      simp only [act, raise]
      cases catcher { r.frame with script := rest } r.outer <;> rfl
    | interrupt | interruptPending | stop => cases hq
    | submit kind script | submitWith kind script tag callback => cases hq
    | _ => rfl

theorem stopped_owner (wait : StopWait) :
    (Errand.stopped .owner wait : Errand σ V) = .rests (some .done) := by
  cases wait <;> rfl

/-- What a job asks for leads to what its action does at once. -/
theorem leads_asked {s : Serializer σ V} (hs : Coherent s) {a : Action σ V} {q : Wish σ V}
    (hq : a.wish = some q) :
    ∃ s' answer, Errand.Leads .owner (.of s) q.errand (.of s') (.rests (some answer)) ∧
      ∀ r, s.act r a = .goesOn ((a.noteOn answer).elim s' s'.withNote) r := by
  cases a with
  | interrupt =>
    obtain rfl := Option.some.inj hq
    exact ⟨s.interrupt, .done, leads_interrupt _ s, fun _ => rfl⟩
  | interruptPending =>
    obtain rfl := Option.some.inj hq
    exact ⟨s.interruptPending, .done, leads_interruptPending _ s, fun _ => rfl⟩
  | stop =>
    obtain rfl := Option.some.inj hq
    have hstop := leads_stop .owner hs.handle hs.idle
    rw [stopped_owner] at hstop
    exact ⟨s.stop.2, .done, hstop, fun _ => rfl⟩
  | submit kind script =>
    obtain rfl := Option.some.inj hq
    exact ⟨(s.submit kind script).2, .submitted (s.submit kind script).1,
      leads_offer .owner hs.reader ⟨kind, script, .discard, false⟩, fun _ => rfl⟩
  | submitWith kind script tag callback =>
    obtain rfl := Option.some.inj hq
    exact ⟨(s.submitWith kind script ⟨tag, callback⟩).2,
      .submitted (s.submitWith kind script ⟨tag, callback⟩).1,
      leads_offer .owner hs.reader ⟨kind, script, .callback ⟨tag, callback⟩, false⟩, fun _ => rfl⟩
  | _ => cases hq

theorem exists_of_requestIn {r : Running σ V} (h : requestIn r ≠ none) :
    ∃ a rest q, r.frame.script = a :: rest ∧ a.wish = some q := by
  unfold requestIn at h
  cases hs : r.frame.script with
  | nil =>
    rw [hs] at h
    exact absurd rfl h
  | cons a rest =>
    rw [hs] at h
    obtain ⟨q, hq⟩ := Option.ne_none_iff_exists'.mp (mt Threads.request_eq_none_of_wish h)
    exact ⟨a, rest, q, rfl, hq⟩

namespace Threads.Shows

variable {t : Threads σ V} {s s' : Serializer σ V}

theorem run_of_requestIn {r : Running σ V} (hq : requestIn r = none)
    (hdropped : t.isDropped = false) : t.run r = t.takeTurn r := by
  unfold run
  split
  · rfl
  · next a rest hs =>
    have hwish : a.wish = none := by
      rw [requestIn, hs] at hq
      exact wish_eq_none_of_request hq
    simp only [hdropped, Bool.false_eq_true, false_and, if_false, hwish, Option.elim_none]

/-- A job that does not ask for anything takes its turn. -/
theorem ownerStep_runs (h : t.Shows s) (ha : s.owner = .alive) {r : Running σ V}
    (hq : requestIn r = none) :
    (t.dealt (.of s) (.runs r)).ownerStep = (t.dealt (.of s) (.runs r)).takeTurn r :=
  (if_pos ha).trans (run_of_requestIn hq h.held)

theorem takeTurn_runs (t : Threads σ V) {r : Running σ V} (hq : requestIn r = none) :
    (t.dealt (.of s) (.runs r)).takeTurn r =
      match s.nextTurn r with
      | .waits => t.dealt (.of s) (.runs r)
      | .goesOn s r => t.dealt (.of s) (.runs r)
      | .ends s' result => (t.dealt (.of s) (.runs r)).finish (Common.of s').core r result
      | .panics p => (t.dealt (.of s) (.runs r)).unwind r p := by
  rw [takeTurn, show (t.dealt (.of s) (.runs r)).common.core = (Common.of s).core from rfl,
    nextTurn_of hq]
  cases s.nextTurn r <;> rfl

theorem wentOn (h : t.Shows s) (hs : Coherent s) (ha : s.owner = .alive) {r r' : Running σ V}
    (hr : s.current = some r) (ht : s.nextTurn r = .goesOn s' r') :
    ∃ t', t.Reaches t' ∧ t'.Shows (s'.goOn r') := by
  refine h.exists_of_reaches ?_
  rw [hr]
  by_cases hq : requestIn r = none
  · refine .ownerStep ((h.ownerStep_runs ha hq).trans ?_)
    rw [takeTurn_runs t hq, ht]
    rfl
  · obtain ⟨a, rest, q, hscript, hwish⟩ := exists_of_requestIn hq
    obtain ⟨asked, answer, hleads, hact⟩ := leads_asked hs hwish
    rw [nextTurn, hscript] at ht
    obtain ⟨rfl, rfl⟩ := Turn.goesOn.inj ((hact _).symm.trans ht)
    have hreaches := reaches_attended (s := t.dealt (.of s) (.runs r)) ha rfl hscript hwish h.held
      h.owner hleads
    cases hn : a.noteOn answer <;> rw [hn] at hreaches <;> exact hreaches

theorem settled (t : Threads σ V) (ha : s.owner = .alive) (n : ℕ) (succeeded : Bool) :
    (t.dealt (.of s) (.settles n succeeded)).Reaches (t.dealt (.of (s.countEnd succeeded)) .free) :=
  .ownerStep (if_pos ha)

theorem ended (h : t.Shows s) (ha : s.owner = .alive) {r : Running σ V}
    (hr : s.current = some r) {result : JobResult V} (ht : s.nextTurn r = .ends s' result) :
    ∃ t', t.Reaches t' ∧ t'.Shows (s'.finishFrame r result) := by
  have hq : requestIn r = none := requestIn_eq_none fun s' r' => by rw [ht]; simp
  have ha' : s'.owner = .alive := by rw [nextTurn_of_ends ht]; exact ha
  have hends : (t.dealt (.of s) (.runs r)).ownerStep =
      (t.dealt (.of s) (.runs r)).finish (Common.of s').core r result := by
    rw [h.ownerStep_runs ha hq, takeTurn_runs t hq, ht]
  refine h.exists_of_reaches ?_
  rw [hr]
  refine .trans (.ownerStep hends) ?_
  unfold Threads.finish finishFrame
  cases hout : r.outer with
  | cons frame outer => exact .refl _
  | nil =>
    unfold Serializer.finish
    cases r.stage with
    | callback succeeded => exact settled t ha' r.seq succeeded
    | work =>
      cases r.delivery with
      | discard => exact settled t ha' r.seq result.isOk
      | reply =>
        exact settled (s := s'.withReply r.seq (.result result)) t ha' r.seq result.isOk
      | callback c => exact .refl _

theorem panicked (h : t.Shows s) (ha : s.owner = .alive) {r : Running σ V}
    (hr : s.current = some r) {p : Payload} (ht : s.nextTurn r = .panics p) :
    ∃ t', t.Reaches t' ∧ t'.Shows (s.unwind r p) := by
  have hq : requestIn r = none := requestIn_eq_none fun s' r' => by rw [ht]; simp
  have hpanics :
      (t.dealt (.of s) (.runs r)).ownerStep = (t.dealt (.of s) (.runs r)).unwind r p := by
    rw [h.ownerStep_runs ha hq, takeTurn_runs t hq, ht]
  refine h.exists_of_reaches ?_
  rw [hr]
  refine .trans (.ownerStep hpanics) ?_
  unfold Threads.unwind Serializer.unwind
  cases r.stage with
  | callback succeeded => exact settled t ha r.seq false
  | work =>
    cases r.delivery with
    | reply => exact settled (s := s.withReply r.seq (.panicked p)) t ha r.seq false
    | discard | callback c => exact settled t ha r.seq false

/-! ## Moves -/

/-- **One move** of a serializer is some steps of threads. -/
theorem move (h : t.Shows s) (hs : Coherent s) (m : Move σ V) :
    ∃ t', t.Reaches t' ∧ t'.Shows (s.move m) := by
  have hback : ∀ q : Request σ V, (s.serve q).current = s.current := fun q =>
    congrArg Back.current (back_serve s q)
  cases m with
  | start =>
    exact h.served (q := .start) rfl (hback .start) (fun _ => rfl)
      fun i => leads_start (.thread i) s false
  | submit kind script =>
    exact h.served (q := .submit kind script) rfl (hback (.enqueue kind script .discard))
      (fun _ => rfl) fun i => leads_offer (.thread i) hs.reader ⟨kind, script, .discard, false⟩
  | submitWith kind script c =>
    exact h.served (q := .submitWith kind script c) rfl
      (hback (.enqueue kind script (.callback c))) (fun _ => rfl)
      fun i => leads_offer (.thread i) hs.reader ⟨kind, script, .callback c, false⟩
  | call kind script =>
    have hc : (s.call kind script).2.current = s.current := by
      unfold call
      split
      · split <;> next heq => exact (congrArg (·.2.current) heq).symm.trans (hback (.enqueue ..))
      · rfl
    exact h.served (q := .call kind script false) rfl hc
      (fun _ => isSettled_called false (s.call kind script).1)
      fun i => leads_call (.thread i) hs.reader kind script false
  | interrupt =>
    exact h.served (q := .interrupt) rfl rfl (fun _ => rfl) fun i => leads_interrupt (.thread i) s
  | interruptPending =>
    exact h.served (q := .interruptPending) rfl rfl (fun _ => rfl)
      fun i => leads_interruptPending (.thread i) s
  | stop => exact h.stopped hs
  | drop =>
    -- whoever lets go of a serializer stops it, or does nothing
    simp only [Serializer.move, Serializer.drop]
    split
    · exact ⟨t, .refl t, h⟩
    · exact h.stopped hs
  | release => exact ⟨t.release, .once .release fun _ => by simp, h.released⟩
  | owner =>
    have hstep := step_move s .owner
    generalize s.move .owner = s₁ at hstep ⊢
    cases hstep with
    | rests => exact ⟨t, .refl t, h⟩
    | serves hm => exact absurd rfl hm
    | begins ha hc hq => exact h.begun ha hc hq
    | halts ha hc hq => exact h.halted hs ha hc hq
    | goesOn ha hr ht => exact h.wentOn hs ha hr ht
    | ends ha hr ht => exact h.ended ha hr ht
    | panics ha hr ht => exact h.panicked ha hr ht

end Threads.Shows

/-! ## Runs -/

theorem kept_serve {s : Serializer σ V} (h : s.phase = .fresh → s.hasReceiver = true)
    (q : Request σ V) : (s.serve q).phase = .fresh → (s.serve q).hasReceiver = true := by
  have hstop : s.stop.2.phase ≠ .fresh := by
    unfold stop halt
    split <;> exact fun hp => by cases hp
  cases q with
  | start =>
    rw [serve]
    unfold start
    split
    · exact fun hp => by cases hp
    · exact h
  | enqueue kind script delivery =>
    rw [serve]
    unfold enqueue
    split <;> exact h
  | interrupt | interruptPending => exact h
  | stop => exact fun hp => absurd hp hstop
  | drop =>
    rw [serve, Serializer.drop]
    split
    · exact h
    · exact fun hp => absurd hp hstop

theorem eq_nil_of_jobsIn {queue : List (Message σ V)} (h : jobsIn queue = [])
    (hs : .stop ∉ queue) : queue = [] := by
  cases queue with
  | nil => rfl
  | cons m queue =>
    cases m with
    | job j => cases h
    | stop => exact absurd List.mem_cons_self hs

theorem Threads.Station.queue_of_stop {t : Threads σ V} (h : t.Station)
    {queue : List (Message σ V)} (hq : t.common.core.queue = .stop :: queue) : queue = [] := by
  have hnone : ¬ NoStop t.common.core.queue := fun hn =>
    hn .stop (by rw [hq]; exact List.mem_cons_self) rfl
  cases h with
  | kept h | carried h | borne h | ready h | held h | closing h => exact absurd h.queue hnone
  | lost _ _ _ hnil => cases hnil.symm.trans hq
  | sent h =>
    cases h.halts hq with
    | asked _ desk => cases desk
    | halting _ _ hnil | ended _ _ hnil => exact hnil

/-- What some events lead to is what a run comes to. -/
theorem Threads.Reaches.exists_run {name : String} {background : Bool} {state : σ}
    {t : Threads σ V} (h : (Threads.new name background state).Reaches t) :
    ∃ T : ThreadsRun σ V, T.name = name ∧ T.background = background ∧ T.state = state ∧
      ∃ k, T.after k = t := by
  obtain ⟨events, hdrop, rfl⟩ := h
  refine ⟨.ofEvents name background state events hdrop, rfl, rfl, rfl, events.length, ?_⟩
  rw [ThreadsRun.after_ofEvents _ _ _ _ _ le_rfl, List.take_length]

namespace Run

variable (R : Run σ V)

theorem hasReceiver_of_fresh (t : ℕ) :
    (R.after t).phase = .fresh → (R.after t).hasReceiver = true := by
  induction t with
  | zero => exact fun _ => rfl
  | succ t ih =>
    rcases front_of_step (R.step t) with hf | ⟨-, ha, -, msg, queue, -, hf⟩
    · have hp : (R.after (t + 1)).phase = _ := congrArg Front.phase hf
      have hr : (R.after (t + 1)).hasReceiver = _ := congrArg Front.hasReceiver hf
      rw [hp, hr]
      cases (R.after t).requestOf (R.moves t) with
      | none => exact ih
      | some q => exact kept_serve ih q
    · have hp : (R.after (t + 1)).phase = _ := congrArg Front.phase hf
      have hr : (R.after (t + 1)).hasReceiver = _ := congrArg Front.hasReceiver hf
      rw [hp, hr]
      cases msg with
      | job j => exact ih
      | stop => exact fun hp => by cases hp

theorem refused_of_isOpen {t : ℕ} (h : (R.after t).isOpen = true) : R.refused t = 0 := by
  induction t with
  | zero => rfl
  | succ t ih =>
    have hopen : (R.after t).isOpen = true := by
      by_contra hclosed
      rw [R.not_isOpen_mono (Bool.eq_false_iff.mpr hclosed) (Nat.le_succ t)] at h
      cases h
    have hrefused : R.isRefused t = false := by simp [isRefused, hopen]
    rw [refused_succ, ih hopen, hrefused]
    rfl

theorem coherent {u : ℕ} {t : Threads σ V} (h : t.Shows (R.after u)) (ht : t.Station) :
    Coherent (R.after u) := by
  have hcore : t.common.core = { R.after u with current := none } := congrArg Common.core h.common
  refine ⟨fun ho => hasReader_of ?_, fun hh => ?_, fun ha => ?_, fun hr hp => ?_, ?_⟩
  · unfold isOpen at ho
    cases hp : (R.after u).phase with
    | fresh => exact .inl (R.hasReceiver_of_fresh u hp)
    | running => exact .inr (R.alive_of_running u hp)
    | stopping | stopped => rw [hp] at ho; cases ho
  · have hhandle : t.common.core.hasHandle = true := by rw [hcore]; exact hh
    have := (ht.of_hasHandle hhandle).1.owner
    rwa [hcore] at this
  · have halive : t.common.core.owner = .alive := by rw [hcore]; exact ha
    have := (ht.of_alive halive).1
    rwa [hcore] at this
  · have hopen : (R.after u).isOpen = true := by
      rw [isOpen, show (R.after u).phase = .fresh from (R.unused u hr).phase]
    have hbalance := (R.balance u).2
    have hjobs : (R.after u).unfinished = 0 := by
      have hpending : (R.after u).pendingJobs =
        (R.after u).counts.submitted - (R.after u).counts.ended := rfl
      rw [R.refused_of_isOpen hopen] at hbalance
      omega
    refine eq_nil_of_jobsIn ?_ fun hstop => ?_
    · exact List.length_eq_zero_iff.mp (Nat.eq_zero_of_add_eq_zero_right hjobs)
    · rw [(R.stopsLast u).2.1 (.inl hstop)] at hopen
      cases hopen
  · intro queue hq
    exact ht.queue_of_stop (by rw [hcore]; exact hq)

/-- **Whatever a run comes to, threads come to as well**, if they do not disturb each other. -/
theorem exists_reaches (u : ℕ) :
    ∃ t, (Threads.new R.name R.background R.state).Reaches t ∧ t.Shows (R.after u) := by
  induction u with
  | zero =>
    exact ⟨_, .refl _, rfl, rfl, rfl, fun _ => rfl, ⟨0, fun _ _ => rfl⟩, rfl⟩
  | succ u ih =>
    obtain ⟨t, hreaches, hshows⟩ := ih
    obtain ⟨T, -, -, -, k, rfl⟩ := hreaches.exists_run
    obtain ⟨t', hreaches', hshows'⟩ := hshows.move (R.coherent hshows (T.station k)) (R.moves u)
    exact ⟨t', hreaches.trans hreaches', hshows'⟩

/-- **Whatever a run comes to, a run of threads comes to as well**, which do not disturb each
other. -/
theorem exists_threadsRun (u : ℕ) :
    ∃ T : ThreadsRun σ V, T.name = R.name ∧ T.background = R.background ∧ T.state = R.state ∧
      ∃ k, (T.after k).Shows (R.after u) := by
  obtain ⟨t, hreaches, hshows⟩ := R.exists_reaches u
  obtain ⟨T, hname, hbackground, hstate, k, rfl⟩ := hreaches.exists_run
  exact ⟨T, hname, hbackground, hstate, k, hshows⟩

end Run

end SymbolIndex
