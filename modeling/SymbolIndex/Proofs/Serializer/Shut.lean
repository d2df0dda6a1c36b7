import SymbolIndex.Proofs.Serializer.Endings

/-!
# Shutting a serializer

Once a serializer has been stopped it accepts no job any more, whatever is done with it.

* `Front.Unused`, `Front.Shut`: a serializer that was neither started nor stopped, and one that
  accepts no jobs any more;
* `shut_stop`, `shut_serve`: a stop shuts a serializer, and no request opens it again;
* `Run.shut_of_stop`, `Run.shut_mono`: so it is in runs;
* `StopsLast`, `Run.stopsLast`: no job is queued behind a stop.
-/

namespace SymbolIndex

variable {σ V : Type}

/-- Neither started nor stopped. -/
structure Front.Unused (f : Front σ V) : Prop where
  phase : f.phase = .fresh
  handle : f.hasHandle = false
  owner : f.owner = .unborn

/-- It accepts no jobs any more, and cannot be started again. -/
structure Front.Shut (f : Front σ V) : Prop where
  receiver : f.hasReceiver = false
  phase : f.phase = .stopping ∨ f.phase = .stopped

namespace Serializer

/-! ## Shutting a serializer -/

theorem start_of_not_hasReceiver {s : Serializer σ V} (h : s.hasReceiver = false) :
    s.start = s := by
  rw [start, h]
  rfl

theorem start_hasReceiver (s : Serializer σ V) : s.start.hasReceiver = false := by
  unfold start
  cases h : s.hasReceiver with
  | true => rfl
  | false => exact h

theorem started_of_not_hasReceiver {s : Serializer σ V} (h : s.hasReceiver = false) :
    s.started = s := by
  rw [started, start_of_not_hasReceiver h, ite_self]

theorem front_enqueue (s : Serializer σ V) (kind : JobKind) (script : Script σ V)
    (delivery : Delivery σ V) :
    ∃ queue n, (s.enqueue kind script delivery).2.front =
      { s.front with queue := queue, nextSeq := n } := by
  unfold enqueue
  split <;> exact ⟨_, _, rfl⟩

theorem shut_halt {s : Serializer σ V} (h : s.hasHandle = true → s.hasReceiver = false) :
    s.halt.2.front.Shut := by
  unfold halt
  split
  · next hh => exact ⟨h hh, .inl rfl⟩
  · exact ⟨rfl, .inr rfl⟩

theorem shut_stop {s : Serializer σ V} (h : s.hasReceiver = true → s.front.Unused) :
    s.stop.2.front.Shut := by
  cases hr : s.hasReceiver with
  | false =>
    rw [stop, started_of_not_hasReceiver hr]
    exact shut_halt fun _ => hr
  | true =>
    refine shut_halt fun hh => ?_
    unfold started at hh ⊢
    split at hh
    · next hp => rw [if_pos hp]; exact start_hasReceiver s
    · rw [show s.hasHandle = false from (h hr).handle] at hh
      cases hh

/-- **A serializer that has been shut stays shut.** -/
theorem shut_serve {s : Serializer σ V} (h : s.front.Shut) (q : Request σ V) :
    (s.serve q).front.Shut := by
  have hr : s.hasReceiver = false := h.receiver
  cases q with
  | start => rw [serve, start_of_not_hasReceiver hr]; exact h
  | enqueue kind script delivery =>
    obtain ⟨queue, n, hf⟩ := front_enqueue s kind script delivery
    rw [serve, hf]
    exact ⟨h.receiver, h.phase⟩
  | interrupt | interruptPending => exact ⟨h.receiver, h.phase⟩
  | stop => exact shut_stop fun hr' => absurd (hr.symm.trans hr') (by decide)
  | drop =>
    rw [serve, drop]
    split
    · exact ⟨h.receiver, h.phase⟩
    · exact shut_stop fun hr' => absurd (hr.symm.trans hr') (by decide)

theorem shut_behind {f : Front σ V} (h : f.Shut) (msg : Message σ V)
    (queue : List (Message σ V)) : (f.behind msg queue).Shut := by
  cases msg with
  | job j => exact ⟨h.receiver, h.phase⟩
  | stop => exact ⟨h.receiver, .inr rfl⟩

theorem unused_serve {s : Serializer σ V} (h : s.hasReceiver = true → s.front.Unused)
    (q : Request σ V) : (s.serve q).hasReceiver = true → (s.serve q).front.Unused := by
  cases q with
  | start =>
    intro hr
    rw [serve, start_hasReceiver] at hr
    cases hr
  | enqueue kind script delivery =>
    obtain ⟨queue, n, hf⟩ := front_enqueue s kind script delivery
    intro hr
    have hr' : s.hasReceiver = true := (congrArg Front.hasReceiver hf).symm.trans hr
    rw [serve, hf]
    exact ⟨(h hr').phase, (h hr').handle, (h hr').owner⟩
  | interrupt | interruptPending => exact fun hr => ⟨(h hr).phase, (h hr).handle, (h hr).owner⟩
  | stop =>
    intro hr
    have hs : s.stop.2.hasReceiver = false := (shut_stop h).receiver
    rw [serve, hs] at hr
    cases hr
  | drop =>
    rw [serve, drop]
    split
    · exact h
    · intro hr
      have hs : s.stop.2.hasReceiver = false := (shut_stop h).receiver
      rw [hs] at hr
      cases hr

theorem isOpen_of_shut {s : Serializer σ V} (h : s.front.Shut) : s.isOpen = false := by
  unfold isOpen
  rcases h.phase with hp | hp
  · rw [show s.phase = .stopping from hp]
  · rw [show s.phase = .stopped from hp]

theorem isRunning_of_not_isOpen {s : Serializer σ V} (h : s.isOpen = false) :
    s.isRunning = false := by
  unfold isOpen at h
  unfold isRunning
  cases hp : s.phase <;> rw [hp] at h <;> first | rfl | cases h

theorem isOpen_of_isRunning {s : Serializer σ V} (h : s.isRunning = true) : s.isOpen = true := by
  by_contra ho
  rw [isRunning_of_not_isOpen (Bool.eq_false_iff.mpr ho)] at h
  cases h

theorem call_of_not_isOpen {s : Serializer σ V} (h : s.isOpen = false) (kind : JobKind)
    (script : Script σ V) : s.call kind script = (.error .notStarted, s) := by
  rw [call, isRunning_of_not_isOpen h]
  rfl

/-! ## Stops in the queue -/

/-- No job is queued behind a stop. -/
def StopsLast : List (Message σ V) → Prop
  | [] => True
  | .job _ :: queue => StopsLast queue
  | .stop :: queue => jobsIn queue = []

theorem stopsLast_of_jobsIn {queue : List (Message σ V)} (h : jobsIn queue = []) :
    StopsLast queue := by
  cases queue with
  | nil => exact trivial
  | cons msg queue =>
    cases msg with
    | job j => cases h
    | stop => exact h

theorem stopsLast_tail {msg : Message σ V} {queue : List (Message σ V)}
    (h : StopsLast (msg :: queue)) : StopsLast queue := by
  cases msg with
  | job j => exact h
  | stop => exact stopsLast_of_jobsIn h

theorem stopsLast_append_stop {queue : List (Message σ V)} (h : StopsLast queue) :
    StopsLast (queue ++ [.stop]) := by
  induction queue with
  | nil => rfl
  | cons msg queue ih =>
    cases msg with
    | job j => exact ih h
    | stop =>
      have hjobs : jobsIn (queue ++ [.stop]) = [] := by
        rw [jobsIn_append, show jobsIn queue = [] from h]
        rfl
      exact hjobs

theorem stopsLast_append_job {queue : List (Message σ V)} (h : .stop ∉ queue) (j : Job σ V) :
    StopsLast (queue ++ [.job j]) := by
  induction queue with
  | nil => exact trivial
  | cons msg queue ih =>
    cases msg with
    | job k => exact ih fun hm => h (List.mem_cons_of_mem _ hm)
    | stop => exact absurd List.mem_cons_self h

theorem owner_serve (s : Serializer σ V) (q : Request σ V) :
    (s.serve q).owner = s.owner ∨ (s.serve q).owner = .alive := by
  have hstart : ∀ s' : Serializer σ V, s'.start.owner = s'.owner ∨ s'.start.owner = .alive := by
    intro s'
    unfold start
    split
    · exact .inr rfl
    · exact .inl rfl
  have hstop : ∀ s' : Serializer σ V, s'.stop.2.owner = s'.owner ∨ s'.stop.2.owner = .alive := by
    intro s'
    have hhalt : s'.started.halt.2.owner = s'.started.owner := by
      unfold halt
      split <;> rfl
    rw [stop, hhalt, started]
    split
    · exact hstart s'
    · exact .inl rfl
  cases q with
  | start => exact hstart s
  | enqueue kind script delivery =>
    rw [serve]
    unfold enqueue
    split <;> exact .inl rfl
  | interrupt | interruptPending => exact .inl rfl
  | stop => exact hstop s
  | drop =>
    rw [serve, drop]
    split
    · exact .inl rfl
    · exact hstop s

theorem shut_of_queued_stop {s : Serializer σ V} {q : Request σ V}
    (h : s.hasReceiver = true → s.front.Unused) (hq : (s.serve q).queue = s.queue ++ [.stop]) :
    (s.serve q).front.Shut := by
  have hsame : (s.serve q).queue ≠ s.queue := by simp [hq]
  cases q with
  | start => exact absurd (start_queue s).1 hsame
  | enqueue kind script delivery =>
    cases ho : s.isOpen with
    | true =>
      rw [serve, enqueue_of_isOpen ho] at hq
      simp at hq
    | false =>
      rw [serve, enqueue_of_not_isOpen ho] at hsame
      exact absurd rfl hsame
  | interrupt | interruptPending => exact absurd rfl hsame
  | stop => exact shut_stop h
  | drop =>
    rw [serve, drop] at hsame ⊢
    split at hsame
    · exact absurd rfl hsame
    · next hp =>
      rw [if_neg hp]
      exact shut_stop h

theorem alive_of_step {s s' : Serializer σ V} {m : Move σ V} {r : Running σ V} (h : Step s m s')
    (hc : s.current = none) (hr : s'.current = some r) : s'.owner = .alive := by
  cases h with
  | rests => cases hc.symm.trans hr
  | serves => cases hc.symm.trans ((congrArg Back.current (back_serve _ _)).symm.trans hr)
  | begins ha => exact (congrArg Front.owner (front_begin _ _)).trans ha
  | halts => cases hc.symm.trans hr
  | releases hr₀ => cases hc.symm.trans hr₀
  | goesOn _ hr₀ | ends _ hr₀ | panics _ hr₀ => cases hc.symm.trans hr₀

end Serializer

namespace Run

open Serializer

variable (R : Run σ V)

theorem unused (t : ℕ) : (R.after t).hasReceiver = true → (R.after t).front.Unused := by
  induction t with
  | zero => exact fun _ => ⟨rfl, rfl, rfl⟩
  | succ t ih =>
    intro hr
    rcases front_of_step (R.step t) with hf | ⟨-, ha, -, msg, queue, -, hf⟩
    · have hr' := (congrArg Front.hasReceiver hf).symm.trans hr
      rw [hf]
      cases hq : (R.after t).requestOf (R.moves t) with
      | none => rw [hq] at hr'; exact ih hr'
      | some q => rw [hq] at hr'; exact unused_serve ih q hr'
    · have hr' : (R.after t).hasReceiver = true := by
        have := (congrArg Front.hasReceiver hf).symm.trans hr
        cases msg <;> exact this
      have := (ih hr').owner
      rw [show (R.after t).front.owner = .alive from ha] at this
      cases this

theorem shut_of_not_isOpen {t : ℕ} (h : (R.after t).isOpen = false) : (R.after t).front.Shut := by
  unfold isOpen at h
  have hp : (R.after t).phase = .stopping ∨ (R.after t).phase = .stopped := by
    cases hp : (R.after t).phase <;> rw [hp] at h <;> first | exact .inl rfl | exact .inr rfl | cases h
  refine ⟨?_, hp⟩
  cases hr : (R.after t).hasReceiver with
  | false => exact hr
  | true =>
    have hf : (R.after t).phase = .fresh := (R.unused t hr).phase
    rw [hf] at hp
    rcases hp with hp | hp <;> cases hp

theorem shut_mono {t u : ℕ} (h : (R.after t).front.Shut) (htu : t ≤ u) :
    (R.after u).front.Shut := by
  induction htu with
  | refl => exact h
  | @step u _ ih =>
    rcases front_of_step (R.step u) with hf | ⟨-, -, -, msg, queue, -, hf⟩
    · rw [hf]
      cases (R.after u).requestOf (R.moves u) with
      | none => exact ih
      | some q => exact shut_serve ih q
    · rw [hf]
      exact shut_behind ih msg queue

theorem shut_of_stop {t : ℕ} (h : R.request t = some .stop) : (R.after (t + 1)).front.Shut := by
  rcases front_of_step (R.step t) with hf | ⟨hn, -⟩
  · rw [hf, show (R.after t).requestOf (R.moves t) = some .stop from h]
    exact shut_stop (R.unused t)
  · cases (show R.request t = none from hn).symm.trans h

theorem newJob_of_not_isOpen {t : ℕ} (h : (R.after t).isOpen = false) : R.newJob t = none := by
  unfold newJob
  cases R.request t with
  | none => rfl
  | some q => cases q <;> simp [acceptedBy, h]

theorem isOpen_of_newJob {t : ℕ} {j : Job σ V} (h : R.newJob t = some j) :
    (R.after t).isOpen = true := by
  by_contra ho
  rw [R.newJob_of_not_isOpen (Bool.eq_false_iff.mpr ho)] at h
  cases h

theorem accepted_of_shut {t u : ℕ} (h : (R.after t).front.Shut) (htu : t ≤ u) :
    R.accepted u = R.accepted t := by
  induction htu with
  | refl => rfl
  | @step u htu ih =>
    rw [accepted_succ, R.newJob_of_not_isOpen (isOpen_of_shut (R.shut_mono h htu))]
    rw [Option.toList_none, List.append_nil, ih]

theorem owner_succ (t : ℕ) :
    (R.after (t + 1)).owner = (R.after t).owner ∨ (R.after (t + 1)).owner = .alive ∨
      (R.after (t + 1)).owner = .finished ∧ (R.after t).owner = .alive ∧
        (R.after t).queue = .stop :: (R.after (t + 1)).queue ∧
          (R.after (t + 1)).isOpen = false := by
  rcases front_of_step (R.step t) with hf | ⟨-, ha, -, msg, queue, hq, hf⟩
  · have ho : (R.after (t + 1)).owner = _ := congrArg Front.owner hf
    rw [ho]
    cases (R.after t).requestOf (R.moves t) with
    | none => exact .inl rfl
    | some q => exact (owner_serve (R.after t) q).imp id .inl
  · have ho : (R.after (t + 1)).owner = _ := congrArg Front.owner hf
    have hqueue : (R.after (t + 1)).queue = _ := congrArg Front.queue hf
    have hphase : (R.after (t + 1)).phase = _ := congrArg Front.phase hf
    cases msg with
    | job j => exact .inl ho
    | stop =>
      refine .inr (.inr ⟨ho, ha, by rw [hq, hqueue]; rfl, ?_⟩)
      unfold isOpen
      rw [hphase]
      rfl

theorem alive_succ_of_busy {t n : ℕ} (h : R.Busy t n) (ha : (R.after t).owner = .alive) :
    (R.after (t + 1)).owner = .alive := by
  obtain ⟨r, hr, -⟩ := h
  rcases R.owner_succ t with ho | ho | ⟨-, -, hq, -⟩
  · exact ho.trans ha
  · exact ho
  · cases hr.symm.trans (R.of_takes hq).2

theorem alive_of_busy {t n : ℕ} (h : R.Busy t n) : (R.after t).owner = .alive := by
  induction t generalizing n with
  | zero =>
    obtain ⟨r, hr, -⟩ := h
    cases hr
  | succ t ih =>
    cases hc : (R.after t).current with
    | some r => exact R.alive_succ_of_busy ⟨r, hc, rfl⟩ (ih ⟨r, hc, rfl⟩)
    | none =>
      obtain ⟨r, hr, -⟩ := h
      exact alive_of_step (R.step t) hc hr

theorem born_mono {t u : ℕ} (h : (R.after t).owner ≠ .unborn) (htu : t ≤ u) :
    (R.after u).owner ≠ .unborn := by
  induction htu with
  | refl => exact h
  | @step u htu ih =>
    rcases R.owner_succ u with ho | ho | ⟨ho, -⟩
    · rw [ho]
      exact ih
    · rw [ho]
      decide
    · rw [ho]
      decide

theorem not_isOpen_mono {t u : ℕ} (h : (R.after t).isOpen = false) (htu : t ≤ u) :
    (R.after u).isOpen = false :=
  isOpen_of_shut (R.shut_mono (R.shut_of_not_isOpen h) htu)

theorem not_isOpen_of_queued_stop {t : ℕ}
    (h : (R.after (t + 1)).queue = (R.after t).queue ++ [.stop]) :
    (R.after (t + 1)).isOpen = false := by
  have hlen := congrArg List.length h
  rw [List.length_append, List.length_singleton] at hlen
  rcases front_of_step (R.step t) with hf | ⟨-, -, -, msg, queue, hq, hf⟩
  · have hqueue : (R.after (t + 1)).queue = _ := congrArg Front.queue hf
    cases hr : (R.after t).requestOf (R.moves t) with
    | none =>
      rw [hr] at hqueue
      rw [hqueue] at hlen
      exact absurd hlen (Nat.ne_of_lt (Nat.lt_succ_self _))
    | some q =>
      rw [hr] at hqueue hf
      refine isOpen_of_shut ?_
      rw [hf]
      exact shut_of_queued_stop (R.unused t) (hqueue.symm.trans h)
  · have hqueue : (R.after (t + 1)).queue = queue := by
      have := congrArg Front.queue hf
      cases msg <;> exact this
    rw [hqueue, hq, List.length_cons] at hlen
    omega

/-- **No job is queued behind a stop**, and none is left to an owner that has ended. -/
theorem stopsLast (t : ℕ) :
    StopsLast (R.after t).queue ∧
      (.stop ∈ (R.after t).queue ∨ (R.after t).owner = .finished → (R.after t).isOpen = false) ∧
      ((R.after t).owner = .finished → jobsIn (R.after t).queue = []) := by
  induction t with
  | zero => exact ⟨trivial, fun h => h.elim (fun hm => absurd hm List.not_mem_nil) nofun, nofun⟩
  | succ t ih =>
    obtain ⟨hlast, hopen, hjobs⟩ := ih
    have hclosed : (R.after t).isOpen = false → (R.after (t + 1)).isOpen = false := fun h =>
      R.not_isOpen_mono h (Nat.le_succ t)
    have howner : (R.after (t + 1)).owner = .finished → (R.after t).owner = .finished ∨
        (R.after t).queue = .stop :: (R.after (t + 1)).queue ∧
          (R.after (t + 1)).isOpen = false := by
      intro ho
      rcases R.owner_succ t with h | h | ⟨-, -, hq, hclosed⟩
      · exact .inl (h.symm.trans ho)
      · rw [h] at ho
        cases ho
      · exact .inr ⟨hq, hclosed⟩
    rcases R.queue_succ t with ⟨j, hn, -, -, hq⟩ | ⟨-, -, hq | hq⟩ | ⟨-, -, -, msg, hq⟩
    · -- jobs are only accepted as long as there is no stop
      have ho := R.isOpen_of_newJob hn
      have hstop : .stop ∉ (R.after t).queue := fun hm => by
        rw [hopen (.inl hm)] at ho
        cases ho
      have hfinished : (R.after (t + 1)).owner ≠ .finished := fun hf => by
        rcases howner hf with hf' | ⟨hqueue, -⟩
        · rw [hopen (.inr hf')] at ho
          cases ho
        · exact hstop (hqueue ▸ List.mem_cons_self)
      rw [hq]
      refine ⟨stopsLast_append_job hstop j, fun h => ?_, fun hf => absurd hf hfinished⟩
      rcases h with hm | hf
      · simp [hstop] at hm
      · exact absurd hf hfinished
    · have hfinished : (R.after (t + 1)).owner = .finished → (R.after t).owner = .finished :=
        fun hf => (howner hf).resolve_right fun h => by
          have := congrArg List.length h.1
          rw [hq, List.length_cons] at this
          omega
      rw [hq]
      exact ⟨hlast, fun h => hclosed (hopen (h.imp id hfinished)), fun hf => hjobs (hfinished hf)⟩
    · have hfinished : (R.after (t + 1)).owner = .finished → (R.after t).owner = .finished :=
        fun hf => (howner hf).resolve_right fun h => by
          have := congrArg List.length h.1
          rw [hq, List.length_cons, List.length_append] at this
          omega
      refine ⟨?_, fun _ => R.not_isOpen_of_queued_stop hq, fun hf => ?_⟩
      · rw [hq]
        exact stopsLast_append_stop hlast
      · rw [hq, jobsIn_append, hjobs (hfinished hf)]
        rfl
    · rw [hq] at hlast hopen hjobs
      refine ⟨stopsLast_tail hlast, fun h => ?_, fun hf => ?_⟩
      · rcases h with hm | hf
        · exact hclosed (hopen (.inl (List.mem_cons_of_mem _ hm)))
        · exact (howner hf).elim (fun hf' => hclosed (hopen (.inr hf'))) fun h => h.2
      · rcases howner hf with hf' | ⟨hqueue, -⟩
        · cases msg with
          | job j => cases hjobs hf'
          | stop => exact hjobs hf'
        · rw [hq] at hqueue
          obtain ⟨rfl, -⟩ := List.cons.inj hqueue
          exact hlast

end Run

end SymbolIndex
