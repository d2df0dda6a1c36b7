import SymbolIndex.Proofs.Serializer.Cancellation

/-!
# Asking an owner that has nothing to do

An owner that runs and has nothing to do takes up a job at once, and a job that only works on the
state is done by the time that the owner rests again.

* `Ready`, `Run.ready`: owners that have nothing to do;
* `settle_of_ready`: what comes of a job.
-/

namespace SymbolIndex

variable {σ V : Type}

namespace Serializer

/-- The owner runs and has nothing to do. -/
structure Ready (s : Serializer σ V) : Prop where
  phase : s.phase = .running
  owner : s.owner = .alive
  idle : s.current = none
  queue : s.queue = []
  /-- no job is going to be dropped that has not been accepted -/
  mark : s.dropBelow ≤ s.nextSeq
  /-- no job has been answered that has not been accepted -/
  replies : ∀ n o, (n, o) ∈ s.replies → n < s.nextSeq

theorem alive_serve {s : Serializer σ V} (h : s.phase = .running → s.owner = .alive)
    (q : Request σ V) : (s.serve q).phase = .running → (s.serve q).owner = .alive := by
  have hstart : s.start.phase = .running → s.start.owner = .alive := by
    unfold start
    split
    · exact fun _ => rfl
    · exact h
  have hstop : ∀ s' : Serializer σ V, s'.stop.2.phase ≠ .running := by
    intro s'
    unfold stop halt
    split <;> exact nofun
  cases q with
  | start => exact hstart
  | enqueue kind script delivery =>
    rw [serve]
    unfold enqueue
    split <;> exact h
  | interrupt | interruptPending => exact h
  | stop => exact fun hp => absurd hp (hstop s)
  | drop =>
    rw [serve, drop]
    split
    · exact h
    · exact fun hp => absurd hp (hstop s)

theorem isInterrupted_newToken (s : Serializer σ V) (kind : JobKind) :
    s.isInterrupted (s.newToken kind) = false := by
  cases kind <;> simp [newToken, isInterrupted]

/-! ## One job -/

section

variable (s : Serializer σ V) (kind : JobKind) (work : Bool → σ → Except Error V × σ)

/-- The job that a caller waits for and that only works on the state. -/
def workJob : Job σ V := ⟨s.nextSeq, kind, [.perform work], .reply⟩

/-- The serializer with the job in its queue. -/
def asked : Serializer σ V := (s.enqueue kind [.perform work] .reply).2

variable {s}

theorem Ready.isOpen (h : s.Ready) : s.isOpen = true := by
  unfold Serializer.isOpen
  rw [h.phase]

theorem asked_of_ready (h : s.Ready) :
    s.asked kind work =
      { s with
        queue := [.job (s.workJob kind work)]
        nextSeq := s.nextSeq + 1
        counts := { s.counts with submitted := s.counts.submitted + 1 } } := by
  rw [asked, enqueue_of_isOpen h.isOpen, h.queue]
  rfl

theorem ownerStep_asked (h : s.Ready) :
    (s.asked kind work).ownerStep =
      some (((s.asked kind work).behind []).goOn
        ((s.asked kind work).starting (s.workJob kind work))) := by
  have hq : (s.asked kind work).queue = [.job (s.workJob kind work)] := by
    rw [asked_of_ready kind work h]
  have ha : (s.asked kind work).owner = .alive := by
    rw [asked_of_ready kind work h]; exact h.owner
  have hc : (s.asked kind work).current = none := by
    rw [asked_of_ready kind work h]; exact h.idle
  have hd : ¬ ((s.asked kind work).behind []).Dismisses (s.workJob kind work) := by
    rintro ⟨-, hlt⟩
    rw [asked_of_ready kind work h] at hlt
    exact absurd h.mark (Nat.not_le.mpr hlt)
  rw [ownerStep_of_idle ha hc, receive, hq]
  exact congrArg some (if_neg hd)

/-- What the work of the job leaves behind. -/
def answered : Serializer σ V :=
  let result := (work false s.state).1.map some
  (({ (s.asked kind work).behind [] with state := (work false s.state).2 } :
    Serializer σ V).withReply s.nextSeq (.result result)).countEnd result.isOk

/-- The job once the owner has started it. -/
def begun : Serializer σ V :=
  ((s.asked kind work).behind []).goOn ((s.asked kind work).starting (s.workJob kind work))

theorem ownerStep_answered (h : s.Ready) : (s.answered kind work).ownerStep = none := by
  have ha : (s.answered kind work).owner = .alive := by
    rw [answered, asked_of_ready kind work h]
    exact h.owner
  rw [ownerStep_of_idle ha rfl]
  rfl

theorem steps_begun (h : s.Ready) : steps 2 (s.begun kind work) = s.answered kind work := by
  have hs := asked_of_ready kind work h
  have ha : (s.begun kind work).owner = .alive := by
    rw [begun, hs]
    exact h.owner
  have htok : (s.begun kind work).isInterrupted ((s.asked kind work).newToken kind) = false :=
    isInterrupted_newToken (s.asked kind work) kind
  have hstate : (s.begun kind work).state = s.state := by
    rw [begun, hs]
    rfl
  have hstep := ownerStep_of_busy ha (show (s.begun kind work).current = _ from rfl)
  simp only [advance, nextTurn, act, starting, workJob, htok, hstate] at hstep
  cases hw : (work false s.state).1 with
  | error e =>
    rw [hw] at hstep
    rw [steps_succ hstep, steps_of_rest]
    · rw [answered, hw]
      rfl
    · have := ownerStep_answered kind work h
      rw [answered, hw] at this
      exact this
  | ok v =>
    rw [hw] at hstep
    rw [steps_succ hstep]
    have hend := ownerStep_of_busy
      (s := ({ s.begun kind work with state := (work false s.state).2 } : Serializer σ V).goOn _)
      (r := ⟨s.nextSeq, .reply, .work, ⟨[], some v, (s.asked kind work).newToken kind, false⟩, []⟩)
      ha rfl
    rw [steps_succ hend, answered, hw]
    rfl

/-- **A job that only works on the state is done when the owner rests.** -/
theorem settle_of_ready (h : s.Ready) :
    (s.asked kind work).settle = s.answered kind work := by
  have hweight : (s.asked kind work).weight = 3 := by
    rw [asked_of_ready kind work h, weight]
    simp [queueWeight, messageWeight, scriptWeight, actionWeight, deliveryWeight, workJob, h.idle]
  rw [settle, hweight, steps_succ (ownerStep_asked kind work h)]
  exact steps_begun kind work h

theorem replyTo_answered (h : s.Ready) :
    (s.answered kind work).replyTo s.nextSeq =
      some (.result ((work false s.state).1.map some)) := by
  have hr : (s.answered kind work).replies =
      s.replies ++ [(s.nextSeq, .result ((work false s.state).1.map some))] := by
    rw [answered, asked_of_ready kind work h]
    rfl
  have hnone : s.replies.lookup s.nextSeq = none := by
    rw [List.lookup_eq_none_iff]
    rintro ⟨n, o⟩ hm
    have := h.replies n o hm
    exact bne_iff_ne.mpr (by omega)
  rw [replyTo, hr, List.lookup_append, hnone]
  simp

end

end Serializer

namespace Run

open Serializer

variable (R : Run σ V)

theorem alive_of_running (t : ℕ) :
    (R.after t).phase = .running → (R.after t).owner = .alive := by
  induction t with
  | zero => exact nofun
  | succ t ih =>
    rcases front_of_step (R.step t) with hf | ⟨-, ha, -, msg, queue, -, hf⟩
    · have hp : (R.after (t + 1)).phase = _ := congrArg Front.phase hf
      have ho : (R.after (t + 1)).owner = _ := congrArg Front.owner hf
      rw [hp, ho]
      cases (R.after t).requestOf (R.moves t) with
      | none => exact ih
      | some q => exact alive_serve ih q
    · have hp : (R.after (t + 1)).phase = _ := congrArg Front.phase hf
      have ho : (R.after (t + 1)).owner = _ := congrArg Front.owner hf
      rw [hp, ho]
      cases msg with
      | job j => exact fun _ => ha
      | stop => exact nofun

theorem after_add {t n : ℕ} (h : ∀ k < n, R.moves (t + k) = .owner) :
    R.after (t + n) = steps n (R.after t) := by
  have hmoves : ∀ k (hk : k < (List.replicate n (.owner : Move σ V)).length),
      R.moves (t + k) = (List.replicate n .owner)[k] := by
    intro k hk
    rw [List.length_replicate] at hk
    rw [List.getElem_replicate, h k hk]
  have hafter := R.after_foldl hmoves
  rwa [List.length_replicate, foldl_owner] at hafter

theorem nextSeq_mono {t u : ℕ} (h : t ≤ u) : (R.after t).nextSeq ≤ (R.after u).nextSeq := by
  rw [← length_accepted, ← length_accepted]
  exact (R.accepted_prefix h).length_le

/-- **A serializer that runs and has nothing to do is ready**, whatever has happened to it. -/
theorem ready {t : ℕ} (hp : (R.after t).isRunning = true) (hc : (R.after t).current = none)
    (hq : (R.after t).queue = []) : (R.after t).Ready where
  phase := eq_of_beq hp
  owner := R.alive_of_running t (eq_of_beq hp)
  idle := hc
  queue := hq
  mark := by
    refine Nat.le_of_not_lt fun hlt => ?_
    obtain ⟨u, hu, -, hn⟩ := (R.lt_dropBelow_iff t _).mp hlt
    have := R.nextSeq_mono hu.le
    omega
  replies n o hm := by
    obtain ⟨u, hu, j, hj, rfl, -⟩ := (R.mem_replies_iff t n o).mp hm
    have hlt := R.seq_lt_of_mem_accepted hj
    have := R.nextSeq_mono hu.le
    omega

end Run

end SymbolIndex
