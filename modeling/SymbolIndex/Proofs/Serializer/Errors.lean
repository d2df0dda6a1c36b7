import SymbolIndex.Proofs.Serializer.Work

/-!
# The errors that are told

Where jobs do nothing but perform work, every error that anybody is told is one that some work has
ended with, or says that the job has been dropped.

* `Script.Reports`, `Serializer.Reports`: the errors of scripts, and of all that a serializer holds;
* `Reports.enqueue`, `Reports.ownerStep`: requests and steps of the owner;
* `Reports.settle`, `Reports.of_replyTo`: what is told once the owner rests.
-/

namespace SymbolIndex

variable {σ V : Type}

/-- The script only performs work, and the errors of that work are of some sort. -/
def Script.Reports (P : Error → Prop) (script : Script σ V) : Prop :=
  ∀ a ∈ script, ∃ work : Work σ V, a = .perform work ∧ ∀ b s e, (work b s).1 = .error e → P e

/-- So does the script of a callback. -/
def Delivery.Reports (P : Error → Prop) : Delivery σ V → Prop
  | .callback c => c.script.Reports P
  | _ => True

structure Job.Reports (P : Error → Prop) (j : Job σ V) : Prop where
  script : j.script.Reports P
  delivery : j.delivery.Reports P

structure Running.Reports (P : Error → Prop) (r : Running σ V) : Prop where
  frame : r.frame.script.Reports P
  outer : ∀ f ∈ r.outer, f.script.Reports P
  delivery : r.delivery.Reports P

namespace Serializer

/-- The errors that have been told, and those that jobs may still end with, are of some sort. -/
structure Reports (P : Error → Prop) (s : Serializer σ V) : Prop where
  queue : ∀ j, .job j ∈ s.queue → j.Reports P
  current : ∀ r, s.current = some r → r.Reports P
  replies : ∀ n e, (n, .result (.error e)) ∈ s.replies → P e
  told : ∀ tag e, .callback tag (.error e) ∈ s.log → P e

variable {P : Error → Prop} {s s' : Serializer σ V}

theorem Reports.withoutLog (h : s.Reports P) : { s with log := [] }.Reports P :=
  ⟨h.queue, h.current, h.replies, fun _ _ hm => absurd hm List.not_mem_nil⟩

/-! ## Requests -/

theorem Reports.start (h : s.Reports P) : s.start.Reports P := by
  unfold Serializer.start
  split
  · exact ⟨h.queue, h.current, h.replies, h.told⟩
  · exact h

theorem Reports.enqueue (h : s.Reports P) {script : Script σ V} (hs : script.Reports P)
    {delivery : Delivery σ V} (hd : delivery.Reports P) (kind : JobKind) :
    (s.enqueue kind script delivery).2.Reports P := by
  have haccepted : ∀ j, .job j ∈ s.queue ++ [.job ⟨s.nextSeq, kind, script, delivery⟩] →
      j.Reports P := by
    intro j hj
    rcases List.mem_append.mp hj with hj | hj
    · exact h.queue j hj
    · obtain rfl := Message.job.inj (List.mem_singleton.mp hj)
      exact ⟨hs, hd⟩
  unfold Serializer.enqueue
  split
  · exact ⟨haccepted, h.current, h.replies, h.told⟩
  · exact ⟨haccepted, h.current, h.replies, h.told⟩
  · exact ⟨h.queue, h.current, h.replies, h.told⟩
  · exact ⟨h.queue, h.current, h.replies, h.told⟩

theorem Reports.call (h : s.Reports P) {script : Script σ V} (hs : script.Reports P)
    (kind : JobKind) : (s.call kind script).2.Reports P := by
  have hreply : (Delivery.reply : Delivery σ V).Reports P := trivial
  have hj := h.enqueue hs hreply kind
  unfold Serializer.call
  split
  · split <;> next he => rwa [he] at hj
  · exact h

theorem Reports.interrupt (h : s.Reports P) : s.interrupt.Reports P :=
  ⟨h.queue, h.current, h.replies, h.told⟩

theorem Reports.interruptPending (h : s.Reports P) : s.interruptPending.Reports P :=
  ⟨h.queue, h.current, h.replies, h.told⟩

theorem Reports.stop (h : s.Reports P) : s.stop.2.Reports P := by
  have hstarted : s.started.Reports P := by
    unfold started
    split
    · exact h.start
    · exact h
  rw [Serializer.stop]
  generalize s.started = s at hstarted
  unfold halt
  split
  · refine ⟨fun j hj => ?_, hstarted.current, hstarted.replies, hstarted.told⟩
    rcases List.mem_append.mp hj with hj | hj
    · exact hstarted.queue j hj
    · cases List.mem_singleton.mp hj
  · exact ⟨hstarted.queue, hstarted.current, hstarted.replies, hstarted.told⟩

/-! ## Steps of the owner -/

theorem nextTurn_of_reports {r : Running σ V} (h : r.Reports P) (s : Serializer σ V) :
    (∃ state rest v, s.nextTurn r = .goesOn { s with state }
        { r with frame := { r.frame with script := rest, value := v } } ∧ rest.Reports P) ∨
      ∃ state result, s.nextTurn r = .ends { s with state } result ∧
        ∀ e, result = .error e → P e := by
  cases hs : r.frame.script with
  | nil => exact .inr ⟨s.state, .ok r.frame.value, by rw [nextTurn, hs], nofun⟩
  | cons a rest =>
    have hf := h.frame
    rw [hs] at hf
    obtain ⟨work, rfl, hwork⟩ := hf a List.mem_cons_self
    rw [nextTurn_perform hs]
    have herror := hwork (s.isInterrupted r.frame.token) s.state
    cases hw : (work (s.isInterrupted r.frame.token) s.state).1 with
    | ok v => exact .inl ⟨_, rest, some v, rfl, fun a ha => hf a (List.mem_cons_of_mem _ ha)⟩
    | error e => exact .inr ⟨_, .error e, rfl, fun e' he => Except.error.inj he ▸ herror e hw⟩

theorem Reports.goOn (h : s.Reports P) {r : Running σ V} (hr : r.Reports P) :
    (s.goOn r).Reports P :=
  ⟨h.queue, fun _ hr' => Option.some.inj hr' ▸ hr, h.replies, h.told⟩

theorem Reports.countEnd (h : s.Reports P) (succeeded : Bool) : (s.countEnd succeeded).Reports P :=
  ⟨h.queue, nofun, h.replies, h.told⟩

theorem Reports.withReply (h : s.Reports P) (n : ℕ) {result : JobResult V}
    (hresult : ∀ e, result = .error e → P e) : (s.withReply n (.result result)).Reports P := by
  refine ⟨h.queue, h.current, fun k e hm => ?_, h.told⟩
  rcases List.mem_append.mp hm with hm | hm
  · exact h.replies k e hm
  · have he := (Prod.mk.inj (List.mem_singleton.mp hm)).2
    exact hresult e (Outcome.result.inj he).symm

theorem Reports.withNote (h : s.Reports P) (note : Note V)
    (hnote : ∀ tag e, note = .callback tag (.error e) → P e) : (s.withNote note).Reports P := by
  refine ⟨h.queue, h.current, h.replies, fun tag e hm => ?_⟩
  rcases List.mem_append.mp hm with hm | hm
  · exact h.told tag e hm
  · exact hnote tag e (List.mem_singleton.mp hm).symm

theorem Reports.finish (h : s.Reports P) {r : Running σ V} (hr : r.Reports P)
    {result : JobResult V} (hresult : ∀ e, result = .error e → P e) :
    (s.finish r result).Reports P := by
  unfold Serializer.finish
  cases r.stage with
  | callback succeeded => exact h.countEnd succeeded
  | work =>
    cases hd : r.delivery with
    | discard => exact h.countEnd _
    | reply => exact (h.withReply r.seq hresult).countEnd _
    | callback c =>
      have hc := hr.delivery
      rw [hd] at hc
      have hnoted := h.withNote (.callback c.tag result) fun tag e he =>
        hresult e (Note.callback.inj he).2
      exact hnoted.goOn ⟨hc, fun f hf => absurd hf List.not_mem_nil, hd ▸ hc⟩

theorem Reports.finishFrame (h : s.Reports P) {r : Running σ V} (hr : r.Reports P)
    {result : JobResult V} (hresult : ∀ e, result = .error e → P e) :
    (s.finishFrame r result).Reports P := by
  unfold Serializer.finishFrame
  cases ho : r.outer with
  | nil => exact h.finish hr hresult
  | cons frame outer =>
    have houter := hr.outer
    rw [ho] at houter
    have hnoted := h.withNote (.called (.result result)) nofun
    exact hnoted.goOn ⟨houter frame List.mem_cons_self,
      fun f hf => houter f (List.mem_cons_of_mem _ hf), hr.delivery⟩

theorem Reports.begin (h : s.Reports P) (hdropped : P .dropped) {j : Job σ V}
    (hj : j.Reports P) : (s.begin j).Reports P := by
  unfold Serializer.begin dismiss
  split
  · have hcounted : { s with counts := { s.counts with
        dropped := s.counts.dropped + 1 } }.Reports P :=
      ⟨h.queue, h.current, h.replies, h.told⟩
    cases j.delivery with
    | reply => exact hcounted.withReply j.seq fun e he => Except.error.inj he ▸ hdropped
    | discard | callback c => exact hcounted
  · exact h.goOn ⟨hj.script, fun f hf => absurd hf List.not_mem_nil, hj.delivery⟩

/-- **A step of the owner only tells errors of this sort.** -/
theorem Reports.ownerStep (h : s.Reports P) (hdropped : P .dropped)
    (hs : s.ownerStep = some s') : s'.Reports P := by
  unfold Serializer.ownerStep at hs
  split at hs
  · cases hc : s.current with
    | none =>
      rw [hc, Option.elim_none, receive] at hs
      split at hs
      · cases hs
      · next j queue hq =>
        have hbehind : ∀ j', .job j' ∈ queue → j'.Reports P := fun j' hj' =>
          h.queue j' (hq ▸ List.mem_cons_of_mem _ hj')
        obtain rfl := Option.some.inj hs
        have hrest : { s with queue }.Reports P := ⟨hbehind, h.current, h.replies, h.told⟩
        exact hrest.begin hdropped (h.queue j (hq ▸ List.mem_cons_self))
      · next queue hq =>
        obtain rfl := Option.some.inj hs
        exact ⟨fun j hj => h.queue j (hq ▸ List.mem_cons_of_mem _ hj), h.current, h.replies,
          h.told⟩
    | some r =>
      have hr := h.current r hc
      have hstate : ∀ state, { s with state }.Reports P := fun _ =>
        ⟨h.queue, h.current, h.replies, h.told⟩
      rw [hc, Option.elim_some, advance] at hs
      rcases nextTurn_of_reports hr s with ⟨state, rest, v, ht, hrest⟩ | ⟨state, result, ht, he⟩
      · rw [ht] at hs
        obtain rfl := Option.some.inj hs
        exact (hstate state).goOn ⟨hrest, hr.outer, hr.delivery⟩
      · rw [ht] at hs
        obtain rfl := Option.some.inj hs
        exact (hstate state).finishFrame hr he
  · cases hs

theorem Reports.settle (h : s.Reports P) (hdropped : P .dropped) : s.settle.Reports P := by
  rw [Serializer.settle]
  generalize s.weight = n
  induction n generalizing s with
  | zero => exact h
  | succ n ih =>
    rw [steps]
    cases hs : s.ownerStep with
    | none => exact h
    | some s' => exact ih (h.ownerStep hdropped hs)

theorem Reports.of_replyTo (h : s.Reports P) {n : ℕ} {e : Error}
    (hr : s.replyTo n = some (.result (.error e))) : P e := by
  obtain ⟨before, behind, hsplit, -⟩ := List.lookup_eq_some_iff.mp hr
  exact h.replies n e (by rw [hsplit]; simp)

end Serializer

end SymbolIndex
