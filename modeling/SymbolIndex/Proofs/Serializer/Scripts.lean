import SymbolIndex.Proofs.Serializer.Order

/-!
# What scripts perform

All work that is performed in a run comes from the scripts that threads have left behind.

* `Work`, `Script.Performs`, `Job.Performs`, `Move.Performs`: what scripts perform;
* `performs_requestOf`, `performs_of_step`: jobs leave behind, and go on with, what they were given;
* `Run.performs`: all work of a run.
-/

namespace SymbolIndex

/-- Work on a state, given whether the token is interrupted. -/
abbrev Work (σ V : Type) := Bool → σ → Except Error V × σ

variable {σ V : Type}

mutual

/-- The work of an action, and of the jobs and calls that it makes, is of some sort. -/
def Action.Performs (P : Work σ V → Prop) : Action σ V → Prop
  | .perform work => P work
  | .submit _ script => Script.Performs P script
  | .submitWith _ script _ callback => Script.Performs P script ∧ Script.Performs P callback
  | .call _ script _ => Script.Performs P script
  | _ => True

/-- The work of a script is of some sort. -/
def Script.Performs (P : Work σ V → Prop) : List (Action σ V) → Prop
  | [] => True
  | action :: rest => Action.Performs P action ∧ Script.Performs P rest

end

/-- The work of a callback is of some sort. -/
def Delivery.Performs (P : Work σ V → Prop) : Delivery σ V → Prop
  | .callback c => Script.Performs P c.script
  | _ => True

/-- The work of a job and of its callback is of some sort. -/
structure Job.Performs (P : Work σ V → Prop) (j : Job σ V) : Prop where
  script : Script.Performs P j.script
  delivery : j.delivery.Performs P

/-- The work that a move leaves behind is of some sort. -/
def Move.Performs (P : Work σ V → Prop) : Move σ V → Prop
  | .submit _ script | .call _ script => Script.Performs P script
  | .submitWith _ script c => Script.Performs P script ∧ Script.Performs P c.script
  | _ => True

/-- The work of a job that is being run is of some sort. -/
structure Running.Performs (P : Work σ V → Prop) (r : Running σ V) : Prop where
  frame : Script.Performs P r.frame.script
  outer : ∀ f ∈ r.outer, Script.Performs P f.script
  delivery : r.delivery.Performs P

namespace Serializer

variable {P : Work σ V → Prop}

theorem performs_request {s : Serializer σ V} {a : Action σ V} {q : Request σ V} {j : Job σ V}
    (ha : Action.Performs P a) (hq : a.request = some q) (hj : s.acceptedBy q = some j) :
    j.Performs P := by
  cases a with
  | submit kind script =>
    obtain rfl := Option.some.inj hq
    rw [acceptedBy] at hj
    split at hj <;> cases hj
    exact ⟨ha, trivial⟩
  | submitWith kind script tag callback =>
    obtain rfl := Option.some.inj hq
    rw [acceptedBy] at hj
    split at hj <;> cases hj
    exact ⟨ha.1, ha.2⟩
  | interrupt | interruptPending | stop => obtain rfl := Option.some.inj hq; cases hj
  | _ => cases hq

theorem performs_requestOf {s : Serializer σ V} {m : Move σ V} {q : Request σ V} {j : Job σ V}
    (hm : m.Performs P) (hr : ∀ r, s.current = some r → r.Performs P)
    (hq : s.requestOf m = some q) (hj : s.acceptedBy q = some j) : j.Performs P := by
  have henqueue : ∀ {kind script delivery}, s.acceptedBy (.enqueue kind script delivery) = some j →
      Script.Performs P script → delivery.Performs P → j.Performs P := by
    intro kind script delivery hj hs hd
    rw [acceptedBy] at hj
    split at hj <;> cases hj
    exact ⟨hs, hd⟩
  cases m with
  | submit kind script => obtain rfl := Option.some.inj hq; exact henqueue hj hm trivial
  | submitWith kind script c => obtain rfl := Option.some.inj hq; exact henqueue hj hm.1 hm.2
  | call kind script =>
    rw [requestOf] at hq
    split at hq <;> cases hq
    exact henqueue hj hm trivial
  | start | interrupt | interruptPending | stop | drop =>
    obtain rfl := Option.some.inj hq
    cases hj
  | release => cases hq
  | owner =>
    rw [requestOf] at hq
    split at hq
    · obtain ⟨r, hc, hr'⟩ := Option.bind_eq_some_iff.mp hq
      obtain ⟨a, ha, hq⟩ := Option.bind_eq_some_iff.mp hr'
      have hf := (hr r hc).frame
      cases hs : r.frame.script with
      | nil => rw [hs] at ha; cases ha
      | cons a' rest =>
        rw [hs] at ha hf
        obtain rfl := Option.some.inj ha
        exact performs_request hf.1 hq hj
    · cases hq

theorem performs_act {s s' : Serializer σ V} {r r' : Running σ V} {a : Action σ V}
    (ha : Action.Performs P a) (hr : r.Performs P) (h : s.act r a = .goesOn s' r') :
    r'.Performs P := by
  cases a with
  | perform work =>
    simp only [act] at h
    split at h <;> simp only [Turn.goesOn.injEq, reduceCtorEq] at h
    obtain ⟨-, rfl⟩ := h
    exact ⟨hr.frame, hr.outer, hr.delivery⟩
  | check | awaitInterrupt =>
    simp only [act] at h
    split at h <;> simp only [Turn.goesOn.injEq, reduceCtorEq] at h
    obtain ⟨-, rfl⟩ := h
    exact hr
  | call kind script catches =>
    obtain ⟨-, rfl⟩ := Turn.goesOn.inj h
    refine ⟨ha, fun f hf => ?_, hr.delivery⟩
    rcases List.mem_cons.mp hf with rfl | hf
    · exact hr.frame
    · exact hr.outer f hf
  | panic p =>
    obtain ⟨frame, outer, hc, -, rfl⟩ := exists_of_raise h
    have hsub := (catcher_suffix hc).subset
    exact ⟨hr.outer _ (hsub List.mem_cons_self),
      fun f hf => hr.outer f (hsub (List.mem_cons_of_mem _ hf)), hr.delivery⟩
  | fail e | gate => cases h
  | answer v =>
    obtain ⟨-, rfl⟩ := Turn.goesOn.inj h
    exact ⟨hr.frame, hr.outer, hr.delivery⟩
  | _ =>
    obtain ⟨-, rfl⟩ := Turn.goesOn.inj h
    exact hr

theorem performs_nextTurn {s s' : Serializer σ V} {r r' : Running σ V} (hr : r.Performs P)
    (h : s.nextTurn r = .goesOn s' r') : r'.Performs P := by
  unfold nextTurn at h
  cases hs : r.frame.script with
  | nil => rw [hs] at h; cases h
  | cons a rest =>
    have hf := hr.frame
    rw [hs] at h hf
    exact performs_act (r := { r with frame := { r.frame with script := rest } }) hf.1
      ⟨hf.2, hr.outer, hr.delivery⟩ h

theorem performs_finishFrame {s : Serializer σ V} {r r' : Running σ V} {result : JobResult V}
    (hr : r.Performs P) (h : (s.finishFrame r result).current = some r') : r'.Performs P := by
  unfold finishFrame at h
  cases ho : r.outer with
  | cons frame outer =>
    rw [ho] at h
    obtain rfl := Option.some.inj h
    have hall := hr.outer
    rw [ho] at hall
    exact ⟨hall frame List.mem_cons_self, fun f hf => hall f (List.mem_cons_of_mem _ hf),
      hr.delivery⟩
  | nil =>
    rw [ho] at h
    unfold finish at h
    cases hg : r.stage with
    | callback succeeded => rw [hg] at h; cases h
    | work =>
      rw [hg] at h
      cases hd : r.delivery with
      | discard => rw [hd] at h; cases h
      | reply => rw [hd] at h; cases h
      | callback c =>
        have hdel := hr.delivery
        rw [hd] at h hdel
        obtain rfl := Option.some.inj h
        exact ⟨hdel, fun f hf => absurd hf List.not_mem_nil, hdel⟩

theorem performs_of_step {s s' : Serializer σ V} {m : Move σ V} {r r' : Running σ V}
    (h : Step s m s') (hr : s.current = some r) (hP : r.Performs P) (hr' : s'.current = some r') :
    r'.Performs P := by
  cases h with
  | rests hm hq => exact Option.some.inj (hr.symm.trans hr') ▸ hP
  | @serves _ q hm hq =>
    have : (s.serve q).current = some r := (congrArg Back.current (back_serve s q)).trans hr
    exact Option.some.inj (this.symm.trans hr') ▸ hP
  | releases hc hs =>
    obtain rfl := Option.some.inj (hr.symm.trans hc)
    obtain rfl := Option.some.inj hr'
    have hf := hP.frame
    rw [hs] at hf
    exact ⟨hf.2, hP.outer, hP.delivery⟩
  | begins ha hc hq | halts ha hc hq => rw [hr] at hc; cases hc
  | goesOn ha hc ht =>
    obtain rfl := Option.some.inj (hr.symm.trans hc)
    obtain rfl := Option.some.inj hr'
    exact performs_nextTurn hP ht
  | ends ha hc ht =>
    obtain rfl := Option.some.inj (hr.symm.trans hc)
    exact performs_finishFrame hP hr'
  | panics ha hc ht =>
    rw [current_unwind] at hr'
    cases hr'

end Serializer

namespace Run

open Serializer

variable (R : Run σ V) {P : Work σ V → Prop}

/-- **All work of a run is of the sort that threads have left behind.** -/
theorem performs (hR : ∀ t, (R.moves t).Performs P) (t : ℕ) :
    (∀ j ∈ R.accepted t, j.Performs P) ∧
      ∀ r, (R.after t).current = some r → r.Performs P := by
  induction t with
  | zero => exact ⟨fun j hj => absurd hj List.not_mem_nil, fun r hr => by cases hr⟩
  | succ t ih =>
    have hacc : ∀ j ∈ R.accepted (t + 1), j.Performs P := by
      intro j hj
      rcases List.mem_append.mp hj with hj | hj
      · exact ih.1 j hj
      · obtain ⟨q, hq, ha⟩ := Option.bind_eq_some_iff.mp (Option.mem_toList.mp hj)
        exact performs_requestOf (hR t) ih.2 hq ha
    refine ⟨hacc, fun r hr => ?_⟩
    cases hc : (R.after t).current with
    | some r₀ => exact performs_of_step (R.step t) hc (ih.2 r₀ hc) hr
    | none =>
      cases R.uptake hc with
      | none hq hb | drops hq hd hb =>
        have := hr.symm.trans ((congrArg Back.current hb).trans hc)
        cases this
      | @starts j hq hd hb =>
        obtain rfl := Option.some.inj (hr.symm.trans (congrArg Back.current hb))
        have hj := ih.1 j (R.mem_accepted_of_leaves hq)
        exact ⟨hj.script, fun f hf => absurd hf List.not_mem_nil, hj.delivery⟩

end Run

end SymbolIndex
