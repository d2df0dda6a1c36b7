import SymbolIndex.Proofs.Serializer.Scripts

/-!
# Work on the state

The state of a serializer changes where the owner performs some work, and nowhere else. A job or a
call that performs one piece of work and nothing else returns what came of it.

* `state_of_step`, `Run.PerformsAt`, `Run.state_succ`: when the state changes;
* `turn_of_step`: a move while a job is being run;
* `Run.Returns`, `Run.progresses_or_returns`: how one piece of work goes;
* `Run.workEnds_of_returns`, `Run.called_of_returns`: what is told about it;
* `Run.Begins`, `Run.of_begins`: calls inside of jobs.
-/

namespace SymbolIndex

variable {σ V : Type}

/-- The job is at the same place, inside of the same calls. -/
structure Running.SameCall (r r' : Running σ V) : Prop where
  seq : r'.seq = r.seq
  delivery : r'.delivery = r.delivery
  stage : r'.stage = r.stage
  outer : r'.outer = r.outer

namespace Serializer

/-! ## The state -/

theorem nextTurn_perform {s : Serializer σ V} {r : Running σ V} {work : Work σ V}
    {rest : Script σ V} (hs : r.frame.script = .perform work :: rest) :
    s.nextTurn r =
      match (work (s.isInterrupted r.frame.token) s.state).1 with
      | .ok v =>
        .goesOn { s with state := (work (s.isInterrupted r.frame.token) s.state).2 }
          { r with frame := { r.frame with script := rest, value := some v } }
      | .error e =>
        .ends { s with state := (work (s.isInterrupted r.frame.token) s.state).2 } (.error e) := by
  rw [nextTurn, hs]
  rfl

theorem state_finishFrame (s : Serializer σ V) (r : Running σ V) (result : JobResult V) :
    (s.finishFrame r result).state = s.state := by
  unfold finishFrame finish
  cases r.outer with
  | cons frame outer => rfl
  | nil =>
    cases r.stage with
    | callback succeeded => rfl
    | work => cases r.delivery <;> rfl

theorem state_act {s s' : Serializer σ V} {r r' : Running σ V} {a : Action σ V}
    (ha : ∀ work, a ≠ .perform work) (h : s.act r a = .goesOn s' r') : s'.state = s.state := by
  cases a with
  | perform work => exact absurd rfl (ha work)
  | check | awaitInterrupt =>
    simp only [act] at h
    split at h <;> simp only [Turn.goesOn.injEq, reduceCtorEq] at h
    rw [h.1]
  | panic p =>
    obtain ⟨-, -, -, rfl, -⟩ := exists_of_raise h
    rfl
  | fail e | gate => cases h
  | stop =>
    obtain ⟨rfl, -⟩ := Turn.goesOn.inj h
    exact congrArg Back.state (back_stop s)
  | submit kind script =>
    obtain ⟨rfl, -⟩ := Turn.goesOn.inj h
    exact congrArg Back.state (back_enqueue s kind script .discard)
  | submitWith kind script tag callback =>
    obtain ⟨rfl, -⟩ := Turn.goesOn.inj h
    exact congrArg Back.state (back_enqueue s kind script (.callback ⟨tag, callback⟩))
  | _ =>
    obtain ⟨rfl, -⟩ := Turn.goesOn.inj h
    rfl

theorem state_act_ends {s s' : Serializer σ V} {r : Running σ V} {a : Action σ V}
    {result : JobResult V} (ha : ∀ work, a ≠ .perform work) (h : s.act r a = .ends s' result) :
    s'.state = s.state := by
  cases a with
  | perform work => exact absurd rfl (ha work)
  | check =>
    simp only [act] at h
    split at h <;> simp only [Turn.ends.injEq, reduceCtorEq] at h
    rw [h.1]
  | fail e =>
    obtain ⟨rfl, -⟩ := Turn.ends.inj h
    rfl
  | awaitInterrupt =>
    simp only [act] at h
    split at h <;> cases h
  | panic p =>
    simp only [act, raise] at h
    split at h <;> cases h
  | _ => cases h

theorem state_nextTurn {s s' : Serializer σ V} {r : Running σ V}
    (h : (∃ r', s.nextTurn r = .goesOn s' r') ∨ ∃ result, s.nextTurn r = .ends s' result) :
    s'.state = s.state ∨ ∃ work rest, r.frame.script = .perform work :: rest ∧
      s'.state = (work (s.isInterrupted r.frame.token) s.state).2 := by
  cases hs : r.frame.script with
  | nil =>
    rcases h with ⟨r', h⟩ | ⟨result, h⟩ <;> rw [nextTurn, hs] at h
    · cases h
    · obtain ⟨rfl, -⟩ := Turn.ends.inj h
      exact .inl rfl
  | cons a rest =>
    by_cases ha : ∃ work, a = .perform work
    · obtain ⟨work, rfl⟩ := ha
      rw [nextTurn_perform hs] at h
      refine .inr ⟨work, rest, rfl, ?_⟩
      cases hw : (work (s.isInterrupted r.frame.token) s.state).1 with
      | ok v =>
        rw [hw] at h
        rcases h with ⟨r', h⟩ | ⟨result, h⟩
        · rw [← (Turn.goesOn.inj h).1]
        · cases h
      | error e =>
        rw [hw] at h
        rcases h with ⟨r', h⟩ | ⟨result, h⟩
        · cases h
        · rw [← (Turn.ends.inj h).1]
    · have ha : ∀ work, a ≠ .perform work := fun work hw => ha ⟨work, hw⟩
      rcases h with ⟨r', h⟩ | ⟨result, h⟩ <;> rw [nextTurn, hs] at h
      · exact .inl (state_act ha h)
      · exact .inl (state_act_ends ha h)

theorem state_begin (s : Serializer σ V) (j : Job σ V) : (s.begin j).state = s.state := by
  unfold begin dismiss
  split
  · cases j.delivery <;> rfl
  · rfl

/-- **The state only changes where the owner performs some work.** -/
theorem state_of_step {s s' : Serializer σ V} {m : Move σ V} (h : Step s m s') :
    s'.state = s.state ∨ m = .owner ∧ ∃ r work rest, s.current = some r ∧
      r.frame.script = .perform work :: rest ∧
        s'.state = (work (s.isInterrupted r.frame.token) s.state).2 := by
  cases h with
  | rests hm hq => exact .inl rfl
  | serves hm hq => exact .inl (congrArg Back.state (back_serve s _))
  | releases hr hs => exact .inl rfl
  | begins ha hc hq => exact .inl (state_begin _ _)
  | halts ha hc hq => exact .inl rfl
  | goesOn ha hr ht =>
    rcases state_nextTurn (.inl ⟨_, ht⟩) with hs | ⟨work, rest, hscript, hs⟩
    · exact .inl hs
    · exact .inr ⟨rfl, _, work, rest, hr, hscript, hs⟩
  | ends ha hr ht =>
    rw [state_finishFrame]
    rcases state_nextTurn (.inr ⟨_, ht⟩) with hs | ⟨work, rest, hscript, hs⟩
    · exact .inl hs
    · exact .inr ⟨rfl, _, work, rest, hr, hscript, hs⟩
  | panics ha hr ht => exact .inl (state_unwind _ _ _)

theorem turn_of_step {s s' : Serializer σ V} {m : Move σ V} {r : Running σ V} (h : Step s m s')
    (hr : s.current = some r) (hg : ∀ rest, r.frame.script ≠ .gate :: rest) :
    s'.back = s.back ∨ m = .owner ∧ s.owner = .alive ∧
      ((∃ s₁ r₁, s.nextTurn r = .goesOn s₁ r₁ ∧ s' = s₁.goOn r₁) ∨
        (∃ s₁ result, s.nextTurn r = .ends s₁ result ∧ s' = s₁.finishFrame r result) ∨
        ∃ p, s.nextTurn r = .panics p ∧ s' = s.unwind r p) := by
  cases h with
  | rests hm hq => exact .inl rfl
  | serves hm hq => exact .inl (back_serve s _)
  | releases hc hs =>
    obtain rfl := Option.some.inj (hr.symm.trans hc)
    exact absurd hs (hg _)
  | begins ha hc hq | halts ha hc hq => rw [hr] at hc; cases hc
  | goesOn ha hc ht =>
    obtain rfl := Option.some.inj (hr.symm.trans hc)
    exact .inr ⟨rfl, ha, .inl ⟨_, _, ht, rfl⟩⟩
  | ends ha hc ht =>
    obtain rfl := Option.some.inj (hr.symm.trans hc)
    exact .inr ⟨rfl, ha, .inr (.inl ⟨_, _, ht, rfl⟩)⟩
  | panics ha hc ht =>
    obtain rfl := Option.some.inj (hr.symm.trans hc)
    exact .inr ⟨rfl, ha, .inr (.inr ⟨_, ht, rfl⟩)⟩

end Serializer

namespace Run

open Serializer

variable (R : Run σ V)

/-- The next action of the job of this number is to perform the work, and the move performs it. -/
def PerformsAt (t n : ℕ) (work : Work σ V) : Prop :=
  R.moves t = .owner ∧ (R.after t).owner = .alive ∧ ∃ r rest, (R.after t).current = some r ∧
    r.seq = n ∧ r.frame.script = .perform work :: rest

theorem busy_of_performsAt {t n : ℕ} {work : Work σ V} (h : R.PerformsAt t n work) :
    R.Busy t n := by
  obtain ⟨-, -, r, -, hr, hn, -⟩ := h
  exact ⟨r, hr, hn⟩

theorem state_of_performsAt {t n : ℕ} {work : Work σ V} (h : R.PerformsAt t n work) :
    ∃ b, (R.after (t + 1)).state = (work b (R.after t).state).2 := by
  obtain ⟨hm, ha, r, rest, hr, -, hs⟩ := h
  refine ⟨(R.after t).isInterrupted r.frame.token, ?_⟩
  have hstep : (R.after (t + 1)) = (R.after t).ownerStep.getD (R.after t) := by
    rw [after, hm]
    rfl
  rw [hstep, ownerStep_of_busy ha hr, advance, nextTurn_perform hs]
  cases hw : (work ((R.after t).isInterrupted r.frame.token) (R.after t).state).1 with
  | ok v => rfl
  | error e => exact state_finishFrame _ _ _

/-- **The state stays as it is unless work is performed.** -/
theorem state_succ (t : ℕ) :
    (R.after (t + 1)).state = (R.after t).state ∨ ∃ n work, R.PerformsAt t n work := by
  by_cases ha : (R.after t).owner = .alive
  · rcases state_of_step (R.step t) with hs | ⟨hm, r, work, rest, hr, hs, -⟩
    · exact .inl hs
    · exact .inr ⟨r.seq, work, hm, ha, r, rest, hr, rfl, hs⟩
  · left
    have hrest := ownerStep_of_not_alive ha
    rcases state_of_step (R.step t) with hs | ⟨hm, -⟩
    · exact hs
    · rw [after, hm, move, hrest, Option.getD_none]

/-! ## One piece of work -/

/-- The owner is at the place in a job where `r` is. -/
def Within (r : Running σ V) (t : ℕ) : Prop :=
  ∃ r', (R.after t).current = some r' ∧ r.SameCall r'

/-- The owner is about to perform some work in the place of `r`, after `s` moves, and the move `e`
ends the script around it with what came of the work. -/
structure Returns (s : ℕ) (r : Running σ V) (work : Work σ V) (e : ℕ) (result : JobResult V) :
    Prop where
  le : s ≤ e
  since : ∀ v, s ≤ v → v ≤ e → R.Within r v
  /-- the work is performed on the state as it was, and it is what changes it -/
  performed : ∃ u, s ≤ u ∧ u ≤ e ∧ R.PerformsAt u r.seq work ∧
    (R.after u).state = (R.after s).state ∧
    result = ((work ((R.after u).isInterrupted r.frame.token) (R.after s).state).1).map some ∧
    (R.after (e + 1)).state =
      (work ((R.after u).isInterrupted r.frame.token) (R.after s).state).2
  /-- the script ends with the result -/
  ends : ∃ r' s', R.moves e = .owner ∧ (R.after e).owner = .alive ∧
    (R.after e).current = some r' ∧ r.SameCall r' ∧
    (R.after e).nextTurn r' = .ends s' result ∧ R.after (e + 1) = s'.finishFrame r' result

/-- How far one piece of work has come. -/
inductive Progresses (s : ℕ) (r : Running σ V) (work : Work σ V) (t : ℕ) : Prop
  /-- it waits for its turn -/
  | waits (hc : (R.after t).current = some r) (hs : (R.after t).state = (R.after s).state)
  /-- it has been performed, and the script around it is about to end -/
  | done {u : ℕ} {v : V} (hsu : s ≤ u) (hut : u < t) (hu : R.PerformsAt u r.seq work)
    (hs : (R.after u).state = (R.after s).state)
    (hw : (work ((R.after u).isInterrupted r.frame.token) (R.after s).state).1 = .ok v)
    (hc : (R.after t).current =
      some { r with frame := { r.frame with script := [], value := some v } })
    (hs' : (R.after t).state =
      (work ((R.after u).isInterrupted r.frame.token) (R.after s).state).2)

theorem within_of_progresses {s t : ℕ} {r : Running σ V} {work : Work σ V}
    (h : R.Progresses s r work t) : R.Within r t := by
  cases h with
  | waits hc hs => exact ⟨r, hc, rfl, rfl, rfl, rfl⟩
  | done hsu hut hu hs hw hc hs' => exact ⟨_, hc, rfl, rfl, rfl, rfl⟩

theorem progresses_succ {s t : ℕ} {r : Running σ V} {work : Work σ V} (hst : s ≤ t)
    (hscript : r.frame.script = [.perform work])
    (hsince : ∀ v, s ≤ v → v ≤ t → R.Within r v) (h : R.Progresses s r work t) :
    R.Progresses s r work (t + 1) ∨ ∃ result, R.Returns s r work t result := by
  cases h with
  | waits hc hs =>
    rcases turn_of_step (R.step t) hc (by simp [hscript]) with hb | ⟨hm, ha, hturn⟩
    · exact .inl (.waits ((congrArg Back.current hb).trans hc)
        ((congrArg Back.state hb).trans hs))
    · have hperf : R.PerformsAt t r.seq work := ⟨hm, ha, r, [], hc, rfl, hscript⟩
      have hnext := nextTurn_perform (s := R.after t) hscript
      cases hw : (work ((R.after t).isInterrupted r.frame.token) (R.after t).state).1 with
      | ok v =>
        rw [hw] at hnext
        rcases hturn with ⟨s₁, r₁, ht, hafter⟩ | ⟨s₁, result, ht, -⟩ | ⟨p, ht, -⟩
        · obtain ⟨rfl, rfl⟩ := Turn.goesOn.inj (hnext.symm.trans ht)
          exact .inl (.done hst (Nat.lt_succ_self t) hperf hs (hs ▸ hw) (by rw [hafter]; rfl)
            (by rw [hafter, ← hs]; rfl))
        · cases hnext.symm.trans ht
        · cases hnext.symm.trans ht
      | error err =>
        rw [hw] at hnext
        rcases hturn with ⟨s₁, r₁, ht, -⟩ | ⟨s₁, result, ht, hafter⟩ | ⟨p, ht, -⟩
        · cases hnext.symm.trans ht
        · obtain ⟨hs₁, rfl⟩ := Turn.ends.inj (hnext.symm.trans ht)
          refine .inr ⟨.error err, hst, hsince, ⟨t, hst, le_rfl, hperf, hs, ?_, ?_⟩,
            r, s₁, hm, ha, hc, ⟨rfl, rfl, rfl, rfl⟩, ht, hafter⟩
          · rw [← hs, hw]
            rfl
          · rw [hafter, state_finishFrame, ← hs₁, hs]
        · cases hnext.symm.trans ht
  | @done u v hsu hut hu hs hw hc hs' =>
    rcases turn_of_step (R.step t) hc (by simp) with hb | ⟨hm, ha, hturn⟩
    · exact .inl (.done hsu (by omega) hu hs hw ((congrArg Back.current hb).trans hc)
        ((congrArg Back.state hb).trans hs'))
    · have hnext : (R.after t).nextTurn { r with frame := { r.frame with
          script := [], value := some v } } = .ends (R.after t) (.ok (some v)) := rfl
      rcases hturn with ⟨s₁, r₁, ht, -⟩ | ⟨s₁, result, ht, hafter⟩ | ⟨p, ht, -⟩
      · cases hnext.symm.trans ht
      · obtain ⟨hs₁, rfl⟩ := Turn.ends.inj (hnext.symm.trans ht)
        refine .inr ⟨.ok (some v), hst, hsince, ⟨u, hsu, hut.le, hu, hs, ?_, ?_⟩,
          _, s₁, hm, ha, hc, ⟨rfl, rfl, rfl, rfl⟩, ht, hafter⟩
        · rw [hw]
          rfl
        · rw [hafter, state_finishFrame, ← hs₁, hs']
      · cases hnext.symm.trans ht

/-- **One piece of work returns what comes of it**, as soon as the owner gets to it. -/
theorem progresses_or_returns {s t : ℕ} {r : Running σ V} {work : Work σ V}
    (hr : (R.after s).current = some r) (hscript : r.frame.script = [.perform work])
    (hst : s ≤ t) :
    (R.Progresses s r work t ∧ ∀ v, s ≤ v → v ≤ t → R.Within r v) ∨
      ∃ e < t, ∃ result, R.Returns s r work e result := by
  induction hst with
  | refl =>
    have hw : R.Progresses s r work s := .waits hr rfl
    refine .inl ⟨hw, fun v hv hvs => ?_⟩
    obtain rfl : v = s := by omega
    exact R.within_of_progresses hw
  | @step t hst ih =>
    rcases ih with ⟨hp, hsince⟩ | ⟨e, het, h⟩
    · rcases R.progresses_succ hst hscript hsince hp with hp' | ⟨result, h⟩
      · refine .inl ⟨hp', fun v hv hvt => ?_⟩
        by_cases hlast : v = t + 1
        · rw [hlast]
          exact R.within_of_progresses hp'
        · exact hsince v hv (by omega)
      · exact .inr ⟨t, Nat.lt_succ_self t, result, h⟩
    · exact .inr ⟨e, by omega, h⟩

/-- A job that only performs one piece of work ends its own work with that. -/
theorem workEnds_of_returns {s e : ℕ} {r : Running σ V} {work : Work σ V} {result : JobResult V}
    (h : R.Returns s r work e result) (hg : r.stage = .work) (ho : r.outer = []) :
    R.WorkEnds e r.seq (.result result) := by
  obtain ⟨r', s', hm, ha, hc, hsame, ht, -⟩ := h.ends
  rw [WorkEnds, hm, ending_owner ha hc, outcome?, hsame.stage, hg, ht, hsame.outer, ho,
    ← hsame.seq]
  rfl

theorem returns_of_starts {s t : ℕ} {j : Job σ V} {work : Work σ V}
    {o : Outcome V} (h : R.Starts s j) (hs : j.script = [.perform work])
    (hw : R.WorkEnds t j.seq o) :
    ∃ result, o = .result result ∧
      R.Returns (s + 1) ((R.after s).starting j) work t result := by
  have hscript : ((R.after s).starting j).frame.script = [.perform work] := hs
  obtain ⟨r, hr, hn, -⟩ := R.workEnds_cases hw
  have hst : s + 1 ≤ t := by
    refine Nat.succ_le_of_lt (Nat.lt_of_not_le fun hle => ?_)
    obtain ⟨s', hs', k, -, hk, hkn, -⟩ := R.starts_of_busy ⟨r, hr, hn⟩
    have := (R.leaves_unique hk.1 h.1 hkn).1
    omega
  rcases R.progresses_or_returns (t := t + 1) h.2 hscript (by omega) with
    ⟨-, hsince⟩ | ⟨e, het, result, hret⟩
  · -- the work has ended, so the owner is not at its place any more
    obtain ⟨r', hr', hsame⟩ := hsince (t + 1) (by omega) le_rfl
    exact absurd hsame.stage
      (R.not_working_of_workEnds hw hr' hsame.seq (Nat.lt_succ_self t))
  · obtain ⟨rfl, rfl⟩ := R.workEnds_unique (R.workEnds_of_returns hret rfl rfl) hw
    exact ⟨result, rfl, hret⟩

theorem not_within_of_returns {s e : ℕ} {r : Running σ V} {work : Work σ V}
    {result : JobResult V} (h : R.Returns s r work e result) : ¬ R.Within r (e + 1) := by
  rintro ⟨r₁, hc, hsame⟩
  obtain ⟨r', s', -, -, -, hsame', -, hafter⟩ := h.ends
  rw [hafter, finishFrame] at hc
  have houter : r₁.outer = r'.outer := hsame.outer.trans hsame'.outer.symm
  have hstage : r₁.stage = r'.stage := hsame.stage.trans hsame'.stage.symm
  cases ho : r'.outer with
  | cons frame outer =>
    rw [ho] at hc houter
    obtain rfl := Option.some.inj hc
    exact absurd (congrArg List.length houter) (by simp)
  | nil =>
    rw [ho] at hc
    cases hg : r'.stage with
    | callback succeeded =>
      simp only [finish, hg] at hc
      cases hc
    | work =>
      rw [hg] at hstage
      cases hd : r'.delivery <;> simp only [finish, hg, hd] at hc
      · cases hc
      · obtain rfl := Option.some.inj hc
        cases hstage
      · cases hc

theorem of_performsAt_of_returns {s u e n : ℕ} {r : Running σ V} {work work' : Work σ V}
    {result : JobResult V} (h : R.Returns s r work e result)
    (hr : (R.after s).current = some r) (hscript : r.frame.script = [.perform work])
    (hsu : s ≤ u) (hue : u ≤ e) (hp : R.PerformsAt u n work') :
    work' = work ∧ (R.after u).state = (R.after s).state := by
  obtain ⟨-, -, r₁, rest, hr₁, -, hs₁⟩ := hp
  rcases R.progresses_or_returns hr hscript hsu with ⟨hprog, -⟩ | ⟨e', he', result', h'⟩
  · cases hprog with
    | waits hc hs =>
      obtain rfl := Option.some.inj (hr₁.symm.trans hc)
      rw [hscript] at hs₁
      simp only [List.cons.injEq, Action.perform.injEq] at hs₁
      exact ⟨hs₁.1.symm, hs⟩
    | done hsu hut hu hs hw hc hs' =>
      obtain rfl := Option.some.inj (hr₁.symm.trans hc)
      cases hs₁
  · have := h'.le
    exact absurd (h.since (e' + 1) (by omega) (by omega)) (R.not_within_of_returns h')

theorem called_of_returns {s e : ℕ} {r : Running σ V} {work : Work σ V} {result : JobResult V}
    {frame : Frame σ V} {outer : List (Frame σ V)} (h : R.Returns s r work e result)
    (ho : r.outer = frame :: outer) :
    (R.after (e + 1)).log = (R.after e).log ++ [.called (.result result)] ∧
      (R.after (e + 1)).current = some { r with frame, outer } := by
  obtain ⟨r', s', hm, ha, hc, hsame, ht, hafter⟩ := h.ends
  have hs' := nextTurn_of_ends ht
  have ho' : r'.outer = frame :: outer := hsame.outer.trans ho
  rw [hafter, finishFrame, ho']
  refine ⟨?_, ?_⟩
  · rw [hs']
    rfl
  · simp only [hsame.seq, hsame.delivery, hsame.stage]

/-! ## Calls -/

/-- A move begins a call inside of the job that is being run as `r`, and the job goes on as `r'`. -/
structure Begins (s : ℕ) (r r' : Running σ V) (kind : JobKind) (script : Script σ V) : Prop where
  before : (R.after s).current = some r
  next : ∃ catches rest, r.frame.script = .call kind script catches :: rest
  behind : (R.after (s + 1)).current = some r'
  deeper : r'.tokens.length = r.tokens.length + 1

theorem of_begins {s : ℕ} {r r' : Running σ V} {kind : JobKind} {script : Script σ V}
    (h : R.Begins s r r' kind script) :
    (∃ isCaught, r'.frame = { script, token := (R.after s).newToken kind, isCaught }) ∧
      r'.seq = r.seq ∧ r'.stage = r.stage ∧ (∃ frame, r'.outer = frame :: r.outer) ∧
        (R.after (s + 1)).state = (R.after s).state := by
  obtain ⟨catches, rest, hs⟩ := h.next
  have hdeeper := h.deeper
  have hnext : (R.after s).nextTurn r =
      .goesOn (R.after s)
        { r with
          frame := { script, token := (R.after s).newToken kind, isCaught := catches }
          outer := { r.frame with script := rest } :: r.outer } := by
    rw [nextTurn, hs]
    rfl
  rcases turn_of_step (R.step s) h.before (by simp [hs]) with hb | ⟨-, -, hturn⟩
  · have := h.behind.symm.trans ((congrArg Back.current hb).trans h.before)
    rw [Option.some.inj this] at hdeeper
    omega
  · rcases hturn with ⟨s₁, r₁, ht, hafter⟩ | ⟨s₁, result, ht, -⟩ | ⟨p, ht, -⟩
    · obtain ⟨hs₁, rfl⟩ := Turn.goesOn.inj (hnext.symm.trans ht)
      have hc := h.behind
      rw [hafter] at hc ⊢
      obtain rfl := Option.some.inj hc
      exact ⟨⟨_, rfl⟩, rfl, rfl, ⟨_, rfl⟩, by rw [← hs₁]; rfl⟩
    · cases hnext.symm.trans ht
    · cases hnext.symm.trans ht

theorem opens_of_begins {s : ℕ} {r r' : Running σ V} {kind : JobKind} {script : Script σ V}
    (h : R.Begins s r r' kind script) : R.Opens s r.tokens.length kind := by
  obtain ⟨catches, rest, hs⟩ := h.next
  exact .call h.before hs h.behind h.deeper

/-- **A call of one piece of work returns with what comes of it**, as soon as the owner gets to it,
and that is noted. -/
theorem returns_of_begins {s t : ℕ} {r r' : Running σ V} {kind : JobKind} {work : Work σ V}
    (h : R.Begins s r r' kind [.perform work]) (hst : s < t) :
    R.Within r' t ∨ ∃ e < t, ∃ result, R.Returns (s + 1) r' work e result ∧
      (R.after (e + 1)).log = (R.after e).log ++ [.called (.result result)] := by
  obtain ⟨⟨isCaught, hframe⟩, -, -, ⟨frame, ho⟩, -⟩ := R.of_begins h
  have hscript : r'.frame.script = [.perform work] := by rw [hframe]
  rcases R.progresses_or_returns h.behind hscript hst with ⟨-, hsince⟩ | ⟨e, het, result, hret⟩
  · exact .inl (hsince t hst le_rfl)
  · exact .inr ⟨e, het, result, hret, (R.called_of_returns hret ho).1⟩

end Run

end SymbolIndex
