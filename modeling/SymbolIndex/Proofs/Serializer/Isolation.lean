import Mathlib.Tactic.Choose
import SymbolIndex.Proofs.Serializer.Abreast
import SymbolIndex.Proofs.Serializer.Exchanges
import SymbolIndex.Proofs.Serializer.Work

/-!
# Failures are isolated

A job that fails or panics, or whose callback panics, is nobody else's business. If it is exchanged
for a job that does the same but ends differently, everything else stays as it was: only the job's
own caller is told something else, its own callback notes something else, and it is counted as
something else. Jobs that look at what has been counted see that, and nothing else of it. The owner
takes more or fewer steps at the end of the job, and that is all.

* `Run.Reaches`: the actions of the job are done;
* `Run.Place`, `Run.place_succ`: how far both jobs have come;
* `Run.Isolated`, `Run.isolates`: nothing else differs.
-/

namespace SymbolIndex

open Serializer

variable {σ V : Type}

namespace Serializer

theorem Differ.rests {d : Difference σ V} {s s' : Serializer σ V} {r r' : Running σ V}
    {m : Move σ V} (h : Differ d s s') (hr : s.current = some r) (hr' : s'.current = some r')
    (hg : ∀ rest, r.frame.script ≠ .gate :: rest) (hg' : ∀ rest, r'.frame.script ≠ .gate :: rest)
    (hm : ¬ (m = .owner ∧ s.owner = .alive)) :
    Differ d (s.move m) (s'.move m) ∧ (s.move m).back = s.back ∧ (s'.move m).back = s'.back := by
  have hback : (s.move m).back = s.back :=
    (turn_of_step (step_move s m) hr hg).resolve_right fun ⟨hm', ha, _⟩ => hm ⟨hm', ha⟩
  have hback' : (s'.move m).back = s'.back :=
    (turn_of_step (step_move s' m) hr' hg').resolve_right fun ⟨hm', ha, _⟩ =>
      hm ⟨hm', h.owner ▸ ha⟩
  refine ⟨?_, hback, hback'⟩
  by_cases hown : m = .owner
  · subst hown
    obtain ⟨hs, hs'⟩ := h.move_of_not_alive fun ha => hm ⟨rfl, ha⟩
    rwa [hs, hs']
  · by_cases hrel : m = .release
    · subst hrel
      rw [Serializer.move, Serializer.move, release_of_ne_gate hr hg, release_of_ne_gate hr' hg']
      exact h
    · exact h.move hown hrel

end Serializer

namespace Run

variable (R : Run σ V) (X : Exchange σ V)

/-- The actions of the job are done and have left this value, and the job is about to end. -/
def Reaches (t : ℕ) (value : Option V) : Prop :=
  ∃ token, (R.after t).current = some (X.old.starts X.seq X.who value token)

/-- The actions of the job have been done by now, and this is the value that they have left. -/
def ReachedBy (t : ℕ) (value : Option V) : Prop :=
  (∃ u ≤ t, R.Reaches X u value) ∧ ∀ u ≤ t, ∀ w, R.Reaches X u w → w = value

/-- The actions of the job have not been done, or one of them has ended the job. -/
def Unreached (t : ℕ) : Prop := ∀ u ≤ t, ∀ value, ¬ R.Reaches X u value

/-- How far the job has come in the run, and where the other one is by then. -/
inductive Place (t : ℕ) (s' : Serializer σ V) : Prop
  /-- both wait -/
  | waits (h : Twins { messages := ([.job X.job], [.job X.other]) } (R.after t) s')
  /-- both do the same -/
  | abreast {r r' : Running σ V} (h : Differ {} (R.after t) s')
    (hr : (R.after t).current = some r) (hr' : s'.current = some r')
    (hab : Abreast X.old X.new X.seq X.who r r') (hu : R.Unreached X t)
  /-- an action has ended both, and callbacks have been told -/
  | callsBack (h : Differ {} (R.after t) s')
    (hr : (R.after t).current = some (X.old.callsBack X.seq X.who false))
    (hr' : s'.current = some (X.new.callsBack X.seq X.who false)) (hu : R.Unreached X t)
  /-- both have been dropped, or an action has ended them -/
  | same (h : Twins {} (R.after t) s') (hover : ∀ u, t ≤ u → ¬ R.Busy u X.seq)
    (hu : R.Unreached X t)
  /-- the job is about to end, and the other one waits for that -/
  | closing {k : ℕ} {r : Running σ V} {notes : List (Note V)} {value : Option V} {token : Token}
    (h : Differ { notes := (notes, []) } (R.after t) s')
    (hlog : (R.after t).log = s'.log ++ notes) (hr : (R.after t).current = some r)
    (hr' : s'.current = some (X.new.starts X.seq X.who value token))
    (hc : Closing X.old X.seq X.who value k r notes) (hv : R.ReachedBy X t value)
  /-- both have ended -/
  | ended {value : Option V}
    (h : Twins (X.old.difference X.seq X.who value X.new) (R.after t) s')
    (hover : ∀ u, t ≤ u → ¬ R.Busy u X.seq) (hv : R.ReachedBy X t value)
    (hreply : X.who = .caller → s'.replyTo X.seq = some (X.new.work.outcome value))

variable {R X} {t : ℕ} {s' : Serializer σ V}

/-! ## When the actions are done -/

theorem busy_of_reaches {value : Option V} (h : R.Reaches X t value) : R.Busy t X.seq := by
  obtain ⟨token, hr⟩ := h
  exact ⟨_, hr, rfl⟩

theorem unreached_of_queued (h : .job X.job ∈ (R.after t).queue) : R.Unreached X t := by
  intro u hut value hreach
  obtain ⟨v, hv, j, -, hj, hn, -⟩ := R.starts_of_busy (busy_of_reaches hreach)
  have hwaits : R.taken t ≤ X.seq :=
    (R.mem_queue_iff_taken_le ((R.jobsIn_suffix t).subset (mem_jobsIn.mpr h))).mp h
  have htaken : R.taken (v + 1) = X.seq + 1 := by
    rw [R.taken_succ_of_leaves hj.1, ← R.seq_of_leaves hj.1, hn]
  have := R.taken_mono (show v + 1 ≤ t by omega)
  omega

theorem unreached_succ (h : R.Unreached X t) (hnext : ∀ value, ¬ R.Reaches X (t + 1) value) :
    R.Unreached X (t + 1) := by
  intro u hu
  rcases Nat.le_succ_iff.mp hu with hu | rfl
  · exact h u hu
  · exact hnext

theorem reachedBy_of_reaches {value : Option V} (h : R.Unreached X t)
    (hnext : R.Reaches X (t + 1) value) : R.ReachedBy X (t + 1) value := by
  refine ⟨⟨t + 1, le_rfl, hnext⟩, fun u hu w hw => ?_⟩
  rcases Nat.le_succ_iff.mp hu with hu | rfl
  · exact absurd hw (h u hu w)
  · obtain ⟨token, hr⟩ := hnext
    obtain ⟨token', hr'⟩ := hw
    have heq := Option.some.inj (hr'.symm.trans hr)
    simp only [Finale.starts, Running.mk.injEq, Frame.mk.injEq] at heq
    exact heq.2.2.2.1.2.1

theorem reachedBy_succ {value : Option V} (h : R.ReachedBy X t value)
    (hnext : ∀ w, R.Reaches X (t + 1) w → w = value) : R.ReachedBy X (t + 1) value := by
  obtain ⟨⟨u, hu, hr⟩, hw⟩ := h
  refine ⟨⟨u, Nat.le_succ_of_le hu, hr⟩, fun v hv w hreach => ?_⟩
  rcases Nat.le_succ_iff.mp hv with hv | rfl
  · exact hw v hv w hreach
  · exact hnext w hreach

theorem value_of_closing {k : ℕ} {r : Running σ V} {notes : List (Note V)} {value w : Option V}
    (hc : Closing X.old X.seq X.who value k r notes) (hr : (R.after t).current = some r)
    (h : R.Reaches X t w) : w = value := by
  obtain ⟨token, hr'⟩ := h
  obtain rfl := Option.some.inj (hr.symm.trans hr')
  generalize hrun : X.old.starts X.seq X.who w token = r at hc
  cases hc with
  | starts token' =>
    simp only [Finale.starts, Running.mk.injEq, Frame.mk.injEq] at hrun
    exact hrun.2.2.2.1.2.1
  | answered hx token' =>
    simp only [Finale.starts, Finale.answered, Running.mk.injEq, Frame.mk.injEq, hx,
      Ending.script] at hrun
    cases hrun.2.2.2.1.1
  | told => cases congrArg Running.stage hrun

/-! ## One move -/

theorem place_of_onward (hu : R.Unreached X t)
    (hover : (R.after (t + 1)).current = none → ∀ u, t + 1 ≤ u → ¬ R.Busy u X.seq)
    (h : Onward X.old X.new X.seq X.who (R.after (t + 1)) s') : R.Place X (t + 1) s' := by
  cases h with
  | callsBack h hr hr' =>
    refine .callsBack h hr hr' (unreached_succ hu fun value ⟨token, hreach⟩ => ?_)
    cases congrArg Running.stage (Option.some.inj (hr.symm.trans hreach))
  | ended h hc =>
    refine .same h (hover hc) (unreached_succ hu fun value ⟨token, hreach⟩ => ?_)
    cases hc.symm.trans hreach
  | @abreast r r' h hr hr' hab =>
    by_cases hreach : ∃ value, R.Reaches X (t + 1) value
    · obtain ⟨value, hreach⟩ := hreach
      have hv := reachedBy_of_reaches hu hreach
      obtain ⟨token, hr₁⟩ := hreach
      obtain rfl := Option.some.inj (hr.symm.trans hr₁)
      obtain rfl := hab.starts rfl
      exact .closing h (by rw [h.log.eq, List.append_nil]) hr hr' (.starts token) hv
    · exact .abreast h hr hr' hab (unreached_succ hu fun value hr => hreach ⟨value, hr⟩)

theorem place_of_waits (h : Twins { messages := ([.job X.job], [.job X.other]) } (R.after t) s') :
    R.Place X (t + 1) (s'.move (R.moves t)) := by
  obtain ⟨before, behind, hq, hq'⟩ := h.1.queue
  cases before with
  | cons msg before =>
    refine .waits (twins_move h _ ?_ fun _ _ _ msg' queue hqueue => ?_)
    · rw [hq]
      exact fun hnil => absurd hnil (List.cons_ne_nil _ _)
    · obtain ⟨rfl, rfl⟩ := List.cons.inj (hq.symm.trans hqueue)
      exact ⟨_, hq', before, behind, rfl, rfl⟩
  | nil =>
    by_cases hown : R.moves t = .owner ∧ (R.after t).owner = .alive ∧ (R.after t).current = none
    · obtain ⟨hm, ha, hc⟩ := hown
      have hafter : R.after (t + 1) = ((R.after t).behind behind).begin X.job := by
        rw [after, hm, move, ownerStep_of_idle ha hc, receive, hq]
        rfl
      have hother : s'.move (R.moves t) = (s'.behind behind).begin X.other := by
        rw [hm, move, ownerStep_of_idle (h.1.owner.trans ha) (h.2.trans hc), receive, hq']
        rfl
      have hl : R.Leaves t X.job := by
        have hbehind : (R.after (t + 1)).queue = behind := by
          rw [hafter]
          exact congrArg Front.queue (front_begin _ _)
        rw [Leaves, hbehind]
        exact hq
      have hu : R.Unreached X t := unreached_of_queued (by rw [hq]; exact List.mem_cons_self)
      rw [hother]
      refine place_of_onward hu (fun hc _ _ => R.not_busy_of_drops ⟨hl, hc⟩) ?_
      rw [hafter]
      exact onward_begin ⟨h.1.withQueue ([], []) (.refl behind), h.2⟩ hc X.kind X.actions
    · refine .waits (twins_move h _ ?_ fun hm ha hc => absurd ⟨hm, ha, hc⟩ hown)
      rw [hq]
      exact fun hnil => absurd hnil (List.cons_ne_nil _ _)

theorem place_of_callsBack (h : Differ {} (R.after t) s')
    (hr : (R.after t).current = some (X.old.callsBack X.seq X.who false))
    (hr' : s'.current = some (X.new.callsBack X.seq X.who false)) (hu : R.Unreached X t) :
    R.Place X (t + 1) (s'.move (R.moves t)) := by
  by_cases hown : R.moves t = .owner ∧ (R.after t).owner = .alive
  · obtain ⟨hm, ha⟩ := hown
    have hafter : R.after (t + 1) = (R.after t).countEnd false := by
      rw [after, hm, move_callsBack ha hr, Bool.false_and]
    have hc : (R.after (t + 1)).current = none := by rw [hafter]; rfl
    rw [hm, move_callsBack (h.owner.trans ha) hr', Bool.false_and]
    refine .same ⟨hafter ▸ h.countEnd false, hc ▸ rfl⟩ (fun u htu => ?_)
      (unreached_succ hu fun value hreaches => ?_)
    · exact R.not_busy_of_ends ⟨⟨_, hr, rfl⟩, hc⟩ htu
    · obtain ⟨token, hreach⟩ := hreaches
      cases hc.symm.trans hreach
  · obtain ⟨h, hb, hb'⟩ := h.rests hr hr' (X.old.callbackScript_ne_gate)
      (X.new.callbackScript_ne_gate) hown
    have hr₁ := (congrArg Back.current hb).trans hr
    refine .callsBack h hr₁ ((congrArg Back.current hb').trans hr')
      (unreached_succ hu fun value hreaches => ?_)
    obtain ⟨token, hreach⟩ := hreaches
    cases congrArg Running.stage (Option.some.inj (hr₁.symm.trans hreach))

theorem replyTo_of_closing {k : ℕ} {r : Running σ V} {notes : List (Note V)} {value : Option V}
    (hr : (R.after t).current = some r) (hc : Closing X.old X.seq X.who value k r notes) :
    (R.after t).replyTo X.seq = none := by
  rw [Option.eq_none_iff_forall_ne_some]
  intro o ho
  obtain ⟨u, hu, j, hj, hseq, hdel, hend⟩ := R.replyTo_eq_some_iff.mp ho
  have hn : j.seq = r.seq := hseq.trans hc.seq_eq.symm
  rcases hend with ⟨hd, -⟩ | hw
  · exact R.not_drops_of_busy hr hn hd
  · have hg := R.not_working_of_workEnds hw hr hc.seq_eq hu
    have hreply := (R.delivery_of_busy hr hj hn).symm.trans hdel
    cases hc with
    | starts | answered => exact hg rfl
    | told hw ho =>
      rw [hw] at hreply
      cases hreply

/-- The owner comes closer to the end of the job, for which the other one waits, or it ends the job,
and then the other one catches up. -/
theorem exists_place_of_closing {k : ℕ} {r : Running σ V} {notes : List (Note V)}
    {value : Option V} {token : Token} (h : Differ { notes := (notes, []) } (R.after t) s')
    (hlog : (R.after t).log = s'.log ++ notes) (hr : (R.after t).current = some r)
    (hr' : s'.current = some (X.new.starts X.seq X.who value token))
    (hc : Closing X.old X.seq X.who value k r notes) (hv : R.ReachedBy X t value)
    (ha : (R.after t).owner = .alive) (hm : R.moves t = .owner) :
    ∃ i ≤ 3, R.Place X (t + 1) (steps i s') := by
  -- the serializer without what the job has noted since its actions were done
  let s₀ : Serializer σ V := { R.after t with log := s'.log }
  have hs : s₀.goOnWith r notes = R.after t := by rw [goOnWith, ← hlog, ← hr]
  have h₀ : Differ {} s₀ s' := h.withLog ([], []) (.refl s'.log)
  rcases closing_move (s := s₀) ha hc with hover | ⟨k', -, r', notes', hc', hnext⟩
  · have hafter : R.after (t + 1) = X.old.ended X.seq X.who value s₀ := by
      rw [after, hm, ← hover, hs]
    have hidle : (R.after (t + 1)).current = none := by rw [hafter]; rfl
    obtain ⟨i, hi, hother⟩ := exists_ended (h₀.owner.trans ha)
      (.starts token : Closing X.new X.seq X.who value 3 _ [])
    rw [goOnWith_nil hr'] at hother
    refine ⟨i, hi, ?_⟩
    rw [hother]
    refine .ended ⟨hafter ▸ h₀.ended, hidle ▸ rfl⟩ (fun u htu => ?_)
      (reachedBy_succ hv fun w hreaches => ?_) fun hw => replyTo_ended hw ?_
    · exact R.not_busy_of_ends ⟨⟨r, hr, hc.seq_eq⟩, hidle⟩ htu
    · obtain ⟨token, hreach⟩ := hreaches
      cases hidle.symm.trans hreach
    · rw [replyTo, h.replies.eq]
      exact replyTo_of_closing hr hc
  · have hafter : R.after (t + 1) = s₀.goOnWith r' notes' := by rw [after, hm, ← hnext, hs]
    have hr₁ : (R.after (t + 1)).current = some r' := by rw [hafter]; rfl
    refine ⟨0, by omega, .closing (hafter ▸ h₀.goOnWith r' notes') ?_ hr₁ hr' hc'
      (reachedBy_succ hv fun w => value_of_closing hc' hr₁)⟩
    rw [hafter]
    rfl

theorem place_of_closing {k : ℕ} {r : Running σ V} {notes : List (Note V)} {value : Option V}
    {token : Token} (h : Differ { notes := (notes, []) } (R.after t) s')
    (hlog : (R.after t).log = s'.log ++ notes) (hr : (R.after t).current = some r)
    (hr' : s'.current = some (X.new.starts X.seq X.who value token))
    (hc : Closing X.old X.seq X.who value k r notes) (hv : R.ReachedBy X t value) :
    ∃ i ≤ 3, R.Place X (t + 1) (s'.paced i (R.moves t)) := by
  by_cases hown : R.moves t = .owner ∧ (R.after t).owner = .alive
  · obtain ⟨i, hi, hplace⟩ := exists_place_of_closing h hlog hr hr' hc hv hown.2 hown.1
    exact ⟨i, hi, by rwa [hown.1]⟩
  · obtain ⟨h, hb, hb'⟩ := h.rests hr hr' hc.ne_gate X.new.work.script_ne_gate hown
    have hr₁ := (congrArg Back.current hb).trans hr
    have hlog₁ : (R.after (t + 1)).log = (R.after t).log := congrArg Back.log hb
    have hlog₁' : (s'.move (R.moves t)).log = s'.log := congrArg Back.log hb'
    refine ⟨1, by omega, ?_⟩
    rw [paced_one]
    exact .closing h (by rw [hlog₁, hlog₁', hlog]) hr₁ ((congrArg Back.current hb').trans hr') hc
      (reachedBy_succ hv fun w => value_of_closing hc hr₁)

/-- **However far both have come, one move later they have come as far as each other again**, if
the owner takes as many steps as it has to. -/
theorem place_succ (h : R.Place X t s') :
    ∃ i ≤ 3, (¬ R.Busy t X.seq → i = 1) ∧ R.Place X (t + 1) (s'.paced i (R.moves t)) := by
  have hone : R.Place X (t + 1) (s'.move (R.moves t)) →
      ∃ i ≤ 3, (¬ R.Busy t X.seq → i = 1) ∧ R.Place X (t + 1) (s'.paced i (R.moves t)) :=
    fun h => ⟨1, by omega, fun _ => rfl, by rwa [paced_one]⟩
  cases h with
  | waits h => exact hone (place_of_waits h)
  | abreast h hr hr' hab hu =>
    have hb : R.Busy t X.seq := ⟨_, hr, hab.seq_eq.1⟩
    have hne : ∀ value token, _ ≠ X.old.starts X.seq X.who value token :=
      fun value token heq => hu t le_rfl value ⟨token, heq ▸ hr⟩
    refine hone (place_of_onward hu (fun hc u htu => ?_) (onward_move h _ hr hr' hab hne))
    exact R.not_busy_of_ends ⟨hb, hc⟩ htu
  | callsBack h hr hr' hu => exact hone (place_of_callsBack h hr hr' hu)
  | same h hover hu =>
    exact hone (.same (twins_move_of_messages h rfl _) (fun u htu => hover u (by omega))
      (unreached_succ hu fun _ hreach => hover _ (Nat.le_succ t) (busy_of_reaches hreach)))
  | closing h hlog hr hr' hc hv =>
    obtain ⟨i, hi, hplace⟩ := place_of_closing h hlog hr hr' hc hv
    exact ⟨i, hi, fun hb => absurd ⟨_, hr, hc.seq_eq⟩ hb, hplace⟩
  | ended h hover hv hreply =>
    refine hone (.ended (twins_move_of_messages h rfl _) (fun u htu => hover u (by omega))
      (reachedBy_succ hv fun w hreach => ?_) fun hw => replyTo_move (hreply hw) _)
    exact absurd (busy_of_reaches hreach) (hover _ (Nat.le_succ t))

/-! ## The whole run -/

theorem place_of_newJob (h : R.newJob t = some X.job) :
    R.Place X (t + 1) ((R.after (t + 1)).exchangeLast X.other) := by
  have hqueue : (R.after (t + 1)).queue = (R.after t).queue ++ [.job X.job] := by
    rcases R.queue_succ t with ⟨j, hj, -, -, hq⟩ | ⟨hn, -⟩ | ⟨hn, -⟩
    · obtain rfl := Option.some.inj (h.symm.trans hj)
      exact hq
    · cases h.symm.trans hn
    · cases h.symm.trans hn
  refine .waits ⟨?_, rfl⟩
  have hgap : Gap [.job X.job] [.job X.other] (R.after (t + 1)).queue
      ((R.after (t + 1)).queue.dropLast ++ [.job X.other]) := by
    rw [hqueue, List.dropLast_concat]
    exact .last ..
  exact .intro hgap rfl (.refl _) (.refl _)

/-- **The owner can keep pace**, so that both jobs come equally far all along. -/
theorem exists_pace (h : R.newJob t = some X.job) :
    ∃ pace : ℕ → ℕ, (∀ k, pace k ≤ 3) ∧ (∀ k, ¬ R.Busy (t + 1 + k) X.seq → pace k = 1) ∧
      ∀ k, R.Place X (t + 1 + k) (R.exchanged X t pace k) := by
  have hstep : ∀ k s', R.Place X (t + 1 + k) s' → ∃ i ≤ 3,
      (¬ R.Busy (t + 1 + k) X.seq → i = 1) ∧
        R.Place X (t + 1 + k + 1) (s'.paced i (R.moves (t + 1 + k))) :=
    fun _ _ => place_succ
  choose! next hle hone hnext using hstep
  have hplace : ∀ k, R.Place X (t + 1 + k) (R.following X t next k) := by
    intro k
    induction k with
    | zero => exact place_of_newJob h
    | succ k ih => exact hnext k _ ih
  refine ⟨fun k => next k (R.following X t next k), fun k => hle k _ (hplace k),
    fun k => hone k _ (hplace k), fun k => ?_⟩
  rw [exchanged_eq_following]
  exact hplace k

variable (R X t) in
/-- What has become of the job by now, and of the other one in its place. -/
inductive Course (s' : Serializer σ V) : Prop
  /-- its actions have not been done, or one of them has ended it -/
  | same (hu : R.Unreached X t) (counts : s'.counts = (R.after t).counts)
    (reply : s'.replyTo X.seq = (R.after t).replyTo X.seq) (log : s'.log = (R.after t).log)
  /-- its actions have been done, and it is about to end -/
  | ending {value : Option V} {notes : List (Note V)} (hv : R.ReachedBy X t value)
    (busy : R.Busy t X.seq) (counts : s'.counts = (R.after t).counts)
    (reply : (R.after t).replyTo X.seq = none ∧ s'.replyTo X.seq = none)
    (log : (R.after t).log = s'.log ++ notes) (hnotes : notes <+: X.old.notes X.who value)
  /-- its actions have been done, and it has ended: it is counted by its end, its caller has been
  told its outcome, and its callback has noted its result; what has been noted behind that is the
  same, but for jobs that have noted what has been counted, which differs as the counts do -/
  | ended {value : Option V} (hv : R.ReachedBy X t value) (idle : ¬ R.Busy t X.seq)
    (counts : ∃ c : JobCounts, (R.after t).counts = c.plus (.of (X.old.succeeds X.who value)) ∧
      s'.counts = c.plus (.of (X.new.succeeds X.who value)))
    (reply : X.who = .caller →
      (R.after t).replyTo X.seq = some (X.old.work.outcome value) ∧
        s'.replyTo X.seq = some (X.new.work.outcome value))
    (log : ∃ before behind behind', (R.after t).log = before ++ X.old.notes X.who value ++ behind ∧
      s'.log = before ++ X.new.notes X.who value ++ behind' ∧
      List.Forall₂ (Note.Alike (some (.of (X.old.succeeds X.who value),
        .of (X.new.succeeds X.who value)))) behind behind' ∧
      ((∀ c, .counts c ∉ behind) → behind' = behind))

variable (R X t) in
/-- The other job makes no difference beside its own end. -/
structure Isolated (s' : Serializer σ V) : Prop where
  /-- the same has been asked for, and has come to the same: as many jobs have been accepted, they
  are interrupted alike, and the owner is as alive -/
  front : s'.front = { (R.after t).front with queue := s'.queue }
  /-- the same jobs wait in the same order -/
  queue : s'.queue = (R.after t).queue ∨ ∃ before behind,
    (R.after t).queue = before ++ [.job X.job] ++ behind ∧
      s'.queue = before ++ [.job X.other] ++ behind
  /-- the owner is at the same place of the same job, unless it is busy with the job itself -/
  current : s'.current = (R.after t).current ∨ ∃ r r', (R.after t).current = some r ∧
    s'.current = some r' ∧ r.seq = X.seq ∧ r'.seq = X.seq
  state : s'.state = (R.after t).state
  /-- all others have been told the same -/
  replies : ∀ n, n ≠ X.seq ∨ X.who ≠ .caller → s'.replyTo n = (R.after t).replyTo n
  course : R.Course X t s'

theorem Isolated.of_differ {d : Difference σ V} (h : Differ d (R.after t) s')
    (hq : Gap d.messages.1 d.messages.2 (R.after t).queue s'.queue →
      s'.queue = (R.after t).queue ∨ ∃ before behind,
        (R.after t).queue = before ++ [.job X.job] ++ behind ∧
          s'.queue = before ++ [.job X.other] ++ behind)
    (hc : s'.current = (R.after t).current ∨ ∃ r r', (R.after t).current = some r ∧
      s'.current = some r' ∧ r.seq = X.seq ∧ r'.seq = X.seq)
    (hr : d.replies = ([], [])) (hcourse : R.Course X t s') : R.Isolated X t s' where
  front := h.front.1
  queue := hq h.queue
  current := hc
  state := h.state
  replies n _ := by
    have hreplies := h.replies
    rw [hr] at hreplies
    rw [replyTo, hreplies.eq]
    rfl
  course := hcourse

/-- Nobody but the caller of the job is told anything different. -/
theorem replyTo_of_differ {s₁ s₂ : Serializer σ V} {value : Option V} {n : ℕ}
    (h : Differ (X.old.difference X.seq X.who value X.new) s₁ s₂)
    (hn : n ≠ X.seq ∨ X.who ≠ .caller) : s₂.replyTo n = s₁.replyTo n := by
  obtain ⟨before, behind, hr, hr'⟩ := h.replies
  have hlookup : ∀ x : Finale V, (x.replies X.seq X.who value).lookup n = none := by
    intro x
    unfold Finale.replies
    split
    · next hw =>
      rw [List.lookup_cons, beq_false_of_ne (hn.resolve_right (· hw))]
      rfl
    · rfl
  unfold replyTo
  rw [hr, hr', List.lookup_append, List.lookup_append, List.lookup_append, List.lookup_append]
  rw [show (X.old.difference X.seq X.who value X.new).replies.1.lookup n = none from hlookup _,
    show (X.old.difference X.seq X.who value X.new).replies.2.lookup n = none from hlookup _]

theorem isolated_of_place (h : R.Place X t s') : R.Isolated X t s' := by
  have hsame : ∀ {d : Difference σ V}, Differ d (R.after t) s' → d.ends = none →
      d.replies = ([], []) → d.notes = ([], []) → R.Unreached X t → R.Course X t s' := by
    intro d h hends hreplies hnotes hu
    have hc := h.counts
    have hr := h.replies
    have hl := h.log
    rw [hends] at hc
    rw [hreplies] at hr
    rw [hends, hnotes] at hl
    exact .same hu hc (by rw [replyTo, hr.eq]; rfl) hl.eq
  cases h with
  | waits h =>
    obtain ⟨before, behind, hq, -⟩ := h.1.queue
    refine .of_differ h.1 .inr (.inl h.2) rfl (hsame h.1 rfl rfl rfl (unreached_of_queued ?_))
    rw [hq]
    simp
  | abreast h hr hr' hab hu =>
    exact .of_differ h (fun hq => .inl hq.eq) (.inr ⟨_, _, hr, hr', hab.seq_eq⟩) rfl
      (hsame h rfl rfl rfl hu)
  | callsBack h hr hr' hu =>
    exact .of_differ h (fun hq => .inl hq.eq) (.inr ⟨_, _, hr, hr', rfl, rfl⟩) rfl
      (hsame h rfl rfl rfl hu)
  | same h hover hu =>
    exact .of_differ h.1 (fun hq => .inl hq.eq) (.inl h.2) rfl (hsame h.1 rfl rfl rfl hu)
  | closing h hlog hr hr' hc hv =>
    refine .of_differ h (fun hq => .inl hq.eq) (.inr ⟨_, _, hr, hr', hc.seq_eq, rfl⟩) rfl
      (.ending hv ⟨_, hr, hc.seq_eq⟩ h.counts ⟨replyTo_of_closing hr hc, ?_⟩ hlog hc.notes_prefix)
    rw [replyTo, h.replies.eq]
    exact replyTo_of_closing hr hc
  | @ended value h hover hv hreply =>
    obtain ⟨before, behind, behind', hlog, hlog', hb⟩ := h.1.log
    refine ⟨h.1.front.1, .inl h.1.queue.eq, .inl h.2, h.1.state, fun n => replyTo_of_differ h.1,
      .ended hv (hover t le_rfl) h.1.counts (fun hw => ⟨?_, hreply hw⟩)
        ⟨before, behind, behind', hlog, hlog', hb, eq_of_alike hb⟩⟩
    obtain ⟨before, behind, hr, -⟩ := h.1.replies
    have hm : (X.seq, X.old.work.outcome value) ∈ (R.after t).replies := by
      rw [hr]
      simp [Finale.difference, Finale.replies, hw]
    exact R.replyTo_eq_some_iff.mpr ((R.mem_replies_iff t _ _).mp hm)

variable (R X t) in
/-- With the owner at this pace, nothing differs but the job that has been exchanged. -/
structure Isolates (pace : ℕ → ℕ) : Prop where
  /-- the owner keeps its pace, unless it is busy with the job -/
  paced : (∀ k, pace k ≤ 3) ∧ ∀ k, ¬ R.Busy (t + 1 + k) X.seq → pace k = 1
  isolated : ∀ k, R.Isolated X (t + 1 + k) (R.exchanged X t pace k)
  /-- if a thread has asked for the job, that happens in the run in which it asks for the other one
  instead, and which is the same run until then -/
  run : R.moves t = X.old.asked X.who X.kind X.actions →
    (∀ u ≤ t, (R.instead t pace (X.new.asked X.who X.kind X.actions)).after u = R.after u) ∧
      ∀ k, (R.instead t pace (X.new.asked X.who X.kind X.actions)).after (R.clock t pace k) =
        R.exchanged X t pace k
  /-- the owner survives the job -/
  alive : ∀ k, R.Busy (t + 1 + k) X.seq → (R.exchanged X t pace k).owner = .alive ∧
    (R.exchanged X t pace (k + 1)).owner = .alive

/-- A thread calls a job that fails, and leaves another one behind. -/
def failedCall : Run Unit ℕ where
  name := "index"
  background := true
  state := ()
  moves
    | 0 => .start
    | 1 => .call .uninterruptible [.note 1, .fail .dbRead]
    | 2 => .submit .uninterruptible [.note 2]
    | _ => .owner

/-- The job might as well panic. -/
def panicInstead : Exchange Unit ℕ where
  seq := 0
  kind := .uninterruptible
  actions := [.note 1]
  who := .caller
  old := { work := .fails .dbRead }
  new := { work := .panics (.fixed "out of range") }

example : (failedCall.after 9).replyTo 0 = some (.result (.error .dbRead)) ∧
    (failedCall.after 9).log = [.value 1, .value 2] ∧
    (failedCall.exchanged panicInstead 1 (fun _ => 1) 7).replyTo 0 =
      some (.panicked (.fixed "out of range")) ∧
    (failedCall.exchanged panicInstead 1 (fun _ => 1) 7).log = [.value 1, .value 2] :=
  ⟨rfl, rfl, rfl, rfl⟩

end Run

end SymbolIndex
