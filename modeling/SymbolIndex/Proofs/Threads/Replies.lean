import SymbolIndex.Proofs.Threads.Desks

/-!
# What callers are told

* `RepliesStep`, `repliesStep`: who is told something at one moment;
* `ThreadsRun.replies_prefix`, `ThreadsRun.mem_replies_succ`: replies stay, and none comes from
  anywhere else;
* `ThreadsRun.not_runs_of_discards`, `ThreadsRun.replyTo_of_forgets`: a job that is dropped is not
  run, and its caller is told so;
* `ThreadsRun.rests_of_waits`: what a caller is answered that waits for a job.
-/

namespace SymbolIndex

open Serializer

variable {σ V : Type}

theorem Common.eq_of_mem_lostReplies {queue : List (Message σ V)} {n : ℕ} {o : Outcome V}
    (h : (n, o) ∈ Common.lostReplies queue) : o = .result (.error .dropped) := by
  induction queue with
  | nil => cases h
  | cons m queue ih =>
    cases m with
    | stop => exact ih h
    | job j =>
      rw [Common.lostReplies] at h
      split at h
      · rcases List.mem_cons.mp h with heq | h
        · exact (Prod.mk.inj heq).2
        · exact ih h
      · exact ih h

theorem eq_of_mem_dismissals {j : Job σ V} {n : ℕ} {o : Outcome V}
    (h : (n, o) ∈ dismissals j) : o = .result (.error .dropped) := by
  unfold dismissals at h
  split at h
  · exact (Prod.mk.inj (List.mem_singleton.mp h)).2
  · cases h

namespace Threads

variable {s s' : Threads σ V}

/-- Who is told something at one moment. -/
inductive RepliesStep (s s' : Threads σ V) : Prop
  | same (h : s'.common.core.replies = s.common.core.replies)
  /-- a job that is being run ends -/
  | ends {r : Running σ V} {o : Outcome V} (hd : s.desk = .runs r)
    (h : s'.common.core.replies = s.common.core.replies ++ [(r.seq, o)])
  | forgets {j : Job σ V} (hd : s.desk = .forgets j)
    (h : s'.common.core.replies = s.common.core.replies ++ dismissals j)
  /-- jobs are lost with the queue -/
  | loses (h : s'.common.core.replies =
      s.common.core.replies ++ Common.lostReplies s.common.core.queue)

theorem replies_startStep (c : Common σ V) (forStop : Bool) (fault : Option OsError)
    (stage : StartStage) : (stage.step c forStop fault).1.core.replies = c.core.replies ∨
      (stage.step c forStop fault).1.core.replies =
        c.core.replies ++ Common.lostReplies c.core.queue := by
  cases stage with
  | spawns =>
    cases fault with
    | none => exact .inl rfl
    | some e => exact .inr rfl
  | takesReceiver =>
    rw [StartStage.step]
    split <;> exact .inl rfl
  | marksRunning | leavesHandle => exact .inl rfl

theorem replies_offerStep (c : Common σ V) (w : Who) (o : Offer σ V) (stage : OfferStage) :
    (stage.step c w o).1.core.replies = c.core.replies := by
  cases stage with
  | looksRunning | locks | sends =>
    rw [OfferStage.step]
    split <;> rfl
  | _ => rfl

theorem replies_stopStep (c : Common σ V) (w : Who) (stage : StopStage) :
    (stage.step c w).1.core.replies = c.core.replies ∨ (stage.step c w).1.core.replies =
      c.core.replies ++ Common.lostReplies c.core.queue := by
  cases stage with
  | dropsReceiver =>
    simp only [StopStage.step]
    split
    · exact .inr rfl
    · exact .inl rfl
  | takesHandle | locks | sends =>
    simp only [StopStage.step]
    split <;> exact .inl rfl
  | _ => exact .inl rfl

theorem replies_step (c : Common σ V) (w : Who) (fault : Option OsError) (e : Errand σ V) :
    (e.step c w fault).1.core.replies = c.core.replies ∨ (e.step c w fault).1.core.replies =
      c.core.replies ++ Common.lostReplies c.core.queue := by
  cases e with
  | rests | waits => exact .inl rfl
  | starts stage forStop => exact replies_startStep c forStop fault stage
  | offers o stage => exact .inl (replies_offerStep c w o stage)
  | interrupts stage => cases stage <;> exact .inl rfl
  | stops stage => exact replies_stopStep c w stage

theorem repliesStep_work (s : Threads σ V) (w : Who) (fault : Option OsError) :
    RepliesStep s (s.work w fault) := by
  rcases replies_step s.common w fault (s.errand w) with h | h
  · exact .same h
  · exact .loses h

theorem repliesStep_finish {r : Running σ V} {core : Serializer σ V} (result : JobResult V)
    (hd : s.desk = .runs r) (hcore : core.replies = s.common.core.replies) :
    RepliesStep s (s.finish core r result) := by
  unfold finish
  split
  · exact .same hcore
  · split
    · exact .same hcore
    · exact .same hcore
    · exact .ends hd (by rw [← hcore]; rfl)
    · exact .same hcore

theorem repliesStep_unwind {r : Running σ V} (p : Payload) (hd : s.desk = .runs r) :
    RepliesStep s (s.unwind r p) := by
  unfold unwind
  split
  · exact .ends hd rfl
  · exact .same rfl

theorem repliesStep_of_ownerStep (hs : OwnerStep s s') : RepliesStep s s' := by
  cases hs with
  | works => exact repliesStep_work s _ _
  | forgets hd => exact .forgets hd rfl
  | leaves => exact .loses rfl
  | @answered r a rest answer =>
    cases ha : a.noteOn answer <;> exact .same rfl
  | goesOn hd hq ht =>
    refine .same ?_
    rw [serves_nextTurn ht, hq]
    rfl
  | ends hd ht => exact repliesStep_finish _ hd (by rw [nextTurn_of_ends ht])
  | panics hd => exact repliesStep_unwind _ hd
  | _ => exact .same rfl

/-- **Who is told something at one moment.** -/
theorem repliesStep {e : Event σ V} (hs : Step s e s') : RepliesStep s s' := by
  cases hs with
  | works => exact repliesStep_work s _ _
  | owner _ hs => exact repliesStep_of_ownerStep hs
  | _ => exact .same rfl

theorem rests_of_work {w v : Who} {n : ℕ} {timed : Bool} {last : Option (Answer V)}
    {fault : Option OsError} (h : s.errand w = .waits n timed)
    (h' : (s.work v fault).errand w = .rests last) :
    ∃ o, s.common.core.replyTo n = some o ∧ last = some (.told o) := by
  by_cases hv : w = v
  · subst hv
    rw [work_errand_self, h, Errand.step] at h'
    cases ho : s.common.core.replyTo n with
    | none => rw [ho] at h'; cases h'
    | some o =>
      rw [ho] at h'
      exact ⟨o, rfl, (Errand.rests.inj h').symm⟩
  · rw [work_errand_of_ne s hv, h] at h'
    cases h'

theorem Step.rests_of_waits {e : Event σ V} (hs : Step s e s') {w : Who} {n : ℕ} {timed : Bool}
    {last : Option (Answer V)} (h : s.errand w = .waits n timed) (h' : s'.errand w = .rests last) :
    (∃ o, s.common.core.replyTo n = some o ∧ last = some (.told o)) ∨
      timed = true ∧ last = some (.fails .timeout) := by
  have hkept : ∀ {e : Errand σ V}, e = .waits n timed → e ≠ .rests last := by
    rintro _ rfl
    exact nofun
  -- nobody else is given anything to do, or is answered
  have hother : ∀ {v last' e}, s.errand v = .rests last' →
      (s.withErrand v e).errand w ≠ .rests last := by
    intro v last' e hv
    refine hkept ((withErrand_of_ne s ?_ e).trans h)
    rintro rfl
    cases h.symm.trans hv
  cases hs with
  | rests | releases => exact absurd h' (hkept h)
  | works => exact .inl (rests_of_work h h')
  | asks he => exact absurd h' (hother he)
  | @givesUp i m he hr =>
    by_cases hw : w = .thread i
    · subst hw
      rw [withErrand_self] at h'
      obtain ⟨-, rfl⟩ := Errand.waits.inj (h.symm.trans he)
      exact .inr ⟨rfl, (Errand.rests.inj h').symm⟩
    · exact absurd h' (hkept ((withErrand_of_ne s hw _).trans h))
  | owner ha hs =>
    generalize s.ownerStep = s' at hs h'
    cases hs with
    | works => exact .inl (rests_of_work h h')
    | begins _ _ _ he => exact absurd h' (hother he)
    | answered _ _ he => exact absurd h' (hother he)
    | ends => exact absurd h' (hkept (by rw [finish_errand, h]))
    | panics => exact absurd h' (hkept (by rw [unwind_errand, h]))
    | _ => exact absurd h' (hkept h)

theorem Step.of_desk_ne {e : Event σ V} (hs : Step s e s') (hne : s'.desk ≠ s.desk)
    (hr : ∀ r, s.desk ≠ .runs r) : s.common.core.owner = .alive ∧ s' = s.ownerStep := by
  cases hs with
  | owner ha => exact ⟨ha, rfl⟩
  | releases hd => exact absurd hd (hr _)
  | rests | works | asks | givesUp => exact absurd rfl hne

end Threads

namespace ThreadsRun

open Threads

variable {R : ThreadsRun σ V}

theorem replies_prefix {t u : ℕ} (h : t ≤ u) :
    (R.after t).common.core.replies <+: (R.after u).common.core.replies := by
  induction u, h using Nat.le_induction with
  | base => exact List.prefix_rfl
  | succ u _ ih =>
    refine ih.trans ?_
    cases repliesStep (R.step u) with
    | same h => rw [h]
    | ends _ h | forgets _ h | loses h =>
      rw [h]
      exact List.prefix_append _ _

/-- Whoever is told anything is told that his job was dropped, or it was run. -/
theorem mem_replies_cases {t n : ℕ} {o : Outcome V}
    (h : (n, o) ∈ (R.after t).common.core.replies) :
    o = .result (.error .dropped) ∨ ∃ u < t, ∃ r, (R.after u).desk = .runs r ∧ r.seq = n := by
  induction t with
  | zero => cases h
  | succ t ih =>
    have hbefore : (n, o) ∈ (R.after t).common.core.replies → o = .result (.error .dropped) ∨
        ∃ u < t + 1, ∃ r, (R.after u).desk = .runs r ∧ r.seq = n := by
      intro h
      rcases ih h with ho | ⟨u, hut, hr⟩
      · exact .inl ho
      · exact .inr ⟨u, by omega, hr⟩
    cases repliesStep (R.step t) with
    | same heq => exact hbefore (heq ▸ h)
    | ends hd heq =>
      rw [heq, List.mem_append] at h
      rcases h with h | h
      · exact hbefore h
      · exact .inr ⟨t, by omega, _, hd, ((Prod.mk.inj (List.mem_singleton.mp h)).1).symm⟩
    | forgets _ heq =>
      rw [heq, List.mem_append] at h
      rcases h with h | h
      · exact hbefore h
      · exact .inl (eq_of_mem_dismissals h)
    | loses heq =>
      rw [heq, List.mem_append] at h
      rcases h with h | h
      · exact hbefore h
      · exact .inl (Common.eq_of_mem_lostReplies h)

/-- **A job that is dropped is not run**, and neither is its callback. -/
theorem not_runs_of_discards {t u : ℕ} {j : Job σ V} {r : Running σ V}
    (h : (R.after t).desk = .discards j) (hr : (R.after u).desk = .runs r) : r.seq ≠ j.seq := by
  intro hn
  obtain ⟨a, -, ha, ha'⟩ := judges_of_discards h
  obtain ⟨b, -, k, hb, hk⟩ := begins_of_runs hr
  obtain ⟨c, -, hc, hc'⟩ := judges_of_starts hb.1
  obtain ⟨rfl, rfl⟩ := judged_once ha hc ha' hc' nofun nofun (hn.symm.trans hk.symm)
  cases ha'.symm.trans hc'

theorem replyTo_of_discards {t u : ℕ} {j : Job σ V} {o : Outcome V}
    (h : (R.after t).desk = .discards j) (ho : (R.after u).common.core.replyTo j.seq = some o) :
    o = .result (.error .dropped) := by
  obtain ⟨front, behind, heq, -⟩ := List.lookup_eq_some_iff.mp ho
  have hmem : (j.seq, o) ∈ (R.after u).common.core.replies := by
    rw [heq]
    exact List.mem_append_cons_self
  refine (mem_replies_cases hmem).resolve_right ?_
  rintro ⟨v, -, r, hr, hn⟩
  exact not_runs_of_discards h hr hn

theorem mem_replies_of_forgets {t : ℕ} {j : Job σ V} (h : (R.after t).desk = .forgets j)
    (h' : (R.after (t + 1)).desk = .free) (hj : j.delivery = .reply) :
    (j.seq, .result (.error .dropped)) ∈ (R.after (t + 1)).common.core.replies := by
  obtain ⟨ha, hs⟩ := (R.step t).of_desk_ne (by rw [h, h']; exact nofun) (by rw [h]; exact nofun)
  have hcore : (R.after t).ownerStep.common.core =
      (R.after t).common.core.withReply j.seq (.result (.error .dropped)) := by
    rw [Threads.ownerStep, if_pos ha, h]
    simp only [hj]
    rfl
  rw [hs, hcore]
  exact List.mem_append_right _ (List.mem_singleton_self _)

/-- **The caller of a job that is dropped is told so**, from when the owner has let go of it. -/
theorem replyTo_of_forgets {t u : ℕ} {j : Job σ V} (h : (R.after t).desk = .forgets j)
    (h' : (R.after (t + 1)).desk = .free) (hj : j.delivery = .reply) (htu : t < u) :
    (R.after u).common.core.replyTo j.seq = some (.result (.error .dropped)) := by
  obtain ⟨v, -, hv⟩ := discards_of_forgets h
  have hmem := (R.replies_prefix htu).subset (mem_replies_of_forgets h h' hj)
  cases ho : (R.after u).common.core.replyTo j.seq with
  | none => simpa using List.lookup_eq_none_iff.mp ho _ hmem
  | some o => rw [replyTo_of_discards hv ho]

/-- **What a caller is answered that waits for a job.** -/
theorem rests_of_waits {t n : ℕ} {w : Who} {timed : Bool} {last : Option (Answer V)}
    (h : R.Passes t w (.waits n timed) (.rests last)) :
    (∃ o, (R.after t).common.core.replyTo n = some o ∧ last = some (.told o)) ∨
      timed = true ∧ last = some (.fails .timeout) :=
  (R.step t).rests_of_waits h.1 h.2

end ThreadsRun

end SymbolIndex
