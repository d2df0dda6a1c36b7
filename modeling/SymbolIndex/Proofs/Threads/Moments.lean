import SymbolIndex.Proofs.Threads.Stations

/-!
# What is done at once

Each step of a thread does one thing to what is numbered, counted, queued or marked, if it does
anything to that at all, and it leaves a trace: the errand, or the desk of the owner, has come to
another stage.

* `Deed`, `deed_step`: what a step of an errand does;
* `DeskDeed`, `deskDeed_of_ownerStep`: what else the owner does;
* `Threads.Effect`, `effect_of_step`: what an event does;
* `Threads.Step.worked`: whose errand has come further has worked.
-/

namespace SymbolIndex

open Serializer

variable {σ V : Type}

/-- All that is numbered, counted, queued or marked stays as it was. -/
structure Common.Calm (c c' : Common σ V) : Prop where
  nextSeq : c'.core.nextSeq = c.core.nextSeq
  queue : c'.core.queue = c.core.queue
  counts : c'.core.counts = c.core.counts
  dropBelow : c'.core.dropBelow = c.core.dropBelow
  epoch : c'.core.epoch = c.core.epoch

theorem Common.Calm.refl (c : Common σ V) : c.Calm c := ⟨rfl, rfl, rfl, rfl, rfl⟩

/-! ## Errands -/

/-- The thread has nothing to do, or waits for a job. -/
def Errand.isIdle : Errand σ V → Bool
  | .rests _ | .waits _ _ => true
  | _ => false

/-- The thread has sent a job, and not counted it. -/
def Errand.isUncounted : Errand σ V → Bool
  | .offers _ (.counts _) => true
  | _ => false

/-- The thread has nothing in mind from the step before. -/
def Errand.isPlain : Errand σ V → Bool
  | .offers _ (.sends _) | .offers _ (.counts _) | .interrupts (.raises _) => false
  | _ => true

theorem isUncounted_of_isPlain {e : Errand σ V} (h : e.isPlain = true) : e.isUncounted = false := by
  cases e with
  | offers o stage => cases stage <;> first | rfl | cases h
  | _ => rfl

theorem isUncounted_of_isIdle {e : Errand σ V} (h : e.isIdle = true) : e.isUncounted = false := by
  cases e <;> first | rfl | cases h

theorem isInside_of_isUncounted {e : Errand σ V} (h : e.isUncounted = true) :
    e.isInside = true := by
  cases e with
  | offers o stage => cases stage <;> first | rfl | cases h
  | _ => cases h

@[simp] theorem isPlain_started (forStop : Bool) :
    (Errand.started forStop : Errand σ V).isPlain = true := by
  cases forStop <;> rfl

@[simp] theorem isPlain_settled (o : Offer σ V) (seq : Option ℕ) :
    (o.settled seq).isPlain = true := by
  unfold Offer.settled
  split <;> rfl

@[simp] theorem isPlain_errand (q : Wish σ V) : q.errand.isPlain = true := by
  cases q <;> rfl

/-- What a step of an errand does. -/
inductive Deed (c c' : Common σ V) : Errand σ V → Errand σ V → Prop
  | calm {e e' : Errand σ V} (h : c.Calm c') (before : e.isUncounted = false)
    (plain : e'.isPlain = true) : Deed c c' e e'
  | numbers {o : Offer σ V} (hc : c' = { c with core := c.core.takeNumber }) :
    Deed c c' (.offers o .numbers) (.offers o (.sends c.core.nextSeq))
  | sends {o : Offer σ V} {n : ℕ} (hr : c.hasReader = true)
    (hc : c' = { c with core := c.core.send (.job (o.job n)) }) :
    Deed c c' (.offers o (.sends n)) (.offers o (.counts n))
  | counts {o : Offer σ V} {n : ℕ} (hc : c' = { c with core := c.core.countSubmitted }) :
    Deed c c' (.offers o (.counts n)) (.offers o (.unlocks (some n)))
  | refuses {o : Offer σ V} (hc : c' = { c with core := c.core.countDropped }) :
    Deed c c' (.offers o .refuses) (.offers o (.unlocks none))
  | reads (hc : c' = c) : Deed c c' (.interrupts .readsNext) (.interrupts (.raises c.core.nextSeq))
  | raises {n : ℕ} (hc : c' = { c with core := c.core.raiseMark n }) :
    Deed c c' (.interrupts (.raises n)) (.interrupts .bumps)
  | bumps (hc : c' = { c with core := c.core.interrupt }) :
    Deed c c' (.interrupts .bumps) (.rests (some .done))
  /-- the owner is asked to end -/
  | tells (hr : c.hasReader = true) (hc : c' = { c with core := c.core.send .stop }) :
    Deed c c' (.stops .sends) (.stops .unlocks)
  /-- the receiver is dropped -/
  | loses {e e' : Errand σ V} (hc : c' = c.loseQueue)
    (how : e = .stops .dropsReceiver ∧ c.core.hasReceiver = true ∨
      ∃ forStop cause, e = .starts .spawns forStop ∧
        e' = .rests (some (.fails (.spawnThread cause))))
    (before : e.isUncounted = false) (plain : e'.isPlain = true) : Deed c c' e e'

theorem deed_start (c : Common σ V) (fault : Option OsError) (stage : StartStage)
    (forStop : Bool) : Deed c (stage.step c forStop fault).1 (.starts stage forStop)
      (stage.step c forStop fault).2 := by
  cases stage with
  | takesReceiver =>
    simp only [StartStage.step]
    split
    · exact .calm ⟨rfl, rfl, rfl, rfl, rfl⟩ rfl rfl
    · exact .calm (.refl c) rfl (isPlain_started forStop)
  | spawns =>
    cases fault with
    | none => exact .calm ⟨rfl, rfl, rfl, rfl, rfl⟩ rfl rfl
    | some cause => exact .loses rfl (.inr ⟨forStop, cause, rfl, rfl⟩) rfl rfl
  | marksRunning => exact .calm ⟨rfl, rfl, rfl, rfl, rfl⟩ rfl rfl
  | leavesHandle => exact .calm ⟨rfl, rfl, rfl, rfl, rfl⟩ rfl (isPlain_started forStop)

theorem deed_offer (c : Common σ V) (w : Who) (o : Offer σ V) (stage : OfferStage) :
    Deed c (stage.step c w o).1 (.offers o stage) (stage.step c w o).2 := by
  cases stage with
  | numbers => exact .numbers rfl
  | counts n => exact .counts rfl
  | refuses => exact .refuses rfl
  | sends n =>
    simp only [OfferStage.step]
    split
    · next hr => exact .sends hr rfl
    · exact .calm (.refl c) rfl rfl
  | looksRunning | locks =>
    simp only [OfferStage.step]
    split <;> exact .calm ⟨rfl, rfl, rfl, rfl, rfl⟩ rfl rfl
  | looksOpen =>
    simp only [OfferStage.step]
    split <;> exact .calm (.refl c) rfl rfl
  | unlocks seq => exact .calm ⟨rfl, rfl, rfl, rfl, rfl⟩ rfl (isPlain_settled o seq)

theorem deed_stop (c : Common σ V) (w : Who) (stage : StopStage) :
    Deed c (stage.step c w).1 (.stops stage) (stage.step c w).2 := by
  cases stage with
  | sends =>
    simp only [StopStage.step]
    split
    · next hr => exact .tells hr rfl
    · exact .calm (.refl c) rfl rfl
  | dropsReceiver =>
    simp only [StopStage.step]
    split
    · next hr => exact .loses rfl (.inl ⟨rfl, hr⟩) rfl rfl
    · exact .calm (.refl c) rfl rfl
  | _ =>
    simp only [StopStage.step]
    first
      | exact .calm ⟨rfl, rfl, rfl, rfl, rfl⟩ rfl rfl
      | split <;> exact .calm ⟨rfl, rfl, rfl, rfl, rfl⟩ rfl rfl

/-- **What a step of an errand does.** -/
theorem deed_step (c : Common σ V) (w : Who) (fault : Option OsError) (e : Errand σ V) :
    Deed c (e.step c w fault).1 e (e.step c w fault).2 := by
  cases e with
  | rests last => exact .calm (.refl c) rfl rfl
  | waits n timed =>
    simp only [Errand.step]
    split <;> exact .calm (.refl c) rfl rfl
  | starts stage forStop => exact deed_start c fault stage forStop
  | offers o stage => exact deed_offer c w o stage
  | interrupts stage =>
    cases stage with
    | readsNext => exact .reads rfl
    | raises n => exact .raises rfl
    | bumps => exact .bumps rfl
  | stops stage => exact deed_stop c w stage

/-! ## The owner -/

/-- The number of the job that the owner has taken and not counted. -/
def Desk.holds : Desk σ V → Option ℕ
  | .judges j | .discards j | .starts j => some j.seq
  | .runs r => some r.seq
  | .settles n _ => some n
  | .free | .forgets _ | .halts | .leaves => none

/-- What the owner does that is not on an errand of its job. -/
inductive DeskDeed (c c' : Common σ V) : Desk σ V → Desk σ V → Prop
  | calm {d d' : Desk σ V} (h : c.Calm c') (holds : d'.holds = d.holds) : DeskDeed c c' d d'
  | takes {j : Job σ V} {queue : List (Message σ V)} (hq : c.core.queue = .job j :: queue)
    (hc : c' = { c with core := { c.core with queue } }) : DeskDeed c c' .free (.judges j)
  | halts {queue : List (Message σ V)} (hq : c.core.queue = .stop :: queue)
    (hc : c' = { c with core := { c.core with queue } }) : DeskDeed c c' .free .halts
  | discards {j : Job σ V} (hc : c' = { c with core := c.core.countDropped }) :
    DeskDeed c c' (.discards j) (.forgets j)
  | settles {n : ℕ} {succeeded : Bool} (hc : c' = { c with core := c.core.countEnd succeeded }) :
    DeskDeed c c' (.settles n succeeded) .free
  | leaves (hc : c' = { c.loseQueue with core := { c.loseQueue.core with owner := .finished } }) :
    DeskDeed c c' .leaves .free

namespace Threads

variable {s s' : Threads σ V}

theorem IsOwners.calm {c c' : Common σ V} (h : IsOwners c c') : c.Calm c' := by
  obtain ⟨_, _, _, rfl⟩ := h
  exact ⟨rfl, rfl, rfl, rfl, rfl⟩

theorem holds_finish (core : Serializer σ V) (r : Running σ V) (result : JobResult V) :
    (s.finish core r result).desk.holds = some r.seq := by
  unfold finish
  split
  · rfl
  · split <;> rfl

theorem holds_unwind (r : Running σ V) (p : Payload) :
    (s.unwind r p).desk.holds = some r.seq := by
  unfold unwind
  split <;> rfl

/-- What an event does. -/
inductive Effect (s s' : Threads σ V) : Prop
  /-- somebody does a step of his errand -/
  | works {w : Who} (desk : s'.desk = s.desk) (others : ∀ v, v ≠ w → s'.errand v = s.errand v)
    (h : Deed s.common s'.common (s.errand w) (s'.errand w))
  /-- the owner does something else, or errands begin or are over -/
  | stays (h : DeskDeed s.common s'.common s.desk s'.desk)
    (errands : ∀ w, s'.errand w = s.errand w ∨
      (s.errand w).isIdle = true ∧ (s'.errand w).isPlain = true)

theorem effect_work (s : Threads σ V) (w : Who) (fault : Option OsError) :
    Effect s (s.work w fault) := by
  refine .works (w := w) rfl (fun v hv => work_errand_of_ne s hv fault) ?_
  rw [work_errand_self, work_common]
  exact deed_step s.common w fault (s.errand w)

theorem errands_of_withErrand {w : Who} {e : Errand σ V} (he : (s.errand w).isIdle = true)
    (he' : e.isPlain = true) (herrand : s'.errand = (s.withErrand w e).errand) (v : Who) :
    s'.errand v = s.errand v ∨ (s.errand v).isIdle = true ∧ (s'.errand v).isPlain = true := by
  rw [herrand]
  by_cases hv : v = w
  · subst hv
    rw [withErrand_self]
    exact .inr ⟨he, he'⟩
  · exact .inl (withErrand_of_ne s hv e)

theorem effect_of_ownerStep (hs : OwnerStep s s') : Effect s s' := by
  have hsame : ∀ {t : Threads σ V}, t.errand = s.errand → ∀ w, t.errand w = s.errand w ∨
      (s.errand w).isIdle = true ∧ (t.errand w).isPlain = true :=
    fun h w => .inl (by rw [h])
  have hholds : ∀ {d}, s.desk = d → s.desk.holds = d.holds := congrArg Desk.holds
  cases hs with
  | works => exact effect_work s _ _
  | rests => exact .stays (.calm (.refl _) rfl) (hsame rfl)
  | takes hd hq =>
    refine .stays ?_ (hsame rfl)
    rw [hd]
    exact .takes hq rfl
  | halts hd hq =>
    refine .stays ?_ (hsame rfl)
    rw [hd]
    exact .halts hq rfl
  | discards hd =>
    refine .stays ?_ (hsame rfl)
    rw [hd]
    exact .discards rfl
  | settles hd =>
    refine .stays ?_ (hsame rfl)
    rw [hd]
    exact .settles rfl
  | leaves hd =>
    refine .stays ?_ (hsame rfl)
    rw [hd]
    exact .leaves rfl
  | drops hd | keeps hd | starts hd | skips hd =>
    exact .stays (.calm (.refl _) (hholds hd).symm) (hsame rfl)
  | forgets hd | closes hd =>
    exact .stays (.calm ⟨rfl, rfl, rfl, rfl, rfl⟩ (hholds hd).symm) (hsame rfl)
  | begins hd _ _ he =>
    exact .stays (.calm (.refl _) rfl)
      (errands_of_withErrand (by rw [he]; rfl) (isPlain_errand _) rfl)
  | @answered r a rest answer hd hs he =>
    refine .stays (.calm ?_ (hholds hd).symm) (errands_of_withErrand (by rw [he]; rfl) rfl rfl)
    cases ha : a.noteOn answer <;> exact ⟨rfl, rfl, rfl, rfl, rfl⟩
  | goesOn hd hq ht =>
    refine .stays (.calm (isOwners_of_goesOn hq ht).calm ?_) (hsame rfl)
    exact (congrArg some (continues_nextTurn ht).seq).trans (hholds hd).symm
  | ends hd ht =>
    exact .stays (.calm (isOwners_finish ht).calm ((holds_finish ..).trans (hholds hd).symm))
      (hsame (finish_errand ..))
  | panics hd ht =>
    exact .stays (.calm (isOwners_unwind ..).calm ((holds_unwind ..).trans (hholds hd).symm))
      (hsame (unwind_errand ..))

/-- **What an event does.** -/
theorem effect_of_step {e : Event σ V} (hs : Step s e s') : Effect s s' := by
  cases hs with
  | rests => exact .stays (.calm (.refl _) rfl) fun _ => .inl rfl
  | works => exact effect_work s _ _
  | asks he =>
    exact .stays (.calm (.refl _) rfl)
      (errands_of_withErrand (by rw [he]; rfl) (isPlain_errand _) rfl)
  | givesUp he =>
    exact .stays (.calm (.refl _) rfl) (errands_of_withErrand (by rw [he]; rfl) rfl rfl)
  | releases hd => exact .stays (.calm (.refl _) (congrArg Desk.holds hd).symm) fun _ => .inl rfl
  | owner ha hs => exact effect_of_ownerStep hs

theorem withErrand_of_not_isIdle {v w : Who} (hi : (s.errand w).isIdle = false)
    (hv : (s.errand v).isIdle = true) (e : Errand σ V) :
    (s.withErrand v e).errand w = s.errand w := by
  refine withErrand_of_ne s ?_ e
  rintro rfl
  cases hi.symm.trans hv

theorem eq_of_work_errand_ne {v w : Who} {fault : Option OsError}
    (h : (s.work v fault).errand w ≠ s.errand w) : w = v :=
  by_contra fun hv => h (work_errand_of_ne s hv fault)

theorem worked_of_ownerStep (hs : OwnerStep s s') {w : Who} (hi : (s.errand w).isIdle = false)
    (hne : s'.errand w ≠ s.errand w) : ∃ fault, s' = s.work w fault := by
  cases hs with
  | works => exact ⟨none, by rw [eq_of_work_errand_ne hne]⟩
  | begins _ _ _ he => exact absurd (withErrand_of_not_isIdle hi (by rw [he]; rfl) _) hne
  | answered _ _ he =>
    exact absurd (withErrand_of_not_isIdle hi (by rw [he]; rfl) (.rests none)) hne
  | ends => exact absurd (by rw [finish_errand]) hne
  | panics => exact absurd (by rw [unwind_errand]) hne
  | _ => exact absurd rfl hne

/-- **Whose errand has come further has worked.** -/
theorem Step.worked {e : Event σ V} (hs : Step s e s') {w : Who}
    (hi : (s.errand w).isIdle = false) (hne : s'.errand w ≠ s.errand w) :
    ∃ fault, s' = s.work w fault := by
  cases hs with
  | rests | releases => exact absurd rfl hne
  | @works i fault => exact ⟨fault, by rw [eq_of_work_errand_ne hne]⟩
  | @asks i q last he =>
    exact absurd (withErrand_of_not_isIdle hi (by rw [he]; rfl) q.errand) hne
  | givesUp he => exact absurd (withErrand_of_not_isIdle hi (by rw [he]; rfl) _) hne
  | owner ha hs => exact worked_of_ownerStep hs hi hne

end Threads

end SymbolIndex
