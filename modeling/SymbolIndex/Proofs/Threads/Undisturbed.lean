import SymbolIndex.Proofs.Serializer.Shut
import SymbolIndex.Proofs.Threads.Places

/-!
# Undisturbed threads

What a thread asks for takes many steps, but if nobody comes in between, it comes to the same as if
it were done at once.

* `Common.of`: what threads share while nobody is in the middle of anything;
* `Errand.Leads`: what an errand leads to if nobody comes in between;
* `leads_start`, `leads_offer`, `leads_call`, `leads_interruptPending`, `leads_stop`: errands, from
  their first steps on;
* `Threads.Reaches`: what a serializer comes to;
* `Threads.reaches_of_leads`: a thread that is not disturbed;
* `Threads.reaches_attended`: a job that asks for something and is not disturbed.
-/

namespace SymbolIndex

open Serializer

variable {σ V : Type}

/-- What threads share of a serializer while nobody holds the lock and the receiver is not on its
way. The job that is being run is on the desk of the owner. -/
def Common.of (s : Serializer σ V) : Common σ V := { core := { s with current := none } }

theorem hasReader_of {s : Serializer σ V} (h : s.hasReceiver = true ∨ s.owner = .alive) :
    (Common.of s).hasReader = true := by
  unfold Common.hasReader Common.of
  rcases h with h | h <;> simp [h]

/-! ## Errands -/

/-- With nobody in between, an errand leads to a later step of it. -/
inductive Errand.Leads (w : Who) : Common σ V → Errand σ V → Common σ V → Errand σ V → Prop
  | refl (c : Common σ V) (e : Errand σ V) : Leads w c e c e
  | step {c c' c'' : Common σ V} {e e' e'' : Errand σ V} (he : ∀ last, e ≠ .rests last)
    (hs : e.step c w none = (c', e')) (h : Leads w c' e' c'' e'') : Leads w c e c'' e''

namespace Errand.Leads

variable {w : Who} {c c' c'' : Common σ V} {e e' e'' : Errand σ V}

theorem trans (h : Leads w c e c' e') (h' : Leads w c' e' c'' e'') : Leads w c e c'' e'' := by
  induction h with
  | refl => exact h'
  | step he hs _ ih => exact .step he hs (ih h')

theorem once (he : ∀ last, e ≠ .rests last) (hs : e.step c w none = (c', e')) :
    Leads w c e c' e' := .step he hs (.refl c' e')

end Errand.Leads

section Requests

variable (w : Who) {s : Serializer σ V}

variable (s) in
theorem leads_start (forStop : Bool) :
    Errand.Leads w (.of s) (.starts .takesReceiver forStop) (.of s.start) (.started forStop) := by
  unfold start
  cases hr : s.hasReceiver with
  | false => exact .once (by simp) (if_neg (by simp [Common.of, hr]))
  | true =>
    exact .step (by simp) (if_pos hr) <| .step (by simp) rfl <| .step (by simp) rfl <|
      .once (by simp) rfl

theorem leads_offer (hreader : s.isOpen = true → (Common.of s).hasReader = true)
    (o : Offer σ V) :
    Errand.Leads w (.of s) (.offers o .locks) (.of (s.enqueue o.kind o.script o.delivery).2)
      (o.settled (s.enqueue o.kind o.script o.delivery).1) := by
  let c : Common σ V := { Common.of s with lock := some w }
  have hlooks : Errand.step c w none (.offers o .looksOpen) =
      (c, .offers o (if s.isOpen then .numbers else .refuses)) := rfl
  cases ho : s.isOpen with
  | true =>
    let numbered : Common σ V := { c with core := c.core.takeNumber }
    have hsends : Errand.step numbered w none (.offers o (.sends s.nextSeq)) =
        ({ c with core := c.core.takeNumber.send (.job (o.job s.nextSeq)) },
          .offers o (.counts s.nextSeq)) := if_pos (hreader ho)
    rw [if_pos ho] at hlooks
    rw [enqueue_of_isOpen ho]
    exact .step (by simp) rfl <| .step (by simp) hlooks <| .step (by simp) rfl <|
      .step (by simp) hsends <| .step (by simp) rfl <| .once (by simp) rfl
  | false =>
    rw [if_neg (by simp [ho])] at hlooks
    rw [enqueue_of_not_isOpen ho]
    exact .step (by simp) rfl <| .step (by simp) hlooks <| .step (by simp) rfl <|
      .once (by simp) rfl

/-- What a caller is answered whose job is not accepted, or waits for. -/
def Errand.called (timed : Bool) : Except Error ℕ → Errand σ V
  | .ok seq => .waits seq timed
  | .error e => .rests (some (.fails e))

theorem leads_call (hreader : s.isOpen = true → (Common.of s).hasReader = true) (kind : JobKind)
    (script : Script σ V) (timed : Bool) :
    Errand.Leads w (.of s) (.offers ⟨kind, script, .reply, timed⟩ .looksRunning)
      (.of (s.call kind script).2) (.called timed (s.call kind script).1) := by
  cases hr : s.isRunning with
  | false =>
    have hcall : s.call kind script = (.error .notStarted, s) := if_neg (by simp [hr])
    rw [hcall]
    exact .once (by simp) (if_neg (by rw [show (Common.of s).core.isRunning = _ from hr]; simp))
  | true =>
    have hoffer := leads_offer w hreader ⟨kind, script, .reply, timed⟩
    have hopen : s.isOpen = true := by
      unfold isRunning at hr
      rw [isOpen, eq_of_beq hr]
    rw [call, if_pos hr]
    rw [enqueue_of_isOpen hopen] at hoffer ⊢
    exact .step (by simp) (if_pos hr) hoffer

variable (s) in
theorem leads_interrupt :
    Errand.Leads w (.of s) (.interrupts .bumps) (.of s.interrupt) (.rests (some .done)) :=
  .once (by simp) rfl

variable (s) in
theorem leads_interruptPending :
    Errand.Leads w (.of s) (.interrupts .readsNext) (.of s.interruptPending)
      (.rests (some .done)) :=
  .step (by simp) rfl <| .step (by simp) rfl <| .once (by simp) rfl

/-- Behind a stop, whoever has stopped the serializer waits for its owner, unless it is the owner
itself, or has nothing to wait with. -/
def Errand.stopped (w : Who) : StopWait → Errand σ V
  | .returns => .rests (some .done)
  | .joins => if w = .owner then .rests (some .done) else .stops .joins

theorem loseQueue_of (h : s.queue = []) :
    (Common.of s).loseQueue = .of { s with hasReceiver := false } := by
  simp [Common.loseQueue, Common.of, Common.lostReplies, h]

theorem leads_halt (hhandle : s.hasHandle = true → s.owner = .alive)
    (hqueue : s.hasHandle = false → s.hasReceiver = true → s.queue = []) :
    Errand.Leads w (.of s) (.stops .takesHandle) (.of s.halt.2) (.stopped w s.halt.1) := by
  unfold halt
  split
  · next hh =>
    let c : Common σ V :=
      { Common.of { s with hasHandle := false, phase := .stopping } with lock := some w }
    have hsends : Errand.step c w none (.stops .sends) =
        ({ c with core := c.core.send .stop }, .stops .unlocks) := by
      have hreader : c.hasReader = true := hasReader_of (.inr (hhandle hh))
      exact congrArg (·, Errand.stops .unlocks) (if_pos hreader)
    exact .step (by simp) (if_pos hh) <| .step (by simp) rfl <| .step (by simp) rfl <|
      .step (by simp) hsends <| .once (by simp) rfl
  · next hh =>
    have hdrops : Errand.step (.of s) w none (.stops .dropsReceiver) =
        (.of { s with hasReceiver := false }, .stops .marksStopped) := by
      refine congrArg (·, Errand.stops .marksStopped) ?_
      split
      · next hr => exact loseQueue_of (hqueue (Bool.eq_false_iff.mpr hh) hr)
      · next hr => rw [← Bool.eq_false_iff.mpr hr]; rfl
    exact .step (by simp) (if_neg hh) <| .step (by simp) hdrops <| .once (by simp) rfl

theorem leads_stop (hhandle : s.hasHandle = true → s.owner = .alive)
    (hqueue : s.hasReceiver = true → s.pendingJobs = 0 → s.queue = []) :
    Errand.Leads w (.of s) (.stops .looksForHandle) (.of s.stop.2) (.stopped w s.stop.1) := by
  have hlooks : Errand.step (.of s) w none (.stops .looksForHandle) =
      (.of s, .stops (if s.hasHandle then .takesHandle else .readsSubmitted)) := rfl
  unfold stop started
  cases hh : s.hasHandle with
  | true =>
    rw [if_neg (by simp)]
    rw [if_pos hh] at hlooks
    refine .step (by simp) hlooks (leads_halt w hhandle fun hno => ?_)
    cases hh.symm.trans hno
  | false =>
    rw [if_neg (by simp [hh])] at hlooks
    have hreads : Errand.Leads w (.of s) (.stops .looksForHandle) (.of s)
        (if s.pendingJobs = 0 then .stops .takesHandle else .starts .takesReceiver true) := by
      refine .step (by simp) hlooks <| .step (by simp) rfl <| .step (by simp) rfl <|
        .step (by simp) rfl <| .once (by simp) (congrArg (Common.of s, ·) (if_congr ?_ rfl rfl))
      exact Nat.sub_eq_zero_iff_le.symm
    refine hreads.trans ?_
    cases hp : s.pendingJobs with
    | zero => exact leads_halt w hhandle fun _ hr => hqueue hr hp
    | succ n =>
      refine (leads_start w s true).trans (leads_halt w ?_ ?_)
      · -- whoever has started the owner has left a handle
        unfold start
        split
        · exact fun _ => rfl
        · exact hhandle
      · intro _ hr
        rw [start_hasReceiver] at hr
        cases hr

end Requests

/-! ## Serializers -/

namespace Threads

/-- What a serializer comes to by some events, with nobody letting go of it. -/
def Reaches (s s' : Threads σ V) : Prop :=
  ∃ events : List (Event σ V), (∀ i, .ask i .drop ∉ events) ∧ events.foldl happen s = s'

namespace Reaches

variable {s s' s'' : Threads σ V}

theorem refl (s : Threads σ V) : s.Reaches s := ⟨[], fun _ => List.not_mem_nil, rfl⟩

theorem trans (h : s.Reaches s') (h' : s'.Reaches s'') : s.Reaches s'' := by
  obtain ⟨events, hdrop, rfl⟩ := h
  obtain ⟨events', hdrop', rfl⟩ := h'
  refine ⟨events ++ events', fun i hi => ?_, List.foldl_append⟩
  exact (List.mem_append.mp hi).elim (hdrop i) (hdrop' i)

theorem once (e : Event σ V) (he : ∀ i, e ≠ .ask i .drop) : s.Reaches (s.happen e) :=
  ⟨[e], fun i hi => he i (List.mem_singleton.mp hi).symm, rfl⟩

theorem ownerStep (h : s.ownerStep = s') : s.Reaches s' := by
  rw [← h]
  exact once .owner fun _ => by simp

end Reaches

/-- A serializer of which one thread has come to a step of its errand, and what threads share with
it. -/
def brought (s : Threads σ V) (w : Who) (c : Common σ V) (e : Errand σ V) : Threads σ V :=
  (s.withCommon c).withErrand w e

section Brought

variable (s : Threads σ V) (w : Who) {c c' : Common σ V} {e e' : Errand σ V}

theorem brought_errand : (s.brought w c e).errand w = e := withErrand_self _ w e

@[simp] theorem brought_brought : (s.brought w c e).brought w c' e' = s.brought w c' e' := by
  unfold brought withErrand
  simp only [withCommon, mk.injEq, true_and, and_true]
  funext v
  split <;> rfl

theorem brought_self : s.brought w s.common (s.errand w) = s := by
  unfold brought withErrand withCommon
  congr
  funext v
  split
  · next hv => rw [hv]
  · rfl

theorem work_brought (h : e.step c w none = (c', e')) :
    (s.brought w c e).work w none = s.brought w c' e' := by
  unfold work
  rw [brought_errand, show (s.brought w c e).common = c from rfl, h]
  exact s.brought_brought w

end Brought

/-- **A thread that is not disturbed** comes to what its errand leads to. -/
theorem reaches_of_leads (s : Threads σ V) {i : ℕ} {c c' : Common σ V} {e e' : Errand σ V}
    (h : Errand.Leads (.thread i) c e c' e') :
    (s.brought (.thread i) c e).Reaches (s.brought (.thread i) c' e') := by
  induction h with
  | refl => exact .refl _
  | step he hs _ ih =>
    refine .trans ?_ ih
    rw [← s.work_brought (.thread i) hs]
    exact .once (.step i none) fun _ => by simp

theorem alive_step {c : Common σ V} (h : c.core.owner = .alive) (w : Who)
    (fault : Option OsError) (e : Errand σ V) : (e.step c w fault).1.core.owner = .alive := by
  cases change_step c w fault e with
  | keeps hk => exact hk.owner.trans h
  | sends _ _ _ _ hc =>
    rw [hc]
    split <;> exact h
  | spawns _ _ hc => rw [hc]
  | takesReceiver _ _ _ hc | fails _ _ hc | runs _ _ hc | leavesHandle _ _ hc
  | takesHandle _ _ _ hc | loses _ _ hc | closes _ _ hc =>
    rw [hc]
    exact h

section Attended

variable {s : Threads σ V} {r : Running σ V} {a : Action σ V} {rest : Script σ V} {q : Wish σ V}

theorem ownerStep_of_runs (ha : s.common.core.owner = .alive) (hd : s.desk = .runs r) :
    s.ownerStep = s.run r := by
  rw [ownerStep, if_pos ha, hd]

theorem ownerStep_of_wish (ha : s.common.core.owner = .alive) (hd : s.desk = .runs r)
    (hs : r.frame.script = a :: rest) (hq : a.wish = some q) (hdropped : s.isDropped = false) :
    s.ownerStep = s.attend r a rest q := by
  rw [ownerStep_of_runs ha hd, run, hs]
  simp only [hdropped, Bool.false_eq_true, false_and, if_false, hq, Option.elim_some]

theorem attend_of_ne_rests (he : ∀ last, s.errand .owner ≠ .rests last) :
    s.attend r a rest q = s.work .owner none := by
  unfold attend
  split
  · next h => exact absurd h (he _)
  · next h => exact absurd h (he _)
  · rfl

/-- The job is told how what it has asked for has ended, and goes on. -/
theorem attend_of_rests {answer : Answer V} (he : s.errand .owner = .rests (some answer)) :
    s.attend r a rest q =
      ((s.withErrand .owner (.rests none)).withCore
        ((a.noteOn answer).elim s.common.core s.common.core.withNote)).withDesk
          (.runs (passed r rest)) := by
  rw [attend, he]
  rfl

theorem reaches_of_leads_owner (hd : s.desk = .runs r) (hs : r.frame.script = a :: rest)
    (hq : a.wish = some q) (hdropped : s.isDropped = false) {c c' : Common σ V}
    {e e' : Errand σ V} (h : Errand.Leads .owner c e c' e') (ha : c.core.owner = .alive) :
    (s.brought .owner c e).Reaches (s.brought .owner c' e') ∧ c'.core.owner = .alive := by
  induction h with
  | refl => exact ⟨.refl _, ha⟩
  | @step c c₁ _ e e₁ _ he hstep _ ih =>
    have ha₁ : c₁.core.owner = .alive := by
      have := alive_step ha .owner none e
      rwa [hstep] at this
    obtain ⟨hreaches, halive⟩ := ih ha₁
    have hattends : (s.brought .owner c e).ownerStep = (s.brought .owner c e).attend r a rest q :=
      ownerStep_of_wish ha hd hs hq hdropped
    have hne : ∀ last, (s.brought .owner c e).errand .owner ≠ .rests last := by
      rw [brought_errand]
      exact he
    refine ⟨.trans (.ownerStep ?_) hreaches, halive⟩
    rw [hattends, attend_of_ne_rests hne, s.work_brought .owner hstep]

/-- **A job that asks for something and is not disturbed** goes on behind that with the answer. -/
theorem reaches_attended (ha : s.common.core.owner = .alive) (hd : s.desk = .runs r)
    (hs : r.frame.script = a :: rest) (hq : a.wish = some q) (hdropped : s.isDropped = false)
    (he : s.errand .owner = .rests none) {c : Common σ V} {answer : Answer V}
    (h : Errand.Leads .owner s.common q.errand c (.rests (some answer))) :
    s.Reaches
      ((s.withCommon { c with core := (a.noteOn answer).elim c.core c.core.withNote }).withDesk
        (.runs (passed r rest))) := by
  have hbegins : s.ownerStep = s.brought .owner s.common q.errand := by
    rw [ownerStep_of_wish ha hd hs hq hdropped, attend, he]
    rfl
  obtain ⟨hleads, halive⟩ := reaches_of_leads_owner hd hs hq hdropped h ha
  have hends : (s.brought .owner c (.rests (some answer))).ownerStep =
      (s.brought .owner c (.rests (some answer))).attend r a rest q :=
    ownerStep_of_wish halive hd hs hq hdropped
  have hback : (s.brought .owner c (.rests (some answer))).withErrand .owner (.rests none) =
      s.withCommon c := by
    refine (s.brought_brought .owner).trans ?_
    rw [← he]
    exact (s.withCommon c).brought_self .owner
  rw [attend_of_rests (s.brought_errand .owner), hback] at hends
  exact .trans (.ownerStep hbegins) <| .trans hleads <| .ownerStep hends

end Attended

end Threads

end SymbolIndex
