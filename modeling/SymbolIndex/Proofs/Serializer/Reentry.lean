import SymbolIndex.Proofs.Serializer.Accounts
import SymbolIndex.Proofs.Serializer.Inside

/-!
# Calls from inside

A job may call for another piece of work, and that for another one, however deep. Such a call is run
in place: the owner goes on with it at once, above the job that has made it, and returns to the job
with what the work has come to: it returns the result, or panics where the call was made, and the job
may catch that. No job is taken from the queue for that, no number is handed out and
nothing is counted. What is submitted in the meantime waits until the whole job is over.

* `Calling`, `Run.Enters`: a call that a job makes;
* `Run.alone`, `Run.Inside`: inside of the call, all is as in a job of its own;
* `Run.Over`, `Run.course`: the call returns the result of its own work, or panics as that did;
* `Run.advances`, `Run.advances_le`: and that takes a bounded number of steps;
* `Run.Counted`, `Run.quiet`: nothing is counted in the meantime but what is submitted;
* `Run.Reenters`, `Run.reenters`: calls from inside are run in place.
-/

namespace SymbolIndex

open Serializer

variable {σ V : Type}

/-- A call that a job makes. -/
structure Calling (σ V : Type) where
  /-- the move in which it begins -/
  begun : ℕ
  kind : JobKind
  script : Script σ V
  /-- the job goes on if the call panics -/
  catches : Bool
  /-- the job behind the call -/
  caller : Running σ V

/-- The job that is about to make the call. -/
def Calling.before (C : Calling σ V) : Running σ V :=
  { C.caller with
    frame :=
      { C.caller.frame with
        script := .call C.kind C.script C.catches :: C.caller.frame.script } }

namespace Run

variable (R : Run σ V) (C : Calling σ V)

/-- The owner begins the call, whatever has been asked of the serializer. -/
structure Enters : Prop where
  moves : R.moves C.begun = .owner
  before : (R.after C.begun).current = some C.before

/-- The frame in which the call begins. -/
def calleeFrame : Frame σ V :=
  { script := C.script, token := (R.after C.begun).newToken C.kind, isCaught := C.catches }

/-- What would happen behind the beginning of the call if its work was run as a job of its own, with
nobody underneath who could catch its panics. -/
def alone : ℕ → Serializer σ V
  | 0 => (R.after C.begun).goOn (C.caller.alone (R.calleeFrame C) [])
  | k + 1 => (alone k).move (R.moves (C.begun + 1 + k))

/-- Some moves behind its beginning, the owner is inside of the call: nothing is different from a
job of its own, but that the caller is underneath as it was left. -/
def Inside (k : ℕ) : Prop :=
  ∃ frame outer, (R.alone C k).current = some (C.caller.alone frame outer) ∧
    R.after (C.begun + 1 + k) = (R.alone C k).goOn (C.caller.inside frame outer)

/-- The work of the call ends in a move with which a job of its own would end, and like that. -/
def OwnWorkEnds (k : ℕ) (o : Outcome V) : Prop :=
  (R.alone C k).ending (R.moves (C.begun + 1 + k)) = some (C.caller.seq, o)

/-- A move ends the call. -/
inductive Over (k : ℕ) : Prop
  /-- it returns the result of its work; that is noted, and the caller goes on as it was left -/
  | returns {result : JobResult V} (own : R.OwnWorkEnds C k (.result result))
    (next : R.after (C.begun + 1 + (k + 1)) =
      ({ R.after (C.begun + 1 + k) with
        state := (R.alone C (k + 1)).state }.withNote (.called (.result result))).goOn C.caller)
  /-- its work panics, and the caller catches that, notes it and goes on as it was left -/
  | caught {p : Payload} (own : R.OwnWorkEnds C k (.panicked p)) (hc : C.catches = true)
    (next : R.after (C.begun + 1 + (k + 1)) =
      ((R.after (C.begun + 1 + k)).withNote (.called (.panicked p))).goOn C.caller)
  /-- its work panics, and so does the call around it that is the first to be caught -/
  | unwinds {p : Payload} {frame : Frame σ V} {outer : List (Frame σ V)}
    (own : R.OwnWorkEnds C k (.panicked p)) (hc : C.catches = false)
    (hcatch : catcher C.caller.frame C.caller.outer = some (frame, outer))
    (next : R.after (C.begun + 1 + (k + 1)) =
      ((R.after (C.begun + 1 + k)).withNote (.called (.panicked p))).goOn
        { C.caller with frame, outer })
  /-- its work panics, nothing in the job catches that, and the job fails with it -/
  | fails {p : Payload} (own : R.OwnWorkEnds C k (.panicked p)) (hc : C.catches = false)
    (hcatch : catcher C.caller.frame C.caller.outer = none)
    (settles : R.Settles (C.begun + 1 + k) C.caller.seq .failed)
    (work : C.caller.stage = .work →
      R.WorkEnds (C.begun + 1 + k) C.caller.seq (.panicked p))

/-- How many steps the owner has taken. -/
def advances (t : ℕ) : ℕ := Nat.count (fun u => (R.after u).takesStep (R.moves u)) t

theorem advances_succ (t : ℕ) :
    R.advances (t + 1) = R.advances t + ((R.after t).takesStep (R.moves t)).toNat := by
  rw [advances, Nat.count_succ, ← advances]
  cases (R.after t).takesStep (R.moves t) <;> rfl

variable {R C}

/-! ## In place -/

theorem inPlace_begun (h : R.Enters C) :
    InPlace C.caller C.catches (R.calleeFrame C) [] (R.alone C 0) (R.after (C.begun + 1)) := by
  have ha := R.alive_of_busy ⟨_, h.before, rfl⟩
  have hturn : (R.after C.begun).nextTurn C.before =
      .goesOn (R.after C.begun) (C.caller.inside (R.calleeFrame C) []) := rfl
  have hnext : R.after (C.begun + 1) =
      (R.after C.begun).goOn (C.caller.inside (R.calleeFrame C) []) := by
    rw [after, h.moves, move, ownerStep_of_busy ha h.before, advance, hturn]
    rfl
  rw [hnext]
  exact ⟨(Differ.refl _).goOn _ _, rfl, rfl, rfl⟩

theorem request_begun (h : R.Enters C) : R.request C.begun = none := by
  have ha := R.alive_of_busy ⟨_, h.before, rfl⟩
  rw [request, h.moves, requestOf_owner ha h.before]
  rfl

/-- The owner is inside of the call, in these frames, and has taken as many steps as there are fewer
left. -/
structure InFrames (R : Run σ V) (C : Calling σ V) (k : ℕ) (frame : Frame σ V)
    (outer : List (Frame σ V)) : Prop where
  place : InPlace C.caller C.catches frame outer (R.alone C k) (R.after (C.begun + 1 + k))
  steps : R.advances (C.begun + 1 + k) + framesWeight (frame :: outer) ≤
    R.advances (C.begun + 1) + scriptWeight C.script + 1

theorem InFrames.inside {k : ℕ} {frame : Frame σ V} {outer : List (Frame σ V)}
    (h : R.InFrames C k frame outer) : R.Inside C k :=
  ⟨frame, outer, h.place.alone, h.place.differ.eq_goOn h.place.inside⟩

theorem busy_of_inside {k : ℕ} (h : R.Inside C k) : R.Busy (C.begun + 1 + k) C.caller.seq := by
  obtain ⟨frame, outer, -, hafter⟩ := h
  rw [Busy, hafter]
  exact ⟨_, rfl, rfl⟩

theorem over_of_panics {k : ℕ} {frame : Frame σ V} {outer : List (Frame σ V)} {p : Payload}
    (h : R.InFrames C k frame outer) (own : R.OwnWorkEnds C k (.panicked p))
    (hm : R.moves (C.begun + 1 + k) = .owner)
    (turn : (R.after (C.begun + 1 + k)).nextTurn (C.caller.inside frame outer) =
      (R.after (C.begun + 1 + k)).resume C.caller C.catches p) : R.Over C k := by
  have hbusy := busy_of_inside h.inside
  have ha := R.alive_of_busy hbusy
  have hstep := ownerStep_of_busy ha h.place.inside
  have hnext : ∀ {s r}, (R.after (C.begun + 1 + k)).nextTurn (C.caller.inside frame outer) =
      .goesOn s r → R.after (C.begun + 1 + (k + 1)) = s.goOn r := by
    intro s r hturn
    rw [← Nat.add_assoc, after, hm, move, hstep, advance, hturn]
    rfl
  cases hc : C.catches with
  | true =>
    rw [hc] at turn
    exact .caught own hc (hnext turn)
  | false =>
    rw [hc] at turn
    cases hcatch : catcher C.caller.frame C.caller.outer with
    | some caught =>
      refine .unwinds own hc hcatch (hnext (turn.trans ?_))
      simp only [resume, raise, hcatch, Bool.false_eq_true, if_false]
    | none =>
      have hturn : (R.after (C.begun + 1 + k)).nextTurn (C.caller.inside frame outer) =
          .panics p := by
        rw [turn]
        simp only [resume, raise, hcatch, Bool.false_eq_true, if_false]
      have hends : R.Ends (C.begun + 1 + k) C.caller.seq := by
        refine ⟨hbusy, ?_⟩
        rw [after, hm, move, hstep, advance, hturn]
        exact current_unwind _ _ p
      refine .fails own hc hcatch (.failed hends (.inl ⟨_, p, h.place.inside, hturn⟩)) fun hg => ?_
      have hstage : (C.caller.inside frame outer).stage = .work := hg
      rw [WorkEnds, hm, ending_owner ha h.place.inside, outcome?, hstage, hturn]
      rfl

/-- Whatever happens next, the owner stays inside of the call, or the call is over. -/
theorem InFrames.succ {k : ℕ} {frame : Frame σ V} {outer : List (Frame σ V)}
    (h : R.InFrames C k frame outer) :
    (∃ frame' outer', R.InFrames C (k + 1) frame' outer') ∨ R.Over C k := by
  have ha := R.alive_of_busy (busy_of_inside h.inside)
  cases h.place.move ha (R.moves (C.begun + 1 + k)) with
  | goesOn frame' outer' hin less =>
    have hsteps := h.steps
    have hsucc := R.advances_succ (C.begun + 1 + k)
    refine .inl ⟨frame', outer', hin, ?_⟩
    rw [← Nat.add_assoc]
    omega
  | returns result own next => exact .inr (.returns own next)
  | panics own hm turn => exact .inr (over_of_panics h own hm turn)

/-- **A call is run in place until it is over.** -/
theorem inFrames_or_over (h : R.Enters C) (k : ℕ) :
    ((∀ i ≤ k, R.Inside C i) ∧ ∃ frame outer, R.InFrames C k frame outer) ∨
      ∃ e < k, (∀ i ≤ e, R.Inside C i) ∧ R.Over C e := by
  induction k with
  | zero =>
    have hin : R.InFrames C 0 _ [] :=
      ⟨inPlace_begun h, by simp only [framesWeight, calleeFrame, Nat.add_zero]; omega⟩
    refine .inl ⟨fun i hi => ?_, _, _, hin⟩
    obtain rfl : i = 0 := by omega
    exact hin.inside
  | succ k ih =>
    rcases ih with ⟨hinside, frame, outer, hin⟩ | ⟨e, he, hinside, hover⟩
    · rcases hin.succ with ⟨frame', outer', hin'⟩ | hover
      · refine .inl ⟨fun i hi => ?_, frame', outer', hin'⟩
        rcases Nat.le_succ_iff.mp hi with hi | rfl
        · exact hinside i hi
        · exact hin'.inside
      · exact .inr ⟨k, Nat.lt_succ_self k, hinside, hover⟩
    · exact .inr ⟨e, by omega, hinside, hover⟩

theorem course (h : R.Enters C) (k : ℕ) :
    (∀ i ≤ k, R.Inside C i) ∨ ∃ e < k, (∀ i ≤ e, R.Inside C i) ∧ R.Over C e :=
  (inFrames_or_over h k).imp_left And.left

theorem Over.own {k : ℕ} (h : R.Over C k) : ∃ o, R.OwnWorkEnds C k o := by
  cases h with
  | returns own | caught own | unwinds own | fails own => exact ⟨_, own⟩

theorem not_inside_of_over {k : ℕ} (h : R.Inside C k) (hover : R.Over C k) :
    ¬ R.Inside C (k + 1) := by
  rintro ⟨frame', outer', hnext, -⟩
  obtain ⟨frame, outer, hr, -⟩ := h
  obtain ⟨o, hown⟩ := hover.own
  cases progress_of_step (step_move (R.alone C k) (R.moves (C.begun + 1 + k))) hr with
  | goesOn he | returns he => cases he.symm.trans hown
  | callsBack he hg hd => cases hd
  | ends he hg hd hc => cases hc.symm.trans hnext

/-- **A call takes a bounded number of steps.** -/
theorem advances_le (h : R.Enters C) {k : ℕ} (hin : ∀ i ≤ k, R.Inside C i) :
    R.advances (C.begun + 1 + k) ≤ R.advances (C.begun + 1) + scriptWeight C.script := by
  rcases inFrames_or_over h k with ⟨-, frame, outer, hframes⟩ | ⟨e, he, hinside, hover⟩
  · have hsteps := hframes.steps
    rw [framesWeight] at hsteps
    omega
  · exact absurd (hin (e + 1) he) (not_inside_of_over (hinside e le_rfl) hover)

theorem heldUp_of_inside {k : ℕ} (h : R.Inside C k)
    (hr : (R.after (C.begun + 1 + k)).ownerStep = none) : ∃ frame outer,
      (R.after (C.begun + 1 + k)).current = some (C.caller.inside frame outer) ∧
        (R.after (C.begun + 1 + k)).HeldUp (C.caller.inside frame outer) := by
  have ha := R.alive_of_busy (busy_of_inside h)
  obtain ⟨frame, outer, -, hafter⟩ := h
  have hc : (R.after (C.begun + 1 + k)).current = some (C.caller.inside frame outer) := by
    rw [hafter]
    rfl
  exact ⟨frame, outer, hc, heldUp_of_rest ha hc hr⟩

/-! ## What is counted in the meantime -/

variable (R) in
/-- All that a move counts, and all numbers that it hands out, are for the submission that it
makes. -/
inductive Counted (t : ℕ) : Prop
  /-- nothing is submitted -/
  | nothing (hn : R.newJob t = none) (hr : R.isRefused t = false)
    (seq : (R.after (t + 1)).nextSeq = (R.after t).nextSeq)
    (counts : (R.after (t + 1)).counts = (R.after t).counts)
  /-- a job is accepted -/
  | accepts {j : Job σ V} (hn : R.newJob t = some j)
    (seq : j.seq = (R.after t).nextSeq ∧ (R.after (t + 1)).nextSeq = (R.after t).nextSeq + 1)
    (counts : (R.after (t + 1)).counts = (R.after t).counts.accepting)
  /-- a submission is refused -/
  | refuses (hr : R.isRefused t = true)
    (seq : (R.after (t + 1)).nextSeq = (R.after t).nextSeq)
    (counts : (R.after (t + 1)).counts = (R.after t).counts.plus .dropped)

theorem nextSeq_of_newJob {t : ℕ} (h : R.newJob t = none) :
    (R.after (t + 1)).nextSeq = (R.after t).nextSeq := by
  rw [← R.length_accepted, ← R.length_accepted, R.accepted_succ, h, Option.toList_none,
    List.append_nil]

theorem counted_of_busy {t n : ℕ} (h : R.Busy (t + 1) n) (hb : R.Busy t n) : R.Counted t := by
  obtain ⟨r, hr, -⟩ := hb
  obtain ⟨r', hr', -⟩ := h
  cases hn : R.newJob t with
  | some j => exact .accepts hn (R.seq_of_newJob hn) (counts_of_newJob hn)
  | none =>
    have hseq := nextSeq_of_newJob hn
    cases hf : R.isRefused t with
    | true => exact .refuses hf hseq (counts_of_isRefused hf)
    | false =>
      refine .nothing hn hf hseq (counts_of_quiet hn hf fun k e hs => ?_)
      rcases hs.over with ⟨j, hj, -⟩ | hends
      · cases (R.of_leaves hj.1).2.symm.trans hr
      · cases hends.2.symm.trans hr'

/-- **While the owner is inside of a call**, no job leaves the queue, and only submissions are
counted. -/
theorem quiet (h : R.Enters C) {k : ℕ} (hin : ∀ i ≤ k, R.Inside C i) {t : ℕ} (ht : C.begun ≤ t)
    (htk : t < C.begun + 1 + k) : (∀ j, ¬ R.Leaves t j) ∧ R.Counted t := by
  have hbusy : ∀ u, C.begun ≤ u → u ≤ C.begun + 1 + k → R.Busy u C.caller.seq := by
    intro u hu huk
    by_cases hfirst : u = C.begun
    · subst hfirst
      exact ⟨_, h.before, rfl⟩
    · obtain ⟨i, rfl⟩ := Nat.exists_eq_add_of_le (show C.begun + 1 ≤ u by omega)
      exact busy_of_inside (hin i (by omega))
  refine ⟨fun j hj => ?_,
    counted_of_busy (hbusy (t + 1) (by omega) htk) (hbusy t ht htk.le)⟩
  obtain ⟨r, hr, -⟩ := hbusy t ht htk.le
  cases (R.of_leaves hj).2.symm.trans hr

/-- If nothing is submitted in the meantime, everything is counted as before the call. -/
theorem unchanged (h : R.Enters C) {k : ℕ} (hin : ∀ i ≤ k, R.Inside C i)
    (hquiet : ∀ t, C.begun ≤ t → t < C.begun + 1 + k →
      R.newJob t = none ∧ R.isRefused t = false) :
    (R.after (C.begun + 1 + k)).nextSeq = (R.after C.begun).nextSeq ∧
      (R.after (C.begun + 1 + k)).counts = (R.after C.begun).counts := by
  have hsame : ∀ t, C.begun ≤ t → t ≤ C.begun + 1 + k →
      (R.after t).nextSeq = (R.after C.begun).nextSeq ∧
        (R.after t).counts = (R.after C.begun).counts := by
    intro t ht
    induction ht with
    | refl => exact fun _ => ⟨rfl, rfl⟩
    | @step t ht ih =>
      intro htk
      obtain ⟨hseq, hcounts⟩ := ih (by omega)
      obtain ⟨hn, hr⟩ := hquiet t ht htk
      cases (quiet h hin ht htk).2 with
      | nothing _ _ seq counts => exact ⟨seq.trans hseq, counts.trans hcounts⟩
      | accepts hj => cases hn.symm.trans hj
      | refuses hf => cases hr.symm.trans hf
  exact hsame _ (by omega) le_rfl

/-! ## What is submitted in the meantime -/

theorem lt_of_leaves {t u : ℕ} {j : Job σ V} (hj : R.newJob t = some j) (hu : R.Leaves u j) :
    t < u := by
  have hseq := (R.seq_of_newJob hj).1
  by_contra hle
  have hlt := R.seq_lt_of_mem_accepted (R.mem_accepted_of_leaves hu)
  have hmono := R.nextSeq_mono (show u ≤ t by omega)
  omega

theorem waits_of_busy {t u n : ℕ} {j : Job σ V} (hb : R.Busy t n) (hj : R.newJob t = some j)
    (hu : R.Leaves u j) : ∃ e, t ≤ e ∧ e < u ∧ R.Ends e n :=
  R.exists_ends hb (R.of_leaves hu).2 (lt_of_leaves hj hu).le

theorem seq_lt_of_newJob {t u : ℕ} {j k : Job σ V} (htu : t < u) (hj : R.newJob t = some j)
    (hk : R.newJob u = some k) : j.seq < k.seq := by
  have hmono := R.nextSeq_mono (show t + 1 ≤ u from htu)
  have hj := R.seq_of_newJob hj
  have hk := R.seq_of_newJob hk
  omega

/-! ## Calls from inside -/

variable (R) in
/-- Calls from inside are run in place. -/
structure Reenters : Prop where
  /-- the owner is inside of the call from its beginning on, until it is over -/
  course : ∀ C, R.Enters C → ∀ k,
    (∀ i ≤ k, R.Inside C i) ∨ ∃ e < k, (∀ i ≤ e, R.Inside C i) ∧ R.Over C e
  /-- and then it is over for good -/
  once : ∀ C k, R.Inside C k → R.Over C k → ¬ R.Inside C (k + 1)
  /-- that takes as many steps of the owner as the work may lead to, at most -/
  steps : ∀ C, R.Enters C → ∀ k, (∀ i ≤ k, R.Inside C i) →
    R.advances (C.begun + 1 + k) ≤ R.advances (C.begun + 1) + scriptWeight C.script
  /-- and the owner can take them, unless the work waits at a gate or for an interrupt -/
  heldUp : ∀ C k, R.Inside C k → (R.after (C.begun + 1 + k)).ownerStep = none →
    ∃ frame outer, (R.after (C.begun + 1 + k)).current = some (C.caller.inside frame outer) ∧
      (R.after (C.begun + 1 + k)).HeldUp (C.caller.inside frame outer)
  /-- the call itself asks nothing of the serializer -/
  begins : ∀ C, R.Enters C → R.request C.begun = none
  /-- until it is over, no job leaves the queue, and only what is submitted in the meantime is
  counted and given a number -/
  quiet : ∀ C, R.Enters C → ∀ k, (∀ i ≤ k, R.Inside C i) → ∀ t, C.begun ≤ t →
    t < C.begun + 1 + k → (∀ j, ¬ R.Leaves t j) ∧ R.Counted t
  /-- so nothing is counted if nothing is submitted -/
  unchanged : ∀ C, R.Enters C → ∀ k, (∀ i ≤ k, R.Inside C i) →
    (∀ t, C.begun ≤ t → t < C.begun + 1 + k → R.newJob t = none ∧ R.isRefused t = false) →
    (R.after (C.begun + 1 + k)).nextSeq = (R.after C.begun).nextSeq ∧
      (R.after (C.begun + 1 + k)).counts = (R.after C.begun).counts
  /-- what is submitted while a job is being run waits until the whole job is over -/
  waits : ∀ t n j, R.Busy t n → R.newJob t = some j → ∀ u, R.Leaves u j →
    ∃ e, t ≤ e ∧ e < u ∧ R.Ends e n
  /-- and then it is run in the order in which it was submitted, one job after the other -/
  inOrder : ∀ t u j k, t < u → R.newJob t = some j → R.newJob u = some k → ∀ v w,
    R.Leaves v j → R.Leaves w k → v < w ∧ (R.Starts v j → ∃ e, v < e ∧ e < w ∧ R.Ends e j.seq)
  /-- which is done when the owner has nothing left to do -/
  done : ∀ t j, R.newJob t = some j → ∀ u, t < u → (R.after u).ownerStep = none →
    (R.after u).current = none → (R.after u).owner ≠ .unborn →
    (∃ v < u, R.Drops v j) ∨ ∃ v e, v < e ∧ e < u ∧ R.Starts v j ∧ R.Ends e j.seq

/-- **Calls from inside are run in place**, and what they submit waits until the whole job is
over. -/
theorem reenters (R : Run σ V) : R.Reenters where
  course _ := Run.course
  once _ _ := not_inside_of_over
  steps _ h _ := advances_le h
  heldUp _ _ := heldUp_of_inside
  begins _ := request_begun
  quiet _ h _ hin _ := Run.quiet h hin
  unchanged _ h _ := Run.unchanged h
  waits _ _ _ hb hj _ := waits_of_busy hb hj
  inOrder _ _ _ _ htu hj hk _ _ hv hw := R.leaves_before hv hw (seq_lt_of_newJob htu hj hk)
  done _ _ hj _ htu hr hc hb := R.done_of_rest hr hc hb (R.mem_accepted_of_newJob hj htu)

/-- A job calls for work that leaves another job behind, and returns to the note it wants to make
then. -/
def submittingRun : Run Unit ℕ where
  name := "index"
  background := true
  state := ()
  moves
    | 0 => .start
    | 1 => .submit .uninterruptible
        [.call .uninterruptible [.submit .uninterruptible [.note 2]] false, .note 1]
    | _ => .owner

/-- The call is the first thing that the job does. -/
def submittingCall : Calling Unit ℕ where
  begun := 3
  kind := .uninterruptible
  script := [.submit .uninterruptible [.note 2]]
  catches := false
  caller :=
    { seq := 0, delivery := .discard, frame := { script := [.note 1], token := none } }

/-- Numbers are handed out inside of calls, if that is what their work asks for. -/
theorem not_unchanged_submittingRun :
    ¬ ∀ (R : Run Unit ℕ) (C : Calling Unit ℕ) (k : ℕ), R.Enters C → (∀ i ≤ k, R.Inside C i) →
      (R.after (C.begun + 1 + k)).nextSeq = (R.after C.begun).nextSeq ∧
        (R.after (C.begun + 1 + k)).counts = (R.after C.begun).counts := by
  intro h
  have henters : submittingRun.Enters submittingCall := ⟨rfl, rfl⟩
  have hinside : ∀ i ≤ 1, submittingRun.Inside submittingCall i := by
    intro i hi
    match i with
    | 0 | 1 => exact ⟨_, [], rfl, rfl⟩
  have hsame := (h submittingRun submittingCall 1 henters hinside).1
  exact absurd hsame (by decide)

example : (submittingRun.after 12).log =
    [.submitted (some 1), .called (.result (.ok none)), .value 1, .value 2] ∧
      (submittingRun.after 12).counts = ⟨2, 2, 0, 0⟩ :=
  ⟨rfl, rfl⟩

end Run

end SymbolIndex
