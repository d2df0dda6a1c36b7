import SymbolIndex.Proofs.Serializer.Abreast
import SymbolIndex.Proofs.Serializer.Rest

/-!
# Inside of a call

A call that a job makes is run above the job, which stays as it is underneath. What happens inside
of the call is what would happen in a job of its own, and the owner gets to the end of it unless it
is held up.

* `HeldUp`, `heldUp_of_rest`: an owner that is busy only rests at a gate or for an interrupt;
* `runningWeight_lt_of_nextTurn`: every turn leaves less to do;
* `Running.alone`, `Running.inside`: frames in a job of their own, and inside of a call;
* `InPlace`, `InPlace.advance`: both take the same turns;
* `Onwards`, `InPlace.move`: both take the same moves, until the call ends.
-/

namespace SymbolIndex

variable {σ V : Type}

/-- The frames as a job of its own, under the number of the job. -/
def Running.alone (c : Running σ V) (frame : Frame σ V) (outer : List (Frame σ V)) :
    Running σ V :=
  { seq := c.seq, delivery := .reply, frame, outer }

/-- The job inside of a call that it has made, in these frames. -/
def Running.inside (c : Running σ V) (frame : Frame σ V) (outer : List (Frame σ V)) :
    Running σ V :=
  { c with frame, outer := outer ++ c.frame :: c.outer }

namespace Serializer

/-! ## What is left to do -/

/-- The job waits at a gate, or for an interrupt. -/
def HeldUp (s : Serializer σ V) (r : Running σ V) : Prop :=
  ∃ rest, r.frame.script = .gate :: rest ∨
    r.frame.script = .awaitInterrupt :: rest ∧ s.isInterrupted r.frame.token = false

theorem heldUp_of_waits {s : Serializer σ V} {r : Running σ V} (h : s.nextTurn r = .waits) :
    s.HeldUp r := by
  unfold nextTurn at h
  cases hr : r.frame.script with
  | nil => rw [hr] at h; cases h
  | cons a rest =>
    rw [hr] at h
    refine ⟨rest, ?_⟩
    cases a with
    | gate => exact .inl hr
    | awaitInterrupt =>
      simp only [act] at h
      split at h
      · cases h
      · next hi => exact .inr ⟨hr, Bool.eq_false_iff.mpr hi⟩
    | perform work | check =>
      simp only [act] at h
      split at h <;> cases h
    | panic p =>
      simp only [act, raise] at h
      split at h <;> cases h
    | _ => cases h

theorem heldUp_of_rest {s : Serializer σ V} {r : Running σ V} (ha : s.owner = .alive)
    (hr : s.current = some r) (h : s.ownerStep = none) : s.HeldUp r := by
  rw [ownerStep_of_busy ha hr, advance] at h
  refine heldUp_of_waits ?_
  cases ht : s.nextTurn r <;> rw [ht] at h <;> first | rfl | cases h

theorem runningWeight_lt_of_nextTurn {s s' : Serializer σ V} {r r' : Running σ V}
    (h : s.nextTurn r = .goesOn s' r') : runningWeight r' < runningWeight r := by
  unfold nextTurn at h
  cases hs : r.frame.script with
  | nil => rw [hs] at h; cases h
  | cons a rest =>
    rw [hs] at h
    have hr : runningWeight r =
        runningWeight { r with frame := { r.frame with script := rest } } + actionWeight a := by
      simp only [runningWeight, framesWeight, hs, scriptWeight]
      omega
    by_cases ha : ∃ kind script catches, a = .call kind script catches
    · obtain ⟨kind, script, catches, rfl⟩ := ha
      obtain ⟨-, rfl⟩ := Turn.goesOn.inj h
      simp only [actionWeight, runningWeight, framesWeight] at hr ⊢
      omega
    · have hpos := actionWeight_pos a
      have hless :=
        runningWeight_act (fun kind script catches he => ha ⟨kind, script, catches, he⟩) h
      omega

theorem runningWeight_alone (c : Running σ V) (frame : Frame σ V) (outer : List (Frame σ V)) :
    runningWeight (c.alone frame outer) = framesWeight (frame :: outer) := rfl

/-- The owner takes a step in a move. -/
def takesStep (s : Serializer σ V) : Move σ V → Bool
  | .owner => s.ownerStep.isSome
  | _ => false

/-! ## Turns inside of a call -/

/-- The owners are in the same frames: that of `s` runs them as a job of its own, that of `s'`
inside of a call that `c` has made, and that it catches the panics of or not. Nothing else
differs. -/
structure InPlace (c : Running σ V) (catches : Bool) (frame : Frame σ V) (outer : List (Frame σ V))
    (s s' : Serializer σ V) : Prop where
  differ : Differ {} s s'
  alone : s.current = some (c.alone frame outer)
  inside : s'.current = some (c.inside frame outer)
  /-- the outermost of the frames is that of the call -/
  bottom : (outer.getLastD frame).isCaught = catches

/-- The job goes on behind a call that has panicked if it catches that, and panics if it does
not. -/
def resume (s : Serializer σ V) (c : Running σ V) (catches : Bool) (p : Payload) : Turn σ V :=
  if catches then .goesOn (s.withNote (.called (.panicked p))) c else s.raise c p

/-- Both go on in the same frames, or the call has ended. -/
inductive Onwards (c : Running σ V) (catches : Bool) (frame : Frame σ V) (outer : List (Frame σ V))
    (m : Move σ V) (s s' : Serializer σ V) : Prop
  /-- they go on, and there is less left to do if they have taken a step -/
  | goesOn (frame' : Frame σ V) (outer' : List (Frame σ V))
    (h : InPlace c catches frame' outer' (s.move m) (s'.move m))
    (less : framesWeight (frame' :: outer') + (s'.takesStep m).toNat ≤
      framesWeight (frame :: outer))
  /-- the job of its own has ended with a result; the call returns it, and `c` goes on -/
  | returns (result : JobResult V) (own : s.ending m = some (c.seq, .result result))
    (next : s'.move m =
      ({ s' with state := (s.move m).state }.withNote (.called (.result result))).goOn c)
  /-- the job of its own has panicked, and that is resumed where the call was made -/
  | panics {p : Payload} (own : s.ending m = some (c.seq, .panicked p)) (hm : m = .owner)
    (turn : s'.nextTurn (c.inside frame outer) = s'.resume c catches p)

variable {c : Running σ V} {catches : Bool} {frame : Frame σ V} {outer : List (Frame σ V)}
  {s s' : Serializer σ V}

theorem Differ.eq_goOn {r : Running σ V} (h : Differ {} s s') (hr : s'.current = some r) :
    s' = s.goOn r := by
  cases h with
  | intro hq hc hreplies hl =>
    obtain rfl := hq.eq
    obtain rfl := hreplies.eq
    obtain rfl := hl.eq
    obtain rfl : _ = s.counts := hc
    subst hr
    rfl

/-! ### Panics -/

/-- A panic that is caught in a job of its own is caught there inside of the call, too. -/
theorem catcher_inside {frame' : Frame σ V} {outer' : List (Frame σ V)}
    (h : catcher frame outer = some (frame', outer')) (below : List (Frame σ V)) :
    catcher frame (outer ++ below) = some (frame', outer' ++ below) ∧
      outer'.getLastD frame' = outer.getLastD frame := by
  induction outer generalizing frame with
  | nil => cases h
  | cons caller outer ih =>
    rw [List.getLastD_cons, List.cons_append]
    cases hf : frame.isCaught with
    | true =>
      rw [catcher_of_caught hf] at h ⊢
      obtain ⟨rfl, rfl⟩ := Prod.mk.inj (Option.some.inj h)
      exact ⟨rfl, rfl⟩
    | false =>
      rw [catcher_of_not_caught hf] at h ⊢
      exact ih h

theorem catcher_inside_of_none (h : catcher frame outer = none) (caller : Frame σ V)
    (below : List (Frame σ V)) :
    catcher frame (outer ++ caller :: below) =
      if (outer.getLastD frame).isCaught then some (caller, below) else catcher caller below := by
  induction outer generalizing frame with
  | nil => rfl
  | cons caller' outer ih =>
    rw [List.getLastD_cons, List.cons_append]
    cases hf : frame.isCaught with
    | true => rw [catcher_of_caught hf] at h; cases h
    | false =>
      rw [catcher_of_not_caught hf] at h ⊢
      exact ih h

theorem raise_inside (h : catcher frame outer = none) (s : Serializer σ V) (p : Payload) :
    s.raise (c.inside frame outer) p = s.resume c (outer.getLastD frame).isCaught p := by
  have hc : catcher (c.inside frame outer).frame (c.inside frame outer).outer = _ :=
    catcher_inside_of_none h c.frame c.outer
  rw [raise, hc, resume]
  cases (outer.getLastD frame).isCaught <;> rfl

theorem of_act_panics {r : Running σ V} {a : Action σ V} {p : Payload}
    (h : s.act r a = .panics p) : a = .panic p ∧ catcher r.frame r.outer = none := by
  cases a with
  | panic p' =>
    simp only [act, raise] at h
    split at h
    · cases h
    · next hc => exact ⟨congrArg Action.panic (Turn.panics.inj h), hc⟩
  | perform work | check | awaitInterrupt =>
    simp only [act] at h
    split at h <;> cases h
  | _ => cases h

/-! ### The same turns -/

/-- A turn does to the frames what it does, whatever is underneath. -/
theorem exists_changed (c : Running σ V) (frame : Frame σ V) (outer : List (Frame σ V))
    (change : Change σ V) (hc : change = .unwinds → (catcher frame outer).isSome) :
    ∃ frame' outer', changed (c.alone frame outer) change = c.alone frame' outer' ∧
      changed (c.inside frame outer) change = c.inside frame' outer' ∧
      (outer'.getLastD frame').isCaught = (outer.getLastD frame).isCaught := by
  cases change with
  | keeps => exact ⟨frame, outer, rfl, rfl, rfl⟩
  | answers v =>
    refine ⟨{ frame with value := some v }, outer, rfl, rfl, ?_⟩
    cases outer <;> rfl
  | calls callee => exact ⟨callee, frame :: outer, rfl, rfl, by rw [List.getLastD_cons]⟩
  | unwinds =>
    obtain ⟨⟨frame', outer'⟩, hcatch⟩ := Option.isSome_iff_exists.mp (hc rfl)
    obtain ⟨hinside, hbottom⟩ := catcher_inside hcatch (c.frame :: c.outer)
    have halone : catcher (c.alone frame outer).frame (c.alone frame outer).outer = _ := hcatch
    have hinside : catcher (c.inside frame outer).frame (c.inside frame outer).outer = _ := hinside
    refine ⟨frame', outer', ?_, ?_, congrArg Frame.isCaught hbottom⟩
    · rw [changed_unwinds halone]
      rfl
    · rw [changed_unwinds hinside]
      rfl

theorem InPlace.bottom_rest (h : InPlace c catches frame outer s s') (rest : Script σ V) :
    (outer.getLastD { frame with script := rest }).isCaught = catches := by
  rw [← h.bottom]
  cases outer <;> rfl

/-- If the job of its own panics, this is resumed where the call was made. -/
theorem InPlace.nextTurn_of_panics (h : InPlace c catches frame outer s s') {p : Payload}
    (ht : s.nextTurn (c.alone frame outer) = .panics p) :
    s'.nextTurn (c.inside frame outer) = s'.resume c catches p := by
  have halone : (c.alone frame outer).frame = frame := rfl
  have hinside : (c.inside frame outer).frame = frame := rfl
  unfold nextTurn at ht ⊢
  rw [halone] at ht
  rw [hinside]
  cases hs : frame.script with
  | nil => rw [hs] at ht; cases ht
  | cons a rest =>
    rw [hs] at ht
    obtain ⟨rfl, hnone⟩ := of_act_panics ht
    rw [← h.bottom_rest rest]
    exact raise_inside hnone s' p

theorem InPlace.turnsAlike (h : InPlace c catches frame outer s s')
    (ht : ∀ p, s.nextTurn (c.alone frame outer) ≠ .panics p) :
    ∃ frame₁ : Frame σ V, (outer.getLastD frame₁).isCaught = catches ∧
      TurnsAlike {} (c.alone frame₁ outer) (c.inside frame₁ outer)
        (s.nextTurn (c.alone frame outer)) (s'.nextTurn (c.inside frame outer)) := by
  have halone : (c.alone frame outer).frame = frame := rfl
  have hinside : (c.inside frame outer).frame = frame := rfl
  unfold nextTurn at ht ⊢
  rw [halone] at ht ⊢
  rw [hinside]
  cases hs : frame.script with
  | nil => exact ⟨frame, h.bottom, .ends h.differ _⟩
  | cons a rest =>
    rw [hs] at ht
    let frame₁ : Frame σ V := { frame with script := rest }
    have htoken : (c.inside frame₁ outer).frame.token = (c.alone frame₁ outer).frame.token := rfl
    refine ⟨frame₁, h.bottom_rest rest, differ_act h.differ htoken a ?_⟩
    rintro p rfl
    cases hc : catcher frame₁ outer with
    | none =>
      have hraise : s.raise (c.alone frame₁ outer) p = .panics p := by
        have hcatch : catcher (c.alone frame₁ outer).frame (c.alone frame₁ outer).outer = none := hc
        rw [raise, hcatch]
      exact absurd hraise (ht p)
    | some caught =>
      have hcatch := (catcher_inside hc (c.frame :: c.outer)).1
      exact (congrArg Option.isSome hcatch).trans (congrArg Option.isSome hc).symm

theorem takesStep_of_rest {m : Move σ V} (h : m = .owner → s.ownerStep = none) :
    s.takesStep m = false := by
  cases m with
  | owner => rw [takesStep, h rfl]; rfl
  | _ => rfl

theorem toNat_takesStep_le (s : Serializer σ V) (m : Move σ V) : (s.takesStep m).toNat ≤ 1 :=
  Bool.toNat_le _

/-- The innermost script ends, and the call with it if that is its own script. -/
theorem InPlace.finishFrame {s₁ s₁' : Serializer σ V} {result : JobResult V}
    (h : InPlace c catches frame outer s s') (ha : s'.owner = .alive)
    (ht : s.nextTurn (c.alone frame outer) = .ends s₁ result)
    (ht' : s'.nextTurn (c.inside frame outer) = .ends s₁' result) (hd : Differ {} s₁ s₁') :
    Onwards c catches frame outer .owner s s' := by
  have hown := h.differ.owner ▸ ha
  have hmove : s.move .owner = s₁.finishFrame (c.alone frame outer) result := by
    rw [Serializer.move, ownerStep_of_busy hown h.alone, advance, ht]
    rfl
  have hmove' : s'.move .owner = s₁'.finishFrame (c.inside frame outer) result := by
    rw [Serializer.move, ownerStep_of_busy ha h.inside, advance, ht']
    rfl
  cases outer with
  | cons frame' outer' =>
    have hbottom := h.bottom
    rw [List.getLastD_cons] at hbottom
    refine .goesOn frame' outer' ⟨?_, ?_, ?_, hbottom⟩ ?_
    · rw [hmove, hmove']
      exact (hd.withNote (.called _) rfl).goOn _ _
    · rw [hmove]
      rfl
    · rw [hmove']
      rfl
    · have := toNat_takesStep_le s' .owner
      simp only [framesWeight]
      omega
  | nil =>
    refine .returns result ?_ ?_
    · rw [ending_owner hown h.alone, outcome?, ht]
      rfl
    · have hstate : (s.move .owner).state = s₁'.state := by
        rw [hmove, hd.state]
        rfl
      rw [hmove', hstate, nextTurn_of_ends ht']
      rfl

theorem InPlace.advance (h : InPlace c catches frame outer s s') (ha : s'.owner = .alive) :
    Onwards c catches frame outer .owner s s' := by
  have hown := h.differ.owner ▸ ha
  have hstep := ownerStep_of_busy hown h.alone
  have hstep' := ownerStep_of_busy ha h.inside
  have htakes := toNat_takesStep_le s' .owner
  by_cases hp : ∃ p, s.nextTurn (c.alone frame outer) = .panics p
  · obtain ⟨p, ht⟩ := hp
    refine .panics (p := p) ?_ rfl (h.nextTurn_of_panics ht)
    rw [ending_owner hown h.alone, outcome?, ht]
    rfl
  obtain ⟨frame₁, hbottom, hturn⟩ := h.turnsAlike (not_exists.mp hp)
  generalize ht : s.nextTurn (c.alone frame outer) = turn at hturn
  generalize ht' : s'.nextTurn (c.inside frame outer) = turn' at hturn
  cases hturn with
  | waits =>
    have hrest : s.ownerStep = none := by rw [hstep, Serializer.advance, ht]
    have hrest' : s'.ownerStep = none := by rw [hstep', Serializer.advance, ht']
    refine .goesOn frame outer ?_ ?_
    · rwa [move_of_rest hrest, move_of_rest hrest']
    · rw [takesStep_of_rest fun _ => hrest']
      exact le_rfl
  | goesOn hd change hc =>
    obtain ⟨frame', outer', hown', hinside', hbottom'⟩ := exists_changed c frame₁ outer change hc
    rw [hown'] at ht
    rw [hinside'] at ht'
    have hless := runningWeight_lt_of_nextTurn ht
    rw [runningWeight_alone, runningWeight_alone] at hless
    refine .goesOn frame' outer' ⟨?_, ?_, ?_, hbottom'.trans hbottom⟩ (by omega)
    · rw [Serializer.move, Serializer.move, hstep, hstep', Serializer.advance, Serializer.advance,
        ht, ht']
      exact hd.goOn _ _
    · rw [Serializer.move, hstep, Serializer.advance, ht]
      rfl
    · rw [Serializer.move, hstep', Serializer.advance, ht']
      rfl
  | ends hd result => exact h.finishFrame ha ht ht' hd
  | panics p => exact absurd ⟨p, ht⟩ hp

theorem InPlace.release (h : InPlace c catches frame outer s s') : ∃ frame',
    InPlace c catches frame' outer s.release s'.release ∧
      framesWeight (frame' :: outer) ≤ framesWeight (frame :: outer) := by
  by_cases hg : ∃ rest, frame.script = .gate :: rest
  · obtain ⟨rest, hs⟩ := hg
    rw [release_of_gate h.alone hs, release_of_gate h.inside hs]
    refine ⟨{ frame with script := rest }, ⟨h.differ.goOn _ _, rfl, rfl, h.bottom_rest rest⟩, ?_⟩
    simp only [framesWeight, hs, scriptWeight]
    omega
  · have hne : ∀ rest, frame.script ≠ .gate :: rest := fun rest hs => hg ⟨rest, hs⟩
    rw [release_of_ne_gate h.alone hne, release_of_ne_gate h.inside hne]
    exact ⟨frame, h, le_rfl⟩

/-- **Whatever happens, both stay in the same frames until the call ends.** -/
theorem InPlace.move (h : InPlace c catches frame outer s s') (ha : s'.owner = .alive) (m : Move σ V) :
    Onwards c catches frame outer m s s' := by
  by_cases hm : m = .owner
  · subst hm
    exact h.advance ha
  · have hstill : s'.takesStep m = false := takesStep_of_rest fun ho => absurd ho hm
    by_cases hr : m = .release
    · subst hr
      obtain ⟨frame', hin, hless⟩ := h.release
      exact .goesOn _ _ hin (by rw [hstill]; exact hless)
    · refine .goesOn frame outer ⟨h.differ.move hm hr, ?_, ?_, h.bottom⟩ ?_
      · rw [current_move hm hr, h.alone]
      · rw [current_move hm hr, h.inside]
      · rw [hstill]
        exact le_rfl

end Serializer

end SymbolIndex
