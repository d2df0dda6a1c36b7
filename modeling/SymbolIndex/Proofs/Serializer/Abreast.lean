import SymbolIndex.Proofs.Serializer.Finales

/-!
# Jobs abreast

Two jobs that do the same until they come to different ends stay abreast: they take the same turns
until their actions are done, or until one of these ends both jobs alike.

* `Abreast`: jobs at the same place of the same actions;
* `Onward`, `onward_begin`, `onward_move`: what becomes of both in one move.
-/

namespace SymbolIndex.Serializer

variable {σ V : Type}

/-- The job, in both of its forms at the same place of the same actions. -/
inductive Abreast (x y : Finale V) (seq : ℕ) (who : Receiver V) : Running σ V → Running σ V → Prop
  /-- in its own script -/
  | last (rest : Script σ V) (value : Option V) (token : Token) :
    Abreast x y seq who
      { seq, delivery := x.delivery who
        frame := { script := rest ++ x.work.script, value, token } }
      { seq, delivery := y.delivery who
        frame := { script := rest ++ y.work.script, value, token } }
  /-- in a call inside of it -/
  | inner {r r' : Running σ V} (h : Abreast x y seq who r r') (frame : Frame σ V) :
    Abreast x y seq who
      { r with frame, outer := r.frame :: r.outer } { r' with frame, outer := r'.frame :: r'.outer }

/-- What becomes of the job in both of its forms. -/
inductive Onward (x y : Finale V) (seq : ℕ) (who : Receiver V) (s s' : Serializer σ V) : Prop
  /-- it goes on -/
  | abreast {r r' : Running σ V} (h : Differ {} s s') (hr : s.current = some r)
    (hr' : s'.current = some r') (hab : Abreast x y seq who r r')
  /-- one of its actions has ended it, and its callback is told -/
  | callsBack (h : Differ {} s s') (hr : s.current = some (x.callsBack seq who false))
    (hr' : s'.current = some (y.callsBack seq who false))
  /-- one of its actions has ended it -/
  | ended (h : Twins {} s s') (hc : s.current = none)

variable {s s' : Serializer σ V} {x y : Finale V} {seq : ℕ} {who : Receiver V} {r r' : Running σ V}

theorem Abreast.seq_eq (h : Abreast x y seq who r r') : r.seq = seq ∧ r'.seq = seq := by
  induction h with
  | last => exact ⟨rfl, rfl⟩
  | inner h frame ih => exact ih

theorem Abreast.stage (h : Abreast x y seq who r r') : r.stage = .work ∧ r'.stage = .work := by
  induction h with
  | last => exact ⟨rfl, rfl⟩
  | inner h frame ih => exact ih

theorem Abreast.delivery (h : Abreast x y seq who r r') :
    r.delivery = x.delivery who ∧ r'.delivery = y.delivery who := by
  induction h with
  | last => exact ⟨rfl, rfl⟩
  | inner h frame ih => exact ih

theorem Abreast.token (h : Abreast x y seq who r r') : r'.frame.token = r.frame.token := by
  cases h <;> rfl

theorem Abreast.catcher (h : Abreast x y seq who r r') :
    (catcher r'.frame r'.outer).isSome = (catcher r.frame r.outer).isSome := by
  induction h with
  | last => rfl
  | inner h frame ih =>
    unfold Serializer.catcher
    split
    · rfl
    · exact ih

theorem Abreast.starts {value : Option V} {token : Token} (h : Abreast x y seq who r r')
    (hr : r = x.starts seq who value token) : r' = y.starts seq who value token := by
  cases h with
  | inner h frame => cases congrArg Running.outer hr
  | last rest value' token' =>
    simp only [Finale.starts, Running.mk.injEq, Frame.mk.injEq, true_and, and_true,
      List.append_left_eq_self] at hr
    obtain ⟨rfl, rfl, rfl⟩ := hr
    rfl

theorem catcher_of_caught {frame : Frame σ V} (h : frame.isCaught = true) (caller : Frame σ V)
    (outer : List (Frame σ V)) : catcher frame (caller :: outer) = some (caller, outer) := by
  rw [catcher, if_pos h]

theorem catcher_of_not_caught {frame : Frame σ V} (h : frame.isCaught = false) (caller : Frame σ V)
    (outer : List (Frame σ V)) : catcher frame (caller :: outer) = catcher caller outer := by
  rw [catcher, h]
  rfl

theorem Abreast.unwinds (h : Abreast x y seq who r r') :
    Abreast x y seq who (Serializer.changed r .unwinds) (Serializer.changed r' .unwinds) := by
  induction h with
  | last rest value token => exact .last rest value token
  | @inner r r' h frame ih =>
    cases hf : frame.isCaught with
    | true =>
      rw [changed_unwinds (catcher_of_caught hf _ _), changed_unwinds (catcher_of_caught hf _ _)]
      exact h
    | false =>
      have hr := catcher_of_not_caught hf r.frame r.outer
      have hr' := catcher_of_not_caught hf r'.frame r'.outer
      have hcatch := h.catcher
      cases hc : Serializer.catcher r.frame r.outer <;>
        cases hc' : Serializer.catcher r'.frame r'.outer <;> rw [hc, hc'] at hcatch
      case none.none =>
        rw [changed_unwinds_of_none (hr.trans hc), changed_unwinds_of_none (hr'.trans hc')]
        exact .inner h frame
      case some.some caught caught' =>
        rw [changed_unwinds hc, changed_unwinds hc'] at ih
        rw [changed_unwinds (hr.trans hc), changed_unwinds (hr'.trans hc')]
        exact ih
      all_goals cases hcatch

theorem Abreast.changed (h : Abreast x y seq who r r') (c : Change σ V) :
    Abreast x y seq who (changed r c) (changed r' c) := by
  cases c with
  | keeps => exact h
  | answers v =>
    cases h with
    | last rest value token => exact .last rest (some v) token
    | inner h frame => exact .inner h _
  | calls frame => exact .inner h _
  | unwinds => exact h.unwinds

theorem exists_error_of_ends {a : Action σ V} {result : JobResult V}
    (h : s.act r a = .ends s' result) : ∃ e, result = .error e := by
  cases a with
  | perform work | check =>
    simp only [act] at h
    split at h <;> simp only [Turn.ends.injEq, reduceCtorEq] at h
    exact ⟨_, h.2.symm⟩
  | fail e => exact ⟨e, (Turn.ends.inj h).2.symm⟩
  | awaitInterrupt =>
    simp only [act] at h
    split at h <;> cases h
  | panic p =>
    simp only [act, raise] at h
    split at h <;> cases h
  | _ => cases h

/-! ## Turns -/

theorem onward_finish (h : Differ {} s s') (hab : Abreast x y seq who r r') (e : Error) :
    Onward x y seq who (s.finishFrame r (.error e)) (s'.finishFrame r' (.error e)) := by
  cases hab with
  | inner hab frame => exact .abreast ((h.withNote (.called _) rfl).goOn _ _) rfl rfl hab
  | last rest value token =>
    cases who with
    | nobody => exact .ended ⟨h.countEnd false, rfl⟩ rfl
    | caller => exact .ended ⟨(h.withReply _ _).countEnd false, rfl⟩ rfl
    | callback tag => exact .callsBack ((h.withNote (.callback _ _) rfl).goOn _ _) rfl rfl

theorem onward_unwind (h : Differ {} s s') (hab : Abreast x y seq who r r') (p : Payload) :
    Onward x y seq who (s.unwind r p) (s'.unwind r' p) := by
  unfold unwind
  rw [hab.stage.1, hab.stage.2, hab.delivery.1, hab.delivery.2, hab.seq_eq.1, hab.seq_eq.2]
  cases who with
  | caller => exact .ended ⟨(h.withReply _ _).countEnd false, rfl⟩ rfl
  | nobody | callback tag => exact .ended ⟨h.countEnd false, rfl⟩ rfl

/-- **The same action has the same consequences** for the job in both of its forms. -/
theorem onward_act {r₁ r₁' : Running σ V} {a : Action σ V} (h : Differ {} s s')
    (hr : s.current = some r) (hr' : s'.current = some r') (hab : Abreast x y seq who r r')
    (hab₁ : Abreast x y seq who r₁ r₁') (ht : s.nextTurn r = s.act r₁ a)
    (ht' : s'.nextTurn r' = s'.act r₁' a) :
    Onward x y seq who ((s.advance r).getD s) ((s'.advance r').getD s') := by
  have hturns := differ_act h hab₁.token a fun _ _ => hab₁.catcher
  have herror : ∀ s₁ result, s.act r₁ a = .ends s₁ result → ∃ e, result = .error e :=
    fun _ _ => exists_error_of_ends
  rw [advance, advance, ht, ht']
  generalize s.act r₁ a = turn, s'.act r₁' a = turn' at hturns herror
  cases hturns with
  | waits => exact .abreast h hr hr' hab
  | goesOn h c hc => exact .abreast (h.goOn _ _) rfl rfl (hab₁.changed c)
  | ends h result =>
    obtain ⟨e, rfl⟩ := herror _ _ rfl
    exact onward_finish h hab e
  | panics p => exact onward_unwind h hab p

theorem onward_advance (h : Differ {} s s') (ha : s.owner = .alive) (hr : s.current = some r)
    (hr' : s'.current = some r') (hab : Abreast x y seq who r r')
    (hne : ∀ value token, r ≠ x.starts seq who value token) :
    Onward x y seq who (s.move .owner) (s'.move .owner) := by
  rw [move, move, ownerStep_of_busy ha hr, ownerStep_of_busy (h.owner.trans ha) hr']
  cases hab with
  | last rest value token =>
    cases rest with
    | nil => exact absurd rfl (hne value token)
    | cons a rest => exact onward_act h hr hr' (.last _ value token) (.last rest value token) rfl rfl
  | inner hab₀ frame =>
    obtain ⟨script, value, token, isCaught⟩ := frame
    cases script with
    | nil => exact .abreast ((h.withNote (.called _) rfl).goOn _ _) rfl rfl hab₀
    | cons a rest =>
      exact onward_act h hr hr' (.inner hab₀ _) (.inner hab₀ ⟨rest, value, token, isCaught⟩) rfl rfl

/-! ## Gates -/

theorem release_of_gate {rest : Script σ V} (hr : s.current = some r)
    (hs : r.frame.script = .gate :: rest) :
    s.release = s.goOn { r with frame := { r.frame with script := rest } } := by
  unfold release
  rw [hr]
  dsimp only
  rw [hs]
  rfl

theorem onward_release_cons {a : Action σ V} {rest rest' : Script σ V} (h : Differ {} s s')
    (hr : s.current = some r) (hr' : s'.current = some r') (hab : Abreast x y seq who r r')
    (hs : r.frame.script = a :: rest) (hs' : r'.frame.script = a :: rest')
    (hab₁ : Abreast x y seq who { r with frame := { r.frame with script := rest } }
      { r' with frame := { r'.frame with script := rest' } }) :
    Onward x y seq who s.release s'.release := by
  by_cases hg : a = .gate
  · subst hg
    rw [release_of_gate hr hs, release_of_gate hr' hs']
    exact .abreast (h.goOn _ _) rfl rfl hab₁
  · have hne : ∀ {script script₁ : Script σ V} rest₁, script = a :: script₁ →
        script ≠ .gate :: rest₁ := by
      rintro _ script₁ rest₁ rfl heq
      exact hg (List.cons.inj heq).1
    rw [release_of_ne_gate hr fun _ => hne _ hs, release_of_ne_gate hr' fun _ => hne _ hs']
    exact .abreast h hr hr' hab

theorem onward_release (h : Differ {} s s') (hr : s.current = some r) (hr' : s'.current = some r')
    (hab : Abreast x y seq who r r') : Onward x y seq who s.release s'.release := by
  cases hab with
  | last rest value token =>
    cases rest with
    | nil =>
      rw [release_of_ne_gate hr x.work.script_ne_gate, release_of_ne_gate hr' y.work.script_ne_gate]
      exact .abreast h hr hr' (.last [] value token)
    | cons a rest =>
      exact onward_release_cons h hr hr' (.last _ value token) rfl rfl (.last rest value token)
  | inner hab₀ frame =>
    obtain ⟨script, value, token, isCaught⟩ := frame
    cases script with
    | nil =>
      rw [release_of_ne_gate hr nofun, release_of_ne_gate hr' nofun]
      exact .abreast h hr hr' (.inner hab₀ _)
    | cons a rest =>
      exact onward_release_cons h hr hr' (.inner hab₀ _) rfl rfl
        (.inner hab₀ ⟨rest, value, token, isCaught⟩)

/-! ## Moves -/

/-- Once the job is at the front of both queues, it is dropped in both of its forms, or started. -/
theorem onward_begin (h : Twins {} s s') (hc : s.current = none) (kind : JobKind)
    (actions : Script σ V) :
    Onward x y seq who (s.begin (x.job seq who kind actions))
      (s'.begin (y.job seq who kind actions)) := by
  obtain ⟨h, hcurrent⟩ := h
  have hd : s'.Dismisses (y.job seq who kind actions) ↔ s.Dismisses (x.job seq who kind actions) := by
    cases h; rfl
  unfold begin
  rw [if_congr hd rfl rfl]
  split
  · unfold dismiss
    cases h with
    | intro hq hcounts hr hl =>
      cases who with
      | caller => exact .ended ⟨.intro hq (hcounts.plus .dropped) (hr.append _) hl, hcurrent⟩ hc
      | nobody | callback tag =>
        exact .ended ⟨.intro hq (hcounts.plus .dropped) hr hl, hcurrent⟩ hc
  · refine .abreast (h.goOn _ _) rfl rfl ?_
    simp only [starting, h.newToken]
    exact .last actions none _

/-- **Whatever happens, the job goes on in both of its forms, or an action has ended it in both.** -/
theorem onward_move (h : Differ {} s s') (m : Move σ V) (hr : s.current = some r)
    (hr' : s'.current = some r') (hab : Abreast x y seq who r r')
    (hne : ∀ value token, r ≠ x.starts seq who value token) :
    Onward x y seq who (s.move m) (s'.move m) := by
  by_cases hm : m = .owner
  · subst hm
    by_cases ha : s.owner = .alive
    · exact onward_advance h ha hr hr' hab hne
    · obtain ⟨hs, hs'⟩ := h.move_of_not_alive ha
      rw [hs, hs']
      exact .abreast h hr hr' hab
  · by_cases hrel : m = .release
    · subst hrel
      exact onward_release h hr hr' hab
    · refine .abreast (h.move hm hrel) ?_ ?_ hab
      · rw [current_move hm hrel, hr]
      · rw [current_move hm hrel, hr']

end SymbolIndex.Serializer
