import SymbolIndex.Proofs.Serializer.Run

/-!
# How jobs end

The work of a job ends at most once in a run. Its end is what the callback of the job is told, and
what the caller is told who waits for it.

* `Run.workEnds_cases`, `Run.workEnds_unique`: the end of the work of a job;
* `Run.Tells`, `Run.tells_iff`: a callback is told the result of the work of its own job;
* `Run.Answers`, `Run.replyTo_eq_some_iff`: what a caller is told.
-/

namespace SymbolIndex.Run

open Serializer

variable {σ V : Type} (R : Run σ V)

/-- A move tells the callback of a job a result, and the owner goes on with its script. -/
def Tells (t n : ℕ) (c : Callback σ V) (result : JobResult V) : Prop :=
  ∃ r, (R.after t).current = some r ∧ r.seq = n ∧
    (R.after (t + 1)).current = some (callingBack r c result) ∧
    (R.after (t + 1)).log = (R.after t).log ++ [.callback c.tag result]

/-- A move tells the caller of a job an outcome, as the job is dropped or its work ends. -/
def Answers (t n : ℕ) (o : Outcome V) : Prop :=
  ∃ j ∈ R.accepted t, j.seq = n ∧ j.delivery = .reply ∧
    (R.Drops t j ∧ o = .result (.error .dropped) ∨ R.WorkEnds t n o)

/-! ## Jobs that are being run -/

theorem mem_accepted_of_busy {t : ℕ} {r : Running σ V} (hr : (R.after t).current = some r) :
    ∃ j ∈ R.accepted t, j.seq = r.seq ∧ j.delivery = r.delivery := by
  obtain ⟨u, hu, j, hj, hseq, hdel, -⟩ := R.exists_starts hr
  have hm := R.mem_accepted_of_leaves hj.1
  exact ⟨j, (R.accepted_prefix (by omega : u ≤ t)).subset hm, hseq, hdel⟩

theorem delivery_of_busy {t u : ℕ} {r : Running σ V} {j : Job σ V}
    (hr : (R.after t).current = some r) (hj : j ∈ R.accepted u) (h : j.seq = r.seq) :
    j.delivery = r.delivery := by
  obtain ⟨k, hk, hseq, hdel⟩ := R.mem_accepted_of_busy hr
  rw [R.eq_of_seq hj hk (h.trans hseq.symm)]
  exact hdel

theorem not_drops_of_busy {t u : ℕ} {r : Running σ V} {j : Job σ V}
    (hr : (R.after t).current = some r) (h : j.seq = r.seq) : ¬ R.Drops u j := by
  intro hd
  obtain ⟨s, -, k, hk, hseq, -⟩ := R.exists_starts hr
  obtain ⟨rfl, rfl⟩ := R.leaves_unique hd.1 hk.1 (h.trans hseq.symm)
  have := hd.2.symm.trans hk.2
  cases this

theorem not_busy_of_drops {t u : ℕ} {j : Job σ V} (h : R.Drops t j) : ¬ R.Busy u j.seq :=
  fun ⟨_, hr, hn⟩ => R.not_drops_of_busy hr hn.symm h

/-! ## The end of the work of a job -/

theorem workEnds_cases {t n : ℕ} {o : Outcome V} (h : R.WorkEnds t n o) :
    ∃ r, (R.after t).current = some r ∧ r.seq = n ∧ r.stage = .work ∧
      ((∃ c result, r.delivery = .callback c ∧ o = .result result ∧
          (R.after (t + 1)).current = some (callingBack r c result) ∧
          (R.after (t + 1)).replies = (R.after t).replies ∧
          (R.after (t + 1)).log = (R.after t).log ++ [.callback c.tag result]) ∨
        (∀ c, r.delivery = .callback c → ∃ p, o = .panicked p) ∧
          (R.after (t + 1)).current = none ∧
          (R.after (t + 1)).replies = (R.after t).replies ++ answers r o ∧
          (R.after (t + 1)).log = (R.after t).log) := by
  have h : (R.after t).ending (R.moves t) = some (n, o) := h
  cases hr : (R.after t).current with
  | none => rw [ending_of_idle _ hr] at h; cases h
  | some r =>
    refine ⟨r, rfl, ?_⟩
    cases R.progress hr with
    | goesOn he | returns he => rw [h] at he; cases he
    | @callsBack c result he hg hd hc hreplies hlog =>
      obtain ⟨rfl, rfl⟩ := Prod.mk.inj (Option.some.inj (h.symm.trans he))
      exact ⟨rfl, hg, .inl ⟨c, result, hd, rfl, hc, hreplies, hlog⟩⟩
    | ends he hg hd hc hreplies hlog =>
      obtain ⟨rfl, rfl⟩ := Prod.mk.inj (Option.some.inj (h.symm.trans he))
      exact ⟨rfl, hg, .inr ⟨hd, hc, hreplies, hlog⟩⟩

theorem not_working_of_workEnds {t u n : ℕ} {o : Outcome V} {r : Running σ V}
    (h : R.WorkEnds t n o) (hr : (R.after u).current = some r) (hn : r.seq = n) (htu : t < u) :
    r.stage ≠ .work := by
  intro hg
  obtain ⟨r₀, hr₀, hn₀, -, hnext⟩ := R.workEnds_cases h
  obtain ⟨s, hs, j, hj, hseq, -, hsince⟩ := R.exists_starts hr
  obtain ⟨s₀, hs₀, j₀, hj₀, hseq₀, -⟩ := R.exists_starts hr₀
  have hsame : s₀ = s := (R.leaves_unique hj₀.1 hj.1 (by rw [hseq₀, hseq, hn₀, hn])).1
  obtain ⟨r₁, hr₁, -, hg₁⟩ := hsince (t + 1) (by omega) (by omega)
  rcases hnext with ⟨c, result, -, -, hc, -⟩ | ⟨-, hc, -⟩
  · obtain rfl := Option.some.inj (hr₁.symm.trans hc)
    exact absurd (hg₁ hg) (by simp [callingBack])
  · rw [hr₁] at hc
    cases hc

/-- **The work of a job ends at most once.** -/
theorem workEnds_unique {t u n : ℕ} {o o' : Outcome V} (h : R.WorkEnds t n o)
    (h' : R.WorkEnds u n o') : t = u ∧ o = o' := by
  obtain ⟨r, hr, hn, hg, -⟩ := R.workEnds_cases h
  obtain ⟨r', hr', hn', hg', -⟩ := R.workEnds_cases h'
  rcases lt_trichotomy t u with hlt | rfl | hlt
  · exact absurd hg' (R.not_working_of_workEnds h hr' hn' hlt)
  · have := Option.some.inj ((show (R.after t).ending (R.moves t) = _ from h).symm.trans h')
    exact ⟨rfl, (Prod.mk.inj this).2⟩
  · exact absurd hg (R.not_working_of_workEnds h' hr hn hlt)

theorem not_workEnds_of_drops {t u : ℕ} {j : Job σ V} (h : R.Drops t j) (o : Outcome V) :
    ¬ R.WorkEnds u j.seq o := by
  intro hw
  obtain ⟨r, hr, hn, -⟩ := R.workEnds_cases hw
  exact R.not_drops_of_busy hr hn.symm h

/-! ## Callbacks -/

/-- **A callback is told the result of the work of its own job**, and nothing but that, at the
moment when the work ends. -/
theorem tells_iff {t n : ℕ} {c : Callback σ V} {result : JobResult V} :
    R.Tells t n c result ↔
      R.WorkEnds t n (.result result) ∧
        ∃ j ∈ R.accepted t, j.seq = n ∧ j.delivery = .callback c := by
  constructor
  · rintro ⟨r, hr, rfl, hc, hlog⟩
    obtain ⟨j, hj, hseq, hdel⟩ := R.mem_accepted_of_busy hr
    have htold : told (R.after (t + 1)).log ≠ told (R.after t).log := by
      rw [hlog]
      simp [told, Note.toldTo?]
    cases R.progress hr with
    | goesOn he hc' hs hd hg hreplies hlog' => exact absurd hlog' htold
    | ends he hg hd hc' hreplies hlog' => exact absurd (congrArg told hlog') htold
    | returns he hg hc' hreplies hlog' => exact absurd (congrArg told hlog') htold
    | @callsBack c' result' he hg hd hc' hreplies hlog' =>
      have hnote := List.append_cancel_left (hlog.symm.trans hlog')
      simp only [List.cons.injEq, Note.callback.injEq, and_true] at hnote
      have hscript := congrArg (fun r => r.frame.script) (Option.some.inj (hc.symm.trans hc'))
      have hcallback : c = c' := by
        cases c
        cases c'
        exact (Callback.mk.injEq ..).mpr ⟨hnote.1, hscript⟩
      rw [hcallback, hnote.2]
      exact ⟨he, j, hj, hseq, hdel.trans hd⟩
  · rintro ⟨h, j, hj, hseq, hdel⟩
    obtain ⟨r, hr, hn, -, hnext⟩ := R.workEnds_cases h
    have hd : r.delivery = .callback c := by
      rw [← R.delivery_of_busy hr hj (hseq.trans hn.symm), hdel]
    rcases hnext with ⟨c', result', hd', ho, hc, -, hlog⟩ | ⟨hp, -⟩
    · obtain rfl := Delivery.callback.inj (hd.symm.trans hd')
      obtain rfl := Outcome.result.inj ho
      exact ⟨r, hr, hn, hc, hlog⟩
    · obtain ⟨p, ho⟩ := hp c hd
      cases ho

theorem not_tells_of_drops {t u : ℕ} {j : Job σ V} {c : Callback σ V} {result : JobResult V}
    (h : R.Drops t j) : ¬ R.Tells u j.seq c result :=
  fun ht => R.not_workEnds_of_drops h _ (R.tells_iff.mp ht).1

theorem told_succ (t : ℕ) :
    told (R.after (t + 1)).log = told (R.after t).log ∨ ∃ n c result, R.Tells t n c result := by
  cases hr : (R.after t).current with
  | none =>
    cases R.uptake hr with
    | none hq hb | starts hq hd hb | drops hq hd hb =>
      exact .inl (congrArg (told ∘ Back.log) hb)
  | some r =>
    cases R.progress hr with
    | goesOn he hc hs hd hg hreplies hlog => exact .inl hlog
    | ends he hg hd hc hreplies hlog => exact .inl (congrArg told hlog)
    | returns he hg hc hreplies hlog => exact .inl (congrArg told hlog)
    | @callsBack c result he hg hd hc hreplies hlog =>
      exact .inr ⟨r.seq, c, result, r, hr, rfl, hc, hlog⟩

theorem tells_of_calledBack {t : ℕ} {r : Running σ V} {succeeded : Bool}
    (hr : (R.after t).current = some r) (hg : r.stage = .callback succeeded) :
    ∃ u < t, ∃ c result, R.Tells u r.seq c result ∧ succeeded = result.isOk := by
  induction t generalizing r with
  | zero => cases hr
  | succ t ih =>
    cases hc : (R.after t).current with
    | none =>
      cases R.uptake hc with
      | none hq hb | drops hq hd hb =>
        have := (congrArg Back.current hb).trans hc
        rw [show (R.after (t + 1)).back.current = some r from hr] at this
        cases this
      | starts hq hd hb =>
        obtain rfl := Option.some.inj (hr.symm.trans (congrArg Back.current hb))
        cases hg
    | some r₀ =>
      cases R.progress hc with
      | goesOn he hc' hs hd hg' =>
        obtain rfl := Option.some.inj (hr.symm.trans hc')
        obtain ⟨u, hu, c, result, h, hsucceeded⟩ := ih hc (hg'.symm.trans hg)
        exact ⟨u, by omega, c, result, hs ▸ h, hsucceeded⟩
      | @callsBack c result he hg' hd hc' hreplies hlog =>
        obtain rfl := Option.some.inj (hr.symm.trans hc')
        exact ⟨t, by omega, c, result, ⟨r₀, hc, rfl, hc', hlog⟩, (Stage.callback.inj hg).symm⟩
      | ends he hg' hd hc' | returns he hg' hc' => rw [hr] at hc'; cases hc'

theorem exists_tells {t : ℕ} {r : Running σ V} {succeeded : Bool}
    (hr : (R.after t).current = some r) (hg : r.stage = .callback succeeded) :
    ∃ u < t, ∃ c result, R.Tells u r.seq c result := by
  obtain ⟨u, hu, c, result, h, -⟩ := R.tells_of_calledBack hr hg
  exact ⟨u, hu, c, result, h⟩

theorem exists_workEnds {t n : ℕ} (h : R.Ends t n) : ∃ u ≤ t, ∃ o, R.WorkEnds u n o := by
  obtain ⟨⟨r, hr, rfl⟩, hend⟩ := h
  cases R.progress hr with
  | goesOn he hc | callsBack he hg hd hc => rw [hend] at hc; cases hc
  | ends he hg hd hc => exact ⟨t, le_rfl, _, he⟩
  | returns he hg hc =>
    obtain ⟨u, hu, c, result, htells⟩ := R.exists_tells hr hg
    exact ⟨u, by omega, _, (R.tells_iff.mp htells).1⟩

/-! ## Callers -/

theorem answers_unique {t u n : ℕ} {o o' : Outcome V} (h : R.Answers t n o)
    (h' : R.Answers u n o') : o = o' := by
  obtain ⟨j, -, rfl, -, ⟨hd, rfl⟩ | hw⟩ := h
  · obtain ⟨k, -, hk, -, ⟨-, rfl⟩ | hw'⟩ := h'
    · rfl
    · exact absurd hw' (R.not_workEnds_of_drops hd o')
  · obtain ⟨k, -, hk, -, ⟨hd', -⟩ | hw'⟩ := h'
    · exact absurd (hk ▸ hw) (R.not_workEnds_of_drops hd' o)
    · exact (R.workEnds_unique hw hw').2

theorem answers_of_leaves {t n : ℕ} {o : Outcome V} {j : Job σ V} (h : R.Leaves t j) :
    R.Answers t n o ↔ R.Drops t j ∧ (n, o) ∈ dismissals j := by
  have hc := (R.of_leaves h).2
  constructor
  · rintro ⟨k, -, rfl, hdel, ⟨hd, rfl⟩ | hw⟩
    · have := (show (R.after t).queue = _ from h).symm.trans hd.1
      obtain rfl : j = k := by simpa using this
      exact ⟨hd, by simp [dismissals, hdel]⟩
    · obtain ⟨r, hr, -⟩ := R.workEnds_cases hw
      rw [hc] at hr
      cases hr
  · rintro ⟨hd, hm⟩
    unfold dismissals at hm
    split at hm
    · next hdel =>
      obtain ⟨rfl, rfl⟩ := Prod.mk.inj (List.mem_singleton.mp hm)
      exact ⟨j, R.mem_accepted_of_leaves h, rfl, hdel, .inl ⟨hd, rfl⟩⟩
    · cases hm

theorem answers_of_busy {t n : ℕ} {o : Outcome V} {r : Running σ V}
    (hr : (R.after t).current = some r) :
    R.Answers t n o ↔ R.WorkEnds t n o ∧ r.seq = n ∧ r.delivery = .reply := by
  constructor
  · rintro ⟨j, hj, hseq, hdel, ⟨hd, -⟩ | hw⟩
    · rw [(R.of_leaves hd.1).2] at hr
      cases hr
    · obtain ⟨r', hr', hn, -⟩ := R.workEnds_cases hw
      obtain rfl := Option.some.inj (hr.symm.trans hr')
      exact ⟨hw, hn, by rw [← R.delivery_of_busy hr hj (hseq.trans hn.symm), hdel]⟩
  · rintro ⟨hw, hn, hdel⟩
    obtain ⟨j, hj, hseq, hd⟩ := R.mem_accepted_of_busy hr
    exact ⟨j, hj, hseq.trans hn, hd.trans hdel, .inr hw⟩

theorem mem_replies_succ (t n : ℕ) (o : Outcome V) :
    (n, o) ∈ (R.after (t + 1)).replies ↔ (n, o) ∈ (R.after t).replies ∨ R.Answers t n o := by
  cases hr : (R.after t).current with
  | none =>
    cases R.uptake hr with
    | none hq hb =>
      rw [show (R.after (t + 1)).replies = _ from congrArg Back.replies hb]
      refine ⟨.inl, fun h => h.elim id fun ⟨j, _, _, _, h⟩ => ?_⟩
      rcases h with ⟨hd, -⟩ | hw
      · exact absurd hd.1 (hq j)
      · obtain ⟨r, hr', -⟩ := R.workEnds_cases hw
        rw [hr] at hr'
        cases hr'
    | @starts j hq hd hb =>
      rw [R.answers_of_leaves hq, show (R.after (t + 1)).replies = _ from congrArg Back.replies hb]
      refine ⟨.inl, fun h => h.elim id fun ⟨hdrop, _⟩ => ?_⟩
      have := hdrop.2.symm.trans (congrArg Back.current hb)
      cases this
    | @drops j hq hd hb =>
      rw [R.answers_of_leaves hq, show (R.after (t + 1)).replies = _ from congrArg Back.replies hb,
        List.mem_append]
      have hdrop : R.Drops t j := ⟨hq, (congrArg Back.current hb).trans hr⟩
      simp only [hdrop, true_and]
  | some r =>
    rw [R.answers_of_busy hr]
    cases R.progress hr with
    | goesOn he hc hs hd hg hreplies | returns he hg hc hreplies =>
      rw [hreplies]
      refine ⟨.inl, fun h => h.elim id fun ⟨hw, _⟩ => ?_⟩
      have := he.symm.trans hw
      cases this
    | callsBack he hg hd hc hreplies =>
      rw [hreplies]
      refine ⟨.inl, fun h => h.elim id fun ⟨_, _, hdel⟩ => ?_⟩
      rw [hd] at hdel
      cases hdel
    | @ends o' he hg hd hc hreplies =>
      have hw : R.WorkEnds t n o ↔ r.seq = n ∧ o' = o := by
        rw [WorkEnds, he, Option.some.injEq, Prod.mk.injEq]
      rw [hreplies, List.mem_append, hw, answers]
      cases r.delivery with
      | reply =>
        simp only [List.mem_singleton, Prod.mk.injEq, and_true]
        grind
      | discard | callback c => simp

theorem mem_replies_iff (t n : ℕ) (o : Outcome V) :
    (n, o) ∈ (R.after t).replies ↔ ∃ u < t, R.Answers u n o := by
  induction t with
  | zero => exact ⟨fun h => absurd h List.not_mem_nil, fun ⟨u, hu, _⟩ => absurd hu u.not_lt_zero⟩
  | succ t ih =>
    rw [mem_replies_succ, ih]
    constructor
    · rintro (⟨u, hu, h⟩ | h)
      · exact ⟨u, by omega, h⟩
      · exact ⟨t, by omega, h⟩
    · rintro ⟨u, hu, h⟩
      by_cases hut : u = t
      · exact .inr (hut ▸ h)
      · exact .inl ⟨u, by omega, h⟩

/-- **A caller is told what its own job came to**: that it was dropped, or the outcome of its
work. -/
theorem replyTo_eq_some_iff {t n : ℕ} {o : Outcome V} :
    (R.after t).replyTo n = some o ↔ ∃ u < t, R.Answers u n o := by
  have hmem : ∀ o', (R.after t).replyTo n = some o' → (n, o') ∈ (R.after t).replies := by
    intro o' h
    obtain ⟨before, behind, hl, -⟩ := List.lookup_eq_some_iff.mp h
    rw [hl]
    simp
  constructor
  · intro h
    exact (R.mem_replies_iff t n o).mp (hmem o h)
  · rintro ⟨u, hu, h⟩
    have hsome : ((R.after t).replies.lookup n).isSome := by
      rw [List.lookup_isSome_iff]
      exact ⟨_, (R.mem_replies_iff t n o).mpr ⟨u, hu, h⟩, beq_self_eq_true n⟩
    obtain ⟨o', ho'⟩ := Option.isSome_iff_exists.mp hsome
    obtain ⟨v, -, h'⟩ := (R.mem_replies_iff t n o').mp (hmem o' ho')
    rw [R.answers_unique h h']
    exact ho'

end SymbolIndex.Run
