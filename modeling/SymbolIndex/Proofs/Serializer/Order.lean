import SymbolIndex.Proofs.Serializer.Rest

/-!
# The order of jobs

Whatever happens to a serializer, its jobs are numbered as they are accepted and run one after the
other in the order of their numbers, each at most once, and once it has been stopped it accepts
none any more.

* `Run.ends_before`, `Run.settled_before`: what has been done before a job;
* `Run.called_back`: what has become of a callback;
* `Run.InOrder`, `Run.inOrder`: the order of jobs.
-/

namespace SymbolIndex.Run

open Serializer

variable {σ V : Type} (R : Run σ V)

/-! ## One job after the other -/

/-- The owner is free when it takes a job, so whatever it was busy with before has ended. -/
theorem ends_before {t u : ℕ} {j k : Job σ V} (hj : R.Starts t j) (hk : R.Leaves u k)
    (htu : t < u) : ∃ e, t < e ∧ e < u ∧ R.Ends e j.seq :=
  R.exists_ends (R.busy_of_starts hj) (R.of_leaves hk).2 htu

theorem settled_before {u n : ℕ} {k : Job σ V} (hk : R.Leaves u k) (hn : n < k.seq) :
    ∃ t < u, ∃ j, j.seq = n ∧
      (R.Drops t j ∨ R.Starts t j ∧ ∃ e, t < e ∧ e < u ∧ R.Ends e n) := by
  rw [R.seq_of_leaves hk] at hn
  obtain ⟨t, htu, j, hj, rfl⟩ := R.exists_leaves hn
  refine ⟨t, htu, j, rfl, ?_⟩
  rcases R.starts_or_drops hj with ⟨hs, -⟩ | ⟨hd, -⟩
  · exact .inr ⟨hs, R.ends_before hs hk htu⟩
  · exact .inl hd

theorem leaves_before {u v : ℕ} {j k : Job σ V} (hj : R.Leaves u j) (hk : R.Leaves v k)
    (h : j.seq < k.seq) :
    u < v ∧ (R.Starts u j → ∃ e, u < e ∧ e < v ∧ R.Ends e j.seq) := by
  have huv : u < v := by
    rcases lt_trichotomy u v with hlt | rfl | hlt
    · exact hlt
    · rw [R.seq_of_leaves hj, R.seq_of_leaves hk] at h
      exact absurd h (lt_irrefl _)
    · exact absurd (R.seq_lt_of_leaves hk hj hlt) (by omega)
  exact ⟨huv, fun hs => R.ends_before hs hk huv⟩

theorem starts_of_busy {t n : ℕ} (h : R.Busy t n) :
    ∃ u < t, ∃ j ∈ R.accepted u, R.Starts u j ∧ j.seq = n ∧ ∀ v, u < v → v ≤ t → R.Busy v n := by
  obtain ⟨r, hr, rfl⟩ := h
  obtain ⟨u, hu, j, hj, hseq, -, hsince⟩ := R.exists_starts hr
  refine ⟨u, hu, j, R.mem_accepted_of_leaves hj.1, hj, hseq, fun v hv hvt => ?_⟩
  obtain ⟨r', hr', hn, -⟩ := hsince v hv hvt
  exact ⟨r', hr', hn⟩

theorem busy_le {t u n m : ℕ} (ht : R.Busy t n) (hu : R.Busy u m) (htu : t ≤ u) : n ≤ m := by
  obtain ⟨s, hs, j, -, hj, rfl, -⟩ := R.starts_of_busy ht
  obtain ⟨s', hs', k, -, hk, rfl, hsince⟩ := R.starts_of_busy hu
  refine Nat.le_of_not_lt fun hlt => ?_
  rcases lt_trichotomy s s' with hss | rfl | hss
  · exact absurd (R.seq_lt_of_leaves hj.1 hk.1 hss) (by omega)
  · exact absurd (R.seq_of_leaves hj.1) (by rw [← R.seq_of_leaves hk.1]; omega)
  · obtain ⟨r, hr, hn⟩ := ht
    obtain ⟨r', hr', hn'⟩ := hsince t (by omega) htu
    rw [hr] at hr'
    obtain rfl := Option.some.inj hr'
    omega

theorem accepted_of_request {t : ℕ} {kind : JobKind} {script : Script σ V}
    {delivery : Delivery σ V} (h : R.request t = some (.enqueue kind script delivery))
    (ho : (R.after t).isOpen = true) :
    ((R.after t).enqueue kind script delivery).1 = some (R.accepted t).length ∧
      R.accepted (t + 1) = R.accepted t ++ [⟨(R.accepted t).length, kind, script, delivery⟩] := by
  rw [length_accepted, enqueue_of_isOpen ho, accepted_succ, newJob, h]
  simp [acceptedBy, ho]

theorem tells_iff_of_workEnds {t u n : ℕ} {c c' : Callback σ V} {result result' : JobResult V}
    {j : Job σ V} (hj : j ∈ R.accepted u) (hn : j.seq = n) (hd : j.delivery = .callback c)
    (h : R.WorkEnds u n (.result result)) :
    R.Tells t n c' result' ↔ t = u ∧ c' = c ∧ result' = result := by
  constructor
  · intro ht
    obtain ⟨hw, k, hk, hkn, hkd⟩ := R.tells_iff.mp ht
    obtain ⟨rfl, ho⟩ := R.workEnds_unique hw h
    obtain rfl := R.eq_of_seq hk hj (hkn.trans hn.symm)
    exact ⟨rfl, Delivery.callback.inj (hkd.symm.trans hd), Outcome.result.inj ho⟩
  · rintro ⟨rfl, rfl, rfl⟩
    exact R.tells_iff.mpr ⟨h, j, hj, hn, hd⟩

theorem called_back {e : ℕ} {j : Job σ V} {c : Callback σ V} (h : R.Ends e j.seq)
    (hj : j ∈ R.accepted e) (hd : j.delivery = .callback c) :
    ∃ u ≤ e, (∃ p, R.WorkEnds u j.seq (.panicked p) ∧
        ∀ t c' result, ¬ R.Tells t j.seq c' result) ∨
      ∃ result, R.WorkEnds u j.seq (.result result) ∧
        ∀ t c' result', R.Tells t j.seq c' result' ↔ t = u ∧ c' = c ∧ result' = result := by
  obtain ⟨u, hu, o, hw⟩ := R.exists_workEnds h
  refine ⟨u, hu, ?_⟩
  cases o with
  | panicked p =>
    refine .inl ⟨p, hw, fun t c' result ht => ?_⟩
    have ho := (R.workEnds_unique (R.tells_iff.mp ht).1 hw).2
    cases ho
  | result result =>
    obtain ⟨r, hr, hn, -⟩ := R.workEnds_cases hw
    obtain ⟨k, hk, hkn, -⟩ := R.mem_accepted_of_busy hr
    obtain rfl := R.eq_of_seq hk hj (hkn.trans hn)
    exact .inr ⟨result, hw, fun t c' result' => R.tells_iff_of_workEnds hk rfl hd hw⟩

theorem not_busy_of_ends {e t n : ℕ} (h : R.Ends e n) (het : e < t) : ¬ R.Busy t n := by
  rintro ⟨r, hr, hn⟩
  obtain ⟨⟨r₀, hr₀, hn₀⟩, hnone⟩ := h
  obtain ⟨s, hs, j, hj, hseq, -, hsince⟩ := R.exists_starts hr
  obtain ⟨s₀, hs₀, j₀, hj₀, hseq₀, -⟩ := R.exists_starts hr₀
  have hsame := (R.leaves_unique hj₀.1 hj.1 (by rw [hseq₀, hseq, hn₀, hn])).1
  obtain ⟨r₁, hr₁, -⟩ := hsince (e + 1) (by omega) (by omega)
  rw [hnone] at hr₁
  cases hr₁

theorem ends_unique {t u n : ℕ} (h : R.Ends t n) (h' : R.Ends u n) : t = u := by
  rcases lt_trichotomy t u with hlt | heq | hlt
  · exact absurd h'.1 (R.not_busy_of_ends h hlt)
  · exact heq
  · exact absurd h.1 (R.not_busy_of_ends h' hlt)

/-! ## The order of jobs -/

/-- The order of jobs in a run. -/
structure InOrder : Prop where
  /-- jobs are numbered from 0 on, without a gap, in the order in which they are accepted -/
  numbered : ∀ t, (R.accepted t).map Job.seq = List.range (R.accepted t).length
  /-- whoever leaves a job is told its number -/
  handedOut : ∀ t kind script delivery, R.request t = some (.enqueue kind script delivery) →
    (R.after t).isOpen = true →
    ((R.after t).enqueue kind script delivery).1 = some (R.accepted t).length ∧
      R.accepted (t + 1) = R.accepted t ++ [⟨(R.accepted t).length, kind, script, delivery⟩]
  /-- they wait in this order -/
  queued : ∀ t, jobsIn (R.after t).queue <:+ R.accepted t
  /-- they start in this order, each after the one before it has ended with its callback -/
  ascending : ∀ t u j k, R.Starts t j → R.Starts u k → t < u →
    j.seq < k.seq ∧ ∃ e, t < e ∧ e < u ∧ R.Ends e j.seq
  /-- none is passed over but those that are dropped -/
  settled : ∀ u k, R.Starts u k → k ∈ R.accepted u ∧ ∀ n < k.seq, ∃ t < u, ∃ j, j.seq = n ∧
    (R.Drops t j ∨ R.Starts t j ∧ ∃ e, t < e ∧ e < u ∧ R.Ends e n)
  /-- what is being run has been started, and has been run ever since -/
  started : ∀ t n, R.Busy t n → ∃ u < t, ∃ j ∈ R.accepted u, R.Starts u j ∧ j.seq = n ∧
    ∀ v, u < v → v ≤ t → R.Busy v n
  /-- no job starts twice -/
  once : ∀ t u j k, R.Starts t j → R.Starts u k → j.seq = k.seq → t = u ∧ j = k
  /-- nor does it go on once it has ended -/
  endsForGood : ∀ e t n, R.Ends e n → e < t → ¬ R.Busy t n
  /-- its work ends at most once -/
  endsOnce : ∀ t u n o o', R.WorkEnds t n o → R.WorkEnds u n o' → t = u ∧ o = o'
  /-- a callback is told the result of the work of its own job as this ends, and nothing else -/
  tells : ∀ t n c result, R.Tells t n c result ↔
    R.WorkEnds t n (.result result) ∧ ∃ j ∈ R.accepted t, j.seq = n ∧ j.delivery = .callback c
  /-- no result is noted for a callback but what it is told -/
  noted : ∀ t, told (R.after (t + 1)).log = told (R.after t).log ∨
    ∃ n c result, R.Tells t n c result
  /-- no callback is run that has not been told its result -/
  calling : ∀ t r succeeded, (R.after t).current = some r → r.stage = .callback succeeded →
    ∃ u < t, ∃ c result, R.Tells u r.seq c result
  /-- of a job that has ended, it has been told exactly once, unless the work has panicked -/
  calledBack : ∀ e j c, R.Ends e j.seq → j ∈ R.accepted e → j.delivery = .callback c →
    ∃ u ≤ e, (∃ p, R.WorkEnds u j.seq (.panicked p) ∧
        ∀ t c' result, ¬ R.Tells t j.seq c' result) ∨
      ∃ result, R.WorkEnds u j.seq (.result result) ∧
        ∀ t c' result', R.Tells t j.seq c' result' ↔ t = u ∧ c' = c ∧ result' = result
  /-- a job that was dropped is never run, and its callback is told nothing -/
  dropped : ∀ t j, R.Drops t j → ∀ u, ¬ R.Busy u j.seq ∧ ∀ c result, ¬ R.Tells u j.seq c result
  /-- the owner comes to rest -/
  rests : ∀ t, (R.after t).settle.ownerStep = none
  /-- and then all jobs have been dropped or have ended, unless one is held up -/
  done : ∀ t j, (R.after t).ownerStep = none → (R.after t).current = none →
    (R.after t).owner ≠ .unborn → j ∈ R.accepted t →
    (∃ u < t, R.Drops u j) ∨ ∃ u e, u < e ∧ e < t ∧ R.Starts u j ∧ R.Ends e j.seq
  /-- a stop takes effect at once -/
  stops : ∀ t, R.request t = some .stop → (R.after (t + 1)).isOpen = false
  /-- and for ever: no job is accepted any more, and none is run that was not accepted before -/
  shut : ∀ t u, (R.after t).isOpen = false → t ≤ u →
    (R.after u).isOpen = false ∧ (R.after u).isRunning = false ∧
      (∀ kind script delivery, ((R.after u).enqueue kind script delivery).1 = none) ∧
      (∀ kind script, ((R.after u).call kind script).1 = .error .notStarted) ∧
      R.accepted u = R.accepted t ∧ ∀ n, R.Busy u n → ∃ j ∈ R.accepted t, j.seq = n

theorem refuses {t u : ℕ} (h : (R.after t).isOpen = false) (htu : t ≤ u) :
    (R.after u).isOpen = false ∧ (R.after u).isRunning = false ∧
      (∀ kind script delivery, ((R.after u).enqueue kind script delivery).1 = none) ∧
      (∀ kind script, ((R.after u).call kind script).1 = .error .notStarted) ∧
      R.accepted u = R.accepted t ∧ ∀ n, R.Busy u n → ∃ j ∈ R.accepted t, j.seq = n := by
  have hs := R.shut_of_not_isOpen h
  have hacc := R.accepted_of_shut hs htu
  have ho := isOpen_of_shut (R.shut_mono hs htu)
  refine ⟨ho, isRunning_of_not_isOpen ho, fun kind script delivery => ?_, fun kind script => ?_,
    hacc, ?_⟩
  · rw [enqueue_of_not_isOpen ho]
  · rw [call_of_not_isOpen ho]
  · rintro n ⟨r, hr, rfl⟩
    obtain ⟨j, hj, hseq, -⟩ := R.mem_accepted_of_busy hr
    exact ⟨j, hacc ▸ hj, hseq⟩

/-- **Jobs are run in order.** -/
theorem inOrder : R.InOrder where
  numbered t := by rw [accepted_seq, length_accepted]
  handedOut _ _ _ _ h ho := R.accepted_of_request h ho
  queued := R.jobsIn_suffix
  ascending _ _ _ _ hj hk htu := ⟨R.seq_lt_of_leaves hj.1 hk.1 htu, R.ends_before hj hk.1 htu⟩
  settled _ _ hk := ⟨R.mem_accepted_of_leaves hk.1, fun _ hn => R.settled_before hk.1 hn⟩
  started _ _ h := R.starts_of_busy h
  once _ _ _ _ hj hk h := R.leaves_unique hj.1 hk.1 h
  endsForGood _ _ _ h het := R.not_busy_of_ends h het
  endsOnce _ _ _ _ _ h h' := R.workEnds_unique h h'
  tells _ _ _ _ := R.tells_iff
  noted := R.told_succ
  calling _ _ _ hr hg := R.exists_tells hr hg
  calledBack _ _ _ h hj hd := R.called_back h hj hd
  dropped _ _ h _ := ⟨R.not_busy_of_drops h, fun _ _ => R.not_tells_of_drops h⟩
  rests t := ownerStep_settle (R.after t)
  done _ _ hr hc hb hj := R.done_of_rest hr hc hb hj
  stops _ h := isOpen_of_shut (R.shut_of_stop h)
  shut _ _ h htu := R.refuses h htu

end SymbolIndex.Run
