import SymbolIndex.Proofs.Threads.Accounts

/-!
# Jobs in order

Jobs get their numbers, and are sent, behind the lock. So they wait in the order of their numbers,
the owner takes them in that order, and none of them twice.

* `Threads.Sorted`, `Threads.Above`: numbers grow from the queue to those that are still to come;
* `ThreadsRun.lt_of_sends`, `ThreadsRun.lt_of_takes`: jobs are sent and taken in order;
* `ThreadsRun.nextSeq_eq`: numbers are handed out to jobs that are accepted;
* `ThreadsRun.queued_or`: what becomes of a job that has been accepted;
* `ThreadsRun.held_or_ends`: what becomes of a job that has been taken;
* `ThreadsRun.ends_unique`: a job ends once.
-/

namespace SymbolIndex

open Serializer

variable {σ V : Type}

namespace Threads

variable {s s' : Threads σ V}

/-! ## Numbers -/

/-- A thread is about to send the job of this number. -/
def IsSending (s : Threads σ V) (n : ℕ) : Prop := ∃ w o, s.errand w = .offers o (.sends n)

/-- Numbers grow from the queue to the job that is about to be sent, and to the next number. -/
structure Sorted (s : Threads σ V) : Prop where
  jobs : (jobsIn s.common.core.queue).Pairwise fun i j => i.seq < j.seq
  lt_nextSeq : ∀ j ∈ jobsIn s.common.core.queue, j.seq < s.common.core.nextSeq
  lt_sending : ∀ n, s.IsSending n → ∀ j ∈ jobsIn s.common.core.queue, j.seq < n
  sending_lt : ∀ n, s.IsSending n → n < s.common.core.nextSeq

/-- All jobs that will be sent have larger numbers. -/
structure Past (s : Threads σ V) (m : ℕ) : Prop where
  sending : ∀ n, s.IsSending n → m < n
  nextSeq : m < s.common.core.nextSeq

/-- All jobs that will be taken have larger numbers. -/
structure Above (s : Threads σ V) (m : ℕ) : Prop extends s.Past m where
  jobs : ∀ j ∈ jobsIn s.common.core.queue, m < j.seq

/-- Whoever is about to send a job is the only one behind the lock. -/
theorem eq_of_sending (hl : s.Locked) {w v : Who} {o' : Offer σ V} {m : ℕ}
    (h : (s.errand w).isInside = true) (h' : s.errand v = .offers o' (.sends m)) :
    v = w := by
  have hw := (hl w).mp h
  have hv := (hl v).mp (by rw [h']; rfl)
  exact Option.some.inj (hv.symm.trans hw)

/-- What happens to numbers. -/
inductive Numbering (s s' : Threads σ V) : Prop
  | keeps (nextSeq : s'.common.core.nextSeq = s.common.core.nextSeq)
    (sending : ∀ n, s'.IsSending n → s.IsSending n)
    (jobs : (jobsIn s'.common.core.queue).Sublist (jobsIn s.common.core.queue))
  /-- a number is handed out, and nobody else is about to send a job -/
  | numbers (nextSeq : s'.common.core.nextSeq = s.common.core.nextSeq + 1)
    (sending : ∀ n, s'.IsSending n → s.IsSending n ∨ n = s.common.core.nextSeq)
    (jobs : jobsIn s'.common.core.queue = jobsIn s.common.core.queue)
    (before : ∀ n, ¬ s.IsSending n) (next : s'.IsSending s.common.core.nextSeq)
  /-- a job is sent, and nobody else is about to send one -/
  | sends {j : Job σ V} (nextSeq : s'.common.core.nextSeq = s.common.core.nextSeq)
    (before : s.IsSending j.seq) (sending : ∀ n, ¬ s'.IsSending n)
    (jobs : jobsIn s'.common.core.queue = jobsIn s.common.core.queue ++ [j])

theorem isSending_of_works {w : Who} (others : ∀ v, v ≠ w → s'.errand v = s.errand v) {n : ℕ}
    (h : s'.IsSending n) : s.IsSending n ∨ ∃ o, s'.errand w = .offers o (.sends n) := by
  obtain ⟨v, o, hv⟩ := h
  by_cases hvw : v = w
  · exact .inr ⟨o, hvw ▸ hv⟩
  · exact .inl ⟨v, o, (others v hvw).symm.trans hv⟩

theorem numbering_of_deed (hl : s.Locked) {w : Who} {e e' : Errand σ V} (he : s.errand w = e)
    (he' : s'.errand w = e') (others : ∀ v, v ≠ w → s'.errand v = s.errand v)
    (h : Deed s.common s'.common e e') : Numbering s s' := by
  have hsending : e'.isPlain = true ∨ (∀ o n, e' ≠ .offers o (.sends n)) →
      ∀ n, s'.IsSending n → s.IsSending n := by
    intro hplain n hn
    refine (isSending_of_works others hn).resolve_right fun ⟨o, ho⟩ => ?_
    rw [he'] at ho
    rcases hplain with hplain | hne
    · rw [ho] at hplain
      cases hplain
    · exact hne o n ho
  cases h with
  | calm h _ plain =>
    exact .keeps h.nextSeq (hsending (.inl plain)) (by rw [h.queue])
  | @numbers o hc =>
    refine .numbers (by rw [hc]; rfl) (fun n hn => ?_) (by rw [hc]; rfl) ?_ ⟨w, o, he'⟩
    · refine (isSending_of_works others hn).imp id fun ⟨o', ho'⟩ => ?_
      rw [he', Errand.offers.injEq, OfferStage.sends.injEq] at ho'
      exact ho'.2.symm
    · rintro n ⟨v, o', hv⟩
      rw [eq_of_sending hl (by rw [he]; rfl) hv, he] at hv
      cases hv
  | @sends o n hr hc =>
    refine .sends (j := o.job n) (by rw [hc]; rfl) ⟨w, o, he⟩ ?_ (by rw [hc]; simp [send])
    rintro m ⟨v, o', hv⟩
    by_cases hvw : v = w
    · rw [hvw, he'] at hv
      simp at hv
    · exact hvw (eq_of_sending hl (by rw [he]; rfl) ((others v hvw).symm.trans hv))
  | counts hc | refuses hc | bumps hc =>
    exact .keeps (by rw [hc]; rfl) (hsending (.inl rfl)) (by rw [hc]; exact .refl _)
  | raises hc => exact .keeps (by rw [hc]; rfl) (hsending (.inl rfl)) (by rw [hc]; exact .refl _)
  | reads hc => exact .keeps (by rw [hc]) (hsending (.inr fun _ _ h => by cases h)) (by rw [hc])
  | tells hr hc =>
    exact .keeps (by rw [hc]; rfl) (hsending (.inl rfl)) (by rw [hc]; simp [send])
  | loses hc _ _ plain =>
    exact .keeps (by rw [hc]; rfl) (hsending (.inl plain)) (by rw [hc]; exact List.nil_sublist _)

theorem numbering_of_deskDeed (h : DeskDeed s.common s'.common s.desk s'.desk)
    (errands : ∀ w, s'.errand w = s.errand w ∨
      (s.errand w).isIdle = true ∧ (s'.errand w).isPlain = true) : Numbering s s' := by
  have hsending : ∀ n, s'.IsSending n → s.IsSending n := by
    rintro n ⟨w, o, hw⟩
    rcases errands w with heq | ⟨-, hp⟩
    · exact ⟨w, o, heq.symm.trans hw⟩
    · rw [hw] at hp
      cases hp
  generalize s.desk = d at h
  generalize s'.desk = d' at h
  cases h with
  | calm h => exact .keeps h.nextSeq hsending (by rw [h.queue])
  | takes hq hc =>
    exact .keeps (by rw [hc]) hsending (by rw [hc, hq]; exact List.sublist_cons_self _ _)
  | halts hq hc => exact .keeps (by rw [hc]) hsending (by rw [hc, hq]; exact .refl _)
  | discards hc => exact .keeps (by rw [hc]; rfl) hsending (by rw [hc]; exact .refl _)
  | settles hc => exact .keeps (by rw [hc]; rfl) hsending (by rw [hc]; exact .refl _)
  | leaves hc => exact .keeps (by rw [hc]; rfl) hsending (by rw [hc]; exact List.nil_sublist _)

theorem numbering (hl : s.Locked) {e : Event σ V} (hs : Step s e s') : Numbering s s' := by
  cases effect_of_step hs with
  | works desk others h => exact numbering_of_deed hl rfl rfl others h
  | stays h errands => exact numbering_of_deskDeed h errands

theorem Sorted.step (h : s.Sorted) (hn : Numbering s s') : s'.Sorted := by
  cases hn with
  | keeps nextSeq sending jobs =>
    refine ⟨h.jobs.sublist jobs, ?_, ?_, ?_⟩
    · exact fun j hj => nextSeq ▸ h.lt_nextSeq j (jobs.subset hj)
    · exact fun n hs j hj => h.lt_sending n (sending n hs) j (jobs.subset hj)
    · exact fun n hs => nextSeq ▸ h.sending_lt n (sending n hs)
  | numbers nextSeq sending jobs =>
    refine ⟨jobs ▸ h.jobs, ?_, ?_, ?_⟩
    · intro j hj
      have := h.lt_nextSeq j (jobs ▸ hj)
      omega
    · intro n hs j hj
      rw [jobs] at hj
      rcases sending n hs with hs | rfl
      · exact h.lt_sending n hs j hj
      · exact h.lt_nextSeq j hj
    · intro n hs
      rcases sending n hs with hs | rfl
      · have := h.sending_lt n hs
        omega
      · omega
  | @sends j nextSeq before sending jobs =>
    refine ⟨?_, ?_, fun n hs => absurd hs (sending n), fun n hs => absurd hs (sending n)⟩
    · rw [jobs, List.pairwise_append]
      refine ⟨h.jobs, List.pairwise_singleton _ _, fun i hi k hk => ?_⟩
      rw [List.mem_singleton.mp hk]
      exact h.lt_sending j.seq before i hi
    · intro i hi
      rw [jobs, List.mem_append, List.mem_singleton] at hi
      rw [nextSeq]
      rcases hi with hi | rfl
      · exact h.lt_nextSeq i hi
      · exact h.sending_lt _ before

theorem Past.step {m : ℕ} (h : s.Past m) (hn : Numbering s s') : s'.Past m := by
  cases hn with
  | keeps nextSeq sending jobs =>
    exact ⟨fun n hs => h.sending n (sending n hs), nextSeq ▸ h.nextSeq⟩
  | numbers nextSeq sending jobs =>
    refine ⟨fun n hs => ?_, ?_⟩
    · rcases sending n hs with hs | rfl
      · exact h.sending n hs
      · exact h.nextSeq
    · have := h.nextSeq
      omega
  | sends nextSeq before sending jobs =>
    exact ⟨fun n hs => absurd hs (sending n), nextSeq ▸ h.nextSeq⟩

theorem Above.step {m : ℕ} (h : s.Above m) (hn : Numbering s s') : s'.Above m := by
  refine ⟨h.toPast.step hn, ?_⟩
  cases hn with
  | keeps nextSeq sending jobs => exact fun j hj => h.jobs j (jobs.subset hj)
  | numbers nextSeq sending jobs => exact fun j hj => h.jobs j (jobs ▸ hj)
  | @sends j nextSeq before sending jobs =>
    intro i hi
    rw [jobs, List.mem_append, List.mem_singleton] at hi
    rcases hi with hi | rfl
    · exact h.jobs i hi
    · exact h.sending _ before

end Threads

namespace ThreadsRun

open Threads

variable {R : ThreadsRun σ V}

theorem numbering (t : ℕ) : Numbering (R.after t) (R.after (t + 1)) :=
  Threads.numbering (R.locked t) (R.step t)

theorem sorted (t : ℕ) : (R.after t).Sorted := by
  induction t with
  | zero => exact ⟨.nil, nofun, nofun, fun n ⟨w, o, h⟩ => nomatch h⟩
  | succ t ih => exact ih.step (R.numbering t)

theorem past_of_le {t u m : ℕ} (h : (R.after t).Past m) (htu : t ≤ u) : (R.after u).Past m := by
  induction u, htu using Nat.le_induction with
  | base => exact h
  | succ u _ ih => exact ih.step (R.numbering u)

theorem above_of_le {t u m : ℕ} (h : (R.after t).Above m) (htu : t ≤ u) :
    (R.after u).Above m := by
  induction u, htu using Nat.le_induction with
  | base => exact h
  | succ u _ ih => exact ih.step (R.numbering u)

/-! ## Jobs are sent and taken in order -/

theorem isSending_of_sends {t : ℕ} {j : Job σ V} (h : R.Sends t j) :
    (R.after t).IsSending j.seq := by
  obtain ⟨w, o, n, ⟨he, -⟩, rfl⟩ := h
  exact ⟨w, o, he⟩

theorem past_of_sends {t : ℕ} {j : Job σ V} (h : R.Sends t j) : (R.after (t + 1)).Past j.seq := by
  have hlt := (R.sorted t).sending_lt _ (isSending_of_sends h)
  have hlen := congrArg List.length (jobs_of_sends h)
  rw [List.length_append, List.length_singleton] at hlen
  cases R.numbering t with
  | keeps nextSeq sending jobs =>
    have := jobs.length_le
    omega
  | numbers nextSeq sending jobs =>
    rw [jobs] at hlen
    omega
  | sends nextSeq before sending jobs =>
    exact ⟨fun n hs => absurd hs (sending n), nextSeq ▸ hlt⟩

/-- **Jobs are accepted in the order of their numbers.** -/
theorem lt_of_sends {t u : ℕ} {j k : Job σ V} (h : R.Sends t j) (h' : R.Sends u k) (htu : t < u) :
    j.seq < k.seq :=
  (past_of_le (past_of_sends h) htu).sending _ (isSending_of_sends h')

theorem jobs_of_takes {t : ℕ} {j : Job σ V} (h : R.Takes t j) :
    jobsIn (R.after t).common.core.queue = j :: jobsIn (R.after (t + 1)).common.core.queue := by
  obtain ⟨hnone, hsome⟩ := h.holds
  have hne : (R.after (t + 1)).desk.holds ≠ (R.after t).desk.holds := by
    rw [hnone, hsome]
    exact nofun
  cases R.tally t with
  | calm _ _ holds | loses _ _ holds => exact absurd holds hne
  | sends _ _ _ holds | counts _ _ _ holds | refuses _ _ _ holds => exact absurd holds hne
  | takes h' counts jobs =>
    obtain rfl := Desk.judges.inj (h.2.symm.trans h'.2)
    exact jobs
  | ends h' => cases hnone.symm.trans h'.holds.1

theorem above_of_takes {t : ℕ} {j : Job σ V} (h : R.Takes t j) :
    (R.after (t + 1)).Above j.seq := by
  have hjobs := jobs_of_takes h
  have hj : j ∈ jobsIn (R.after t).common.core.queue := hjobs ▸ List.mem_cons_self
  have hsorted := (R.sorted t).jobs
  rw [hjobs, List.pairwise_cons] at hsorted
  have hlen := congrArg List.length hjobs
  rw [List.length_cons] at hlen
  cases R.numbering t with
  | keeps nextSeq sending jobs =>
    exact ⟨⟨fun n hs => (R.sorted t).lt_sending n (sending n hs) j hj,
      nextSeq ▸ (R.sorted t).lt_nextSeq j hj⟩, hsorted.1⟩
  | numbers nextSeq sending jobs =>
    rw [jobs] at hlen
    omega
  | sends nextSeq before sending jobs =>
    rw [jobs, List.length_append] at hlen
    omega

/-- **The owner takes jobs in the order of their numbers.** -/
theorem lt_of_takes {t u : ℕ} {j k : Job σ V} (h : R.Takes t j) (h' : R.Takes u k) (htu : t < u) :
    j.seq < k.seq :=
  (above_of_le (above_of_takes h) htu).jobs k (jobs_of_takes h' ▸ List.mem_cons_self)

theorem takes_unique {t u : ℕ} {j k : Job σ V} (h : R.Takes t j) (h' : R.Takes u k)
    (hn : j.seq = k.seq) : t = u ∧ j = k := by
  rcases lt_trichotomy t u with htu | rfl | htu
  · have := lt_of_takes h h' htu
    omega
  · exact ⟨rfl, Desk.judges.inj (h.2.symm.trans h'.2)⟩
  · have := lt_of_takes h' h htu
    omega

/-! ## Numbers that are handed out -/

variable (R) in
/-- A job has got its number in vain: nobody has the other end of the queue any more. -/
def Wastes (t : ℕ) : Prop := ∃ w o n, R.Passes t w (.offers o (.sends n)) (.offers o .refuses)

theorem not_hasReader_of_wastes {t : ℕ} (h : R.Wastes t) :
    (R.after t).common.hasReader = false := by
  obtain ⟨w, o, n, hp⟩ := h
  obtain ⟨fault, -, he, -⟩ := common_of_passes hp rfl (by simp)
  simp only [Errand.step, OfferStage.step] at he
  split at he
  · simp at he
  · next hr => exact Bool.eq_false_iff.mpr hr

theorem isSending_succ {t n : ℕ} (h : (R.after t).IsSending n) :
    (R.after (t + 1)).IsSending n ∨ (∃ j, R.Sends t j) ∨ R.Wastes t := by
  obtain ⟨w, o, he⟩ := h
  by_cases hsame : (R.after (t + 1)).errand w = .offers o (.sends n)
  · exact .inl ⟨w, o, hsame⟩
  · obtain ⟨fault, -, he', -⟩ := common_of_passes ⟨he, rfl⟩ rfl hsame
    simp only [Errand.step, OfferStage.step] at he'
    split at he'
    · exact .inr (.inl ⟨o.job n, w, o, n, ⟨he, he'⟩, rfl⟩)
    · exact .inr (.inr ⟨w, o, n, he, he'⟩)

theorem sends_of_length {t : ℕ} (h : (jobsIn (R.after t).common.core.queue).length <
    (jobsIn (R.after (t + 1)).common.core.queue).length) : ∃ j, R.Sends t j := by
  cases R.tally t with
  | sends hj => exact ⟨_, hj⟩
  | calm _ jobs | counts _ _ jobs | refuses _ _ jobs | ends _ _ jobs =>
    rw [jobs] at h
    exact absurd h (lt_irrefl _)
  | takes _ _ jobs =>
    rw [jobs, List.length_cons] at h
    omega
  | loses _ jobs =>
    rw [jobs] at h
    exact absurd h (Nat.not_lt_zero _)

open Classical in
/-- **Every number that was handed out is that of a job that was accepted**, but for the last one
while whoever has got it has not come to send the job, if none was handed out in vain. -/
theorem nextSeq_eq {t : ℕ} (hw : ∀ u < t, ¬ R.Wastes u) :
    (R.after t).common.core.nextSeq =
      R.accepted t + if ∃ n, (R.after t).IsSending n then 1 else 0 := by
  induction t with
  | zero => rw [if_neg fun ⟨n, w, o, h⟩ => nomatch h]; rfl
  | succ t ih =>
    specialize ih fun u hu => hw u (by omega)
    cases R.numbering t with
    | keeps nextSeq sending jobs =>
      have hnone := not_sends_of_length jobs.length_le
      rw [nextSeq, ih, accepted_succ_of_not hnone, Nat.add_left_cancel_iff]
      refine if_congr ⟨fun ⟨n, hn⟩ => ⟨n, ?_⟩, fun ⟨n, hn⟩ => ⟨n, sending n hn⟩⟩ rfl rfl
      rcases isSending_succ hn with h | ⟨j, hj⟩ | h
      · exact h
      · exact absurd hj (hnone j)
      · exact absurd h (hw t (by omega))
    | numbers nextSeq sending jobs before next =>
      rw [nextSeq, ih, accepted_succ_of_not (not_sends_of_length (by rw [jobs])),
        if_neg fun ⟨n, hn⟩ => before n hn, if_pos ⟨_, next⟩]
    | sends nextSeq before sending jobs =>
      obtain ⟨j, hj⟩ := R.sends_of_length (t := t) (by rw [jobs]; simp)
      rw [nextSeq, ih, accepted_succ_of_sends hj, if_pos ⟨_, before⟩,
        if_neg fun ⟨n, hn⟩ => sending n hn]

/-! ## What becomes of a job -/

theorem exists_sends {t : ℕ} {j : Job σ V} (h : .job j ∈ (R.after t).common.core.queue) :
    ∃ a < t, R.Sends a j := by
  induction t with
  | zero => exact absurd h List.not_mem_nil
  | succ t ih =>
    have hkeep : j ∈ jobsIn (R.after t).common.core.queue → ∃ a < t + 1, R.Sends a j := by
      intro hj
      obtain ⟨a, ha, hs⟩ := ih (mem_jobsIn.mp hj)
      exact ⟨a, by omega, hs⟩
    rw [← mem_jobsIn] at h
    cases R.tally t with
    | calm _ jobs | counts _ _ jobs | refuses _ _ jobs | ends _ _ jobs => exact hkeep (jobs ▸ h)
    | takes _ _ jobs => exact hkeep (jobs ▸ List.mem_cons_of_mem _ h)
    | loses _ jobs =>
      rw [jobs] at h
      exact absurd h List.not_mem_nil
    | sends hs _ jobs =>
      rw [jobs, List.mem_append, List.mem_singleton] at h
      rcases h with h | rfl
      · exact hkeep h
      · exact ⟨t, by omega, hs⟩

/-- **What becomes of a job that has been accepted**: it waits in the queue, or the owner has taken
it, unless it was lost with the queue. -/
theorem queued_or {a t : ℕ} {j : Job σ V} (h : R.Sends a j) (hat : a < t) :
    .job j ∈ (R.after t).common.core.queue ∨
      (∃ u, a < u ∧ u < t ∧ R.Takes u j) ∨ ∃ u, a < u ∧ u < t ∧ R.Loses u j := by
  induction t, hat using Nat.le_induction with
  | base => exact .inl (mem_jobsIn.mp (by rw [jobs_of_sends h]; simp))
  | succ t hat ih =>
    rcases ih with hq | ⟨u, hau, hut, hu⟩ | ⟨u, hau, hut, hu⟩
    · by_cases hq' : .job j ∈ (R.after (t + 1)).common.core.queue
      · exact .inl hq'
      · by_cases ht : R.Takes t j
        · exact .inr (.inl ⟨t, hat, by omega, ht⟩)
        · exact .inr (.inr ⟨t, hat, by omega, hq, hq', ht⟩)
    · exact .inr (.inl ⟨u, hau, by omega, hu⟩)
    · exact .inr (.inr ⟨u, hau, by omega, hu⟩)

/-- What the owner has in hand, it has taken, and has had in hand since. -/
theorem exists_takes {t n : ℕ} (h : (R.after t).desk.holds = some n) :
    ∃ u < t, ∃ j, R.Takes u j ∧ j.seq = n ∧
      ∀ v, u < v → v ≤ t → (R.after v).desk.holds = some n := by
  induction t with
  | zero => cases h
  | succ t ih =>
    have hkeep : (R.after (t + 1)).desk.holds = (R.after t).desk.holds → ∃ u < t + 1, ∃ j,
        R.Takes u j ∧ j.seq = n ∧ ∀ v, u < v → v ≤ t + 1 → (R.after v).desk.holds = some n := by
      intro holds
      obtain ⟨u, hu, j, ht, hj, hv⟩ := ih (holds.symm.trans h)
      refine ⟨u, by omega, j, ht, hj, fun v huv hvt => ?_⟩
      rcases Nat.lt_or_eq_of_le hvt with hvt | rfl
      · exact hv v huv (by omega)
      · exact h
    cases R.tally t with
    | calm _ _ holds | loses _ _ holds => exact hkeep holds
    | sends _ _ _ holds | counts _ _ _ holds | refuses _ _ _ holds => exact hkeep holds
    | @takes j ht =>
      refine ⟨t, by omega, j, ht, Option.some.inj (ht.holds.2.symm.trans h), fun v hv hvt => ?_⟩
      rw [show v = t + 1 by omega]
      exact h
    | ends he => cases he.holds.2.symm.trans h

/-- **What becomes of a job that has been taken**: the owner has it in hand, until it has ended. -/
theorem held_or_ends {u t : ℕ} {j : Job σ V} (h : R.Takes u j) (hut : u < t) :
    (R.after t).desk.holds = some j.seq ∨ ∃ v, u < v ∧ v < t ∧ ∃ e, R.Ends v j.seq e := by
  induction t, hut using Nat.le_induction with
  | base => exact .inl h.holds.2
  | succ t hut ih =>
    rcases ih with hheld | ⟨v, huv, hvt, he⟩
    · cases R.tally t with
      | calm _ _ holds | loses _ _ holds => exact .inl (holds.trans hheld)
      | sends _ _ _ holds | counts _ _ _ holds | refuses _ _ _ holds =>
        exact .inl (holds.trans hheld)
      | takes ht => cases ht.holds.1.symm.trans hheld
      | ends he =>
        obtain rfl := Option.some.inj (he.holds.1.symm.trans hheld)
        exact .inr ⟨t, hut, by omega, _, he⟩
    · exact .inr ⟨v, huv, by omega, he⟩

theorem takes_of_ends {t n : ℕ} {e : JobEnd} (h : R.Ends t n e) :
    ∃ u < t, ∃ j, R.Takes u j ∧ j.seq = n ∧
      ∀ v, u < v → v ≤ t → (R.after v).desk.holds = some n :=
  exists_takes h.holds.1

theorem ends_of_ends {t n : ℕ} {e e' : JobEnd} (h : R.Ends t n e) (h' : R.Ends t n e') :
    e = e' := by
  cases h with
  | dropped hn hd =>
    cases h' with
    | dropped => rfl
    | settled hd' => cases hd.symm.trans hd'
  | settled hd =>
    cases h' with
    | dropped _ hd' => cases hd.symm.trans hd'
    | settled hd' =>
      obtain ⟨-, rfl⟩ := Desk.settles.inj (hd.symm.trans hd')
      rfl

theorem not_held_of_ends {t u n : ℕ} {e : JobEnd} (h : R.Ends t n e) (htu : t < u) :
    (R.after u).desk.holds ≠ some n := by
  intro hheld
  obtain ⟨a, hat, j, ht, hj, -⟩ := takes_of_ends h
  obtain ⟨b, hbu, k, hk, hkn, hsince⟩ := exists_takes hheld
  obtain ⟨rfl, -⟩ := takes_unique ht hk (hj.trans hkn.symm)
  cases h.holds.2.symm.trans (hsince (t + 1) (by omega) (by omega))

/-- **A job ends once**, and in one way. -/
theorem ends_unique {t u n : ℕ} {e e' : JobEnd} (h : R.Ends t n e) (h' : R.Ends u n e') :
    t = u ∧ e = e' := by
  rcases lt_trichotomy t u with htu | rfl | htu
  · exact absurd h'.holds.1 (not_held_of_ends h htu)
  · exact ⟨rfl, ends_of_ends h h'⟩
  · exact absurd h.holds.1 (not_held_of_ends h' htu)

end ThreadsRun

end SymbolIndex
