import Mathlib.Data.List.Infix
import SymbolIndex.Proofs.Serializer.Turns

/-!
# Runs of a serializer

A run is a serializer that nobody has used yet and everything that happens to it afterwards, one
move after the other: threads ask for things at any time, and the owner may be held up for as long
as one likes.

* `Run`, `Run.after`: runs, and the serializer after some moves;
* `Run.accepted`: the jobs that were accepted, in this order;
* `Run.Leaves`, `Run.Starts`, `Run.Drops`, `Run.Ends`: what happens to jobs;
* `Run.accepted_seq`: jobs are numbered from 0 on, without a gap;
* `Run.taken`, `Run.seq_of_leaves`, `Run.exists_leaves`: jobs leave the queue in this order;
* `Run.exists_starts`: a job that is being run was started, and has been run ever since.
-/

namespace SymbolIndex

open Serializer

/-- A run of a serializer. -/
structure Run (σ V : Type) where
  name : String
  background : Bool
  state : σ
  moves : ℕ → Move σ V

namespace Run

variable {σ V : Type} (R : Run σ V)

/-- The serializer after some moves. -/
def after : ℕ → Serializer σ V
  | 0 => { name := R.name, background := R.background, state := R.state }
  | t + 1 => (after t).move (R.moves t)

/-- The request that a move makes. -/
def request (t : ℕ) : Option (Request σ V) := (R.after t).requestOf (R.moves t)

/-- The job that a move adds to the queue. -/
def newJob (t : ℕ) : Option (Job σ V) := (R.request t).bind (R.after t).acceptedBy

/-- The jobs that some moves have added to the queue, the first one in front. -/
def accepted : ℕ → List (Job σ V)
  | 0 => []
  | t + 1 => accepted t ++ (R.newJob t).toList

/-- A move takes a job from the queue. -/
def Leaves (t : ℕ) (j : Job σ V) : Prop := (R.after t).queue = .job j :: (R.after (t + 1)).queue

/-- A move starts a job. -/
def Starts (t : ℕ) (j : Job σ V) : Prop :=
  R.Leaves t j ∧ (R.after (t + 1)).current = some ((R.after t).starting j)

/-- A move drops a job. -/
def Drops (t : ℕ) (j : Job σ V) : Prop := R.Leaves t j ∧ (R.after (t + 1)).current = none

/-- The job of this number is being run after some moves, or its callback. -/
def Busy (t n : ℕ) : Prop := ∃ r, (R.after t).current = some r ∧ r.seq = n

/-- A move ends a job. -/
def Ends (t n : ℕ) : Prop := R.Busy t n ∧ (R.after (t + 1)).current = none

/-- The work of a job ends in a move, with this outcome. -/
def WorkEnds (t n : ℕ) (o : Outcome V) : Prop := (R.after t).ending (R.moves t) = some (n, o)

theorem step (t : ℕ) : Step (R.after t) (R.moves t) (R.after (t + 1)) :=
  step_move (R.after t) (R.moves t)

theorem after_foldl {t : ℕ} {ms : List (Move σ V)}
    (h : ∀ k (hk : k < ms.length), R.moves (t + k) = ms[k]) :
    R.after (t + ms.length) = ms.foldl move (R.after t) := by
  induction ms generalizing t with
  | nil => rfl
  | cons m ms ih =>
    have hm : R.moves t = m := h 0 (Nat.succ_pos _)
    have hnext : R.after (t + 1) = (R.after t).move m := by rw [after, hm]
    rw [List.foldl_cons, ← hnext, ← ih fun k hk => ?_]
    · rw [List.length_cons, Nat.add_assoc, Nat.add_comm 1]
    · rw [show t + 1 + k = t + (k + 1) by omega]
      exact h (k + 1) (Nat.succ_lt_succ hk)

theorem accepted_succ (t : ℕ) : R.accepted (t + 1) = R.accepted t ++ (R.newJob t).toList := rfl

/-! ## The queue -/

/-- What a move does to the queue: it adds a job, adds at most a stop, or takes a message. -/
theorem queue_succ (t : ℕ) :
    (∃ j, R.newJob t = some j ∧ j.seq = (R.after t).nextSeq ∧
        (R.after (t + 1)).nextSeq = (R.after t).nextSeq + 1 ∧
        (R.after (t + 1)).queue = (R.after t).queue ++ [.job j]) ∨
      (R.newJob t = none ∧ (R.after (t + 1)).nextSeq = (R.after t).nextSeq ∧
        ((R.after (t + 1)).queue = (R.after t).queue ∨
          (R.after (t + 1)).queue = (R.after t).queue ++ [.stop])) ∨
      R.newJob t = none ∧ (R.after (t + 1)).nextSeq = (R.after t).nextSeq ∧
        (R.after t).current = none ∧ ∃ msg, (R.after t).queue = msg :: (R.after (t + 1)).queue := by
  have hn : R.newJob t = ((R.after t).requestOf (R.moves t)).bind (R.after t).acceptedBy := rfl
  rcases front_of_step (R.step t) with hf | ⟨hr, -, hc, msg, queue, hq, hf⟩
  · have hqueue := congrArg Front.queue hf
    have hseq := congrArg Front.nextSeq hf
    simp only [front] at hqueue hseq
    rw [hqueue, hseq, hn]
    cases hr : (R.after t).requestOf (R.moves t) with
    | none => exact .inr (.inl ⟨rfl, rfl, .inl rfl⟩)
    | some q =>
      rcases queue_serve (R.after t) q with ⟨j, ha, hq, hj, hs⟩ | ⟨ha, hs, hq⟩
      · exact .inl ⟨j, ha, hj, hs, hq⟩
      · exact .inr (.inl ⟨ha, hs, hq⟩)
  · refine .inr (.inr ⟨by rw [hn, hr, Option.bind_none], ?_, hc, msg, ?_⟩)
    · have := congrArg Front.nextSeq hf
      cases msg <;> exact this
    · have := congrArg Front.queue hf
      rw [hq]
      cases msg <;> exact congrArg _ this.symm

theorem seq_of_newJob {t : ℕ} {j : Job σ V} (h : R.newJob t = some j) :
    j.seq = (R.after t).nextSeq ∧ (R.after (t + 1)).nextSeq = (R.after t).nextSeq + 1 := by
  rcases R.queue_succ t with ⟨j', hj, hseq, hnext, -⟩ | ⟨hnone, -⟩ | ⟨hnone, -⟩
  · obtain rfl := Option.some.inj (h.symm.trans hj)
    exact ⟨hseq, hnext⟩
  · cases h.symm.trans hnone
  · cases h.symm.trans hnone

theorem of_takes {t : ℕ} {msg : Message σ V}
    (h : (R.after t).queue = msg :: (R.after (t + 1)).queue) :
    R.newJob t = none ∧ (R.after t).current = none := by
  have hl : (R.after t).queue.length = (R.after (t + 1)).queue.length + 1 := by
    rw [h, List.length_cons]
  rcases R.queue_succ t with ⟨j', -, -, -, hq⟩ | ⟨-, -, hq | hq⟩ | ⟨hn, -, hc, -⟩
  · rw [hq, List.length_append] at hl; omega
  · rw [hq] at hl; omega
  · rw [hq, List.length_append] at hl; omega
  · exact ⟨hn, hc⟩

theorem of_leaves {t : ℕ} {j : Job σ V} (h : R.Leaves t j) :
    R.newJob t = none ∧ (R.after t).current = none := R.of_takes h

/-- **Accepted jobs are numbered from 0 on, without a gap.** -/
theorem accepted_seq (t : ℕ) :
    (R.accepted t).map Job.seq = List.range (R.after t).nextSeq := by
  induction t with
  | zero => rfl
  | succ t ih =>
    rw [accepted_succ]
    rcases R.queue_succ t with ⟨j, hn, hj, hs, -⟩ | ⟨hn, hs, -⟩ | ⟨hn, hs, -⟩
    · rw [hn, hs, List.map_append, ih, List.range_succ]
      simp [hj]
    · rw [hn, hs, Option.toList_none, List.append_nil, ih]
    · rw [hn, hs, Option.toList_none, List.append_nil, ih]

theorem length_accepted (t : ℕ) : (R.accepted t).length = (R.after t).nextSeq := by
  rw [← List.length_map (f := Job.seq), accepted_seq, List.length_range]

/-- The queue holds the last jobs that were accepted. -/
theorem jobsIn_suffix (t : ℕ) : jobsIn (R.after t).queue <:+ R.accepted t := by
  induction t with
  | zero => exact List.suffix_refl _
  | succ t ih =>
    obtain ⟨left, hl⟩ := ih
    rw [accepted_succ, ← hl]
    rcases R.queue_succ t with ⟨j, hn, -, -, hq⟩ | ⟨hn, -, hq | hq⟩ | ⟨hn, -, -, msg, hq⟩
    · exact ⟨left, by rw [hn, hq, jobsIn_append, List.append_assoc]; rfl⟩
    · exact ⟨left, by rw [hn, hq, Option.toList_none, List.append_nil]⟩
    · exact ⟨left, by rw [hn, hq, jobsIn_append, Option.toList_none, List.append_nil]; simp⟩
    · rw [hn, hq, Option.toList_none, List.append_nil]
      cases msg with
      | job j => exact ⟨left ++ [j], by rw [jobsIn_cons_job, List.append_assoc]; rfl⟩
      | stop => exact ⟨left, rfl⟩

/-! ## Leaving the queue -/

/-- How many jobs have left the queue. -/
def taken (t : ℕ) : ℕ := (R.accepted t).length - (jobsIn (R.after t).queue).length

theorem accepted_of_leaves {t : ℕ} {j : Job σ V} (h : R.Leaves t j) :
    (R.accepted t)[R.taken t]? = some j := by
  obtain ⟨left, hl⟩ := R.jobsIn_suffix t
  have hlen := congrArg List.length hl
  rw [List.length_append] at hlen
  have ht : R.taken t = left.length := by unfold taken; omega
  rw [ht, ← hl, show (R.after t).queue = _ from h, jobsIn_cons_job, List.getElem?_append_right le_rfl,
    Nat.sub_self, List.getElem?_cons_zero]

theorem seq_of_accepted {t n : ℕ} {j : Job σ V} (h : (R.accepted t)[n]? = some j) : j.seq = n := by
  have hm := congrArg (fun l => l[n]?) (R.accepted_seq t)
  simp only [List.getElem?_map, h, Option.map_some] at hm
  obtain ⟨hn, he⟩ := List.getElem?_eq_some_iff.mp hm.symm
  rw [← he, List.getElem_range hn]

/-- **Jobs leave the queue in the order of their numbers.** -/
theorem seq_of_leaves {t : ℕ} {j : Job σ V} (h : R.Leaves t j) : j.seq = R.taken t :=
  R.seq_of_accepted (R.accepted_of_leaves h)

theorem mem_accepted_of_leaves {t : ℕ} {j : Job σ V} (h : R.Leaves t j) : j ∈ R.accepted t :=
  List.mem_of_getElem? (R.accepted_of_leaves h)

theorem taken_succ_of_leaves {t : ℕ} {j : Job σ V} (h : R.Leaves t j) :
    R.taken (t + 1) = R.taken t + 1 := by
  have hs := (R.jobsIn_suffix t).length_le
  have hq : (jobsIn (R.after t).queue).length = (jobsIn (R.after (t + 1)).queue).length + 1 := by
    rw [show (R.after t).queue = _ from h, jobsIn_cons_job, List.length_cons]
  unfold taken
  rw [accepted_succ, (R.of_leaves h).1, Option.toList_none, List.append_nil]
  omega

theorem taken_succ (t : ℕ) : R.taken (t + 1) = R.taken t ∨ ∃ j, R.Leaves t j := by
  unfold taken
  rw [accepted_succ]
  rcases R.queue_succ t with ⟨j, hn, -, -, hq⟩ | ⟨hn, -, hq | hq⟩ | ⟨hn, -, -, msg, hq⟩
  · rw [hn, hq]
    simp
  · rw [hn, hq]
    simp
  · rw [hn, hq]
    simp
  · cases msg with
    | job j => exact .inr ⟨j, hq⟩
    | stop =>
      rw [hn, hq]
      simp

theorem taken_mono {t u : ℕ} (h : t ≤ u) : R.taken t ≤ R.taken u := by
  induction h with
  | refl => exact le_rfl
  | @step u _ ih =>
    rcases R.taken_succ u with hu | ⟨j, hj⟩
    · rw [hu]; exact ih
    · rw [R.taken_succ_of_leaves hj]; omega

theorem exists_leaves {t n : ℕ} (h : n < R.taken t) : ∃ u < t, ∃ j, R.Leaves u j ∧ j.seq = n := by
  induction t with
  | zero => cases h
  | succ t ih =>
    rcases R.taken_succ t with ht | ⟨j, hj⟩
    · obtain ⟨u, hu, hj⟩ := ih (ht ▸ h)
      exact ⟨u, by omega, hj⟩
    · have ht := R.taken_succ_of_leaves hj
      by_cases hn : n < R.taken t
      · obtain ⟨u, hu, hj⟩ := ih hn
        exact ⟨u, by omega, hj⟩
      · exact ⟨t, by omega, j, hj, by rw [R.seq_of_leaves hj]; omega⟩

theorem seq_lt_of_leaves {t u : ℕ} {j k : Job σ V} (hj : R.Leaves t j) (hk : R.Leaves u k)
    (h : t < u) : j.seq < k.seq := by
  have hm := R.taken_mono (show t + 1 ≤ u from h)
  rw [R.taken_succ_of_leaves hj] at hm
  rw [R.seq_of_leaves hj, R.seq_of_leaves hk]
  omega

theorem leaves_unique {t u : ℕ} {j k : Job σ V} (hj : R.Leaves t j) (hk : R.Leaves u k)
    (h : j.seq = k.seq) : t = u ∧ j = k := by
  have htu : t = u := by
    rcases lt_trichotomy t u with hlt | rfl | hlt
    · have := R.seq_lt_of_leaves hj hk hlt; omega
    · rfl
    · have := R.seq_lt_of_leaves hk hj hlt; omega
  subst htu
  have := (show (R.after t).queue = _ from hj).symm.trans hk
  simp only [List.cons.injEq, Message.job.injEq, and_true] at this
  exact ⟨rfl, this⟩

theorem accepted_prefix {t u : ℕ} (h : t ≤ u) : R.accepted t <+: R.accepted u := by
  induction h with
  | refl => exact List.prefix_refl _
  | step _ ih => exact ih.trans (List.prefix_append _ _)

theorem mem_accepted_of_newJob {t u : ℕ} {j : Job σ V} (h : R.newJob t = some j) (htu : t < u) :
    j ∈ R.accepted u := by
  refine (R.accepted_prefix (show t + 1 ≤ u from htu)).subset ?_
  rw [accepted_succ, h]
  exact List.mem_append_right _ (List.mem_singleton_self j)

theorem getElem?_of_mem_accepted {t : ℕ} {j : Job σ V} (h : j ∈ R.accepted t) :
    (R.accepted t)[j.seq]? = some j := by
  obtain ⟨n, hn⟩ := List.mem_iff_getElem?.mp h
  rw [R.seq_of_accepted hn]
  exact hn

theorem seq_lt_of_mem_accepted {t : ℕ} {j : Job σ V} (h : j ∈ R.accepted t) :
    j.seq < (R.after t).nextSeq := by
  rw [← R.length_accepted]
  exact (List.getElem?_eq_some_iff.mp (R.getElem?_of_mem_accepted h)).1

theorem eq_of_seq {t u : ℕ} {j k : Job σ V} (hj : j ∈ R.accepted t) (hk : k ∈ R.accepted u)
    (h : j.seq = k.seq) : j = k := by
  have hj := getElem?_of_mem_accepted R ((R.accepted_prefix (le_max_left t u)).subset hj)
  have hk := getElem?_of_mem_accepted R ((R.accepted_prefix (le_max_right t u)).subset hk)
  rw [h] at hj
  exact Option.some.inj (hj.symm.trans hk)

/-- **A job waits in the queue** until as many jobs have left it as there are before it. -/
theorem mem_queue_iff_taken_le {t : ℕ} {j : Job σ V} (hj : j ∈ R.accepted t) :
    .job j ∈ (R.after t).queue ↔ R.taken t ≤ j.seq := by
  have hget := R.getElem?_of_mem_accepted hj
  obtain ⟨left, hl⟩ := R.jobsIn_suffix t
  have htaken : R.taken t = left.length := by
    have hlen := congrArg List.length hl
    rw [List.length_append] at hlen
    unfold taken
    omega
  rw [← mem_jobsIn, htaken]
  constructor
  · intro hm
    obtain ⟨i, hi⟩ := List.mem_iff_getElem?.mp hm
    have hplace : (R.accepted t)[left.length + i]? = some j := by
      rw [← hl, List.getElem?_append_right (Nat.le_add_right _ _), Nat.add_sub_cancel_left, hi]
    exact Nat.le.intro (R.seq_of_accepted hplace).symm
  · intro hle
    rw [← hl, List.getElem?_append_right hle] at hget
    exact List.mem_of_getElem? hget

/-! ## Jobs that are being run -/

theorem progress {t : ℕ} {r : Running σ V} (hr : (R.after t).current = some r) :
    Progress (R.after t) (R.moves t) r (R.after (t + 1)) :=
  progress_of_step (R.step t) hr

theorem uptake {t : ℕ} (hc : (R.after t).current = none) :
    Uptake (R.after t) (R.after (t + 1)) :=
  uptake_of_step (R.step t) hc

theorem starts_or_drops {t : ℕ} {j : Job σ V} (h : R.Leaves t j) :
    R.Starts t j ∧ ¬ (R.after t).Dismisses j ∨ R.Drops t j ∧ (R.after t).Dismisses j := by
  have hc := (R.of_leaves h).2
  have hinj : ∀ k, (R.after t).queue = .job k :: (R.after (t + 1)).queue → k = j := by
    intro k hk
    have := hk.symm.trans h
    simpa using this
  cases R.uptake hc with
  | none hq hb => exact absurd h (hq j)
  | starts hq hd hb =>
    obtain rfl := hinj _ hq
    exact .inl ⟨⟨h, congrArg Back.current hb⟩, hd⟩
  | drops hq hd hb =>
    obtain rfl := hinj _ hq
    exact .inr ⟨⟨h, (congrArg Back.current hb).trans hc⟩, hd⟩

/-- **A job that is being run was started, and has been run ever since.** If it is its work that is
run, then it has been its work ever since. -/
theorem exists_starts {t : ℕ} {r : Running σ V} (hr : (R.after t).current = some r) :
    ∃ u < t, ∃ j, R.Starts u j ∧ j.seq = r.seq ∧ j.delivery = r.delivery ∧
      ∀ v, u < v → v ≤ t → ∃ r', (R.after v).current = some r' ∧ r'.seq = r.seq ∧
        (r.stage = .work → r'.stage = .work) := by
  induction t generalizing r with
  | zero => cases hr
  | succ t ih =>
    cases hc : (R.after t).current with
    | none =>
      cases R.uptake hc with
      | none hq hb =>
        have := congrArg Back.current hb
        rw [show (R.after (t + 1)).back.current = some r from hr,
          show (R.after t).back.current = _ from hc] at this
        cases this
      | @starts j hq hd hb =>
        have hs : (R.after (t + 1)).current = some ((R.after t).starting j) :=
          congrArg Back.current hb
        obtain rfl := Option.some.inj (hr.symm.trans hs)
        refine ⟨t, by omega, j, ⟨hq, hs⟩, rfl, rfl, fun v hv hv' => ?_⟩
        obtain rfl : v = t + 1 := by omega
        exact ⟨_, hs, rfl, fun _ => rfl⟩
      | drops hq hd hb =>
        have : (R.after (t + 1)).current = none := (congrArg Back.current hb).trans hc
        rw [hr] at this
        cases this
    | some r₀ =>
      obtain ⟨u, hu, j, hj, hseq, hdel, hsince⟩ := ih hc
      have hlast : ∀ v, ¬ v ≤ t → v ≤ t + 1 → v = t + 1 := by omega
      cases R.progress hc with
      | goesOn he hc' hs hd hg =>
        obtain rfl := Option.some.inj (hr.symm.trans hc')
        refine ⟨u, by omega, j, hj, hseq.trans hs.symm, hdel.trans hd.symm, fun v hv hv' => ?_⟩
        by_cases hvt : v ≤ t
        · rw [hs, hg]
          exact hsince v hv hvt
        · rw [hlast v hvt hv']
          exact ⟨r, hr, rfl, id⟩
      | callsBack he hg hd hc' =>
        obtain rfl := Option.some.inj (hr.symm.trans hc')
        refine ⟨u, by omega, j, hj, hseq, hdel, fun v hv hv' => ?_⟩
        by_cases hvt : v ≤ t
        · obtain ⟨r', hr', hs', -⟩ := hsince v hv hvt
          exact ⟨r', hr', hs', nofun⟩
        · rw [hlast v hvt hv']
          exact ⟨_, hr, rfl, nofun⟩
      | ends he hg hd hc' | returns he hg hc' => rw [hr] at hc'; cases hc'

theorem ends_or_busy {t u n : ℕ} (h : R.Busy t n) (htu : t ≤ u) :
    (∃ e, t ≤ e ∧ e < u ∧ R.Ends e n) ∨ R.Busy u n := by
  induction htu with
  | refl => exact .inr h
  | @step u htu ih =>
    rcases ih with ⟨e, hte, heu, he⟩ | hb
    · exact .inl ⟨e, hte, by omega, he⟩
    · obtain ⟨r, hr, hn⟩ := hb
      cases R.progress hr with
      | goesOn he hc hs => exact .inr ⟨_, hc, hs.trans hn⟩
      | callsBack he hg hd hc => exact .inr ⟨_, hc, hn⟩
      | ends he hg hd hc | returns he hg hc => exact .inl ⟨u, htu, by omega, ⟨r, hr, hn⟩, hc⟩

theorem exists_ends {t u n : ℕ} (h : R.Busy t n) (hu : (R.after u).current = none) (htu : t ≤ u) :
    ∃ e, t ≤ e ∧ e < u ∧ R.Ends e n := by
  rcases R.ends_or_busy h htu with he | ⟨r, hr, -⟩
  · exact he
  · rw [hu] at hr
    cases hr

theorem busy_of_starts {t : ℕ} {j : Job σ V} (h : R.Starts t j) : R.Busy (t + 1) j.seq :=
  ⟨_, h.2, rfl⟩

end Run

end SymbolIndex
