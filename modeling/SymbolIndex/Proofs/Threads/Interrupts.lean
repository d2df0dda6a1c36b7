import SymbolIndex.Proofs.Threads.Desks

/-!
# Interrupts

An interrupt for the jobs that wait reads the next number, and raises the mark to it later. An
interrupt for the job that is being run is one more in the count of all interrupts.

* `ThreadsRun.Clears`, `lt_dropBelow_iff`: the numbers below the mark;
* `ThreadsRun.Numbers`, `dismisses_iff`: the jobs that the owner drops;
* `ThreadsRun.Bumps`, `epoch_eq_ofNat`: the interrupts that are counted;
* `ThreadsRun.isInterrupted_newToken_iff`: the tokens that are interrupted.
-/

namespace SymbolIndex

open Serializer

variable {σ V : Type}

namespace ThreadsRun

open Threads

/-! ## Marks -/

/-- A thread that interrupts what is pending reads the next number at one moment, and raises the
mark to it at a later one. -/
structure Clears (R : ThreadsRun σ V) (w : Who) (a b : ℕ) : Prop where
  lt : a < b
  reads : (R.after a).errand w = .interrupts .readsNext
  carries : ∀ u, a < u → u ≤ b →
    (R.after u).errand w = .interrupts (.raises (R.after a).common.core.nextSeq)
  raises : (R.after (b + 1)).errand w = .interrupts .bumps

/-- A job gets its number. -/
def Numbers (R : ThreadsRun σ V) (t : ℕ) (j : Job σ V) : Prop :=
  ∃ w o n, R.Passes t w (.offers o .numbers) (.offers o (.sends n)) ∧ j = o.job n

variable {R : ThreadsRun σ V}

/-- What a thread has in mind from the step before, it did in that step. -/
theorem deed_of_not_isPlain {t : ℕ} {w : Who} (h : ((R.after (t + 1)).errand w).isPlain = false)
    (hne : (R.after (t + 1)).errand w ≠ (R.after t).errand w) :
    Deed (R.after t).common (R.after (t + 1)).common ((R.after t).errand w)
      ((R.after (t + 1)).errand w) := by
  cases effect_of_step (R.step t) with
  | @works v desk others hd =>
    by_cases hw : w = v
    · exact hw ▸ hd
    · exact absurd (others w hw) hne
  | stays hd errands =>
    rcases errands w with heq | ⟨-, hp⟩
    · exact absurd heq hne
    · cases h.symm.trans hp

theorem reads_of_raises {t n : ℕ} {w : Who}
    (h : (R.after t).errand w = .interrupts (.raises n)) :
    ∃ a < t, (R.after a).errand w = .interrupts .readsNext ∧
      n = (R.after a).common.core.nextSeq ∧
      ∀ u, a < u → u ≤ t → (R.after u).errand w = .interrupts (.raises n) := by
  induction t with
  | zero => cases h
  | succ t ih =>
    by_cases hsame : (R.after t).errand w = .interrupts (.raises n)
    · obtain ⟨a, hat, ha, hn, hsince⟩ := ih hsame
      refine ⟨a, by omega, ha, hn, fun u hau hut => ?_⟩
      rcases Nat.lt_or_eq_of_le hut with hut | rfl
      · exact hsince u hau (by omega)
      · exact h
    · have hd := deed_of_not_isPlain (w := w) (by rw [h]; rfl) fun heq => hsame (heq.symm.trans h)
      rw [h] at hd
      generalize he : (R.after t).errand w = e at hd
      cases hd with
      | calm _ _ plain | loses _ _ _ plain => cases plain
      | reads =>
        exact ⟨t, by omega, he, rfl, fun u hu hut => by rwa [show u = t + 1 by omega]⟩

theorem numbers_of_sending {t n : ℕ} {w : Who} {o : Offer σ V}
    (h : (R.after t).errand w = .offers o (.sends n)) :
    ∃ a < t, R.Passes a w (.offers o .numbers) (.offers o (.sends n)) := by
  induction t with
  | zero => cases h
  | succ t ih =>
    by_cases hsame : (R.after t).errand w = .offers o (.sends n)
    · obtain ⟨a, hat, ha⟩ := ih hsame
      exact ⟨a, by omega, ha⟩
    · have hd := deed_of_not_isPlain (w := w) (by rw [h]; rfl) fun heq => hsame (heq.symm.trans h)
      have h' := h
      rw [h] at hd
      generalize he : (R.after t).errand w = e at hd
      cases hd with
      | calm _ _ plain | loses _ _ _ plain => cases plain
      | numbers => exact ⟨t, by omega, he, h'⟩

theorem numbers_of_judges {t : ℕ} {j : Job σ V} (h : (R.after t).desk = .judges j) :
    ∃ a < t, R.Numbers a j := by
  obtain ⟨u, hut, ht, -⟩ := takes_of_judges h
  obtain ⟨b, hbu, w, o, n, ⟨he, -⟩, hj⟩ :=
    R.exists_sends (mem_jobsIn.mp (jobs_of_takes ht ▸ List.mem_cons_self))
  obtain ⟨a, hab, ha⟩ := numbers_of_sending he
  exact ⟨a, by omega, w, o, n, ha, hj⟩

theorem nextSeq_mono {t u : ℕ} (h : t ≤ u) :
    (R.after t).common.core.nextSeq ≤ (R.after u).common.core.nextSeq := by
  induction u, h using Nat.le_induction with
  | base => exact le_rfl
  | succ u _ ih =>
    cases R.numbering u with
    | keeps nextSeq | sends nextSeq | numbers nextSeq => omega

theorem nextSeq_of_numbers {t : ℕ} {j : Job σ V} (h : R.Numbers t j) :
    (R.after t).common.core.nextSeq = j.seq ∧
      (R.after (t + 1)).common.core.nextSeq = j.seq + 1 := by
  obtain ⟨w, o, n, hp, rfl⟩ := h
  obtain ⟨fault, hcommon, he, -⟩ := common_of_passes hp rfl (by simp)
  rw [Errand.step, OfferStage.step] at hcommon he
  obtain ⟨-, hn⟩ := Errand.offers.inj he
  obtain rfl := OfferStage.sends.inj hn
  rw [hcommon]
  exact ⟨rfl, rfl⟩

theorem seq_lt_nextSeq_iff {t u : ℕ} {j : Job σ V} (h : R.Numbers t j) :
    j.seq < (R.after u).common.core.nextSeq ↔ t < u := by
  obtain ⟨hbefore, hafter⟩ := nextSeq_of_numbers h
  constructor
  · intro hlt
    by_contra hut
    have := R.nextSeq_mono (Nat.le_of_not_lt hut)
    omega
  · intro htu
    have := R.nextSeq_mono (show t + 1 ≤ u from htu)
    omega

theorem dropBelow_succ (t : ℕ) :
    (R.after (t + 1)).common.core.dropBelow = (R.after t).common.core.dropBelow ∨
      ∃ w m, R.Passes t w (.interrupts (.raises m)) (.interrupts .bumps) ∧
        (R.after (t + 1)).common.core.dropBelow =
          max (R.after t).common.core.dropBelow m := by
  cases effect_of_step (R.step t) with
  | @works w desk others h =>
    generalize he : (R.after t).errand w = e at h
    generalize he' : (R.after (t + 1)).errand w = e' at h
    cases h with
    | calm h => exact .inl h.dropBelow
    | @raises m hc => exact .inr ⟨w, m, ⟨he, he'⟩, by rw [hc]; rfl⟩
    | reads hc => exact .inl (by rw [hc])
    | numbers hc | counts hc | refuses hc | bumps hc | sends _ hc | tells _ hc | loses hc =>
      exact .inl (by rw [hc]; rfl)
  | stays h =>
    generalize (R.after t).desk = d at h
    generalize (R.after (t + 1)).desk = d' at h
    cases h with
    | calm h => exact .inl h.dropBelow
    | takes _ hc | halts _ hc => exact .inl (by rw [hc])
    | discards hc | settles hc | leaves hc => exact .inl (by rw [hc]; rfl)

/-- **The numbers below the mark** are those handed out before somebody who interrupted what was
pending, and who has raised the mark, read the next one. -/
theorem lt_dropBelow_iff (t n : ℕ) :
    n < (R.after t).common.core.dropBelow ↔
      ∃ w a b, b < t ∧ R.Clears w a b ∧ n < (R.after a).common.core.nextSeq := by
  induction t with
  | zero => exact ⟨fun h => absurd h n.not_lt_zero, fun ⟨_, _, b, hb, _⟩ => absurd hb b.not_lt_zero⟩
  | succ t ih =>
    have hclears : ∀ w a, R.Clears w a t → (R.after (t + 1)).common.core.dropBelow =
        max (R.after t).common.core.dropBelow (R.after a).common.core.nextSeq := by
      intro w a h
      obtain ⟨fault, hcommon, -⟩ :=
        common_of_passes ⟨h.carries t h.lt le_rfl, h.raises⟩ rfl (by simp)
      rw [hcommon]
      rfl
    constructor
    · intro h
      rcases R.dropBelow_succ t with heq | ⟨w, m, ⟨he, he'⟩, heq⟩
      · obtain ⟨w, a, b, hb, hc, hn⟩ := ih.mp (heq ▸ h)
        exact ⟨w, a, b, by omega, hc, hn⟩
      · rw [heq, lt_max_iff] at h
        rcases h with h | h
        · obtain ⟨w, a, b, hb, hc, hn⟩ := ih.mp h
          exact ⟨w, a, b, by omega, hc, hn⟩
        · obtain ⟨a, hat, ha, rfl, hsince⟩ := reads_of_raises he
          exact ⟨w, a, t, by omega, ⟨hat, ha, hsince, he'⟩, h⟩
    · rintro ⟨w, a, b, hb, hc, hn⟩
      rcases Nat.lt_or_eq_of_le (Nat.le_of_lt_succ hb) with hbt | rfl
      · have hlt := ih.mpr ⟨w, a, b, hbt, hc, hn⟩
        rcases R.dropBelow_succ t with heq | ⟨_, _, _, heq⟩
        · omega
        · rw [heq]
          exact lt_max_of_lt_left hlt
      · rw [hclears w a hc]
        exact lt_max_of_lt_right hn

/-- **Which jobs are dropped**: those that can be cancelled, if somebody who interrupted what was
pending read the next number behind theirs, and raised the mark before the owner looked. -/
theorem dismisses_iff {t : ℕ} {j : Job σ V} (h : (R.after t).desk = .judges j) :
    (R.after t).common.core.Dismisses j ↔ j.kind = .cancellable ∧
      ∃ m w a b, R.Numbers m j ∧ m < a ∧ R.Clears w a b ∧ b < t := by
  rw [Dismisses, R.lt_dropBelow_iff]
  refine and_congr_right fun _ => ?_
  obtain ⟨m, -, hm⟩ := numbers_of_judges h
  constructor
  · rintro ⟨w, a, b, hb, hc, hn⟩
    exact ⟨m, w, a, b, hm, (seq_lt_nextSeq_iff hm).mp hn, hc, hb⟩
  · rintro ⟨m', w, a, b, hm', hma, hc, hb⟩
    exact ⟨w, a, b, hb, hc, (seq_lt_nextSeq_iff hm').mpr hma⟩

/-! ## Epochs -/

/-- Somebody interrupts the job that is being run. -/
def Bumps (R : ThreadsRun σ V) (t : ℕ) : Prop :=
  ∃ w, R.Passes t w (.interrupts .bumps) (.rests (some .done))

variable (R) in
open Classical in
/-- How many interrupts there were. -/
noncomputable def interrupts (t : ℕ) : ℕ := Nat.count R.Bumps t

theorem epoch_of_bumps {t : ℕ} (h : R.Bumps t) :
    (R.after (t + 1)).common.core.epoch = (R.after t).common.core.epoch + 1 ∧
      (R.after (t + 1)).desk = (R.after t).desk := by
  obtain ⟨w, hp⟩ := h
  obtain ⟨fault, hcommon, -, hdesk⟩ := common_of_passes hp rfl nofun
  rw [hcommon]
  exact ⟨rfl, hdesk⟩

theorem epoch_of_not_bumps {t : ℕ} (h : ¬ R.Bumps t) :
    (R.after (t + 1)).common.core.epoch = (R.after t).common.core.epoch := by
  cases effect_of_step (R.step t) with
  | @works w desk others hd =>
    generalize he : (R.after t).errand w = e at hd
    generalize he' : (R.after (t + 1)).errand w = e' at hd
    cases hd with
    | calm hd => exact hd.epoch
    | bumps => exact absurd ⟨w, he, he'⟩ h
    | reads hc => rw [hc]
    | numbers hc | counts hc | refuses hc | raises hc | sends _ hc | tells _ hc | loses hc =>
      rw [hc]
      rfl
  | stays hd =>
    generalize (R.after t).desk = d at hd
    generalize (R.after (t + 1)).desk = d' at hd
    cases hd with
    | calm hd => exact hd.epoch
    | takes _ hc | halts _ hc => rw [hc]
    | discards hc | settles hc | leaves hc => rw [hc]; rfl

/-- The serializer counts the interrupts, as far as its counter goes. -/
theorem epoch_eq_ofNat (t : ℕ) :
    (R.after t).common.core.epoch = UInt64.ofNat (R.interrupts t) := by
  classical
  induction t with
  | zero => rw [interrupts, Nat.count_zero]; rfl
  | succ t ih =>
    by_cases hb : R.Bumps t
    · rw [(epoch_of_bumps hb).1, ih, interrupts, interrupts, Nat.count_succ, if_pos hb,
        UInt64.ofNat_add]
      rfl
    · rw [epoch_of_not_bumps hb, ih, interrupts, interrupts, Nat.count_succ, if_neg hb,
        Nat.add_zero]

theorem interrupts_eq {s t : ℕ} (h : s ≤ t) :
    R.interrupts t = R.interrupts s ↔ ∀ u, s ≤ u → u < t → ¬ R.Bumps u := by
  classical
  obtain ⟨d, rfl⟩ := Nat.exists_eq_add_of_le h
  unfold interrupts
  rw [Nat.count_add, Nat.add_eq_left, Nat.count_iff_forall_not]
  constructor
  · intro hd u hsu hut
    obtain ⟨k, rfl⟩ := Nat.exists_eq_add_of_le hsu
    exact hd k (by omega)
  · exact fun hu k hk => hu (s + k) (by omega) (by omega)

/-- A token that was made at a moment without an interrupt is interrupted just by those behind it,
if there are not so many that their counter overflows. -/
theorem isInterrupted_newToken_iff {s t : ℕ} {kind : JobKind} (hst : s < t) (hs : ¬ R.Bumps s)
    (hR : R.interrupts t < 2 ^ 64) :
    (R.after t).common.core.isInterrupted ((R.after s).common.core.newToken kind) = true ↔
      kind = .cancellable ∧ ∃ u, s < u ∧ u < t ∧ R.Bumps u := by
  cases kind with
  | uninterruptible => exact ⟨nofun, fun h => nomatch h.1⟩
  | cancellable =>
    have hle : R.interrupts s ≤ R.interrupts t := by
      classical
      exact Nat.count_monotone _ hst.le
    have hsame : UInt64.ofNat (R.interrupts t) = UInt64.ofNat (R.interrupts s) ↔
        R.interrupts t = R.interrupts s := by
      rw [← UInt64.toNat_inj, UInt64.toNat_ofNat', UInt64.toNat_ofNat', Nat.mod_eq_of_lt hR,
        Nat.mod_eq_of_lt (by omega)]
    rw [newToken, isInterrupted, epoch_eq_ofNat, epoch_eq_ofNat, bne_iff_ne, ne_eq, hsame,
      R.interrupts_eq hst.le]
    push Not
    constructor
    · rintro ⟨u, hsu, hut, hu⟩
      refine ⟨rfl, u, Nat.lt_of_le_of_ne hsu ?_, hut, hu⟩
      rintro rfl
      exact hs hu
    · rintro ⟨-, u, hsu, hut, hu⟩
      exact ⟨u, hsu.le, hut, hu⟩

end ThreadsRun

end SymbolIndex
