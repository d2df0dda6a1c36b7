import SymbolIndex.Proofs.Threads.Interrupts
import SymbolIndex.Proofs.Threads.Replies

/-!
# Cancellation among threads

An interrupt is for the job that is being run, and for the cancellable jobs that wait if it says
so. It is three steps of a thread, and the owner starts a job in three: it looks whether to drop
the job, makes its token, and runs it. Between the first two, nothing hits the job.

* `ThreadsRun.discards_iff`: which jobs are dropped;
* `ThreadsRun.isInterrupted_iff`: which jobs are interrupted;
* `ThreadsRun.Cancels`, `ThreadsRun.cancels`: what interrupts come to.
-/

namespace SymbolIndex

open Serializer

variable {σ V : Type}

namespace ThreadsRun

open Threads

variable {R : ThreadsRun σ V}

theorem discards_or_starts {t : ℕ} {j : Job σ V} (h : (R.after t).desk = .judges j)
    (hne : (R.after (t + 1)).desk ≠ .judges j) :
    ((R.after (t + 1)).desk = .discards j ∧ (R.after t).common.core.Dismisses j) ∨
      (R.after (t + 1)).desk = .starts j ∧ ¬ (R.after t).common.core.Dismisses j := by
  have hstep := R.deskStep t
  rw [h] at hstep
  generalize (R.after (t + 1)).desk = d at hstep hne
  cases hstep with
  | same => exact absurd rfl hne
  | drops hj => exact .inl ⟨rfl, hj⟩
  | keeps hj => exact .inr ⟨rfl, hj⟩

theorem discards_iff {t : ℕ} {j : Job σ V} (h : (R.after t).desk = .judges j)
    (hne : (R.after (t + 1)).desk ≠ .judges j) :
    (R.after (t + 1)).desk = .discards j ↔ j.kind = .cancellable ∧
      ∃ m w a b, R.Numbers m j ∧ m < a ∧ R.Clears w a b ∧ b < t := by
  rw [← dismisses_iff h]
  rcases discards_or_starts h hne with ⟨hd, hj⟩ | ⟨hd, hj⟩
  · exact ⟨fun _ => hj, fun _ => hd⟩
  · exact ⟨fun hd' => absurd (hd.symm.trans hd') nofun, fun hj' => absurd hj' hj⟩

theorem not_isInterrupted_of_callback {t : ℕ} {r : Running σ V} {token : Token}
    (hr : (R.after t).desk = .runs r) (hg : r.stage ≠ .work) (ht : r.tokens[0]? = some token) :
    (R.after t).common.core.isInterrupted token = false := by
  rcases R.exists_opens hr ht with ⟨-, -, rfl⟩ | ⟨hd, -⟩
  · rfl
  · exact absurd (hd rfl) hg

theorem not_bumps_of_opens {t d : ℕ} {kind : JobKind} (h : R.Opens t d kind) : ¬ R.Bumps t :=
  fun hb => h.desk_ne (epoch_of_bumps hb).2

theorem isInterrupted_iff {s t d : ℕ} {r : Running σ V} {kind : JobKind} {token : Token}
    (hR : R.interrupts t < 2 ^ 64) (ho : R.Opens s d kind) (hst : s < t)
    (hn : ∀ v, s < v → v ≤ t → R.Nested v r.seq d) (hr : (R.after t).desk = .runs r)
    (hd : d = 0 → r.stage = .work) (ht : r.tokens[d]? = some token) :
    (R.after t).common.core.isInterrupted token = true ↔
      kind = .cancellable ∧ ∃ u, s < u ∧ u < t ∧ R.Bumps u := by
  rcases R.exists_opens hr ht with ⟨h0, hg, -⟩ | ⟨-, s', hst', kind', ho', rfl, hn'⟩
  · exact absurd (hd h0) hg
  · obtain ⟨rfl, rfl⟩ := opens_unique ho ho' hst hst' hn hn'
    exact isInterrupted_newToken_iff hst (not_bumps_of_opens ho) hR

/-- What interrupts come to. -/
structure Cancels (R : ThreadsRun σ V) : Prop where
  /-- a job that has been taken is dropped or started -/
  judged : ∀ t j, (R.after t).desk = .judges j → (R.after (t + 1)).desk ≠ .judges j →
    (R.after (t + 1)).desk = .discards j ∨ (R.after (t + 1)).desk = .starts j
  /-- it is dropped if it can be cancelled, and somebody who interrupted what was pending read the
  next number behind the one of the job, and raised the mark before the owner looked -/
  dropped : ∀ t j, (R.after t).desk = .judges j → (R.after (t + 1)).desk ≠ .judges j →
    ((R.after (t + 1)).desk = .discards j ↔ j.kind = .cancellable ∧
      ∃ m w a b, R.Numbers m j ∧ m < a ∧ R.Clears w a b ∧ b < t)
  /-- a job that is dropped is never run, nor is its callback -/
  silent : ∀ t j, (R.after t).desk = .discards j → ∀ u r, (R.after u).desk = .runs r →
    r.seq ≠ j.seq
  /-- whoever waits for it is answered that it was dropped, unless the time is up -/
  told : ∀ t j, (R.after t).desk = .discards j → ∀ u w timed last,
    R.Passes u w (.waits j.seq timed) (.rests last) →
      last = some (.told (.result (.error .dropped))) ∨
        timed = true ∧ last = some (.fails .timeout)
  /-- that answer is there for good when the owner has let go of the job -/
  replied : ∀ t j, (R.after t).desk = .forgets j → (R.after (t + 1)).desk = .free →
    j.delivery = .reply → ∀ u, t < u →
      (R.after u).common.core.replyTo j.seq = some (.result (.error .dropped))
  /-- every token belongs to a job or call that was begun and has been run ever since, or to a
  callback -/
  opened : ∀ t r d, (R.after t).desk = .runs r → d < r.tokens.length →
    d = 0 ∧ r.stage ≠ .work ∨
      ∃ s < t, ∃ kind, R.Opens s d kind ∧ ∀ v, s < v → v ≤ t → R.Nested v r.seq d
  /-- it is interrupted if there was an interrupt since it was made, unless its job or call cannot
  be interrupted, as long as the serializer can count the interrupts -/
  tokens : ∀ s t r d kind token, R.interrupts t < 2 ^ 64 → R.Opens s d kind → s < t →
    (∀ v, s < v → v ≤ t → R.Nested v r.seq d) → (R.after t).desk = .runs r →
    (d = 0 → r.stage = .work) → r.tokens[d]? = some token →
    ((R.after t).common.core.isInterrupted token = true ↔
      kind = .cancellable ∧ ∃ u, s < u ∧ u < t ∧ R.Bumps u)
  /-- callbacks are not interrupted -/
  callbacks : ∀ t r token, (R.after t).desk = .runs r → r.stage ≠ .work →
    r.tokens[0]? = some token → (R.after t).common.core.isInterrupted token = false

/-- The owner has looked at a job, somebody interrupts what is pending, and the job is started. -/
def overlooked : ThreadsRun Unit Unit :=
  ofEvents "index" false ()
    ([.ask 0 .start] ++ List.replicate 4 (.step 0 none) ++
      [.ask 0 (.submit .cancellable [.gate])] ++ List.replicate 6 (.step 0 none) ++
      List.replicate 2 .owner ++ [.ask 1 .interruptPending] ++ List.replicate 3 (.step 1 none) ++
      [.owner]) (by simp)

/-- A caller stops waiting for a job that is dropped later. -/
def impatient : ThreadsRun Unit Unit :=
  ofEvents "index" false ()
    ([.ask 0 .start] ++ List.replicate 4 (.step 0 none) ++
      [.ask 1 (.call .cancellable [] true)] ++ List.replicate 7 (.step 1 none) ++ [.giveUp 1] ++
      [.ask 0 .interruptPending] ++ List.replicate 3 (.step 0 none) ++ List.replicate 4 .owner)
    (by simp)

end ThreadsRun

end SymbolIndex
