import SymbolIndex.Proofs.Serializer.Finales
import SymbolIndex.Proofs.Serializer.Ready
import SymbolIndex.Proofs.Serializer.Shut

/-!
# Exchanging a job

What would have happened if a job that was accepted had ended differently: the same as ever is asked
for behind it, and only the owner takes more or fewer steps.

* `Exchange`: a job, and how it may end instead;
* `Run.exchanged`: what happens if the job is exchanged;
* `Run.instead`, `Run.after_clock`: that happens in a run.
-/

namespace SymbolIndex

open Serializer

variable {σ V : Type}

/-- A job, and how it may end instead. -/
structure Exchange (σ V : Type) where
  seq : ℕ
  kind : JobKind
  actions : Script σ V
  who : Receiver V
  old : Finale V
  new : Finale V

/-- The job. -/
def Exchange.job (X : Exchange σ V) : Job σ V := X.old.job X.seq X.who X.kind X.actions

/-- The job that ends differently. -/
def Exchange.other (X : Exchange σ V) : Job σ V := X.new.job X.seq X.who X.kind X.actions

/-- A thread asks for the job with these actions that ends like this. -/
def Finale.asked (x : Finale V) (who : Receiver V) (kind : JobKind) (actions : Script σ V) :
    Move σ V :=
  match who with
  | .nobody => .submit kind (actions ++ x.work.script)
  | .caller => .call kind (actions ++ x.work.script)
  | .callback tag => .submitWith kind (actions ++ x.work.script) ⟨tag, x.callbackScript⟩

namespace Serializer

/-- Another job is accepted than the one that has been. -/
def exchangeLast (s : Serializer σ V) (j : Job σ V) : Serializer σ V :=
  { s with queue := s.queue.dropLast ++ [.job j] }

/-- A move in which the owner takes some steps, if it is its move. -/
def paced (s : Serializer σ V) (i : ℕ) : Move σ V → Serializer σ V
  | .owner => steps i s
  | m => s.move m

theorem paced_of_ne {s : Serializer σ V} {i : ℕ} {m : Move σ V} (hm : m ≠ .owner) :
    s.paced i m = s.move m := by
  cases m with
  | owner => exact absurd rfl hm
  | _ => rfl

theorem paced_one (s : Serializer σ V) (m : Move σ V) : s.paced 1 m = s.move m := by
  cases m with
  | owner => exact steps_move 0 s
  | _ => rfl

theorem exchangeLast_serve {s : Serializer σ V} (h : s.isOpen = true) (kind : JobKind)
    (script script' : Script σ V) (delivery delivery' : Delivery σ V) :
    (s.serve (.enqueue kind script delivery)).exchangeLast ⟨s.nextSeq, kind, script', delivery'⟩ =
      s.serve (.enqueue kind script' delivery') := by
  rw [serve, serve, enqueue_of_isOpen h, enqueue_of_isOpen h, exchangeLast,
    List.dropLast_concat]

theorem requestOf_asked (s : Serializer σ V) (x y : Finale V) (who : Receiver V) (kind : JobKind)
    (actions : Script σ V) :
    s.requestOf (x.asked who kind actions) = none ∨
      s.requestOf (x.asked who kind actions) =
          some (.enqueue kind (actions ++ x.work.script) (x.delivery who)) ∧
        s.requestOf (y.asked who kind actions) =
          some (.enqueue kind (actions ++ y.work.script) (y.delivery who)) := by
  cases who with
  | nobody | callback tag => exact .inr ⟨rfl, rfl⟩
  | caller =>
    simp only [Finale.asked, requestOf]
    split
    · exact .inr ⟨rfl, rfl⟩
    · exact .inl rfl

end Serializer

namespace Run

variable (R : Run σ V) (X : Exchange σ V)

/-- What happens from the move on in which the job is accepted, if it is exchanged. Threads ask for
the same as ever; the owner is given its pace. -/
def exchanged (t : ℕ) (pace : ℕ → ℕ) : ℕ → Serializer σ V
  | 0 => (R.after (t + 1)).exchangeLast X.other
  | k + 1 => (exchanged t pace k).paced (pace k) (R.moves (t + 1 + k))

/-- What happens if the job is exchanged and the owner's pace depends on how things stand. -/
def following (t : ℕ) (next : ℕ → Serializer σ V → ℕ) : ℕ → Serializer σ V
  | 0 => (R.after (t + 1)).exchangeLast X.other
  | k + 1 => (following t next k).paced (next k (following t next k)) (R.moves (t + 1 + k))

theorem exchanged_eq_following (t : ℕ) (next : ℕ → Serializer σ V → ℕ) (k : ℕ) :
    R.exchanged X t (fun k => next k (R.following X t next k)) k = R.following X t next k := by
  induction k with
  | zero => rfl
  | succ k ih => rw [exchanged, ih, following]

/-! ## The exchange as a run -/

section

variable (t : ℕ) (pace : ℕ → ℕ)

/-- How many moves it takes to keep pace with one move. -/
def span (k : ℕ) : ℕ :=
  match R.moves (t + 1 + k) with
  | .owner => pace k
  | _ => 1

/-- How many moves it takes to keep pace with some moves. -/
def clock : ℕ → ℕ
  | 0 => t + 1
  | k + 1 => clock k + R.span t pace k

theorem clock_mono {k l : ℕ} (h : k ≤ l) : R.clock t pace k ≤ R.clock t pace l := by
  induction h with
  | refl => exact le_rfl
  | step _ ih => exact ih.trans (Nat.le_add_right _ _)

open Classical in
/-- The run in which another move is made instead of one, and the owner is given its pace behind
it. -/
noncomputable def instead (m : Move σ V) : Run σ V :=
  { R with
    moves := fun u =>
      if u < t then R.moves u
      else if u = t then m
      else if h : ∃ k, R.clock t pace k ≤ u ∧ u < R.clock t pace (k + 1) then
        R.moves (t + 1 + h.choose)
      else .owner }

variable {m : Move σ V}

theorem after_instead {u : ℕ} (hu : u ≤ t) : (R.instead t pace m).after u = R.after u := by
  induction u with
  | zero => rfl
  | succ u ih =>
    have hm : (R.instead t pace m).moves u = R.moves u := if_pos hu
    rw [after, after, ih (by omega), hm]

theorem moves_instead {k u : ℕ} (hu : R.clock t pace k ≤ u) (hu' : u < R.clock t pace (k + 1)) :
    (R.instead t pace m).moves u = R.moves (t + 1 + k) := by
  have ht : t + 1 ≤ u := (R.clock_mono t pace (Nat.zero_le k)).trans hu
  have h : ∃ k, R.clock t pace k ≤ u ∧ u < R.clock t pace (k + 1) := ⟨k, hu, hu'⟩
  have hk : h.choose = k := by
    obtain ⟨hle, hlt⟩ := h.choose_spec
    rcases lt_trichotomy h.choose k with hc | hc | hc
    · have := R.clock_mono t pace (show h.choose + 1 ≤ k from hc)
      omega
    · exact hc
    · have := R.clock_mono t pace (show k + 1 ≤ h.choose from hc)
      omega
  rw [← hk]
  simp only [instead]
  rw [if_neg (by omega), if_neg (by omega), dif_pos h]

/-- **What happens if the job is exchanged happens in a run**, in which the other job is handed in
by the move in whose place the job was. -/
theorem after_clock (hm : (R.after t).move m = (R.after (t + 1)).exchangeLast X.other) (k : ℕ) :
    (R.instead t pace m).after (R.clock t pace k) = R.exchanged X t pace k := by
  induction k with
  | zero =>
    have hmove : (R.instead t pace m).moves t = m := by simp [instead]
    rw [clock, after, R.after_instead t pace le_rfl, hmove, hm, exchanged]
  | succ k ih =>
    have hmoves : ∀ i < R.span t pace k,
        (R.instead t pace m).moves (R.clock t pace k + i) = R.moves (t + 1 + k) :=
      fun i hi => R.moves_instead t pace (by omega) (by rw [clock]; omega)
    rw [clock, exchanged, ← ih]
    by_cases hown : R.moves (t + 1 + k) = .owner
    · have hspan : R.span t pace k = pace k := by rw [span, hown]
      rw [hspan] at hmoves ⊢
      rw [hown] at hmoves ⊢
      exact Run.after_add _ hmoves
    · have hspan : R.span t pace k = 1 := by
        unfold span
        split
        · next hm => exact absurd hm hown
        · rfl
      rw [hspan] at hmoves ⊢
      rw [paced_of_ne hown, after, ← hmoves 0 Nat.one_pos]
      rfl

end

variable {R X}

theorem move_asked {t : ℕ} (h : R.newJob t = some X.job)
    (hm : R.moves t = X.old.asked X.who X.kind X.actions) :
    (R.after t).move (X.new.asked X.who X.kind X.actions) =
      (R.after (t + 1)).exchangeLast X.other := by
  have hne : ∀ x : Finale V, x.asked X.who X.kind X.actions ≠ .owner ∧
      x.asked X.who X.kind X.actions ≠ .release := by
    intro x
    unfold Finale.asked
    cases X.who <;> exact ⟨nofun, nofun⟩
  have hopen := R.isOpen_of_newJob h
  have hbind : ((R.after t).requestOf (X.old.asked X.who X.kind X.actions)).bind
      (R.after t).acceptedBy = some X.job := by
    rw [← hm]
    exact h
  rcases (R.after t).requestOf_asked X.old X.new X.who X.kind X.actions with hq | ⟨hq, hq'⟩
  · rw [hq] at hbind
    cases hbind
  · have hseq : (R.after t).nextSeq = X.seq := by
      rw [hq, Option.bind_some, acceptedBy, if_pos hopen] at hbind
      exact congrArg Job.seq (Option.some.inj hbind)
    rw [after, hm, move_eq_serveAll (hne _).1 (hne _).2,
      move_eq_serveAll (hne _).1 (hne _).2, hq, hq', serveAll, serveAll, Option.elim_some,
      Option.elim_some, ← exchangeLast_serve hopen X.kind (X.actions ++ X.old.work.script) _
        (X.old.delivery X.who) _, hseq]
    rfl

end Run

end SymbolIndex
