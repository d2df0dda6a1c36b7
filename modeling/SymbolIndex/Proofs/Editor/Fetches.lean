import Mathlib.Tactic.Common
import SymbolIndex.Editor.Fetches

/-!
# Fetches are handed out once, and never late

Fetches of several projects begin, get their results, are asked for and are forgotten in any order,
and results may come as late as they like. What is told about a ticket only depends on what has
happened to its own project since the latest fetch began there.

* `FetchMove`, `Fetches.move`: what may happen to fetches;
* `poll_eq_ready_iff`, `poll_eq_pending_iff`, `latest?_move`: one move, as the latest fetch of a
  project shows it;
* `FetchRun`: fetches with rising tickets, and results that come once;
* `FetchRun.Stands`, `FetchRun.Completed`, `FetchRun.HandedOut`: what has become of a ticket;
* `FetchRun.Delivers`, `FetchRun.delivers`: what is told about a ticket.
-/

namespace SymbolIndex.Editor

/-- What may happen to fetches. -/
inductive FetchMove where
  | begin (root : String) (ticket : ℕ)
  | complete (root : String) (ticket : ℕ) (r : FetchResult)
  | poll (root : String) (ticket : ℕ)
  | forget (root : String)

namespace FetchMove

/-- The project to whose fetches a move happens. -/
def root : FetchMove → String
  | begin root _ | complete root _ _ | poll root _ | forget root => root

/-- What a move makes of the latest fetch of its project. -/
def onLatest (m : FetchMove) (latest : Option Fetch) : Option Fetch :=
  match m with
  | begin _ ticket => some { ticket }
  | complete _ ticket r =>
    latest.map fun fetch => if fetch.ticket = ticket then { ticket, result := some r } else fetch
  | poll _ ticket => latest.filter fun fetch => !(fetch.ticket == ticket && fetch.result.isSome)
  | forget _ => none

end FetchMove

namespace Fetches

def move (f : Fetches) : FetchMove → Fetches
  | .begin root ticket => f.begin root ticket
  | .complete root ticket r => f.complete root ticket r
  | .poll root ticket => (f.poll root ticket).2
  | .forget root => f.forget root

/-! ## One move -/

variable (f : Fetches) (root : String) (ticket : ℕ)

theorem current?_eq_some_iff {fetch : Fetch} :
    f.current? root ticket = some fetch ↔ f.latest? root = some fetch ∧ fetch.ticket = ticket := by
  rw [current?, Option.filter_eq_some_iff, beq_iff_eq]

theorem current?_eq_none_iff :
    f.current? root ticket = none ↔ ∀ fetch, f.latest? root = some fetch → fetch.ticket ≠ ticket := by
  rw [current?, Option.filter_eq_none_iff]
  simp

theorem poll_eq_iff (result : Option FetchResult) :
    (f.poll root ticket).1 = result.elim .pending .ready ↔
      f.latest? root = some ⟨ticket, result⟩ := by
  rw [poll]
  cases hc : f.current? root ticket with
  | none =>
    have hnone := (f.current?_eq_none_iff root ticket).mp hc
    refine ⟨fun h => ?_, fun h => absurd rfl (hnone _ h)⟩
    cases result <;> cases h
  | some fetch =>
    obtain ⟨hlatest, rfl⟩ := (f.current?_eq_some_iff root ticket).mp hc
    obtain ⟨ticket, found⟩ := fetch
    rw [hlatest]
    cases found <;> cases result <;> simp

theorem poll_eq_ready_iff {r : FetchResult} :
    (f.poll root ticket).1 = .ready r ↔ f.latest? root = some ⟨ticket, some r⟩ :=
  f.poll_eq_iff root ticket (some r)

theorem poll_eq_pending_iff :
    (f.poll root ticket).1 = .pending ↔ f.latest? root = some ⟨ticket, none⟩ :=
  f.poll_eq_iff root ticket none

theorem poll_eq_superseded_iff :
    (f.poll root ticket).1 = .superseded ↔
      ∀ fetch, f.latest? root = some fetch → fetch.ticket ≠ ticket := by
  rw [← current?_eq_none_iff, poll]
  cases f.current? root ticket with
  | none => simp
  | some fetch =>
    obtain ⟨ticket, result⟩ := fetch
    cases result <;> simp

theorem poll_congr {f f' : Fetches} {root : String} (h : f'.latest? root = f.latest? root)
    (ticket : ℕ) : (f'.poll root ticket).1 = (f.poll root ticket).1 := by
  cases hp : (f.poll root ticket).1 with
  | superseded =>
    rw [poll_eq_superseded_iff] at hp ⊢
    rwa [h]
  | pending =>
    rw [poll_eq_pending_iff] at hp ⊢
    rwa [h]
  | ready r =>
    rw [poll_eq_ready_iff] at hp ⊢
    rwa [h]

theorem latest?_complete (r : FetchResult) (other : String) :
    (f.complete root ticket r).latest? other =
      if other = root then (FetchMove.complete root ticket r).onLatest (f.latest? root)
      else f.latest? other := by
  rw [complete]
  cases hc : f.current? root ticket with
  | none =>
    have hnone := (f.current?_eq_none_iff root ticket).mp hc
    split_ifs with ho
    · subst ho
      cases hl : f.latest? other with
      | none => rfl
      | some fetch => simp [FetchMove.onLatest, hnone fetch hl]
    · rfl
  | some fetch =>
    obtain ⟨hlatest, rfl⟩ := (f.current?_eq_some_iff root ticket).mp hc
    simp only [latest?_put, hlatest, FetchMove.onLatest, Option.map_some, if_true]

theorem latest?_poll (other : String) :
    (f.poll root ticket).2.latest? other =
      if other = root then (FetchMove.poll root ticket).onLatest (f.latest? root)
      else f.latest? other := by
  rw [poll]
  cases hc : f.current? root ticket with
  | none =>
    have hnone := (f.current?_eq_none_iff root ticket).mp hc
    split_ifs with ho
    · subst ho
      cases hl : f.latest? other with
      | none => rfl
      | some fetch => simp [FetchMove.onLatest, Option.filter_some, hnone fetch hl]
    · rfl
  | some fetch =>
    obtain ⟨hlatest, rfl⟩ := (f.current?_eq_some_iff root ticket).mp hc
    obtain ⟨ticket, result⟩ := fetch
    cases result with
    | none =>
      split_ifs with ho
      · subst ho
        simp [FetchMove.onLatest, Option.filter_some, hlatest]
      · rfl
    | some r => simp [latest?_forget, FetchMove.onLatest, Option.filter_some, hlatest]

/-- **A move only shows in its own project**, and there in the latest fetch. -/
theorem latest?_move (m : FetchMove) (other : String) :
    (f.move m).latest? other =
      if other = m.root then m.onLatest (f.latest? m.root) else f.latest? other := by
  cases m with
  | begin root ticket => exact latest?_put f root other _
  | complete root ticket r => exact latest?_complete f root ticket r other
  | poll root ticket => exact latest?_poll f root ticket other
  | forget root => exact latest?_forget f root other

theorem poll_move_of_ne {m : FetchMove} {other : String} (h : m.root ≠ other) (ticket : ℕ) :
    ((f.move m).poll other ticket).1 = (f.poll other ticket).1 :=
  poll_congr (by rw [latest?_move, if_neg (Ne.symm h)]) ticket

/-- The latest fetch of a project, seen from the move before: it has begun with that move, has got
its result by it, or has been there and is left as it was. -/
inductive Shows (m : FetchMove) (root : String) (fetch : Fetch) : Prop where
  | begins (move : m = .begin root fetch.ticket) (result : fetch.result = none)
  | completes (r : FetchResult) (move : m = .complete root fetch.ticket r)
      (result : fetch.result = some r) (old : Fetch) (latest : f.latest? root = some old)
      (ticket : old.ticket = fetch.ticket)
  | stays (latest : f.latest? root = some fetch) (begins : ∀ ticket, m ≠ .begin root ticket)
      (completes : ∀ r, m ≠ .complete root fetch.ticket r)
      (poll : m = .poll root fetch.ticket → fetch.result = none) (kept : m ≠ .forget root)

theorem shows_of_latest?_move {m : FetchMove} {root : String} {fetch : Fetch}
    (h : (f.move m).latest? root = some fetch) : f.Shows m root fetch := by
  rw [latest?_move] at h
  split_ifs at h with hroot
  · subst hroot
    cases m with
    | begin root ticket =>
      obtain rfl := Option.some.inj h
      exact .begins rfl rfl
    | complete root ticket r =>
      obtain ⟨old, hold, rfl⟩ := Option.map_eq_some_iff.mp h
      by_cases ht : old.ticket = ticket
      · rw [if_pos ht]
        exact .completes r rfl rfl old hold ht
      · rw [if_neg ht]
        exact .stays hold nofun (fun r' he => ht (FetchMove.complete.inj he).2.1.symm) nofun nofun
    | poll root ticket =>
      obtain ⟨hold, hf⟩ := Option.filter_eq_some_iff.mp h
      refine .stays hold nofun nofun (fun he => ?_) nofun
      obtain rfl := (FetchMove.poll.inj he).2
      simpa using hf
    | forget root => exact nomatch h
  · exact .stays h (fun _ he => hroot (he ▸ rfl)) (fun _ he => hroot (he ▸ rfl))
      (fun he => absurd (he ▸ rfl) hroot) (fun he => hroot (he ▸ rfl))

/-- A fetch stays the latest one of its project until another one begins, it is handed out, or the
project is forgotten. -/
theorem exists_latest?_move {m : FetchMove} {root : String} {ticket : ℕ}
    {result : Option FetchResult} (h : f.latest? root = some ⟨ticket, result⟩)
    (hbegin : ∀ ticket, m ≠ .begin root ticket) (hpoll : m = .poll root ticket → result = none)
    (hforget : m ≠ .forget root) : ∃ result', (f.move m).latest? root = some ⟨ticket, result'⟩ := by
  rw [latest?_move]
  split_ifs with hroot
  · subst hroot
    rw [h]
    cases m with
    | begin root new => exact absurd rfl (hbegin new)
    | complete root t r =>
      by_cases ht : ticket = t
      · exact ⟨some r, by simp [FetchMove.onLatest, ht]⟩
      · exact ⟨result, by simp [FetchMove.onLatest, ht]⟩
    | poll root t =>
      refine ⟨result, ?_⟩
      by_cases ht : ticket = t
      · simp [FetchMove.onLatest, Option.filter_some, hpoll (ht ▸ rfl)]
      · simp [FetchMove.onLatest, Option.filter_some, ht]
    | forget root => exact absurd rfl hforget
  · exact ⟨result, h⟩

end Fetches

/-! ## Runs -/

/-- Fetches begin, get their results, are asked for and are forgotten, in any order. -/
structure FetchRun where
  moves : ℕ → FetchMove
  /-- every fetch gets a larger ticket than all before it -/
  rising : ∀ u v root root' ticket ticket', moves u = .begin root ticket →
    moves v = .begin root' ticket' → u < v → ticket < ticket'
  /-- a result is that of a fetch that has begun -/
  begun : ∀ u root ticket r, moves u = .complete root ticket r →
    ∃ v < u, moves v = .begin root ticket
  /-- and comes at most once -/
  once : ∀ u v root root' ticket r r', moves u = .complete root ticket r →
    moves v = .complete root' ticket r' → u = v

namespace FetchRun

variable (R : FetchRun)

/-- The fetches after some moves. -/
def after : ℕ → Fetches
  | 0 => {}
  | u + 1 => (after u).move (R.moves u)

/-- The latest fetch of a project began in move `v`, and has not been forgotten before move `u`. -/
structure Stands (u v : ℕ) (root : String) (ticket : ℕ) : Prop where
  lt : v < u
  begins : R.moves v = .begin root ticket
  latest : ∀ w, v < w → w < u → ∀ ticket', R.moves w ≠ .begin root ticket'
  kept : ∀ w, v < w → w < u → R.moves w ≠ .forget root

/-- Between two moves a fetch has got its result. -/
def Completed (v u : ℕ) (root : String) (ticket : ℕ) (r : FetchResult) : Prop :=
  ∃ w, v < w ∧ w < u ∧ R.moves w = .complete root ticket r

/-- Somebody has asked for the fetch of this ticket and has been given its result. -/
def HandedOut (u ticket : ℕ) : Prop :=
  ∃ w < u, ∃ root r, R.moves w = .poll root ticket ∧
    ((R.after w).poll root ticket).1 = .ready r

/-- A fetch that begins from now on has a larger ticket. -/
def Issued (u ticket : ℕ) : Prop :=
  ∃ v < u, ∃ root ticket', R.moves v = .begin root ticket' ∧ ticket ≤ ticket'

variable {R}

/-! ## What has become of a ticket -/

theorem eq_of_begins {u v : ℕ} {root root' : String} {ticket : ℕ}
    (hu : R.moves u = .begin root ticket) (hv : R.moves v = .begin root' ticket) :
    u = v ∧ root = root' := by
  rcases Nat.lt_trichotomy u v with h | rfl | h
  · exact absurd (R.rising u v _ _ _ _ hu hv h) (Nat.lt_irrefl _)
  · rw [hu] at hv
    simp only [FetchMove.begin.injEq] at hv
    exact ⟨rfl, hv.1⟩
  · exact absurd (R.rising v u _ _ _ _ hv hu h) (Nat.lt_irrefl _)

theorem completed_unique {v v' u u' : ℕ} {root root' : String} {ticket : ℕ} {r r' : FetchResult}
    (h : R.Completed v u root ticket r) (h' : R.Completed v' u' root' ticket r') : r = r' := by
  obtain ⟨w, -, -, hw⟩ := h
  obtain ⟨w', -, -, hw'⟩ := h'
  obtain rfl := R.once w w' _ _ _ _ _ hw hw'
  rw [hw] at hw'
  simp only [FetchMove.complete.injEq] at hw'
  exact hw'.2.2

theorem Stands.succ {u v : ℕ} {root : String} {ticket : ℕ} (h : R.Stands u v root ticket)
    (hb : ∀ ticket', R.moves u ≠ .begin root ticket') (hf : R.moves u ≠ .forget root) :
    R.Stands (u + 1) v root ticket where
  lt := Nat.lt_succ_of_lt h.lt
  begins := h.begins
  latest w hv hw := by
    rcases Nat.lt_succ_iff_lt_or_eq.mp hw with hw | rfl
    · exact h.latest w hv hw
    · exact hb
  kept w hv hw := by
    rcases Nat.lt_succ_iff_lt_or_eq.mp hw with hw | rfl
    · exact h.kept w hv hw
    · exact hf

theorem Stands.pred {u v : ℕ} {root : String} {ticket : ℕ} (h : R.Stands (u + 1) v root ticket)
    (hv : v ≠ u) : R.Stands u v root ticket where
  lt := Nat.lt_of_le_of_ne (Nat.le_of_lt_succ h.lt) hv
  begins := h.begins
  latest w hw hu := h.latest w hw (Nat.lt_succ_of_lt hu)
  kept w hw hu := h.kept w hw (Nat.lt_succ_of_lt hu)

theorem stands_begin {u : ℕ} {root : String} {ticket : ℕ} (h : R.moves u = .begin root ticket) :
    R.Stands (u + 1) u root ticket where
  lt := Nat.lt_succ_self u
  begins := h
  latest w hw hu := absurd hw (by omega)
  kept w hw hu := absurd hw (by omega)

theorem Completed.mono {v u u' : ℕ} {root : String} {ticket : ℕ} {r : FetchResult}
    (h : R.Completed v u root ticket r) (hle : u ≤ u') : R.Completed v u' root ticket r := by
  obtain ⟨w, hv, hw, hm⟩ := h
  exact ⟨w, hv, Nat.lt_of_lt_of_le hw hle, hm⟩

theorem completed_succ_iff {v u : ℕ} {root : String} {ticket : ℕ} {r : FetchResult} (hv : v < u) :
    R.Completed v (u + 1) root ticket r ↔
      R.Completed v u root ticket r ∨ R.moves u = .complete root ticket r := by
  refine ⟨fun ⟨w, hvw, hw, hm⟩ => ?_, fun h => ?_⟩
  · rcases Nat.lt_succ_iff_lt_or_eq.mp hw with hw | rfl
    · exact .inl ⟨w, hvw, hw, hm⟩
    · exact .inr hm
  · rcases h with h | hm
    · exact h.mono (Nat.le_succ u)
    · exact ⟨u, hv, Nat.lt_succ_self u, hm⟩

theorem HandedOut.mono {u u' ticket : ℕ} (h : R.HandedOut u ticket) (hle : u ≤ u') :
    R.HandedOut u' ticket := by
  obtain ⟨w, hw, h⟩ := h
  exact ⟨w, Nat.lt_of_lt_of_le hw hle, h⟩

/-! ## What the fetches hold -/

theorem stands_of_latest? {u : ℕ} {root : String} {fetch : Fetch}
    (h : (R.after u).latest? root = some fetch) : ∃ v, R.Stands u v root fetch.ticket := by
  induction u generalizing fetch with
  | zero => exact nomatch h
  | succ u ih =>
    cases Fetches.shows_of_latest?_move _ h with
    | begins hm => exact ⟨u, stands_begin hm⟩
    | completes r hm hr old hold ht =>
      obtain ⟨v, hv⟩ := ih hold
      exact ⟨v, ht ▸ hv.succ (by simp [hm]) (by simp [hm])⟩
    | stays hold hbegin _ _ hforget =>
      obtain ⟨v, hv⟩ := ih hold
      exact ⟨v, hv.succ hbegin hforget⟩

/-- What a run has made of the fetch that a project shows. -/
structure Tracks (R : FetchRun) (u : ℕ) (root : String) (fetch : Fetch) (v : ℕ) : Prop where
  stands : R.Stands u v root fetch.ticket
  kept : ¬R.HandedOut u fetch.ticket
  result : ∀ r, fetch.result = some r ↔ R.Completed v u root fetch.ticket r

theorem handedOut_succ {u v : ℕ} {root : String} {ticket : ℕ} (h : R.HandedOut (u + 1) ticket)
    (hv : R.Stands u v root ticket) : R.HandedOut u ticket ∨
      R.moves u = .poll root ticket ∧ ∃ r, (R.after u).latest? root = some ⟨ticket, some r⟩ := by
  obtain ⟨w, hw, other, r, hm, hr⟩ := h
  rcases Nat.lt_succ_iff_lt_or_eq.mp hw with hw | rfl
  · exact .inl ⟨w, hw, other, r, hm, hr⟩
  · have hl := (Fetches.poll_eq_ready_iff _ _ _).mp hr
    obtain ⟨v', hv'⟩ := stands_of_latest? hl
    obtain ⟨-, rfl⟩ := eq_of_begins hv.begins hv'.begins
    exact .inr ⟨hm, r, hl⟩

theorem tracks_of_latest? {u : ℕ} {root : String} {fetch : Fetch}
    (h : (R.after u).latest? root = some fetch) : ∃ v, R.Tracks u root fetch v := by
  induction u generalizing fetch with
  | zero => exact nomatch h
  | succ u ih =>
    cases Fetches.shows_of_latest?_move _ h with
    | begins hm hnone =>
      refine ⟨u, stands_begin hm, fun hout => ?_, fun r => ?_⟩
      · obtain ⟨w, hw, other, r, hpoll, hr⟩ := hout
        obtain ⟨v, hv⟩ := stands_of_latest? ((Fetches.poll_eq_ready_iff _ _ _).mp hr)
        obtain ⟨rfl, -⟩ := eq_of_begins hm hv.begins
        exact absurd hv.lt (Nat.not_lt.mpr (Nat.le_of_lt_succ hw))
      · rw [hnone]
        exact ⟨nofun, fun ⟨w, hlt, hle, _⟩ => absurd hlt (Nat.not_lt.mpr (Nat.le_of_lt_succ hle))⟩
    | completes r hm hr old hold ht =>
      obtain ⟨v, hstands, hkept, -⟩ := ih hold
      rw [ht] at hstands hkept
      refine ⟨v, hstands.succ (by simp [hm]) (by simp [hm]), fun hout => ?_, fun r' => ?_⟩
      · rcases handedOut_succ hout hstands with hout | ⟨hpoll, -⟩
        · exact hkept hout
        · rw [hm] at hpoll
          exact nomatch hpoll
      · have hcome : R.Completed v (u + 1) root fetch.ticket r :=
          (completed_succ_iff hstands.lt).mpr (.inr hm)
        rw [hr]
        exact ⟨fun he => Option.some.inj he ▸ hcome,
          fun h => congrArg some (completed_unique hcome h)⟩
    | stays hold hbegin hcomplete hpoll hforget =>
      obtain ⟨v, hv⟩ := ih hold
      refine ⟨v, hv.stands.succ hbegin hforget, fun hout => ?_, fun r => ?_⟩
      · rcases handedOut_succ hout hv.stands with hout | ⟨hm, r, hl⟩
        · exact hv.kept hout
        · rw [hold] at hl
          have hnone := hpoll hm
          rw [Option.some.inj hl] at hnone
          exact nomatch hnone
      · rw [completed_succ_iff hv.stands.lt, or_iff_left (hcomplete r)]
        exact hv.result r

/-- A fetch that has begun, and that nothing has taken the place of, is what the project shows until
it is handed out. -/
theorem latest?_of_stands {u v : ℕ} {root : String} {ticket : ℕ} (h : R.Stands u v root ticket)
    (hout : ¬R.HandedOut u ticket) :
    ∃ result, (R.after u).latest? root = some ⟨ticket, result⟩ := by
  induction u with
  | zero => exact absurd h.lt (Nat.not_lt_zero v)
  | succ u ih =>
    rcases eq_or_ne v u with rfl | hvu
    · exact ⟨none, by simp [after, Fetches.latest?_move, h.begins, FetchMove.root,
        FetchMove.onLatest]⟩
    · have hlt := Nat.lt_of_le_of_ne (Nat.le_of_lt_succ h.lt) hvu
      obtain ⟨result, hl⟩ := ih (h.pred hvu) fun ho => hout (ho.mono (Nat.le_succ u))
      refine Fetches.exists_latest?_move _ hl (h.latest u hlt (Nat.lt_succ_self u)) (fun hm => ?_)
        (h.kept u hlt (Nat.lt_succ_self u))
      -- the result would be handed out now
      cases result with
      | none => rfl
      | some r =>
        exact absurd ⟨u, Nat.lt_succ_self u, root, r, hm, (Fetches.poll_eq_ready_iff _ _ _).mpr hl⟩
          hout

/-! ## What is told -/

theorem completed_of_handedOut {u v : ℕ} {root : String} {ticket : ℕ}
    (hv : R.Stands u v root ticket) (h : R.HandedOut u ticket) :
    ∃ r, R.Completed v u root ticket r := by
  obtain ⟨w, hw, other, r, -, hr⟩ := h
  obtain ⟨v', hv'⟩ := tracks_of_latest? ((Fetches.poll_eq_ready_iff _ _ _).mp hr)
  obtain ⟨rfl, rfl⟩ := eq_of_begins hv.begins hv'.stands.begins
  exact ⟨r, ((hv'.result r).mp rfl).mono (Nat.le_of_lt hw)⟩

/-- The result of a fetch is told if it has come, there is no newer fetch of the project, and it has
neither been forgotten nor told before. -/
theorem ready_iff {u : ℕ} {root : String} {ticket : ℕ} {r : FetchResult} :
    ((R.after u).poll root ticket).1 = .ready r ↔
      ∃ v, R.Stands u v root ticket ∧ R.Completed v u root ticket r ∧ ¬R.HandedOut u ticket := by
  rw [Fetches.poll_eq_ready_iff]
  refine ⟨fun h => ?_, fun ⟨v, hv, hr, hout⟩ => ?_⟩
  · obtain ⟨v, hv⟩ := tracks_of_latest? h
    exact ⟨v, hv.stands, (hv.result r).mp rfl, hv.kept⟩
  · obtain ⟨result, hl⟩ := latest?_of_stands hv hout
    obtain ⟨v', hv'⟩ := tracks_of_latest? hl
    obtain ⟨rfl, -⟩ := eq_of_begins hv.begins hv'.stands.begins
    have hresult : result = some r := (hv'.result r).mpr hr
    rw [hl, hresult]

theorem pending_iff {u : ℕ} {root : String} {ticket : ℕ} :
    ((R.after u).poll root ticket).1 = .pending ↔
      ∃ v, R.Stands u v root ticket ∧ ∀ r, ¬R.Completed v u root ticket r := by
  rw [Fetches.poll_eq_pending_iff]
  refine ⟨fun h => ?_, fun ⟨v, hv, hr⟩ => ?_⟩
  · obtain ⟨v, hv⟩ := tracks_of_latest? h
    exact ⟨v, hv.stands, fun r hr => nomatch (hv.result r).mpr hr⟩
  · obtain ⟨result, hl⟩ := latest?_of_stands hv fun hout =>
      (completed_of_handedOut hv hout).elim hr
    obtain ⟨v', hv'⟩ := tracks_of_latest? hl
    obtain ⟨rfl, -⟩ := eq_of_begins hv.begins hv'.stands.begins
    cases result with
    | none => exact hl
    | some r => exact absurd ((hv'.result r).mp rfl) (hr r)

theorem superseded_iff {u : ℕ} {root : String} {ticket : ℕ} :
    ((R.after u).poll root ticket).1 = .superseded ↔
      (∀ v, ¬R.Stands u v root ticket) ∨ R.HandedOut u ticket := by
  rw [Fetches.poll_eq_superseded_iff]
  refine ⟨fun h => ?_, fun h fetch hl ht => ?_⟩
  · by_contra hno
    rw [not_or, not_forall_not] at hno
    obtain ⟨⟨v, hv⟩, hout⟩ := hno
    obtain ⟨result, hl⟩ := latest?_of_stands hv hout
    exact h _ hl rfl
  · subst ht
    obtain ⟨v, hv⟩ := tracks_of_latest? hl
    exact h.elim (fun hno => hno v hv.stands) hv.kept

theorem Stands.of_le {u u' v : ℕ} {root : String} {ticket : ℕ} (h : R.Stands u' v root ticket)
    (hle : u ≤ u') (hv : v < u) : R.Stands u v root ticket where
  lt := hv
  begins := h.begins
  latest w hw hu := h.latest w hw (Nat.lt_of_lt_of_le hu hle)
  kept w hw hu := h.kept w hw (Nat.lt_of_lt_of_le hu hle)

theorem Issued.lt_of_begins {u v : ℕ} {root : String} {ticket : ℕ} (h : R.Issued u ticket)
    (hv : R.moves v = .begin root ticket) : v < u := by
  obtain ⟨w, hw, other, ticket', hm, hle⟩ := h
  by_contra hge
  have hrise := R.rising w v _ _ _ _ hm hv (Nat.lt_of_lt_of_le hw (Nat.not_lt.mp hge))
  exact absurd hle (Nat.not_le.mpr hrise)

theorem superseded_of_le {u u' : ℕ} {root : String} {ticket : ℕ} (hle : u ≤ u')
    (hissued : R.Issued u ticket) (h : ((R.after u).poll root ticket).1 = .superseded) :
    ((R.after u').poll root ticket).1 = .superseded := by
  rw [superseded_iff] at h ⊢
  rcases h with h | h
  · exact .inl fun v hv => h v (hv.of_le hle (hissued.lt_of_begins hv.begins))
  · exact .inr (h.mono hle)

variable (R) in
/-- What is told about the tickets of a run. -/
structure Delivers : Prop where
  /-- a result is told if it is that of the project's latest fetch, has come, and has neither been
  forgotten nor told before -/
  ready : ∀ u root ticket r, ((R.after u).poll root ticket).1 = .ready r ↔
    ∃ v, R.Stands u v root ticket ∧ R.Completed v u root ticket r ∧ ¬R.HandedOut u ticket
  /-- the latest fetch that has not been forgotten is waited for until its result has come -/
  pending : ∀ u root ticket, ((R.after u).poll root ticket).1 = .pending ↔
    ∃ v, R.Stands u v root ticket ∧ ∀ r, ¬R.Completed v u root ticket r
  /-- every other ticket is given up -/
  superseded : ∀ u root ticket, ((R.after u).poll root ticket).1 = .superseded ↔
    (∀ v, ¬R.Stands u v root ticket) ∨ R.HandedOut u ticket
  /-- a ticket that has been given up stays so -/
  given_up : ∀ u u' root ticket, u ≤ u' → R.Issued u ticket →
    ((R.after u).poll root ticket).1 = .superseded →
    ((R.after u').poll root ticket).1 = .superseded
  /-- and so does one whose result has been told -/
  handed_out : ∀ u u' root ticket, u ≤ u' → R.HandedOut u ticket →
    ((R.after u').poll root ticket).1 = .superseded
  /-- what happens to a project only shows in its own tickets -/
  apart : ∀ u root ticket, (R.moves u).root ≠ root →
    ((R.after (u + 1)).poll root ticket).1 = ((R.after u).poll root ticket).1

/-- **A result is told once, and never late**: what is told about a ticket only depends on what has
happened to its project since the latest fetch began there. -/
theorem delivers (R : FetchRun) : R.Delivers where
  ready _ _ _ _ := ready_iff
  pending _ _ _ := pending_iff
  superseded _ _ _ := superseded_iff
  given_up _ _ _ _ := superseded_of_le
  handed_out _ _ _ _ hle hout := superseded_iff.mpr (.inr (hout.mono hle))
  apart _ _ ticket h := Fetches.poll_move_of_ne _ h ticket

/-- The first fetch of a project gets its result when there is a newer one, and the project is
forgotten again and again in the end. -/
def overtaken : FetchRun where
  moves
    | 0 => .begin "a" 1
    | 1 => .begin "b" 2
    | 2 => .begin "a" 3
    | 3 => .complete "a" 1 (.ok [])
    | 4 => .complete "b" 2 (.ok [])
    | _ => .forget "a"
  rising u v := by
    rcases u with _ | _ | _ | _ | _ | u <;> rcases v with _ | _ | _ | _ | _ | v <;> simp <;> omega
  begun u := by
    rcases u with _ | _ | _ | _ | _ | u <;> simp
    · exact ⟨0, by simp⟩
    · exact ⟨1, by simp⟩
  once u v := by
    rcases u with _ | _ | _ | _ | _ | u <;> rcases v with _ | _ | _ | _ | _ | v <;> simp <;>
      intros <;> omega

theorem delivers_overtaken : overtaken.Delivers ∧
    ((overtaken.after 5).poll "a" 1).1 = .superseded ∧
    ((overtaken.after 5).poll "a" 3).1 = .pending ∧
    ((overtaken.after 5).poll "b" 2).1 = .ready (.ok []) :=
  ⟨overtaken.delivers, rfl, rfl, rfl⟩

end FetchRun

end SymbolIndex.Editor
