import SymbolIndex.Proofs.Serializer.Counts
import SymbolIndex.Serializer.Threads

/-!
# Runs of threads

A run is a serializer that nobody has used yet and everything that its threads do with it
afterwards, one step after the other, in any order.

* `Threads.OwnerStep`, `ownerStep_cases`: what a step of the owner does, case by case;
* `Threads.Step`, `step_happen`: what an event does;
* `Threads.IsOwners`, `OwnerStep.ofTurn`: what the turns of a job leave alone;
* `Threads.Alone`, `ThreadsRun`, `ThreadsRun.after`: runs.
-/

namespace SymbolIndex

open Serializer

variable {σ V : Type}

namespace Threads

def withDesk (s : Threads σ V) (desk : Desk σ V) : Threads σ V := { s with desk }

def withCommon (s : Threads σ V) (common : Common σ V) : Threads σ V := { s with common }

theorem work_common (s : Threads σ V) (w : Who) (fault : Option OsError) :
    (s.work w fault).common = ((s.errand w).step s.common w fault).1 := rfl

theorem work_errand_self (s : Threads σ V) (w : Who) (fault : Option OsError) :
    (s.work w fault).errand w = ((s.errand w).step s.common w fault).2 := if_pos rfl

theorem work_errand_of_ne (s : Threads σ V) {w v : Who} (h : v ≠ w) (fault : Option OsError) :
    (s.work w fault).errand v = s.errand v := if_neg h

theorem withErrand_self (s : Threads σ V) (w : Who) (e : Errand σ V) :
    (s.withErrand w e).errand w = e := if_pos rfl

theorem withErrand_of_ne (s : Threads σ V) {w v : Who} (h : v ≠ w) (e : Errand σ V) :
    (s.withErrand w e).errand v = s.errand v := if_neg h

/-! ## Steps of the owner -/

/-- A job behind its next action. -/
def passed (r : Running σ V) (rest : Script σ V) : Running σ V :=
  { r with frame := { r.frame with script := rest } }

/-- What a step of the owner does, case by case. -/
inductive OwnerStep (s : Threads σ V) : Threads σ V → Prop
  /-- it has nothing to do -/
  | rests : OwnerStep s s
  | takes {j : Job σ V} {queue : List (Message σ V)} (hd : s.desk = .free)
    (hq : s.common.core.queue = .job j :: queue) :
    OwnerStep s ((s.withCore { s.common.core with queue }).withDesk (.judges j))
  | halts {queue : List (Message σ V)} (hd : s.desk = .free)
    (hq : s.common.core.queue = .stop :: queue) :
    OwnerStep s ((s.withCore { s.common.core with queue }).withDesk .halts)
  | drops {j : Job σ V} (hd : s.desk = .judges j) (h : s.common.core.Dismisses j) :
    OwnerStep s (s.withDesk (.discards j))
  | keeps {j : Job σ V} (hd : s.desk = .judges j) (h : ¬ s.common.core.Dismisses j) :
    OwnerStep s (s.withDesk (.starts j))
  | discards {j : Job σ V} (hd : s.desk = .discards j) :
    OwnerStep s ((s.withCore s.common.core.countDropped).withDesk (.forgets j))
  | forgets {j : Job σ V} (hd : s.desk = .forgets j) :
    OwnerStep s ((s.withCore { s.common.core with
      replies := s.common.core.replies ++ dismissals j }).withDesk .free)
  | starts {j : Job σ V} (hd : s.desk = .starts j) :
    OwnerStep s (s.withDesk (.runs (s.common.core.starting j)))
  | settles {n : ℕ} {succeeded : Bool} (hd : s.desk = .settles n succeeded) :
    OwnerStep s ((s.withCore (s.common.core.countEnd succeeded)).withDesk .free)
  | closes (hd : s.desk = .halts) :
    OwnerStep s ((s.withCommon (s.common.enter .stopped)).withDesk .leaves)
  | leaves (hd : s.desk = .leaves) :
    OwnerStep s ((s.withCommon { s.common.loseQueue with
      core := { s.common.loseQueue.core with owner := .finished } }).withDesk .free)
  /-- its job begins to ask something of the serializer -/
  | begins {r : Running σ V} {a : Action σ V} {rest : Script σ V} {q : Wish σ V}
    (hd : s.desk = .runs r) (hs : r.frame.script = a :: rest) (hq : a.wish = some q)
    (he : s.errand .owner = .rests none) (hs' : s.isDropped = false) :
    OwnerStep s (s.withErrand .owner q.errand)
  | works {r : Running σ V} (hd : s.desk = .runs r)
    (he : ∀ last, s.errand .owner ≠ .rests last) : OwnerStep s (s.work .owner none)
  /-- it has been answered -/
  | answered {r : Running σ V} {a : Action σ V} {rest : Script σ V} {answer : Answer V}
    (hd : s.desk = .runs r) (hs : r.frame.script = a :: rest)
    (he : s.errand .owner = .rests (some answer)) :
    OwnerStep s (((s.withErrand .owner (.rests none)).withCore
      ((a.noteOn answer).elim s.common.core s.common.core.withNote)).withDesk
        (.runs (passed r rest)))
  /-- it does not reach the serializer any more -/
  | skips {r : Running σ V} {a : Action σ V} {rest : Script σ V} (hd : s.desk = .runs r)
    (hs : r.frame.script = a :: rest) : OwnerStep s (s.withDesk (.runs (passed r rest)))
  | goesOn {r r' : Running σ V} {core : Serializer σ V} (hd : s.desk = .runs r)
    (hq : requestIn r = none) (ht : s.common.core.nextTurn r = .goesOn core r') :
    OwnerStep s ((s.withCore core).withDesk (.runs r'))
  | ends {r : Running σ V} {core : Serializer σ V} {result : JobResult V} (hd : s.desk = .runs r)
    (ht : s.common.core.nextTurn r = .ends core result) : OwnerStep s (s.finish core r result)
  | panics {r : Running σ V} {p : Payload} (hd : s.desk = .runs r)
    (ht : s.common.core.nextTurn r = .panics p) : OwnerStep s (s.unwind r p)

theorem needsSerializer_of_wish {a : Action σ V} {q : Wish σ V} (h : a.wish = some q) :
    a.needsSerializer = true := by
  cases a <;> first | rfl | cases h

theorem request_eq_none_of_wish {a : Action σ V} (h : a.wish = none) : a.request = none := by
  cases a <;> first | rfl | cases h

theorem takeTurn_cases {s : Threads σ V} {r : Running σ V} (hd : s.desk = .runs r)
    (hq : requestIn r = none) : OwnerStep s (s.takeTurn r) := by
  unfold takeTurn
  split
  · exact .rests
  · next ht => exact .goesOn hd hq ht
  · next ht => exact .ends hd ht
  · next ht => exact .panics hd ht

theorem run_cases {s : Threads σ V} {r : Running σ V} (hd : s.desk = .runs r) :
    OwnerStep s (s.run r) := by
  unfold run
  split
  · next hs => exact takeTurn_cases hd (by rw [requestIn, hs]; rfl)
  · next a rest hs =>
    split
    · exact .skips hd hs
    · next hskip =>
      cases hq : a.wish with
      | none =>
        refine takeTurn_cases hd ?_
        rw [requestIn, hs]
        exact request_eq_none_of_wish hq
      | some q =>
        have hdropped : s.isDropped = false :=
          Bool.eq_false_iff.mpr fun h => hskip ⟨h, needsSerializer_of_wish hq⟩
        rw [Option.elim_some, attend]
        split
        · next he => exact .begins hd hs hq he hdropped
        · next he => exact .answered hd hs he
        · next hnone hsome =>
          refine .works hd fun last he => ?_
          cases last with
          | none => exact hnone he
          | some answer => exact hsome answer he

theorem ownerStep_cases (s : Threads σ V) : OwnerStep s s.ownerStep := by
  unfold ownerStep
  split
  · split
    · next hd =>
      unfold receive
      split
      · exact .rests
      · next hq => exact .takes hd hq
      · next hq => exact .halts hd hq
    · next hd =>
      split
      · next h => exact .drops hd h
      · next h => exact .keeps hd h
    · next hd => exact .discards hd
    · next j hd =>
      have hforgets := OwnerStep.forgets hd
      unfold dismissals at hforgets
      split
      · next hj => rwa [hj] at hforgets
      · next hj =>
        cases hdel : j.delivery with
        | reply => exact absurd hdel hj
        | discard | callback c => rwa [hdel, List.append_nil] at hforgets
    · next hd => exact .starts hd
    · next hd => exact run_cases hd
    · next hd => exact .settles hd
    · next hd => exact .closes hd
    · next hd => exact .leaves hd
  · exact .rests

/-! ## Events -/

/-- What an event does, case by case. -/
inductive Step (s : Threads σ V) : Event σ V → Threads σ V → Prop
  | rests {e : Event σ V} : Step s e s
  /-- a thread takes a step of its errand -/
  | works {i : ℕ} {fault : Option OsError} : Step s (.step i fault) (s.work (.thread i) fault)
  | asks {i : ℕ} {q : Wish σ V} {last : Option (Answer V)} (he : s.errand (.thread i) = .rests last)
    (hd : s.isDropped = false) :
    Step s (.ask i q) { s.withErrand (.thread i) q.errand with isDropped := q.isDrop }
  | givesUp {i n : ℕ} (he : s.errand (.thread i) = .waits n true)
    (hr : s.common.core.replyTo n = none) :
    Step s (.giveUp i) (s.withErrand (.thread i) (.rests (some (.fails .timeout))))
  /-- a gate opens -/
  | releases {r : Running σ V} {rest : Script σ V} (hd : s.desk = .runs r)
    (hs : r.frame.script = .gate :: rest) : Step s .release (s.withDesk (.runs (passed r rest)))
  | owner (ha : s.common.core.owner = .alive) (h : OwnerStep s s.ownerStep) :
    Step s .owner s.ownerStep

theorem step_happen (s : Threads σ V) (e : Event σ V) : Step s e (s.happen e) := by
  cases e with
  | step i fault => exact .works
  | ask i q =>
    rw [happen, ask]
    split
    · next he hd => exact .asks he hd
    · exact .rests
  | giveUp i =>
    rw [happen, giveUp]
    split
    · next n he =>
      split
      · next hr => exact .givesUp he (Option.isNone_iff_eq_none.mp hr)
      · exact .rests
    · exact .rests
  | release =>
    rw [happen, release]
    split
    · next r hd =>
      split
      · next rest hs => exact .releases hd hs
      · exact .rests
    · exact .rests
  | owner =>
    by_cases ha : s.common.core.owner = .alive
    · exact .owner ha s.ownerStep_cases
    · rw [happen, ownerStep, if_neg ha]
      exact .rests

/-! ## What turns leave alone -/

/-- Nothing is changed that threads share, but what only the owner works on. -/
def IsOwners (c c' : Common σ V) : Prop :=
  ∃ state replies log, c' = { c with core := { c.core with state, replies, log } }

theorem IsOwners.lock {c c' : Common σ V} (h : IsOwners c c') : c'.lock = c.lock := by
  obtain ⟨_, _, _, rfl⟩ := h
  rfl

theorem IsOwners.refl (c : Common σ V) : IsOwners c c := ⟨_, _, _, rfl⟩

theorem isOwners_of_goesOn {s : Threads σ V} {r r' : Running σ V} {core : Serializer σ V}
    (hq : requestIn r = none) (ht : s.common.core.nextTurn r = .goesOn core r') :
    IsOwners s.common (s.withCore core).common := by
  have hcore := serves_nextTurn ht
  rw [hq] at hcore
  exact ⟨core.state, s.common.core.replies, core.log, by rw [withCore, hcore]; rfl⟩

theorem isOwners_finish {s : Threads σ V} {r : Running σ V} {core : Serializer σ V}
    {result : JobResult V} (ht : s.common.core.nextTurn r = .ends core result) :
    IsOwners s.common (s.finish core r result).common := by
  have hcore := nextTurn_of_ends ht
  generalize core.state = state at hcore
  subst hcore
  unfold finish
  split
  · exact ⟨_, _, _, rfl⟩
  · split <;> exact ⟨_, _, _, rfl⟩

theorem finish_errand (s : Threads σ V) (core : Serializer σ V) (r : Running σ V)
    (result : JobResult V) : (s.finish core r result).errand = s.errand := by
  unfold finish
  split
  · rfl
  · split <;> rfl

theorem unwind_errand (s : Threads σ V) (r : Running σ V) (p : Payload) :
    (s.unwind r p).errand = s.errand := by
  unfold unwind
  split <;> rfl

theorem isOwners_unwind (s : Threads σ V) (r : Running σ V) (p : Payload) :
    IsOwners s.common (s.unwind r p).common := by
  unfold unwind
  split
  · exact ⟨_, _, _, rfl⟩
  · exact .refl _

/-! ## Runs -/

/-- A serializer that nobody has used yet. -/
def new (name : String) (background : Bool) (state : σ) : Threads σ V :=
  { common := { core := { name, background, state } } }

/-- What becomes of a serializer. -/
def follow (s : Threads σ V) (events : ℕ → Event σ V) : ℕ → Threads σ V
  | 0 => s
  | t + 1 => (follow s events t).happen (events t)

/-- Nobody else is in the middle of using the serializer. -/
structure Alone (s : Threads σ V) (i : ℕ) : Prop where
  errand : ∀ w, w ≠ .thread i → ∃ last, s.errand w = .rests last
  desk : ∀ r, s.desk = .runs r → r.outer = []

end Threads

/-- A run of the threads of a serializer. Whoever lets go of the serializer is the last to hold on
to it. -/
structure ThreadsRun (σ V : Type) where
  name : String
  background : Bool
  state : σ
  events : ℕ → Event σ V
  alone : ∀ t i, events t = .ask i .drop →
    ((Threads.new name background state).follow events t).Alone i

namespace ThreadsRun

open Threads

/-- The serializer after some events. -/
def after (R : ThreadsRun σ V) (t : ℕ) : Threads σ V :=
  (new R.name R.background R.state).follow R.events t

/-- The run of some events, behind which nothing happens. -/
def ofEvents (name : String) (background : Bool) (state : σ) (events : List (Event σ V))
    (h : ∀ i, Event.ask i Wish.drop ∉ events) : ThreadsRun σ V where
  name := name
  background := background
  state := state
  events t := events.getD t .release
  alone t i ht := by
    rw [List.getD_eq_getElem?_getD] at ht
    cases hget : events[t]? with
    | none => rw [hget] at ht; cases ht
    | some e =>
      rw [hget, Option.getD_some] at ht
      exact absurd (ht ▸ List.mem_of_getElem? hget) (h i)

theorem after_ofEvents (name : String) (background : Bool) (state : σ) (events : List (Event σ V))
    (h : ∀ i, Event.ask i Wish.drop ∉ events) {t : ℕ} (ht : t ≤ events.length) :
    (ofEvents name background state events h).after t =
      (events.take t).foldl happen (new name background state) := by
  induction t with
  | zero => rfl
  | succ t ih =>
    have hevent : events.getD t .release = events[t] := by
      rw [List.getD_eq_getElem?_getD, List.getElem?_eq_getElem (by omega), Option.getD_some]
    rw [List.take_add_one, List.foldl_append, ← ih (by omega), List.getElem?_eq_getElem (by omega)]
    exact congrArg (happen _) hevent

theorem step (R : ThreadsRun σ V) (t : ℕ) : Step (R.after t) (R.events t) (R.after (t + 1)) :=
  step_happen (R.after t) (R.events t)

end ThreadsRun

end SymbolIndex
