import SymbolIndex.Proofs.Threads.Places

/-!
# Stations

A serializer comes from one station to the next: its receiver is kept, carried to the owner, the
handle is borne to its place, taken from there, and the owner is asked to end.

* `Threads.Station`: the stations;
* `Threads.Proceeds`, `Threads.Course`, `course_of_step`: how a serializer comes from one to the
  next;
* `ThreadsRun.station`, `ThreadsRun.course`: at any moment of a run.
-/

namespace SymbolIndex

open Serializer

variable {σ V : Type}

/-- Nobody has asked the owner to end. -/
def NoStop (queue : List (Message σ V)) : Prop := ∀ m ∈ queue, m ≠ .stop

/-- The owner has been asked to end. -/
def Desk.isHalting : Desk σ V → Bool
  | .halts | .leaves => true
  | _ => false

namespace Threads

/-- Nobody has anything with him. -/
def Free (s : Threads σ V) : Prop := ∀ w, (s.errand w).place = none

/-- One thread has something with it. -/
def Has (s : Threads σ V) (w : Who) (p : Place) : Prop :=
  ∀ v, (s.errand v).place = if v = w then some p else none

/-- The owner has not been spawned. -/
structure Unborn (s : Threads σ V) : Prop where
  owner : s.common.core.owner = .unborn
  hasHandle : s.common.core.hasHandle = false
  desk : s.desk = .free
  queue : NoStop s.common.core.queue

/-- The owner is at work, and nobody has asked it to end. -/
structure Alive (s : Threads σ V) : Prop where
  owner : s.common.core.owner = .alive
  hasReceiver : s.common.core.hasReceiver = false
  carried : s.common.carried = false
  desk : s.desk.isHalting = false
  queue : NoStop s.common.core.queue

/-- The owner has been asked to end behind all jobs, is about to end, or has ended. -/
inductive Ending (s : Threads σ V) : Prop
  | asked (owner : s.common.core.owner = .alive) (desk : s.desk.isHalting = false)
    {jobs : List (Message σ V)} (queue : s.common.core.queue = jobs ++ [.stop]) (hj : NoStop jobs)
  | halting (owner : s.common.core.owner = .alive) (desk : s.desk.isHalting = true)
    (queue : s.common.core.queue = [])
  | ended (owner : s.common.core.owner = .finished) (desk : s.desk = .free)
    (queue : s.common.core.queue = [])

/-- How far a serializer has come. -/
inductive Station (s : Threads σ V) : Prop
  /-- nobody has taken the receiver -/
  | kept (h : s.Unborn) (hr : s.common.core.hasReceiver = true) (hc : s.common.carried = false)
    (free : s.Free)
  /-- it is on its way to the owner -/
  | carried {w : Who} (h : s.Unborn) (hr : s.common.core.hasReceiver = false)
    (hc : s.common.carried = true) (has : s.Has w .carries)
  /-- it was dropped, and all that was queued with it -/
  | lost (h : s.Unborn) (hr : s.common.core.hasReceiver = false) (hc : s.common.carried = false)
    (hq : s.common.core.queue = []) (free : s.Free)
  /-- the owner is at work, and the handle on its way to where it is kept -/
  | borne {w : Who} (h : s.Alive) (hh : s.common.core.hasHandle = false) (has : s.Has w .bears)
  | ready (h : s.Alive) (hh : s.common.core.hasHandle = true) (free : s.Free)
  /-- a stop has taken the handle -/
  | held {w : Who} (h : s.Alive) (hh : s.common.core.hasHandle = false) (has : s.Has w .holds)
  /-- and has closed the serializer -/
  | closing {w : Who} (h : s.Alive) (hh : s.common.core.hasHandle = false) (has : s.Has w .closes)
    (closed : s.common.core.isOpen = false)
  /-- and has asked the owner to end, and nothing can be sent any more -/
  | sent (h : s.Ending) (hr : s.common.core.hasReceiver = false) (hc : s.common.carried = false)
    (hh : s.common.core.hasHandle = false) (free : s.Free) (closed : s.common.core.isOpen = false)
    (quiet : ∀ w, (s.errand w).isSending = false)

/-! ### Who has something with him -/

variable {s s' : Threads σ V}

theorem Has.self {w : Who} {p : Place} (h : s.Has w p) : (s.errand w).place = some p := by
  rw [h w, if_pos rfl]

theorem Has.other {w v : Who} {p : Place} (h : s.Has w p) (hv : v ≠ w) :
    (s.errand v).place = none := by
  rw [h v, if_neg hv]

theorem Has.eq {w v : Who} {p q : Place} (h : s.Has w p) (hv : (s.errand v).place = some q) :
    v = w ∧ q = p := by
  rw [h v] at hv
  split at hv
  · next hvw => exact ⟨hvw, (Option.some.inj hv).symm⟩
  · cases hv

theorem has_work {w : Who} {p : Place} {fault : Option OsError}
    (h : ∀ v, v ≠ w → (s.errand v).place = none)
    (hp : ((s.work w fault).errand w).place = some p) : (s.work w fault).Has w p := by
  intro v
  split
  · next hv => rw [hv, hp]
  · next hv => rw [work_errand_of_ne s hv, h v hv]

theorem free_work {w : Who} {fault : Option OsError} (h : ∀ v, v ≠ w → (s.errand v).place = none)
    (hp : ((s.work w fault).errand w).place = none) : (s.work w fault).Free := by
  intro v
  by_cases hv : v = w
  · rw [hv, hp]
  · rw [work_errand_of_ne s hv, h v hv]

/-! ### Where a serializer is -/

theorem Station.of_hasReceiver (h : s.Station) (hr : s.common.core.hasReceiver = true) :
    s.Unborn ∧ s.common.carried = false ∧ s.Free := by
  cases h with
  | kept h _ hc free => exact ⟨h, hc, free⟩
  | carried _ hr' | lost _ hr' | sent _ hr' => cases hr.symm.trans hr'
  | borne h | ready h | held h | closing h => cases hr.symm.trans h.hasReceiver

theorem Station.of_carries (h : s.Station) {w : Who} (hw : (s.errand w).place = some .carries) :
    s.Unborn ∧ s.common.core.hasReceiver = false ∧ s.Has w .carries := by
  cases h with
  | carried h hr hc has =>
    obtain ⟨rfl, -⟩ := has.eq hw
    exact ⟨h, hr, has⟩
  | kept _ _ _ free | lost _ _ _ _ free | ready _ _ free | sent _ _ _ _ free =>
    cases (free w).symm.trans hw
  | borne _ _ has | held _ _ has | closing _ _ has => cases (has.eq hw).2

theorem Station.of_bears (h : s.Station) {w : Who} (hw : (s.errand w).place = some .bears) :
    s.Alive ∧ s.common.core.hasHandle = false ∧ s.Has w .bears := by
  cases h with
  | borne h hh has =>
    obtain ⟨rfl, -⟩ := has.eq hw
    exact ⟨h, hh, has⟩
  | kept _ _ _ free | lost _ _ _ _ free | ready _ _ free | sent _ _ _ _ free =>
    cases (free w).symm.trans hw
  | carried _ _ _ has | held _ _ has | closing _ _ has => cases (has.eq hw).2

theorem Station.of_holds (h : s.Station) {w : Who} (hw : (s.errand w).place = some .holds) :
    s.Alive ∧ s.common.core.hasHandle = false ∧ s.Has w .holds := by
  cases h with
  | held h hh has =>
    obtain ⟨rfl, -⟩ := has.eq hw
    exact ⟨h, hh, has⟩
  | kept _ _ _ free | lost _ _ _ _ free | ready _ _ free | sent _ _ _ _ free =>
    cases (free w).symm.trans hw
  | carried _ _ _ has | borne _ _ has | closing _ _ has => cases (has.eq hw).2

theorem Station.of_closes (h : s.Station) {w : Who} (hw : (s.errand w).place = some .closes) :
    s.Alive ∧ s.common.core.hasHandle = false ∧ s.Has w .closes ∧ s.common.core.isOpen = false := by
  cases h with
  | closing h hh has closed =>
    obtain ⟨rfl, -⟩ := has.eq hw
    exact ⟨h, hh, has, closed⟩
  | kept _ _ _ free | lost _ _ _ _ free | ready _ _ free | sent _ _ _ _ free =>
    cases (free w).symm.trans hw
  | carried _ _ _ has | borne _ _ has | held _ _ has => cases (has.eq hw).2

theorem Station.of_hasHandle (h : s.Station) (hh : s.common.core.hasHandle = true) :
    s.Alive ∧ s.Free := by
  cases h with
  | ready h _ free => exact ⟨h, free⟩
  | kept h | carried h | lost h => cases hh.symm.trans h.hasHandle
  | borne _ hh' | held _ hh' | closing _ hh' => cases hh.symm.trans hh'
  | sent _ _ _ hh' => cases hh.symm.trans hh'

/-! ### From one station to the next -/

theorem noStop_append {queue : List (Message σ V)} (h : NoStop queue) (j : Job σ V) :
    NoStop (queue ++ [.job j]) := by
  intro m hm
  rcases List.mem_append.mp hm with hm | hm
  · exact h m hm
  · rw [List.mem_singleton.mp hm]
    exact nofun

theorem noStop_of_keeps {c c' : Common σ V} (h : c.Keeps c') (hq : NoStop c.core.queue) :
    NoStop c'.core.queue := by
  rcases h.queue with heq | ⟨-, j, heq⟩ <;> rw [heq]
  · exact hq
  · exact noStop_append hq j

/-- What stations are about stays as it was. -/
structure Stays (s s' : Threads σ V) : Prop where
  common : s.common.Keeps s'.common
  desk : s'.desk.isHalting = s.desk.isHalting
  rests : s.common.core.owner ≠ .alive → s'.desk = s.desk
  place : ∀ w, (s'.errand w).place = (s.errand w).place
  sends : ∀ w, (s'.errand w).isSending = true →
    (s.errand w).isSending = true ∨ s.common.core.isOpen = true
  queue : s'.common.core.queue = s.common.core.queue ∨ ∃ w, (s.errand w).isSending = true

theorem Unborn.stays (h : s.Unborn) (hs : Stays s s') : s'.Unborn where
  owner := hs.common.owner.trans h.owner
  hasHandle := hs.common.hasHandle.trans h.hasHandle
  desk := (hs.rests (by rw [h.owner]; decide)).trans h.desk
  queue := noStop_of_keeps hs.common h.queue

theorem Alive.stays (h : s.Alive) (hs : Stays s s') : s'.Alive where
  owner := hs.common.owner.trans h.owner
  hasReceiver := hs.common.hasReceiver.trans h.hasReceiver
  carried := hs.common.carried.trans h.carried
  desk := hs.desk.trans h.desk
  queue := noStop_of_keeps hs.common h.queue

theorem Ending.stays (h : s.Ending) (hs : Stays s s')
    (hq : s'.common.core.queue = s.common.core.queue) : s'.Ending := by
  have howner := hs.common.owner
  cases h with
  | asked owner desk queue hj =>
    exact .asked (howner.trans owner) (hs.desk.trans desk) (hq.trans queue) hj
  | halting owner desk queue =>
    exact .halting (howner.trans owner) (hs.desk.trans desk) (hq.trans queue)
  | ended owner desk queue =>
    exact .ended (howner.trans owner) ((hs.rests (by rw [owner]; decide)).trans desk)
      (hq.trans queue)

theorem isOpen_of_keeps {c c' : Common σ V} (h : c.Keeps c') (ho : c.core.isOpen = false) :
    c'.core.isOpen = false := by
  cases hc : c'.core.isOpen with
  | false => rfl
  | true => cases ho.symm.trans (h.isOpen hc)

theorem Station.stays (h : s.Station) (hs : Stays s s') : s'.Station := by
  have hreceiver := hs.common.hasReceiver
  have hhandle := hs.common.hasHandle
  have hcarried := hs.common.carried
  have hfree : s.Free → s'.Free := fun hf w => (hs.place w).trans (hf w)
  have hhas : ∀ {w p}, s.Has w p → s'.Has w p := fun hw v => (hs.place v).trans (hw v)
  cases h with
  | kept h hr hc free =>
    exact .kept (h.stays hs) (hreceiver.trans hr) (hcarried.trans hc) (hfree free)
  | carried h hr hc has =>
    exact .carried (h.stays hs) (hreceiver.trans hr) (hcarried.trans hc) (hhas has)
  | lost h hr hc hq free =>
    have hq' : s'.common.core.queue = s.common.core.queue := by
      refine hs.common.queue.resolve_right ?_
      rintro ⟨hreader, -⟩
      rw [Common.hasReader, hr, hc, h.owner] at hreader
      cases hreader
    exact .lost (h.stays hs) (hreceiver.trans hr) (hcarried.trans hc) (hq'.trans hq) (hfree free)
  | borne h hh has => exact .borne (h.stays hs) (hhandle.trans hh) (hhas has)
  | ready h hh free => exact .ready (h.stays hs) (hhandle.trans hh) (hfree free)
  | held h hh has => exact .held (h.stays hs) (hhandle.trans hh) (hhas has)
  | closing h hh has closed =>
    exact .closing (h.stays hs) (hhandle.trans hh) (hhas has) (isOpen_of_keeps hs.common closed)
  | sent h hr hc hh free closed quiet =>
    have hquiet : ∀ w, (s'.errand w).isSending = false := by
      intro w
      cases hw : (s'.errand w).isSending with
      | false => rfl
      | true =>
        rcases hs.sends w hw with hsend | ho
        · cases (quiet w).symm.trans hsend
        · cases closed.symm.trans ho
    have hq : s'.common.core.queue = s.common.core.queue := by
      refine hs.queue.resolve_right ?_
      rintro ⟨w, hw⟩
      cases (quiet w).symm.trans hw
    exact .sent (h.stays hs hq) (hreceiver.trans hr) (hcarried.trans hc) (hhandle.trans hh)
      (hfree free) (isOpen_of_keeps hs.common closed) hquiet

theorem isSending_work {w v : Who} {fault : Option OsError}
    (hv : ((s.work w fault).errand v).isSending = true)
    (hw : ((s.work w fault).errand w).isSending = true →
      (s.errand w).isSending = true ∨ s.common.core.isOpen = true) :
    (s.errand v).isSending = true ∨ s.common.core.isOpen = true := by
  by_cases h : v = w
  · subst h
    exact hw hv
  · rw [work_errand_of_ne s h] at hv
    exact .inl hv

theorem stays_work {w : Who} {fault : Option OsError} (hk : s.common.Keeps (s.work w fault).common)
    (place : ((s.work w fault).errand w).place = (s.errand w).place)
    (sends : ((s.work w fault).errand w).isSending = true →
      (s.errand w).isSending = true ∨ s.common.core.isOpen = true)
    (queue : (s.work w fault).common.core.queue = s.common.core.queue ∨
      (s.errand w).isSending = true) : Stays s (s.work w fault) where
  common := hk
  desk := rfl
  rests _ := rfl
  place v := by
    by_cases h : v = w
    · subst h
      exact place
    · rw [work_errand_of_ne s h]
  sends _ hv := isSending_work hv sends
  queue := queue.imp id fun h => ⟨w, h⟩

/-- Whoever is about to tell the owner to end holds the lock, so that nobody else is sending. -/
theorem quiet_of_sends {w : Who} {fault : Option OsError} (hl : s.Locked)
    (hw : (s.errand w).isInside = true) (hsend : ((s.work w fault).errand w).isSending = false)
    (v : Who) : ((s.work w fault).errand v).isSending = false := by
  by_cases hv : v = w
  · subst hv
    exact hsend
  · rw [work_errand_of_ne s hv]
    cases hs : (s.errand v).isSending with
    | false => rfl
    | true =>
      have hlock := ((hl v).mp (isInside_of_isSending hs)).symm.trans ((hl w).mp hw)
      exact absurd (Option.some.inj hlock) hv

theorem Station.work (h : s.Station) (hl : s.Locked) (w : Who) (fault : Option OsError) :
    (s.work w fault).Station := by
  have hself := s.work_errand_self w fault
  have hcommon := s.work_common w fault
  have hdesk : (s.work w fault).desk = s.desk := rfl
  have hchange := change_step s.common w fault (s.errand w)
  rw [← hself, ← hcommon] at hchange
  cases hchange with
  | keeps hk place sends queue => exact h.stays (stays_work hk place sends queue)
  | takesReceiver hr _ he' hc =>
    obtain ⟨hu, -, free⟩ := h.of_hasReceiver hr
    have place := congrArg Errand.place he'
    refine .carried ⟨?_, ?_, hdesk.trans hu.desk, ?_⟩ ?_ ?_ (has_work (fun v _ => free v) place) <;>
      rw [hc]
    exacts [hu.owner, hu.hasHandle, hu.queue]
  | spawns place place' hc =>
    obtain ⟨hu, hr, has⟩ := h.of_carries place
    refine .borne ⟨?_, ?_, ?_, ?_, ?_⟩ ?_ (has_work (fun v hv => has.other hv) place') <;>
      try rw [hc]
    exacts [hr, by rw [hdesk, hu.desk]; rfl, hu.queue, hu.hasHandle]
  | fails place place' hc =>
    obtain ⟨hu, hr, has⟩ := h.of_carries place
    refine .lost ⟨?_, ?_, hdesk.trans hu.desk, ?_⟩ ?_ ?_ ?_
      (free_work (fun v hv => has.other hv) place') <;> rw [hc]
    exacts [hu.owner, hu.hasHandle, nofun, rfl, rfl, rfl]
  | runs place place' hc =>
    obtain ⟨ha, hh, has⟩ := h.of_bears place
    refine .borne ⟨?_, ?_, ?_, ?_, ?_⟩ ?_ (has_work (fun v hv => has.other hv) place') <;>
      try rw [hc]
    exacts [ha.owner, ha.hasReceiver, ha.carried, ha.desk, ha.queue, hh]
  | leavesHandle place place' hc =>
    obtain ⟨ha, hh, has⟩ := h.of_bears place
    refine .ready ⟨?_, ?_, ?_, ?_, ?_⟩ ?_ (free_work (fun v hv => has.other hv) place') <;>
      try rw [hc]
    exacts [ha.owner, ha.hasReceiver, ha.carried, ha.desk, ha.queue]
  | takesHandle hh _ he' hc =>
    obtain ⟨ha, free⟩ := h.of_hasHandle hh
    have place := congrArg Errand.place he'
    refine .held ⟨?_, ?_, ?_, ?_, ?_⟩ ?_ (has_work (fun v _ => free v) place) <;> try rw [hc]
    exacts [ha.owner, ha.hasReceiver, ha.carried, ha.desk, ha.queue]
  | loses hr place hc =>
    obtain ⟨hu, -, free⟩ := h.of_hasReceiver hr
    refine .lost ⟨?_, ?_, hdesk.trans hu.desk, ?_⟩ ?_ ?_ ?_
      (free_work (fun v _ => free v) place) <;>
      rw [hc]
    exacts [hu.owner, hu.hasHandle, nofun, rfl, rfl, rfl]
  | closes place place' hc =>
    obtain ⟨ha, hh, has⟩ := h.of_holds place
    refine .closing ⟨?_, ?_, ?_, ?_, ?_⟩ ?_ (has_work (fun v hv => has.other hv) place') ?_ <;>
      try rw [hc]
    exacts [ha.owner, ha.hasReceiver, ha.carried, ha.desk, ha.queue, hh, rfl]
  | sends place place' inside hsend hc =>
    obtain ⟨ha, hh, has, closed⟩ := h.of_closes place
    have hreader : s.common.hasReader = true := by
      rw [Common.hasReader, ha.owner]
      simp
    rw [if_pos hreader] at hc
    have hasked : (s.work w fault).Ending := by
      refine .asked ?_ ha.desk ?_ ha.queue <;> rw [hc]
      exacts [ha.owner, rfl]
    refine .sent hasked ?_ ?_ ?_ (free_work (fun v hv => has.other hv) place') ?_
      (quiet_of_sends hl inside hsend) <;> rw [hc]
    exacts [ha.hasReceiver, ha.carried, hh, closed]

/-! ### Steps of the owner -/

/-- Only the owner's work has changed. -/
structure Proceeds (s s' : Threads σ V) : Prop where
  hasReceiver : s'.common.core.hasReceiver = s.common.core.hasReceiver
  hasHandle : s'.common.core.hasHandle = s.common.core.hasHandle
  carried : s'.common.carried = s.common.carried
  errand : s'.errand = s.errand
  closed : s.common.core.isOpen = false → s'.common.core.isOpen = false

theorem Station.proceeds (h : s.Station) (ha : s.common.core.owner = .alive)
    (hp : Proceeds s s') (alive : s.Alive → s'.Alive) (ending : s.Ending → s'.Ending) :
    s'.Station := by
  have hfree : s.Free → s'.Free := fun hf w => by rw [hp.errand]; exact hf w
  have hhas : ∀ {w p}, s.Has w p → s'.Has w p := fun hw v => by rw [hp.errand]; exact hw v
  cases h with
  | kept h | carried h | lost h => cases ha.symm.trans h.owner
  | borne h hh has => exact .borne (alive h) (hp.hasHandle.trans hh) (hhas has)
  | ready h hh free => exact .ready (alive h) (hp.hasHandle.trans hh) (hfree free)
  | held h hh has => exact .held (alive h) (hp.hasHandle.trans hh) (hhas has)
  | closing h hh has closed =>
    exact .closing (alive h) (hp.hasHandle.trans hh) (hhas has) (hp.closed closed)
  | sent h hr hc hh free closed quiet =>
    refine .sent (ending h) (hp.hasReceiver.trans hr) (hp.carried.trans hc)
      (hp.hasHandle.trans hh) (hfree free) (hp.closed closed) fun w => ?_
    rw [hp.errand]
    exact quiet w

theorem noStop_of_cons {m : Message σ V} {queue : List (Message σ V)} (h : NoStop (m :: queue)) :
    NoStop queue :=
  fun n hn => h n (List.mem_cons_of_mem m hn)

theorem Ending.takes (h : s.Ending) {j : Job σ V} {queue : List (Message σ V)}
    (hq : s.common.core.queue = .job j :: queue) :
    ((s.withCore { s.common.core with queue }).withDesk (.judges j)).Ending := by
  cases h with
  | @asked owner desk jobs hjobs hj =>
    rw [hq] at hjobs
    cases jobs with
    | nil => cases hjobs
    | cons m jobs =>
      obtain ⟨rfl, rfl⟩ := List.cons.inj hjobs
      exact .asked owner rfl rfl (noStop_of_cons hj)
  | halting _ _ hnil | ended _ _ hnil => cases hnil.symm.trans hq

theorem Ending.halts (h : s.Ending) {queue : List (Message σ V)}
    (hq : s.common.core.queue = .stop :: queue) :
    ((s.withCore { s.common.core with queue }).withDesk .halts).Ending := by
  cases h with
  | @asked owner desk jobs hjobs hj =>
    rw [hq] at hjobs
    cases jobs with
    | nil =>
      obtain ⟨-, rfl⟩ := List.cons.inj hjobs
      exact .halting owner rfl rfl
    | cons m jobs => exact absurd (List.cons.inj hjobs).1.symm (hj m List.mem_cons_self)
  | halting _ _ hnil | ended _ _ hnil => cases hnil.symm.trans hq

theorem Station.of_alive (h : s.Station) (ha : s.common.core.owner = .alive) :
    s.common.core.hasReceiver = false ∧ s.common.carried = false := by
  cases h with
  | kept h | carried h | lost h => cases ha.symm.trans h.owner
  | borne h | ready h | held h | closing h => exact ⟨h.hasReceiver, h.carried⟩
  | sent _ hr hc => exact ⟨hr, hc⟩

theorem Station.alive_of_desk (h : s.Station) (hd : s.desk ≠ .free) :
    s.common.core.owner = .alive := by
  cases h with
  | kept h | carried h | lost h => exact absurd h.desk hd
  | borne h | ready h | held h | closing h => exact h.owner
  | sent h =>
    cases h with
    | asked owner | halting owner => exact owner
    | ended _ desk => exact absurd desk hd

theorem stays_of_alive (ha : s.common.core.owner = .alive) (hk : s.common.Keeps s'.common)
    (hq : s'.common.core.queue = s.common.core.queue) (hd : s'.desk.isHalting = s.desk.isHalting)
    (place : ∀ w, (s'.errand w).place = (s.errand w).place)
    (sends : ∀ w, (s'.errand w).isSending = (s.errand w).isSending) : Stays s s' where
  common := hk
  desk := hd
  rests h := absurd ha h
  place := place
  sends w hw := .inl ((sends w).symm.trans hw)
  queue := .inl hq

theorem IsOwners.keeps {c c' : Common σ V} (h : IsOwners c c') :
    c.Keeps c' ∧ c'.core.queue = c.core.queue := by
  obtain ⟨_, _, _, rfl⟩ := h
  exact ⟨⟨rfl, rfl, rfl, rfl, id, .inl rfl⟩, rfl⟩

theorem isHalting_finish (core : Serializer σ V) (r : Running σ V) (result : JobResult V) :
    (s.finish core r result).desk.isHalting = false := by
  unfold finish
  split
  · rfl
  · split <;> rfl

theorem isHalting_unwind (r : Running σ V) (p : Payload) :
    (s.unwind r p).desk.isHalting = false := by
  unfold unwind
  split <;> rfl

theorem place_withErrand {w : Who} {e : Errand σ V} (he : (s.errand w).place = none)
    (he' : e.place = none) (v : Who) : ((s.withErrand w e).errand v).place =
    (s.errand v).place := by
  by_cases hv : v = w
  · subst hv
    rw [withErrand_self, he, he']
  · rw [withErrand_of_ne s hv]

theorem isSending_withErrand {w : Who} {e : Errand σ V} (he : (s.errand w).isSending = false)
    (he' : e.isSending = false) (v : Who) :
    ((s.withErrand w e).errand v).isSending = (s.errand v).isSending := by
  by_cases hv : v = w
  · subst hv
    rw [withErrand_self, he, he']
  · rw [withErrand_of_ne s hv]

/-- What an event does to what stations are about. -/
inductive Course (s s' : Threads σ V) : Prop
  /-- somebody does a step of his errand -/
  | works {w : Who} {fault : Option OsError} (h : s' = s.work w fault)
  | stays (h : Stays s s')
  | takes {j : Job σ V} {queue : List (Message σ V)} (ha : s.common.core.owner = .alive)
    (hd : s.desk = .free) (hq : s.common.core.queue = .job j :: queue)
    (h : s' = (s.withCore { s.common.core with queue }).withDesk (.judges j))
  | halts {queue : List (Message σ V)} (ha : s.common.core.owner = .alive) (hd : s.desk = .free)
    (hq : s.common.core.queue = .stop :: queue)
    (h : s' = (s.withCore { s.common.core with queue }).withDesk .halts)
  | closes (ha : s.common.core.owner = .alive) (hd : s.desk = .halts)
    (h : s' = (s.withCommon (s.common.enter .stopped)).withDesk .leaves)
  | leaves (ha : s.common.core.owner = .alive) (hd : s.desk = .leaves)
    (h : s' = (s.withCommon { s.common.loseQueue with
      core := { s.common.loseQueue.core with owner := .finished } }).withDesk .free)

theorem course_of_ownerStep (ha : s.common.core.owner = .alive) (hs : OwnerStep s s') :
    Course s s' := by
  have hdesk : ∀ {d}, s.desk = d → s.desk.isHalting = d.isHalting := congrArg Desk.isHalting
  cases hs with
  | works => exact .works rfl
  | takes hd hq => exact .takes ha hd hq rfl
  | halts hd hq => exact .halts ha hd hq rfl
  | closes hd => exact .closes ha hd rfl
  | leaves hd => exact .leaves ha hd rfl
  | rests => exact .stays (stays_of_alive ha (.refl _) rfl rfl (fun _ => rfl) fun _ => rfl)
  | drops hd | keeps hd | starts hd | skips hd =>
    exact .stays (stays_of_alive ha (.refl _) rfl (hdesk hd).symm (fun _ => rfl) fun _ => rfl)
  | discards hd | forgets hd | settles hd =>
    exact .stays (stays_of_alive ha ⟨rfl, rfl, rfl, rfl, id, .inl rfl⟩ rfl (hdesk hd).symm
      (fun _ => rfl) fun _ => rfl)
  | begins hd _ _ he =>
    exact .stays (stays_of_alive ha (.refl _) rfl rfl
      (place_withErrand (by rw [he]; rfl) (place_errand _))
      (isSending_withErrand (by rw [he]; rfl) (isSending_errand _)))
  | @answered r a rest answer hd hs he =>
    have hk : IsOwners s.common
        (s.withCore ((a.noteOn answer).elim s.common.core s.common.core.withNote)).common := by
      cases a.noteOn answer with
      | none => exact .refl _
      | some n => exact ⟨_, _, _, rfl⟩
    exact .stays (stays_of_alive ha hk.keeps.1 hk.keeps.2 (hdesk hd).symm
      (place_withErrand (s := s) (by rw [he]; rfl) rfl)
      (isSending_withErrand (s := s) (by rw [he]; rfl) rfl))
  | goesOn hd hq ht =>
    have hk := isOwners_of_goesOn hq ht
    exact .stays (stays_of_alive ha hk.keeps.1 hk.keeps.2 (hdesk hd).symm (fun _ => rfl)
      fun _ => rfl)
  | ends hd ht =>
    have hk := isOwners_finish ht
    refine .stays (stays_of_alive ha hk.keeps.1 hk.keeps.2 ?_ ?_ ?_)
    · rw [isHalting_finish, hdesk hd]
      rfl
    all_goals exact fun w => by rw [finish_errand]
  | @panics r p hd ht =>
    have hk := isOwners_unwind s r p
    refine .stays (stays_of_alive ha hk.keeps.1 hk.keeps.2 ?_ ?_ ?_)
    · rw [isHalting_unwind, hdesk hd]
      rfl
    all_goals exact fun w => by rw [unwind_errand]

theorem stays_withErrand {w : Who} {e : Errand σ V} (hd : s'.common = s.common)
    (hdesk : s'.desk = s.desk) (herrand : s'.errand = (s.withErrand w e).errand)
    (hp : (s.errand w).place = none) (hp' : e.place = none)
    (hs : (s.errand w).isSending = false) (hs' : e.isSending = false) : Stays s s' where
  common := hd ▸ .refl _
  desk := by rw [hdesk]
  rests _ := hdesk
  place v := by rw [herrand, place_withErrand hp hp']
  sends v hv := by
    rw [herrand, isSending_withErrand hs hs'] at hv
    exact .inl hv
  queue := .inl (by rw [hd])

theorem course_of_step (h : s.Station) {e : Event σ V} (hs : Step s e s') : Course s s' := by
  cases hs with
  | rests =>
    exact .stays ⟨.refl _, rfl, fun _ => rfl, fun _ => rfl, fun _ hw => .inl hw, .inl rfl⟩
  | works => exact .works rfl
  | asks he =>
    exact .stays (stays_withErrand rfl rfl rfl (by rw [he]; rfl) (place_errand _)
      (by rw [he]; rfl) (isSending_errand _))
  | givesUp he =>
    exact .stays (stays_withErrand rfl rfl rfl (by rw [he]; rfl) rfl (by rw [he]; rfl) rfl)
  | releases hd hs =>
    have ha := h.alive_of_desk (by rw [hd]; exact nofun)
    exact .stays (stays_of_alive ha (.refl _) rfl (congrArg Desk.isHalting hd).symm
      (fun _ => rfl) fun _ => rfl)
  | owner ha hs => exact course_of_ownerStep ha hs

/-- **From one station to the next**: what happens may bring a serializer on. -/
theorem Station.happen (h : s.Station) (hl : s.Locked) {e : Event σ V} (hs : Step s e s') :
    s'.Station := by
  have hdesk : ∀ {d}, s.desk = d → s.desk.isHalting = d.isHalting := congrArg Desk.isHalting
  cases course_of_step h hs with
  | works hw => exact hw ▸ h.work hl _ _
  | stays hst => exact h.stays hst
  | takes ha hd hq hs' =>
    subst hs'
    refine h.proceeds ha ⟨rfl, rfl, rfl, rfl, id⟩ (fun hal => ?_) fun he => he.takes hq
    exact ⟨hal.owner, hal.hasReceiver, hal.carried, rfl, noStop_of_cons (hq ▸ hal.queue)⟩
  | halts ha hd hq hs' =>
    subst hs'
    refine h.proceeds ha ⟨rfl, rfl, rfl, rfl, id⟩ (fun hal => ?_) fun he => he.halts hq
    exact absurd rfl (hal.queue .stop (hq ▸ List.mem_cons_self))
  | closes ha hd hs' =>
    subst hs'
    refine h.proceeds ha ⟨rfl, rfl, rfl, rfl, fun _ => rfl⟩ (fun hal => ?_) fun he => ?_
    · cases hal.desk.symm.trans (hdesk hd)
    · cases he with
      | asked _ desk => cases desk.symm.trans (hdesk hd)
      | halting owner _ queue => exact .halting owner rfl queue
      | ended owner => cases ha.symm.trans owner
  | leaves ha hd hs' =>
    subst hs'
    obtain ⟨hr, hc⟩ := h.of_alive ha
    refine h.proceeds ha ⟨hr.symm, rfl, hc.symm, rfl, id⟩ (fun hal => ?_) fun he => ?_
    · cases hal.desk.symm.trans (hdesk hd)
    · cases he with
      | asked _ desk => cases desk.symm.trans (hdesk hd)
      | halting owner _ queue => exact .ended rfl rfl rfl
      | ended owner => cases ha.symm.trans owner

end Threads

namespace ThreadsRun

open Threads

variable (R : ThreadsRun σ V)

theorem station (t : ℕ) : (R.after t).Station := by
  induction t with
  | zero => exact .kept ⟨rfl, rfl, rfl, nofun⟩ rfl rfl fun _ => rfl
  | succ t ih => exact ih.happen (R.locked t) (R.step t)

theorem course (t : ℕ) : Course (R.after t) (R.after (t + 1)) :=
  course_of_step (R.station t) (R.step t)

end ThreadsRun

end SymbolIndex
