import SymbolIndex.Proofs.Threads.Locks

/-!
# The receiver and the handle

There is one receiver and one handle, and whoever starts the owner, or stops it, carries one of them
from where it is kept to where it is needed.

* `Place`, `Errand.place`: who carries the receiver, or the handle;
* `Change`, `change_step`: what a step of an errand does to them.
-/

namespace SymbolIndex

open Serializer

variable {σ V : Type}

/-- What a thread has with it on its errand. -/
inductive Place where
  /-- the receiver, on its way to the owner -/
  | carries
  /-- the handle, on its way to where it is kept -/
  | bears
  /-- the handle, taken from there -/
  | holds
  /-- the handle, with the serializer closed and the owner about to be told -/
  | closes
  deriving DecidableEq

def StartStage.place : StartStage → Option Place
  | .takesReceiver => none
  | .spawns => some .carries
  | .marksRunning | .leavesHandle => some .bears

def StopStage.place : StopStage → Option Place
  | .locks | .marksStopping => some .holds
  | .sends => some .closes
  | _ => none

def Errand.place : Errand σ V → Option Place
  | .starts stage _ => stage.place
  | .stops stage => stage.place
  | _ => none

def OfferStage.isSending : OfferStage → Bool
  | .numbers | .sends _ => true
  | _ => false

/-- The thread has been let in with a job, and has not sent it yet. -/
def Errand.isSending : Errand σ V → Bool
  | .offers _ stage => stage.isSending
  | _ => false

@[simp] theorem place_started (forStop : Bool) :
    (Errand.started forStop : Errand σ V).place = none := by
  cases forStop <;> rfl

@[simp] theorem isSending_started (forStop : Bool) :
    (Errand.started forStop : Errand σ V).isSending = false := by
  cases forStop <;> rfl

@[simp] theorem place_settled (o : Offer σ V) (seq : Option ℕ) : (o.settled seq).place = none := by
  unfold Offer.settled
  split <;> rfl

@[simp] theorem isSending_settled (o : Offer σ V) (seq : Option ℕ) :
    (o.settled seq).isSending = false := by
  unfold Offer.settled
  split <;> rfl

@[simp] theorem place_errand (q : Wish σ V) : q.errand.place = none := by
  cases q <;> rfl

@[simp] theorem isSending_errand (q : Wish σ V) : q.errand.isSending = false := by
  cases q <;> rfl

theorem isInside_of_isSending {e : Errand σ V} (h : e.isSending = true) : e.isInside = true := by
  cases e with
  | offers o stage => cases stage <;> first | rfl | cases h
  | _ => cases h

/-- Nothing is changed that stations are about: a job may be sent, and the serializer be closed. -/
structure Common.Keeps (c c' : Common σ V) : Prop where
  hasReceiver : c'.core.hasReceiver = c.core.hasReceiver
  hasHandle : c'.core.hasHandle = c.core.hasHandle
  carried : c'.carried = c.carried
  owner : c'.core.owner = c.core.owner
  isOpen : c'.core.isOpen = true → c.core.isOpen = true
  queue : c'.core.queue = c.core.queue ∨
    c.hasReader = true ∧ ∃ j, c'.core.queue = c.core.queue ++ [.job j]

theorem Common.Keeps.refl (c : Common σ V) : c.Keeps c := ⟨rfl, rfl, rfl, rfl, id, .inl rfl⟩

/-- What a step of an errand does to the receiver and to the handle. -/
inductive Change (c c' : Common σ V) (e e' : Errand σ V) : Prop
  | keeps (h : c.Keeps c') (place : e'.place = e.place)
    (sends : e'.isSending = true → e.isSending = true ∨ c.core.isOpen = true)
    (queue : c'.core.queue = c.core.queue ∨ e.isSending = true)
  | takesReceiver {forStop : Bool} (hr : c.core.hasReceiver = true)
    (he : e = .starts .takesReceiver forStop) (he' : e' = .starts .spawns forStop)
    (hc : c' = { c with core := { c.core with hasReceiver := false }, carried := true })
  | spawns (place : e.place = some .carries) (place' : e'.place = some .bears)
    (hc : c' = { c with core := { c.core with owner := .alive }, carried := false })
  | fails (place : e.place = some .carries) (place' : e'.place = none) (hc : c' = c.loseQueue)
  | runs (place : e.place = some .bears) (place' : e'.place = some .bears)
    (hc : c' = c.enter .running)
  | leavesHandle (place : e.place = some .bears) (place' : e'.place = none)
    (hc : c' = { c with core := { c.core with hasHandle := true } })
  | takesHandle (hh : c.core.hasHandle = true) (he : e = .stops .takesHandle)
    (he' : e' = .stops .locks) (hc : c' = { c with core := { c.core with hasHandle := false } })
  | loses (hr : c.core.hasReceiver = true) (place : e'.place = none) (hc : c' = c.loseQueue)
  | closes (place : e.place = some .holds) (place' : e'.place = some .closes)
    (hc : c' = c.enter .stopping)
  | sends (place : e.place = some .closes) (place' : e'.place = none) (inside : e.isInside = true)
    (sends : e'.isSending = false)
    (hc : c' = if c.hasReader then { c with core := c.core.send .stop } else c)

theorem change_start (c : Common σ V) (fault : Option OsError) (stage : StartStage)
    (forStop : Bool) : Change c (stage.step c forStop fault).1 (.starts stage forStop)
      (stage.step c forStop fault).2 := by
  cases stage with
  | takesReceiver =>
    simp only [StartStage.step]
    split
    · next hr => exact .takesReceiver hr rfl rfl rfl
    · exact .keeps (.refl c) (place_started forStop) (by simp) (.inl rfl)
  | spawns =>
    cases fault with
    | none => exact .spawns rfl rfl rfl
    | some cause => exact .fails rfl rfl rfl
  | marksRunning => exact .runs rfl rfl rfl
  | leavesHandle => exact .leavesHandle rfl (place_started _) rfl

theorem change_offer (c : Common σ V) (w : Who) (o : Offer σ V) (stage : OfferStage) :
    Change c (stage.step c w o).1 (.offers o stage) (stage.step c w o).2 := by
  have hkeeps : ∀ {c' e'}, c.Keeps c' → c'.core.queue = c.core.queue → e'.place = none →
      (e'.isSending = true → (Errand.offers o stage).isSending = true ∨ c.core.isOpen = true) →
      Change c c' (.offers o stage) e' :=
    fun h hq hp hs => .keeps h hp hs (.inl hq)
  cases stage with
  | looksRunning | locks =>
    simp only [OfferStage.step]
    split
    · exact hkeeps ⟨rfl, rfl, rfl, rfl, id, .inl rfl⟩ rfl rfl fun h => by cases h
    · exact hkeeps (.refl c) rfl rfl fun h => by cases h
  | looksOpen =>
    refine hkeeps (.refl c) rfl ?_ ?_ <;> simp only [OfferStage.step] <;> split
    · rfl
    · rfl
    · next ho => exact fun _ => .inr ho
    · exact fun h => by cases h
  | refuses | counts n =>
    exact hkeeps ⟨rfl, rfl, rfl, rfl, id, .inl rfl⟩ rfl rfl fun h => by cases h
  | numbers => exact hkeeps ⟨rfl, rfl, rfl, rfl, id, .inl rfl⟩ rfl rfl fun _ => .inl rfl
  | sends n =>
    simp only [OfferStage.step]
    split
    · next hreader =>
      exact .keeps ⟨rfl, rfl, rfl, rfl, id, .inr ⟨hreader, _, rfl⟩⟩ rfl (fun h => by cases h)
        (.inr rfl)
    · exact hkeeps (.refl c) rfl rfl fun h => by cases h
  | unlocks seq =>
    exact hkeeps ⟨rfl, rfl, rfl, rfl, id, .inl rfl⟩ rfl (place_settled o seq)
      (by simp [OfferStage.step])

theorem change_stop (c : Common σ V) (w : Who) (stage : StopStage) :
    Change c (stage.step c w).1 (.stops stage) (stage.step c w).2 := by
  have hkeeps : ∀ {e'}, e'.place = stage.place → e'.isSending = false →
      Change c c (.stops stage) e' :=
    fun hp hs => .keeps (.refl c) hp (fun h => by cases hs.symm.trans h) (.inl rfl)
  cases stage with
  | takesHandle =>
    simp only [StopStage.step]
    split
    · next hh => exact .takesHandle hh rfl rfl rfl
    · exact hkeeps rfl rfl
  | dropsReceiver =>
    simp only [StopStage.step]
    split
    · next hr => exact .loses hr rfl rfl
    · exact hkeeps rfl rfl
  | marksStopped =>
    exact .keeps ⟨rfl, rfl, rfl, rfl, (fun h => by cases h), .inl rfl⟩ rfl (fun h => by cases h)
      (.inl rfl)
  | locks =>
    simp only [StopStage.step]
    split
    · exact .keeps ⟨rfl, rfl, rfl, rfl, id, .inl rfl⟩ rfl (fun h => by cases h) (.inl rfl)
    · exact hkeeps rfl rfl
  | marksStopping => exact .closes rfl rfl rfl
  | sends => exact .sends rfl rfl rfl rfl rfl
  | unlocks =>
    refine .keeps ⟨rfl, rfl, rfl, rfl, id, .inl rfl⟩ ?_ ?_ (.inl rfl) <;>
      simp only [StopStage.step] <;> split <;> first | rfl | exact fun h => by cases h
  | surveys | looksForHandle | readsDropped submitted ended | joins =>
    simp only [StopStage.step]
    split <;> exact hkeeps rfl rfl
  | readsSubmitted | readsCompleted submitted | readsFailed submitted ended => exact hkeeps rfl rfl

theorem change_step (c : Common σ V) (w : Who) (fault : Option OsError) (e : Errand σ V) :
    Change c (e.step c w fault).1 e (e.step c w fault).2 := by
  cases e with
  | rests last => exact .keeps (.refl c) rfl (fun h => by cases h) (.inl rfl)
  | waits n timed =>
    refine .keeps (.refl c) ?_ ?_ (.inl rfl) <;> simp only [Errand.step] <;> split <;>
      first | rfl | exact fun h => by cases h
  | starts stage forStop => exact change_start c fault stage forStop
  | offers o stage => exact change_offer c w o stage
  | interrupts stage =>
    cases stage <;>
      exact .keeps ⟨rfl, rfl, rfl, rfl, id, .inl rfl⟩ rfl (fun h => by cases h) (.inl rfl)
  | stops stage => exact change_stop c w stage

end SymbolIndex
