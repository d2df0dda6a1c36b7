import SymbolIndex.Serializer.Owner

/-!
# Threads at work

A serializer as several threads really work on it. What a thread asks for is an errand of many
steps, each of which reads or writes one thing that the threads share, and everybody else may come
in between any two of them. So does the owner, who also runs the errands of its jobs.

* `Who`, `Wish`, `Answer`: threads, what they ask for and what they are answered;
* `Errand`, `Wish.errand`: how far a thread has come with what it has asked for;
* `Common`: what the threads share;
* `StartStage.step`, `OfferStage.step`, `InterruptStage.step`, `StopStage.step`, `Errand.step`: one
  step of a thread;
* `Desk`, `Threads`, `Threads.ownerStep`: the owner, and one step of it;
* `Event`, `Threads.happen`: everything that can happen.
-/

namespace SymbolIndex

variable {σ V : Type}

/-! ## Errands -/

/-- Who works on a serializer. -/
inductive Who where
  | owner
  | thread (i : Nat)
  deriving DecidableEq, Repr

/-- What a thread asks of a serializer. -/
inductive Wish (σ V : Type) where
  | start
  | submit (kind : JobKind) (script : Script σ V)
  | submitWith (kind : JobKind) (script : Script σ V) (c : Callback σ V)
  /-- run a job and wait for its result, for a limited time or not -/
  | call (kind : JobKind) (script : Script σ V) (timed : Bool)
  | interrupt
  | interruptPending
  | stop
  /-- let go of the serializer -/
  | drop

/-- What a thread is answered. -/
inductive Answer (V : Type) where
  | done
  | fails (e : Error)
  /-- a job has been left behind, under this number if it was accepted -/
  | submitted (seq : Option Nat)
  /-- what a job that the thread has waited for has come to -/
  | told (o : Outcome V)

/-- A job that somebody wants to be run. -/
structure Offer (σ V : Type) where
  kind : JobKind
  script : Script σ V
  delivery : Delivery σ V
  /-- whoever waits for it may give up -/
  timed : Bool := false

def Offer.job (o : Offer σ V) (seq : Nat) : Job σ V := ⟨seq, o.kind, o.script, o.delivery⟩

/-- The steps in which the owner is started. -/
inductive StartStage where
  | takesReceiver
  | spawns
  | marksRunning
  | leavesHandle

/-- The steps in which a job is accepted. -/
inductive OfferStage where
  /-- a caller makes sure that the serializer runs -/
  | looksRunning
  | locks
  | looksOpen
  | refuses
  | numbers
  | sends (seq : Nat)
  | counts (seq : Nat)
  /-- the job has been accepted under this number, or it was refused -/
  | unlocks (seq : Option Nat)

/-- The steps of an interrupt. -/
inductive InterruptStage where
  | readsNext
  | raises (n : Nat)
  | bumps

/-- The steps in which a serializer is stopped. -/
inductive StopStage where
  /-- whoever lets go of the serializer looks whether there is anything to stop -/
  | surveys
  | looksForHandle
  | readsSubmitted
  | readsCompleted (submitted : Nat)
  | readsFailed (submitted ended : Nat)
  | readsDropped (submitted ended : Nat)
  | takesHandle
  | dropsReceiver
  | marksStopped
  | locks
  | marksStopping
  | sends
  | unlocks
  | joins

/-- How far a thread has come with what it has asked for. -/
inductive Errand (σ V : Type) where
  /-- it has got this answer, if it has asked for anything -/
  | rests (last : Option (Answer V))
  /-- it starts the owner, in order to stop it or not -/
  | starts (stage : StartStage) (forStop : Bool)
  | offers (o : Offer σ V) (stage : OfferStage)
  /-- it waits for the outcome of a job -/
  | waits (seq : Nat) (timed : Bool)
  | interrupts (stage : InterruptStage)
  | stops (stage : StopStage)

/-- The first step of what is asked for. -/
def Wish.errand : Wish σ V → Errand σ V
  | .start => .starts .takesReceiver false
  | .submit kind script => .offers ⟨kind, script, .discard, false⟩ .locks
  | .submitWith kind script c => .offers ⟨kind, script, .callback c, false⟩ .locks
  | .call kind script timed => .offers ⟨kind, script, .reply, timed⟩ .looksRunning
  | .interrupt => .interrupts .bumps
  | .interruptPending => .interrupts .readsNext
  | .stop => .stops .looksForHandle
  | .drop => .stops .surveys

def Wish.isDrop : Wish σ V → Bool
  | .drop => true
  | _ => false

/-! ## What the threads share -/

/-- What the threads share. The job that is being run is not part of it: that is on the desk of the
owner. -/
structure Common (σ V : Type) where
  core : Serializer σ V
  /-- who holds the lock that orders what is sent -/
  lock : Option Who := none
  /-- the receiver is on its way from where it was kept to the thread that is being spawned -/
  carried : Bool := false

namespace Common

/-- Somebody has the other end of the queue. -/
def hasReader (c : Common σ V) : Bool := c.core.hasReceiver || c.carried || c.core.owner == .alive

/-- What callers are told whose jobs are lost with the queue. -/
def lostReplies : List (Message σ V) → List (Nat × Outcome V)
  | [] => []
  | .job j :: queue =>
    match j.delivery with
    | .reply => (j.seq, .result (.error .dropped)) :: lostReplies queue
    | _ => lostReplies queue
  | .stop :: queue => lostReplies queue

/-- The receiver is dropped, and all that it might have received with it. -/
def loseQueue (c : Common σ V) : Common σ V :=
  { c with
    carried := false
    core :=
      { c.core with
        hasReceiver := false
        queue := []
        replies := c.core.replies ++ lostReplies c.core.queue } }

def enter (c : Common σ V) (phase : Phase) : Common σ V := { c with core := { c.core with phase } }

end Common

/-! ## Steps of a thread -/

/-- Behind the start, the owner is stopped, or the start is all that was asked for. -/
def Errand.started (forStop : Bool) : Errand σ V :=
  if forStop then .stops .takesHandle else .rests (some .done)

/-- A step of a start. A thread cannot always be spawned; `fault` says why not. -/
def StartStage.step (c : Common σ V) (forStop : Bool) (fault : Option OsError) :
    StartStage → Common σ V × Errand σ V
  | .takesReceiver =>
    if c.core.hasReceiver then
      ({ c with core := { c.core with hasReceiver := false }, carried := true },
        .starts .spawns forStop)
    else (c, .started forStop)
  | .spawns =>
    match fault with
    | none =>
      ({ c with core := { c.core with owner := .alive }, carried := false },
        .starts .marksRunning forStop)
    | some e => (c.loseQueue, .rests (some (.fails (.spawnThread e))))
  | .marksRunning => (c.enter .running, .starts .leavesHandle forStop)
  | .leavesHandle => ({ c with core := { c.core with hasHandle := true } }, .started forStop)

/-- Behind an offer, a caller waits for the job that was accepted. -/
def Offer.settled (o : Offer σ V) (seq : Option Nat) : Errand σ V :=
  match o.delivery, seq with
  | .reply, some n => .waits n o.timed
  | .reply, none => .rests (some (.fails .notStarted))
  | _, _ => .rests (some (.submitted seq))

/-- A step of an offer. A job that cannot be sent any more has got its number in vain. -/
def OfferStage.step (c : Common σ V) (w : Who) (o : Offer σ V) :
    OfferStage → Common σ V × Errand σ V
  | .looksRunning =>
    if c.core.isRunning then (c, .offers o .locks) else (c, .rests (some (.fails .notStarted)))
  | .locks =>
    if c.lock = none then ({ c with lock := some w }, .offers o .looksOpen)
    else (c, .offers o .locks)
  | .looksOpen => (c, .offers o (if c.core.isOpen then .numbers else .refuses))
  | .refuses => ({ c with core := c.core.countDropped }, .offers o (.unlocks none))
  | .numbers => ({ c with core := c.core.takeNumber }, .offers o (.sends c.core.nextSeq))
  | .sends seq =>
    if c.hasReader then
      ({ c with core := c.core.send (.job (o.job seq)) }, .offers o (.counts seq))
    else (c, .offers o .refuses)
  | .counts seq => ({ c with core := c.core.countSubmitted }, .offers o (.unlocks (some seq)))
  | .unlocks seq => ({ c with lock := none }, o.settled seq)

def InterruptStage.step (c : Common σ V) : InterruptStage → Common σ V × Errand σ V
  | .readsNext => (c, .interrupts (.raises c.core.nextSeq))
  | .raises n => ({ c with core := c.core.raiseMark n }, .interrupts .bumps)
  | .bumps => ({ c with core := c.core.interrupt }, .rests (some .done))

/-- A step of a stop. It starts an owner that was not started if jobs seem to wait for it, and it
waits for the owner's thread to end, unless it is that thread, or finds no handle to wait with. -/
def StopStage.step (c : Common σ V) (w : Who) : StopStage → Common σ V × Errand σ V
  | .surveys =>
    (c, if c.core.hasHandle = false ∧ c.core.stranded = 0 then .rests (some .done)
      else .stops .looksForHandle)
  | .looksForHandle => (c, .stops (if c.core.hasHandle then .takesHandle else .readsSubmitted))
  | .readsSubmitted => (c, .stops (.readsCompleted c.core.counts.submitted))
  | .readsCompleted submitted => (c, .stops (.readsFailed submitted c.core.counts.completed))
  | .readsFailed submitted ended =>
    (c, .stops (.readsDropped submitted (ended + c.core.counts.failed)))
  | .readsDropped submitted ended =>
    (c, if submitted ≤ ended + c.core.counts.dropped then .stops .takesHandle
      else .starts .takesReceiver true)
  | .takesHandle =>
    if c.core.hasHandle then
      ({ c with core := { c.core with hasHandle := false } }, .stops .locks)
    else (c, .stops .dropsReceiver)
  | .dropsReceiver => (if c.core.hasReceiver then c.loseQueue else c, .stops .marksStopped)
  | .marksStopped => (c.enter .stopped, .rests (some .done))
  | .locks =>
    if c.lock = none then ({ c with lock := some w }, .stops .marksStopping)
    else (c, .stops .locks)
  | .marksStopping => (c.enter .stopping, .stops .sends)
  | .sends => (if c.hasReader then { c with core := c.core.send .stop } else c, .stops .unlocks)
  | .unlocks => ({ c with lock := none }, if w = .owner then .rests (some .done) else .stops .joins)
  | .joins => (c, if c.core.owner = .finished then .rests (some .done) else .stops .joins)

/-- The next step of what a thread has asked for. -/
def Errand.step (c : Common σ V) (w : Who) (fault : Option OsError) :
    Errand σ V → Common σ V × Errand σ V
  | .rests last => (c, .rests last)
  | .starts stage forStop => stage.step c forStop fault
  | .offers o stage => stage.step c w o
  | .waits seq timed =>
    (c, match c.core.replyTo seq with
      | some o => .rests (some (.told o))
      | none => .waits seq timed)
  | .interrupts stage => stage.step c
  | .stops stage => stage.step c w

/-! ## The owner -/

/-- What the owner is busy with. -/
inductive Desk (σ V : Type) where
  /-- nothing: it takes the next message from the queue -/
  | free
  /-- it looks whether a job is to be dropped -/
  | judges (j : Job σ V)
  /-- it counts a job that is dropped -/
  | discards (j : Job σ V)
  /-- and lets go of it -/
  | forgets (j : Job σ V)
  /-- it makes the token of a job -/
  | starts (j : Job σ V)
  | runs (r : Running σ V)
  /-- it counts a job that has ended -/
  | settles (seq : Nat) (succeeded : Bool)
  /-- it has been asked to end -/
  | halts
  /-- and lets go of the queue -/
  | leaves

/-- A serializer with the threads that work on it. -/
structure Threads (σ V : Type) where
  common : Common σ V
  desk : Desk σ V := .free
  errand : Who → Errand σ V := fun _ => .rests none
  /-- nobody but its jobs holds on to the serializer any more -/
  isDropped : Bool := false

/-- The request that an action makes of the serializer. -/
def Action.wish : Action σ V → Option (Wish σ V)
  | .interrupt => some .interrupt
  | .interruptPending => some .interruptPending
  | .stop => some .stop
  | .submit kind script => some (.submit kind script)
  | .submitWith kind script tag callback => some (.submitWith kind script ⟨tag, callback⟩)
  | _ => none

/-- The action needs the serializer. -/
def Action.needsSerializer : Action σ V → Bool
  | .interrupt | .interruptPending | .owner | .running | .counts | .stop | .submit .. |
    .submitWith .. | .call .. => true
  | _ => false

/-- What is noted about the answer to an action. -/
def Action.noteOn : Action σ V → Answer V → Option (Note V)
  | .stop, _ => some .stopped
  | _, .submitted seq => some (.submitted seq)
  | _, _ => none

namespace Threads

/-- A thread takes the next step of what it has asked for. -/
def work (s : Threads σ V) (w : Who) (fault : Option OsError) : Threads σ V :=
  let (common, e) := (s.errand w).step s.common w fault
  { s with common, errand := fun v => if v = w then e else s.errand v }

def withCore (s : Threads σ V) (core : Serializer σ V) : Threads σ V :=
  { s with common := { s.common with core } }

def withErrand (s : Threads σ V) (w : Who) (e : Errand σ V) : Threads σ V :=
  { s with errand := fun v => if v = w then e else s.errand v }

/-- The innermost script of a job has ended with a result. The end of the job is counted later. -/
def finish (s : Threads σ V) (core : Serializer σ V) (r : Running σ V) (result : JobResult V) :
    Threads σ V :=
  match r.outer with
  | frame :: outer =>
    { s.withCore (core.withNote (.called (.result result))) with
      desk := .runs { r with frame, outer } }
  | [] =>
    match r.stage, r.delivery with
    | .callback succeeded, _ => { s.withCore core with desk := .settles r.seq succeeded }
    | .work, .discard => { s.withCore core with desk := .settles r.seq result.isOk }
    | .work, .reply =>
      { s.withCore (core.withReply r.seq (.result result)) with
        desk := .settles r.seq result.isOk }
    | .work, .callback c =>
      { s.withCore (core.withNote (.callback c.tag result)) with
        desk := .runs
          { r with
            stage := .callback result.isOk
            frame := { script := c.script, token := none }
            outer := [] } }

/-- Nothing inside of a job has caught its panic. -/
def unwind (s : Threads σ V) (r : Running σ V) (p : Payload) : Threads σ V :=
  match r.stage, r.delivery with
  | .work, .reply =>
    { s.withCore (s.common.core.withReply r.seq (.panicked p)) with desk := .settles r.seq false }
  | _, _ => { s with desk := .settles r.seq false }

/-- The job takes its next turn, for which it does not need anything of the serializer. -/
def takeTurn (s : Threads σ V) (r : Running σ V) : Threads σ V :=
  match s.common.core.nextTurn r with
  | .waits => s
  | .goesOn core r => { s.withCore core with desk := .runs r }
  | .ends core result => s.finish core r result
  | .panics p => s.unwind r p

/-- The job asks something of the serializer: the errand begins, goes on, or has been answered, and
then the job goes on behind the action. -/
def attend (s : Threads σ V) (r : Running σ V) (a : Action σ V) (rest : Script σ V)
    (q : Wish σ V) : Threads σ V :=
  match s.errand .owner with
  | .rests none => s.withErrand .owner q.errand
  | .rests (some answer) =>
    { (s.withErrand .owner (.rests none)).withCore
        ((a.noteOn answer).elim s.common.core s.common.core.withNote) with
      desk := .runs { r with frame := { r.frame with script := rest } } }
  | _ => s.work .owner none

/-- One step of a job. While the serializer is being dropped, jobs do not reach it any more and skip
what they need it for. -/
def run (s : Threads σ V) (r : Running σ V) : Threads σ V :=
  match r.frame.script with
  | [] => s.takeTurn r
  | a :: rest =>
    if s.isDropped ∧ a.needsSerializer then
      { s with desk := .runs { r with frame := { r.frame with script := rest } } }
    else a.wish.elim (s.takeTurn r) (s.attend r a rest)

/-- Take the next message from the queue. -/
def receive (s : Threads σ V) : Threads σ V :=
  match s.common.core.queue with
  | [] => s
  | .job j :: queue => { s.withCore { s.common.core with queue } with desk := .judges j }
  | .stop :: queue => { s.withCore { s.common.core with queue } with desk := .halts }

/-- One step of the owner. -/
def ownerStep (s : Threads σ V) : Threads σ V :=
  if s.common.core.owner = .alive then
    match s.desk with
    | .free => s.receive
    | .judges j => { s with desk := if s.common.core.Dismisses j then .discards j else .starts j }
    | .discards j => { s.withCore s.common.core.countDropped with desk := .forgets j }
    | .forgets j =>
      match j.delivery with
      | .reply =>
        { s.withCore (s.common.core.withReply j.seq (.result (.error .dropped))) with desk := .free }
      | _ => { s with desk := .free }
    | .starts j => { s with desk := .runs (s.common.core.starting j) }
    | .runs r => s.run r
    | .settles _ succeeded => { s.withCore (s.common.core.countEnd succeeded) with desk := .free }
    | .halts => { s with common := s.common.enter .stopped, desk := .leaves }
    | .leaves =>
      { s with
        common := { s.common.loseQueue with
          core := { s.common.loseQueue.core with owner := .finished } }
        desk := .free }
  else s

/-- Let the job that is being run through the gate at which it waits. -/
def release (s : Threads σ V) : Threads σ V :=
  match s.desk with
  | .runs r =>
    match r.frame.script with
    | .gate :: rest => { s with desk := .runs { r with frame := { r.frame with script := rest } } }
    | _ => s
  | _ => s

/-- A thread that has nothing else to do asks for something, as long as there is a serializer. -/
def ask (s : Threads σ V) (i : Nat) (q : Wish σ V) : Threads σ V :=
  match s.errand (.thread i), s.isDropped with
  | .rests _, false =>
    { s.withErrand (.thread i) q.errand with isDropped := q.isDrop }
  | _, _ => s

/-- A thread stops waiting for a job that has not been answered yet. -/
def giveUp (s : Threads σ V) (i : Nat) : Threads σ V :=
  match s.errand (.thread i) with
  | .waits seq true =>
    if (s.common.core.replyTo seq).isNone then
      s.withErrand (.thread i) (.rests (some (.fails .timeout)))
    else s
  | _ => s

end Threads

/-- What can happen. -/
inductive Event (σ V : Type) where
  | ask (i : Nat) (q : Wish σ V)
  /-- a thread takes a step; if it is to spawn the owner, that may fail -/
  | step (i : Nat) (fault : Option OsError)
  | giveUp (i : Nat)
  | owner
  | release

/-- What happens. Whoever cannot take a step leaves all as it is. -/
def Threads.happen (s : Threads σ V) : Event σ V → Threads σ V
  | .ask i q => s.ask i q
  | .step i fault => s.work (.thread i) fault
  | .giveUp i => s.giveUp i
  | .owner => s.ownerStep
  | .release => s.release

end SymbolIndex
