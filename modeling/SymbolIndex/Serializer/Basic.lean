import SymbolIndex.Error
import SymbolIndex.Text.Quoted

/-!
# The execution serializer

One thread, the owner, has a state that only it may touch and runs jobs on it, one at a time and in
the order in which they were accepted. Jobs are scripts of actions: they work on the state, wait,
look at their token, and may themselves use the serializer that runs them.

* `Action`, `Script`: what jobs do;
* `Delivery`, `Job`, `Message`: jobs on their way to the owner;
* `Frame`, `Running`: the job that is being run, with the calls that it makes;
* `Serializer`: a serializer at some moment.
-/

namespace SymbolIndex

/-- Whether a job may be interrupted, or dropped while it waits. -/
inductive JobKind where
  | cancellable
  | uninterruptible
  deriving DecidableEq, Repr

/-- What a job panics with. -/
inductive Payload where
  /-- a text made for the occasion -/
  | text (s : String)
  /-- a fixed text -/
  | fixed (s : String)
  /-- something that is no text -/
  | number (n : Int)
  deriving DecidableEq, Repr

/-- One step of a job on a state of type `σ`, with values of type `V`. -/
inductive Action (σ V : Type) where
  /-- work on the state, given whether the token is interrupted; its value becomes the job's, and
  its failure ends the job -/
  | perform (work : Bool → σ → Except Error V × σ)
  /-- note a value in the log -/
  | note (v : V)
  /-- make this the value of the job -/
  | answer (v : V)
  | fail (e : Error)
  | panic (p : Payload)
  /-- wait to be released -/
  | gate
  /-- fail if the token is interrupted -/
  | check
  /-- note whether the token is interrupted -/
  | interrupted
  /-- wait until the token is interrupted -/
  | awaitInterrupt
  /-- note the name of the thread -/
  | thread
  | interrupt
  | interruptPending
  /-- note whether the owner is asking -/
  | owner
  /-- note whether the serializer accepts jobs -/
  | running
  /-- note what the serializer has counted -/
  | counts
  | stop
  /-- leave a job behind -/
  | submit (kind : JobKind) (script : List (Action σ V))
  /-- leave a job behind, and what is to be done once it has ended -/
  | submitWith (kind : JobKind) (script : List (Action σ V)) (tag : V)
    (callback : List (Action σ V))
  /-- run a job in place and go on with its result, and also if it panics where that is caught -/
  | call (kind : JobKind) (script : List (Action σ V)) (catches : Bool)

/-- What a job does, step by step. -/
abbrev Script (σ V : Type) := List (Action σ V)

/-- How a job has ended: with a value, which may be missing, or with an error. -/
abbrev JobResult (V : Type) := Except Error (Option V)

/-- How a job has ended, panics included. -/
inductive Outcome (V : Type) where
  | result (r : JobResult V)
  | panicked (p : Payload)

/-- How many jobs were accepted, and how many came to each end. -/
structure JobCounts where
  submitted : Nat := 0
  completed : Nat := 0
  failed : Nat := 0
  /-- dropped on their way or refused -/
  dropped : Nat := 0
  deriving DecidableEq, Repr

/-- What is noted in the log. -/
inductive Note (V : Type) where
  | value (v : V)
  | interrupted (b : Bool)
  | thread (name : String)
  | owner (b : Bool)
  | running (b : Bool)
  | counts (c : JobCounts)
  /-- a stop from inside of a job has returned -/
  | stopped
  /-- a job has been left behind, under this number if it was accepted -/
  | submitted (seq : Option Nat)
  /-- a call from inside of a job has returned -/
  | called (o : Outcome V)
  /-- the callback of this tag has been told a result -/
  | callback (tag : V) (r : JobResult V)

/-- What the owner does with the result of a job: it is noted under a tag, and a script is run. -/
structure Callback (σ V : Type) where
  tag : V
  script : Script σ V

/-- Who gets the result of a job. -/
inductive Delivery (σ V : Type) where
  | discard
  /-- the callback, on the owner thread -/
  | callback (c : Callback σ V)
  /-- a caller on another thread, which waits for it -/
  | reply

/-- A job that has been accepted. -/
structure Job (σ V : Type) where
  seq : Nat
  kind : JobKind
  script : Script σ V
  delivery : Delivery σ V

/-- What the owner receives. -/
inductive Message (σ V : Type) where
  | job (j : Job σ V)
  /-- run no more jobs -/
  | stop

/-- What tells a job that it has been interrupted: the number of interrupts when it was started. A
job that cannot be interrupted has none. -/
abbrev Token := Option UInt64

/-- A script that is being run. -/
structure Frame (σ V : Type) where
  /-- what is left of it -/
  script : Script σ V
  value : Option V := none
  token : Token
  /-- whoever has called it goes on if it panics -/
  isCaught : Bool := false

/-- What the owner is busy with. -/
inductive Stage where
  /-- the job itself -/
  | work
  /-- its callback, after the job has succeeded or not -/
  | callback (succeeded : Bool)
  deriving DecidableEq, Repr

/-- The job that is being run. -/
structure Running (σ V : Type) where
  seq : Nat
  delivery : Delivery σ V
  stage : Stage := .work
  /-- the innermost call -/
  frame : Frame σ V
  /-- the calls around it, the innermost in front -/
  outer : List (Frame σ V) := []

/-- What a serializer is up to. -/
inductive Phase where
  /-- not started; jobs are accepted but wait -/
  | fresh
  | running
  /-- no more jobs are accepted -/
  | stopping
  | stopped
  deriving DecidableEq, Repr

/-- The thread of the owner. -/
inductive OwnerThread where
  | unborn | alive | finished
  deriving DecidableEq, Repr

/-- A serializer. -/
structure Serializer (σ V : Type) where
  name : String
  /-- it may be dropped while it runs without a warning -/
  background : Bool := false
  state : σ
  phase : Phase := .fresh
  /-- the end of the queue that the owner will read from is still here -/
  hasReceiver : Bool := true
  /-- the handle that a stop waits with is still here -/
  hasHandle : Bool := false
  owner : OwnerThread := .unborn
  queue : List (Message σ V) := []
  current : Option (Running σ V) := none
  nextSeq : Nat := 0
  /-- cancellable jobs with lower numbers are dropped -/
  dropBelow : Nat := 0
  /-- how many interrupts there were -/
  epoch : UInt64 := 0
  counts : JobCounts := {}
  /-- the outcomes for callers on other threads, by job -/
  replies : List (Nat × Outcome V) := []
  log : List (Note V) := []

namespace Serializer

variable {σ V : Type}

/-- The serializer accepts jobs and runs them. -/
def isRunning (s : Serializer σ V) : Bool := s.phase == .running

/-- How many accepted jobs have not come to an end. -/
def pendingJobs (s : Serializer σ V) : Nat :=
  s.counts.submitted - (s.counts.completed + s.counts.failed + s.counts.dropped)

/-- The token of a job that starts now. -/
def newToken (s : Serializer σ V) : JobKind → Token
  | .cancellable => some s.epoch
  | .uninterruptible => none

/-- The token has been interrupted. -/
def isInterrupted (s : Serializer σ V) : Token → Bool
  | some startedAt => s.epoch != startedAt
  | none => false

def withNote (s : Serializer σ V) (n : Note V) : Serializer σ V := { s with log := s.log ++ [n] }

/-- The outcome for the caller of a job, if it has ended. -/
def replyTo (s : Serializer σ V) (seq : Nat) : Option (Outcome V) := s.replies.lookup seq

/-- How the serializer is shown. -/
def shown (s : Serializer σ V) : String :=
  "Serializer \x7B name: " ++ Text.quoted s.name ++ ", running: " ++ toString s.isRunning ++
    ", background: " ++ toString s.background ++ " \x7D"

end Serializer

end SymbolIndex
