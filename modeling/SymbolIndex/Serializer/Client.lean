import SymbolIndex.Serializer.Basic

/-!
# Using a serializer

What threads ask of a serializer, as it goes if nobody comes in between. None of this waits: whoever
has to wait for the owner can do so afterwards, by looking at the replies or at the owner's thread.

* `takeNumber`, `send`, `countSubmitted`, `countDropped`, `raiseMark`, `interrupt`: what is done at
  once;
* `start`, `started`, `halt`, `stop`: the owner's thread;
* `isOpen`, `submit`, `submitWith`, `call`: jobs;
* `interruptPending`: interrupting the job that is run, and dropping those that wait;
* `release`: letting a job through its gate;
* `drop`: letting go of the serializer.
-/

namespace SymbolIndex.Serializer

variable {σ V : Type}

/-! ## What is done at once -/

/-- Hand out the next number. -/
def takeNumber (s : Serializer σ V) : Serializer σ V := { s with nextSeq := s.nextSeq + 1 }

def send (s : Serializer σ V) (m : Message σ V) : Serializer σ V :=
  { s with queue := s.queue ++ [m] }

def countSubmitted (s : Serializer σ V) : Serializer σ V :=
  { s with counts := { s.counts with submitted := s.counts.submitted + 1 } }

def countDropped (s : Serializer σ V) : Serializer σ V :=
  { s with counts := { s.counts with dropped := s.counts.dropped + 1 } }

/-- Let cancellable jobs with lower numbers be dropped. -/
def raiseMark (s : Serializer σ V) (n : Nat) : Serializer σ V :=
  { s with dropBelow := max s.dropBelow n }

/-- Interrupt the job that is being run. -/
def interrupt (s : Serializer σ V) : Serializer σ V := { s with epoch := s.epoch + 1 }

/-! ## The owner -/

/-- Start the owner, unless that has been done or is too late. -/
def start (s : Serializer σ V) : Serializer σ V :=
  if s.hasReceiver then
    { s with hasReceiver := false, hasHandle := true, owner := .alive, phase := .running }
  else s

/-! ## Jobs -/

/-- The serializer accepts jobs. -/
def isOpen (s : Serializer σ V) : Bool :=
  match s.phase with
  | .fresh | .running => true
  | .stopping | .stopped => false

/-- Accept a job under the next number, or refuse it once the serializer stops. -/
def enqueue (s : Serializer σ V) (kind : JobKind) (script : Script σ V)
    (delivery : Delivery σ V) : Option Nat × Serializer σ V :=
  match s.phase with
  | .fresh | .running =>
    (some s.nextSeq,
      (s.takeNumber.send (.job ⟨s.nextSeq, kind, script, delivery⟩)).countSubmitted)
  | .stopping | .stopped => (none, s.countDropped)

/-- Leave a job behind. -/
def submit (s : Serializer σ V) (kind : JobKind) (script : Script σ V) :
    Option Nat × Serializer σ V :=
  s.enqueue kind script .discard

/-- Leave a job and a callback for its result behind. -/
def submitWith (s : Serializer σ V) (kind : JobKind) (script : Script σ V) (c : Callback σ V) :
    Option Nat × Serializer σ V :=
  s.enqueue kind script (.callback c)

/-- Ask for the result of a job from a thread that is not the owner's. The job only is accepted
while the serializer runs; its number is the one to wait for. -/
def call (s : Serializer σ V) (kind : JobKind) (script : Script σ V) :
    Except Error Nat × Serializer σ V :=
  if s.isRunning then
    match s.enqueue kind script .reply with
    | (some seq, s) => (.ok seq, s)
    | (none, s) => (.error .notStarted, s)
  else (.error .notStarted, s)

/-! ## Interrupts -/

/-- Interrupt the job that is being run and drop the cancellable ones that wait. -/
def interruptPending (s : Serializer σ V) : Serializer σ V := (s.raiseMark s.nextSeq).interrupt

/-- Let the job that is being run through the gate at which it waits. -/
def release (s : Serializer σ V) : Serializer σ V :=
  match s.current with
  | some r =>
    match r.frame.script with
    | .gate :: rest =>
      { s with current := some { r with frame := { r.frame with script := rest } } }
    | _ => s
  | none => s

/-! ## Stopping -/

/-- Whether a stop has to wait for the owner's thread to end. -/
inductive StopWait where
  | returns | joins
  deriving DecidableEq, Repr

/-- The serializer with its owner started, if it was not and if jobs wait for it. -/
def started (s : Serializer σ V) : Serializer σ V :=
  if s.hasHandle = false ∧ 0 < s.pendingJobs then s.start else s

/-- Ask an owner that has been started to end behind all jobs that have been accepted. Only the
first one to ask has a handle to wait with; without one, it returns at once. -/
def halt (s : Serializer σ V) : StopWait × Serializer σ V :=
  if s.hasHandle then
    (.joins, { s with hasHandle := false, phase := .stopping, queue := s.queue ++ [.stop] })
  else (.returns, { s with hasReceiver := false, phase := .stopped })

/-- End the owner behind all jobs that have been accepted. -/
def stop (s : Serializer σ V) : StopWait × Serializer σ V := s.started.halt

/-- What letting go of a serializer warns of. -/
inductive DropWarning where
  | whileRunning
  | withQueuedJobs
  deriving DecidableEq, Repr

def DropWarning.message : DropWarning → String
  | whileRunning =>
    "Execution serializer dropped while running, call stop() before dropping it"
  | withQueuedJobs =>
    "Execution serializer dropped with jobs queued before start, they ran on drop"

/-- The wording of the warning about a job that was refused. -/
def refusedWarning : String := "Job submitted to a stopped serializer was discarded"

/-- How many jobs wait for an owner that was never started. -/
def stranded (s : Serializer σ V) : Nat := if s.hasReceiver then s.pendingJobs else 0

/-- What letting go of the serializer warns of, if it has to be stopped for that. -/
def dropWarning (s : Serializer σ V) : Option DropWarning :=
  if s.background then none
  else some (if s.hasHandle then .whileRunning else .withQueuedJobs)

/-- Let go of the serializer, which stops it if it runs or has jobs to run. -/
def drop (s : Serializer σ V) : Option DropWarning × Serializer σ V :=
  if s.hasHandle = false ∧ s.stranded = 0 then (none, s) else (s.dropWarning, s.stop.2)

end SymbolIndex.Serializer
