import SymbolIndex.Serializer.Client

/-!
# The owner

The owner's thread as a machine that takes one step at a time: it takes the next message from the
queue, or runs the next action of the job that it is busy with. It rests where there is no message,
and where a job waits at a gate or for an interrupt.

* `finish`, `finishFrame`, `unwind`: the ends of jobs;
* `Turn`, `raise`, `act`, `nextTurn`: what comes of a panic, of an action, and of the next one of a
  job;
* `receive`, `advance`, `ownerStep`: one step of the owner, if it can take one;
* `settle`: the serializer once the owner rests.
-/

namespace SymbolIndex.Serializer

variable {σ V : Type}

/-! ## The ends of jobs -/

/-- The serializer without the job that it was busy with, which has succeeded or not. -/
def countEnd (s : Serializer σ V) (succeeded : Bool) : Serializer σ V :=
  { s with
    current := none
    counts :=
      if succeeded then { s.counts with completed := s.counts.completed + 1 }
      else { s.counts with failed := s.counts.failed + 1 } }

/-- The serializer with an outcome for the caller of a job. -/
def withReply (s : Serializer σ V) (seq : Nat) (o : Outcome V) : Serializer σ V :=
  { s with replies := s.replies ++ [(seq, o)] }

/-- The job, or its callback, has come to the end of its script. A callback is told the result; the
job counts by its own result, whatever its callback does. -/
def finish (s : Serializer σ V) (r : Running σ V) (result : JobResult V) : Serializer σ V :=
  match r.stage with
  | .callback succeeded => s.countEnd succeeded
  | .work =>
    match r.delivery with
    | .discard => s.countEnd result.isOk
    | .reply => (s.withReply r.seq (.result result)).countEnd result.isOk
    | .callback c =>
      { s.withNote (.callback c.tag result) with
        current := some
          { r with
            stage := .callback result.isOk
            frame := { script := c.script, token := none }
            outer := [] } }

/-- The innermost script has ended with a result, with which the call around it goes on. -/
def finishFrame (s : Serializer σ V) (r : Running σ V) (result : JobResult V) : Serializer σ V :=
  match r.outer with
  | [] => s.finish r result
  | frame :: outer =>
    { s.withNote (.called (.result result)) with current := some { r with frame, outer } }

/-- The job panics, or its callback does, and nothing inside of it has caught that. So every call
inside of the job ends with it. -/
def unwind (s : Serializer σ V) (r : Running σ V) (p : Payload) : Serializer σ V :=
  match r.stage, r.delivery with
  | .work, .reply => (s.withReply r.seq (.panicked p)).countEnd false
  | _, _ => s.countEnd false

/-! ## Actions -/

/-- What comes of the next action of a job. -/
inductive Turn (σ V : Type) where
  /-- nothing yet: the job waits -/
  | waits
  /-- the job goes on -/
  | goesOn (s : Serializer σ V) (r : Running σ V)
  /-- the innermost script ends -/
  | ends (s : Serializer σ V) (result : JobResult V)
  /-- the job ends, since nothing inside of it catches the panic -/
  | panics (p : Payload)

/-- Note the number under which a job has been left behind. -/
def noteSubmitted (answer : Option Nat × Serializer σ V) : Serializer σ V :=
  answer.2.withNote (.submitted answer.1)

/-- Who goes on if the innermost script panics: the first caller that catches this, and the calls
around it. -/
def catcher (frame : Frame σ V) : List (Frame σ V) → Option (Frame σ V × List (Frame σ V))
  | [] => none
  | caller :: outer => if frame.isCaught then some (caller, outer) else catcher caller outer

/-- The innermost script panics, and so do the calls around it up to the first that is caught. -/
def raise (s : Serializer σ V) (r : Running σ V) (p : Payload) : Turn σ V :=
  match catcher r.frame r.outer with
  | some (frame, outer) => .goesOn (s.withNote (.called (.panicked p))) { r with frame, outer }
  | none => .panics p

/-- Take an action of the job, of which `r` is what is left behind the action. -/
def act (s : Serializer σ V) (r : Running σ V) : Action σ V → Turn σ V
  | .perform work =>
    let (result, state) := work (s.isInterrupted r.frame.token) s.state
    match result with
    | .ok v => .goesOn { s with state } { r with frame := { r.frame with value := some v } }
    | .error e => .ends { s with state } (.error e)
  | .note v => .goesOn (s.withNote (.value v)) r
  | .answer v => .goesOn s { r with frame := { r.frame with value := some v } }
  | .fail e => .ends s (.error e)
  | .panic p => s.raise r p
  | .gate => .waits
  | .check => if s.isInterrupted r.frame.token then .ends s (.error .interrupted) else .goesOn s r
  | .interrupted => .goesOn (s.withNote (.interrupted (s.isInterrupted r.frame.token))) r
  | .awaitInterrupt => if s.isInterrupted r.frame.token then .goesOn s r else .waits
  | .thread => .goesOn (s.withNote (.thread s.name)) r
  | .interrupt => .goesOn s.interrupt r
  | .interruptPending => .goesOn s.interruptPending r
  | .owner => .goesOn (s.withNote (.owner true)) r
  | .running => .goesOn (s.withNote (.running s.isRunning)) r
  | .counts => .goesOn (s.withNote (.counts s.counts)) r
  | .stop => .goesOn (s.stop.2.withNote .stopped) r
  | .submit kind script => .goesOn (noteSubmitted (s.submit kind script)) r
  | .submitWith kind script tag callback =>
    .goesOn (noteSubmitted (s.submitWith kind script ⟨tag, callback⟩)) r
  | .call kind script catches =>
    .goesOn s
      { r with
        frame := { script, token := s.newToken kind, isCaught := catches }
        outer := r.frame :: r.outer }

/-- The next turn of the job that is being run. -/
def nextTurn (s : Serializer σ V) (r : Running σ V) : Turn σ V :=
  match r.frame.script with
  | [] => .ends s (.ok r.frame.value)
  | action :: rest => s.act { r with frame := { r.frame with script := rest } } action

/-! ## Steps -/

/-- The serializer with the owner busy with a job. -/
def goOn (s : Serializer σ V) (r : Running σ V) : Serializer σ V := { s with current := some r }

/-- A job at its start. -/
def starting (s : Serializer σ V) (j : Job σ V) : Running σ V :=
  { seq := j.seq
    delivery := j.delivery
    frame := { script := j.script, token := s.newToken j.kind } }

/-- An interrupt has said that the job is to be dropped. -/
def Dismisses (s : Serializer σ V) (j : Job σ V) : Prop :=
  j.kind = .cancellable ∧ j.seq < s.dropBelow

instance (s : Serializer σ V) (j : Job σ V) : Decidable (s.Dismisses j) := by
  unfold Dismisses; infer_instance

/-- Drop a job, of which only its caller is told. -/
def dismiss (s : Serializer σ V) (j : Job σ V) : Serializer σ V :=
  match j.delivery with
  | .reply => s.countDropped.withReply j.seq (.result (.error .dropped))
  | _ => s.countDropped

/-- Take a job from the queue: it is dropped if an interrupt has said so, and started if not. -/
def begin (s : Serializer σ V) (j : Job σ V) : Serializer σ V :=
  if s.Dismisses j then s.dismiss j else s.goOn (s.starting j)

/-- Take the next message from the queue. -/
def receive (s : Serializer σ V) : Option (Serializer σ V) :=
  match s.queue with
  | [] => none
  | .job j :: queue => some ({ s with queue }.begin j)
  | .stop :: queue => some { s with queue, owner := .finished, phase := .stopped }

/-- Go on with the job that is being run. -/
def advance (s : Serializer σ V) (r : Running σ V) : Option (Serializer σ V) :=
  match s.nextTurn r with
  | .waits => none
  | .goesOn s r => some (s.goOn r)
  | .ends s result => some (s.finishFrame r result)
  | .panics p => some (s.unwind r p)

/-- One step of the owner, unless there is nothing for it to do. -/
def ownerStep (s : Serializer σ V) : Option (Serializer σ V) :=
  match s.owner with
  | .alive => s.current.elim s.receive s.advance
  | _ => none

/-! ## Resting -/

mutual

/-- How many steps an action may lead to. -/
def actionWeight : Action σ V → Nat
  | .submit _ script => scriptWeight script + 4
  | .submitWith _ script _ callback => scriptWeight script + scriptWeight callback + 6
  | .call _ script _ => scriptWeight script + 4
  | .stop => 2
  | _ => 1

/-- How many steps a script may lead to. -/
def scriptWeight : List (Action σ V) → Nat
  | [] => 0
  | action :: rest => actionWeight action + scriptWeight rest

end

/-- How many steps there may be behind the end of a job. -/
def deliveryWeight : Delivery σ V → Nat
  | .callback c => scriptWeight c.script + 2
  | _ => 0

/-- How many steps a message may lead to. -/
def messageWeight : Message σ V → Nat
  | .job j => scriptWeight j.script + deliveryWeight j.delivery + 2
  | .stop => 1

/-- How many steps the messages of a queue may lead to. -/
def queueWeight : List (Message σ V) → Nat
  | [] => 0
  | m :: queue => messageWeight m + queueWeight queue

/-- How many steps may be left in some frames. -/
def framesWeight : List (Frame σ V) → Nat
  | [] => 0
  | f :: frames => scriptWeight f.script + 1 + framesWeight frames

/-- How many steps a job that is being run may still lead to. -/
def runningWeight (r : Running σ V) : Nat :=
  framesWeight (r.frame :: r.outer) +
    match r.stage with
    | .work => deliveryWeight r.delivery
    | .callback _ => 0

/-- How many steps the owner may take before it rests. -/
def weight (s : Serializer σ V) : Nat :=
  queueWeight s.queue + (s.current.map runningWeight).getD 0

/-- At most `n` steps of the owner. -/
def steps : Nat → Serializer σ V → Serializer σ V
  | 0, s => s
  | n + 1, s =>
    match s.ownerStep with
    | some s => steps n s
    | none => s

/-- The serializer once the owner rests. -/
def settle (s : Serializer σ V) : Serializer σ V := steps s.weight s

/-- A job waits at a gate or for an interrupt. -/
def isWaiting (s : Serializer σ V) : Bool := s.current.isSome && s.ownerStep.isNone

end SymbolIndex.Serializer
