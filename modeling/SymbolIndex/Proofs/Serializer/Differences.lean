import Mathlib.Data.List.Forall2
import SymbolIndex.Proofs.Serializer.Counts

/-!
# Differences

Two serializers that differ in one job only: in what waits in one place of their queues, or in what
this job was counted as and what it has left in the replies and in the log. What happens to both of
them does not touch the difference, for nobody reads replies or the log. Jobs can look at what has
been counted, and then they note counts that differ by the same job.

* `Gap`: lists that differ in one place;
* `JobCounts.Differ`: counts of which one job has come to different ends;
* `Note.Alike`, `LogGap`: what is noted then, and logs that differ in one place;
* `Difference`, `Differ`: serializers that differ in one job;
* `Differ.serve`, `differ_act`: requests and turns keep the difference;
* `Twins`, `twins_move`: so does every move, if the owner is busy with the same job in both.
-/

namespace SymbolIndex

variable {σ V : Type}

/-! ## Lists and counts -/

/-- The lists only differ in one place, where one has `g` and the other one has `g'`. -/
def Gap {α : Type} (g g' l l' : List α) : Prop := ∃ a b, l = a ++ g ++ b ∧ l' = a ++ g' ++ b

namespace Gap

variable {α : Type} {g g' l l' : List α}

theorem append (h : Gap g g' l l') (more : List α) : Gap g g' (l ++ more) (l' ++ more) := by
  obtain ⟨a, b, rfl, rfl⟩ := h
  exact ⟨a, b ++ more, List.append_assoc .., List.append_assoc ..⟩

theorem refl (l : List α) : Gap [] [] l l := ⟨l, [], by simp, by simp⟩

theorem eq (h : Gap [] [] l l') : l' = l := by
  obtain ⟨a, b, rfl, rfl⟩ := h
  rfl

theorem last (l g g' : List α) : Gap g g' (l ++ g) (l ++ g') := ⟨l, [], by simp, by simp⟩

end Gap

namespace JobCounts

/-- The counts only differ in the end of one job, if in anything. -/
def Differ (c c' : JobCounts) : Option (JobEnd × JobEnd) → Prop
  | none => c' = c
  | some (e, e') => ∃ base : JobCounts, c = base.plus e ∧ c' = base.plus e'

variable {c c' : JobCounts} {ends : Option (JobEnd × JobEnd)}

theorem plus_comm (c : JobCounts) (e e' : JobEnd) : (c.plus e).plus e' = (c.plus e').plus e := by
  cases e <;> cases e' <;> rfl

theorem accepting_plus (c : JobCounts) (e : JobEnd) :
    (c.plus e).accepting = c.accepting.plus e := by
  cases e <;> rfl

theorem Differ.plus (h : c.Differ c' ends) (e : JobEnd) : (c.plus e).Differ (c'.plus e) ends := by
  cases ends with
  | none => exact congrArg (plus · e) h
  | some ends =>
    obtain ⟨base, rfl, rfl⟩ := h
    exact ⟨base.plus e, plus_comm .., plus_comm ..⟩

theorem Differ.accepting (h : c.Differ c' ends) : c.accepting.Differ c'.accepting ends := by
  cases ends with
  | none => exact congrArg JobCounts.accepting h
  | some ends =>
    obtain ⟨base, rfl, rfl⟩ := h
    exact ⟨base.accepting, accepting_plus .., accepting_plus ..⟩

theorem Differ.sums (h : c.Differ c' ends) : c'.submitted = c.submitted ∧ c'.ended = c.ended := by
  cases ends with
  | none => rw [show c' = c from h]; exact ⟨rfl, rfl⟩
  | some ends =>
    obtain ⟨base, rfl, rfl⟩ := h
    simp

end JobCounts

/-! ## Logs -/

/-- The same is noted, or counts that differ in the end of one job. -/
def Note.Alike (ends : Option (JobEnd × JobEnd)) : Note V → Note V → Prop
  | .counts c, .counts c' => c.Differ c' ends
  | n, n' => n' = n

/-- The logs only differ in one place, where one has `g` and the other one has `g'`, and behind it
in what has been counted. -/
def LogGap (ends : Option (JobEnd × JobEnd)) (g g' l l' : List (Note V)) : Prop :=
  ∃ a b b', l = a ++ g ++ b ∧ l' = a ++ g' ++ b' ∧ List.Forall₂ (Note.Alike ends) b b'

theorem Note.Alike.eq {n n' : Note V} (h : n.Alike none n') : n' = n := by
  cases n with
  | counts c =>
    cases n' with
    | counts c' => exact congrArg Note.counts h
    | _ => cases h
  | _ => exact h

theorem eq_of_alike {ends : Option (JobEnd × JobEnd)} {l l' : List (Note V)}
    (h : List.Forall₂ (Note.Alike ends) l l') (hl : ∀ c, .counts c ∉ l) : l' = l := by
  induction h with
  | nil => rfl
  | @cons n n' l l' hn _ ih =>
    have hsame : n' = n := by
      cases n with
      | counts c => exact absurd List.mem_cons_self (hl c)
      | _ => exact hn
    rw [hsame, ih fun c hc => hl c (List.mem_cons_of_mem _ hc)]

namespace LogGap

variable {ends : Option (JobEnd × JobEnd)} {g g' l l' : List (Note V)}

theorem concat (h : LogGap ends g g' l l') {n n' : Note V} (hn : n.Alike ends n') :
    LogGap ends g g' (l ++ [n]) (l' ++ [n']) := by
  obtain ⟨a, b, b', rfl, rfl, hb⟩ := h
  exact ⟨a, b ++ [n], b' ++ [n'], List.append_assoc .., List.append_assoc ..,
    List.rel_append hb (.cons hn .nil)⟩

theorem refl (l : List (Note V)) : LogGap ends [] [] l l := ⟨l, [], [], by simp, by simp, .nil⟩

theorem eq (h : LogGap none [] [] l l') : l' = l := by
  obtain ⟨a, b, b', rfl, rfl, hb⟩ := h
  have hbehind : b = b' := List.forall₂_eq_eq_eq ▸ hb.imp fun _ _ hn => hn.eq.symm
  rw [hbehind]

theorem last (l g g' : List (Note V)) : LogGap ends g g' (l ++ g) (l ++ g') :=
  ⟨l, [], [], by simp, by simp, .nil⟩

end LogGap

/-! ## Serializers -/

/-- In what two serializers differ. -/
structure Difference (σ V : Type) where
  /-- what waits in one place of their queues -/
  messages : List (Message σ V) × List (Message σ V) := ([], [])
  /-- what one job has been counted as -/
  ends : Option (JobEnd × JobEnd) := none
  /-- what is told in one place of their replies -/
  replies : List (ℕ × Outcome V) × List (ℕ × Outcome V) := ([], [])
  /-- what is noted in one place of their logs -/
  notes : List (Note V) × List (Note V) := ([], [])

namespace Serializer

/-- The serializers only differ in this, and in what their owners are busy with. -/
inductive Differ (d : Difference σ V) (s : Serializer σ V) : Serializer σ V → Prop
  | intro {current : Option (Running σ V)} {queue : List (Message σ V)} {counts : JobCounts}
    {replies : List (ℕ × Outcome V)} {log : List (Note V)}
    (hq : Gap d.messages.1 d.messages.2 s.queue queue) (hc : s.counts.Differ counts d.ends)
    (hr : Gap d.replies.1 d.replies.2 s.replies replies)
    (hl : LogGap d.ends d.notes.1 d.notes.2 s.log log) :
    Differ d s { s with current, queue, counts, replies, log }

namespace Differ

variable {d : Difference σ V} {s s' : Serializer σ V}

theorem refl (s : Serializer σ V) : Differ {} s s := .intro (.refl _) rfl (.refl _) (.refl _)

theorem queue (h : Differ d s s') : Gap d.messages.1 d.messages.2 s.queue s'.queue := by
  cases h with | intro hq => exact hq

theorem counts (h : Differ d s s') : s.counts.Differ s'.counts d.ends := by
  cases h with | intro _ hc => exact hc

theorem replies (h : Differ d s s') : Gap d.replies.1 d.replies.2 s.replies s'.replies := by
  cases h with | intro _ _ hr => exact hr

theorem log (h : Differ d s s') : LogGap d.ends d.notes.1 d.notes.2 s.log s'.log := by
  cases h with | intro _ _ _ hl => exact hl

theorem front (h : Differ d s s') :
    s'.front = { s.front with queue := s'.queue } ∧ s'.state = s.state ∧ s'.name = s.name := by
  cases h; exact ⟨rfl, rfl, rfl⟩

theorem owner (h : Differ d s s') : s'.owner = s.owner := by cases h; rfl

theorem state (h : Differ d s s') : s'.state = s.state := h.front.2.1

theorem isRunning (h : Differ d s s') : s'.isRunning = s.isRunning := by cases h; rfl

theorem isOpen (h : Differ d s s') : s'.isOpen = s.isOpen := by cases h; rfl

theorem newToken (h : Differ d s s') (kind : JobKind) : s'.newToken kind = s.newToken kind := by
  cases h; cases kind <;> rfl

theorem isInterrupted (h : Differ d s s') (token : Token) :
    s'.isInterrupted token = s.isInterrupted token := by
  cases h; cases token <;> rfl

theorem pendingJobs (h : Differ d s s') : s'.pendingJobs = s.pendingJobs := by
  obtain ⟨hs, he⟩ := h.counts.sums
  unfold JobCounts.ended at he
  unfold Serializer.pendingJobs
  rw [hs, he]

/-! ### Small changes of both -/

theorem goOn (h : Differ d s s') (current current' : Option (Running σ V)) :
    Differ d { s with current } { s' with current := current' } := by
  cases h with | intro hq hc hr hl => exact .intro hq hc hr hl

theorem withState (h : Differ d s s') (state : σ) : Differ d { s with state } { s' with state } := by
  cases h with | intro hq hc hr hl => exact .intro hq hc hr hl

theorem withQueue (h : Differ d s s') (messages : List (Message σ V) × List (Message σ V))
    {queue queue' : List (Message σ V)} (hq : Gap messages.1 messages.2 queue queue') :
    Differ { d with messages } { s with queue } { s' with queue := queue' } := by
  cases h with | intro _ hc hr hl => exact .intro hq hc hr hl

theorem withLog (h : Differ d s s') (notes : List (Note V) × List (Note V))
    {log log' : List (Note V)} (hl : LogGap d.ends notes.1 notes.2 log log') :
    Differ { d with notes } { s with log } { s' with log := log' } := by
  cases h with | intro hq hc hr _ => exact .intro hq hc hr hl

theorem withNotes (h : Differ d s s') {n n' : Note V} (hn : n.Alike d.ends n') :
    Differ d (s.withNote n) (s'.withNote n') := by
  cases h with | intro hq hc hr hl => exact .intro hq hc hr (hl.concat hn)

theorem withNote (h : Differ d s s') (n : Note V) (hn : n.Alike d.ends n) :
    Differ d (s.withNote n) (s'.withNote n) := h.withNotes hn

theorem withReply (h : Differ d s s') (seq : ℕ) (o : Outcome V) :
    Differ d (s.withReply seq o) (s'.withReply seq o) := by
  cases h with | intro hq hc hr hl => exact .intro hq hc (hr.append _) hl

theorem countEnd (h : Differ d s s') (succeeded : Bool) :
    Differ d (s.countEnd succeeded) (s'.countEnd succeeded) := by
  cases h with
  | intro hq hc hr hl =>
    cases succeeded with
    | false => exact .intro hq (hc.plus .failed) hr hl
    | true => exact .intro hq (hc.plus .completed) hr hl

theorem finished (h : Differ d s s') :
    Differ d { s with owner := .finished, phase := .stopped }
      { s' with owner := .finished, phase := .stopped } := by
  cases h with | intro hq hc hr hl => exact .intro hq hc hr hl

end Differ

variable {d : Difference σ V} {s s' : Serializer σ V}

/-! ## Requests -/

theorem Differ.start (h : Differ d s s') : Differ d s.start s'.start := by
  have hreceiver : s'.hasReceiver = s.hasReceiver := by cases h; rfl
  unfold Serializer.start
  rw [hreceiver]
  split
  · cases h with | intro hq hc hr hl => exact .intro hq hc hr hl
  · exact h

theorem Differ.started (h : Differ d s s') : Differ d s.started s'.started := by
  have hp := h.pendingJobs
  have hh : s'.hasHandle = s.hasHandle := by cases h; rfl
  unfold Serializer.started
  rw [hp, hh]
  split
  · exact h.start
  · exact h

theorem Differ.stop (h : Differ d s s') : Differ d s.stop.2 s'.stop.2 := by
  have hstarted := h.started
  unfold Serializer.stop
  generalize s.started = s, s'.started = s' at hstarted
  cases hstarted with
  | intro hq hc hr hl =>
    unfold halt
    cases s.hasHandle with
    | false => exact .intro hq hc hr hl
    | true => exact .intro (hq.append _) hc hr hl

theorem Differ.drop (h : Differ d s s') : Differ d s.drop.2 s'.drop.2 := by
  have hstranded : s'.stranded = s.stranded := by
    have hp := h.pendingJobs
    have hr : s'.hasReceiver = s.hasReceiver := by cases h; rfl
    unfold stranded
    rw [hr, hp]
  have hh : s'.hasHandle = s.hasHandle := by cases h; rfl
  unfold Serializer.drop
  rw [hstranded, hh]
  split
  · exact h
  · exact h.stop

theorem Differ.enqueue (h : Differ d s s') (kind : JobKind) (script : Script σ V)
    (delivery : Delivery σ V) :
    (s'.enqueue kind script delivery).1 = (s.enqueue kind script delivery).1 ∧
      Differ d (s.enqueue kind script delivery).2 (s'.enqueue kind script delivery).2 := by
  have hopen := h.isOpen
  cases ho : s.isOpen with
  | true =>
    rw [enqueue_of_isOpen ho, enqueue_of_isOpen (hopen.trans ho)]
    cases h with
    | intro hq hc hr hl => exact ⟨rfl, .intro (hq.append _) hc.accepting hr hl⟩
  | false =>
    rw [enqueue_of_not_isOpen ho, enqueue_of_not_isOpen (hopen.trans ho)]
    cases h with
    | intro hq hc hr hl => exact ⟨rfl, .intro hq (hc.plus .dropped) hr hl⟩

/-- **Requests keep the difference.** -/
theorem Differ.serve (h : Differ d s s') (q : Request σ V) : Differ d (s.serve q) (s'.serve q) := by
  cases q with
  | start => exact h.start
  | enqueue kind script delivery => exact (h.enqueue kind script delivery).2
  | interrupt | interruptPending =>
    cases h with | intro hq hc hr hl => exact .intro hq hc hr hl
  | stop => exact h.stop
  | drop => exact h.drop

theorem Differ.serveAll (h : Differ d s s') (q : Option (Request σ V)) :
    Differ d (s.serveAll q) (s'.serveAll q) := by
  cases q with
  | none => exact h
  | some q => exact h.serve q

/-! ## Turns -/

/-- What a turn does to the job that takes it, beside taking an action from its script. -/
inductive Change (σ V : Type) where
  | keeps
  | answers (v : V)
  | calls (frame : Frame σ V)
  | unwinds

/-- The job after a change. -/
def changed (r : Running σ V) : Change σ V → Running σ V
  | .keeps => r
  | .answers v => { r with frame := { r.frame with value := some v } }
  | .calls frame => { r with frame, outer := r.frame :: r.outer }
  | .unwinds => (catcher r.frame r.outer).elim r fun (frame, outer) => { r with frame, outer }

theorem changed_unwinds {r : Running σ V} {frame : Frame σ V} {outer : List (Frame σ V)}
    (h : catcher r.frame r.outer = some (frame, outer)) :
    changed r .unwinds = { r with frame, outer } := by
  rw [changed, h, Option.elim_some]

theorem changed_unwinds_of_none {r : Running σ V} (h : catcher r.frame r.outer = none) :
    changed r .unwinds = r := by
  rw [changed, h, Option.elim_none]

/-- The turns do the same to the jobs that take them, and keep the difference. -/
inductive TurnsAlike (d : Difference σ V) (r r' : Running σ V) : Turn σ V → Turn σ V → Prop
  | waits : TurnsAlike d r r' .waits .waits
  | goesOn {s s' : Serializer σ V} (h : Differ d s s') (c : Change σ V)
    (hc : c = .unwinds → (catcher r.frame r.outer).isSome) :
    TurnsAlike d r r' (.goesOn s (changed r c)) (.goesOn s' (changed r' c))
  | ends {s s' : Serializer σ V} (h : Differ d s s') (result : JobResult V) :
    TurnsAlike d r r' (.ends s result) (.ends s' result)
  | panics (p : Payload) : TurnsAlike d r r' (.panics p) (.panics p)

theorem Differ.noteSubmitted {answer answer' : Option ℕ × Serializer σ V}
    (h : answer'.1 = answer.1 ∧ Differ d answer.2 answer'.2) :
    Differ d (Serializer.noteSubmitted answer) (Serializer.noteSubmitted answer') := by
  unfold Serializer.noteSubmitted
  rw [h.1]
  exact h.2.withNote (.submitted _) rfl

theorem differ_raise (h : Differ d s s') {r r' : Running σ V}
    (hcatch : (catcher r'.frame r'.outer).isSome = (catcher r.frame r.outer).isSome) (p : Payload) :
    TurnsAlike d r r' (s.raise r p) (s'.raise r' p) := by
  unfold raise
  cases hc : catcher r.frame r.outer <;> cases hc' : catcher r'.frame r'.outer <;>
    rw [hc, hc'] at hcatch
  case none.none => exact .panics p
  case some.some caught caught' =>
    have hnoted := h.withNote (.called (.panicked p)) rfl
    have hturns : TurnsAlike d r r' (.goesOn _ (changed r .unwinds))
        (.goesOn _ (changed r' .unwinds)) :=
      .goesOn hnoted .unwinds fun _ => by rw [hc]; rfl
    rwa [changed_unwinds hc, changed_unwinds hc'] at hturns
  all_goals cases hcatch

/-- **The same action does the same** to two jobs with the same token that catch the same panics, and
keeps the difference. -/
theorem differ_act (h : Differ d s s') {r r' : Running σ V} (ht : r'.frame.token = r.frame.token)
    (a : Action σ V) (hcatch : ∀ p, a = .panic p →
      (catcher r'.frame r'.outer).isSome = (catcher r.frame r.outer).isSome) :
    TurnsAlike d r r' (s.act r a) (s'.act r' a) := by
  have hi : s'.isInterrupted r'.frame.token = s.isInterrupted r.frame.token := by
    rw [ht, h.isInterrupted]
  cases a with
  | perform work =>
    simp only [act, hi, h.state]
    generalize work (s.isInterrupted r.frame.token) s.state = done
    obtain ⟨result, state⟩ := done
    cases result with
    | ok v => exact .goesOn (h.withState state) (.answers v) fun h => by cases h
    | error e => exact .ends (h.withState state) _
  | note v => exact .goesOn (h.withNote (.value v) rfl) .keeps fun h => by cases h
  | answer v => exact .goesOn h (.answers v) fun h => by cases h
  | fail e => exact .ends h _
  | panic p => exact differ_raise h (hcatch p rfl) p
  | gate => exact .waits
  | check =>
    simp only [act, hi]
    split
    · exact .ends h _
    · exact .goesOn h .keeps fun h => by cases h
  | interrupted =>
    simp only [act, hi]
    exact .goesOn (h.withNote (.interrupted _) rfl) .keeps fun h => by cases h
  | awaitInterrupt =>
    simp only [act, hi]
    split
    · exact .goesOn h .keeps fun h => by cases h
    · exact .waits
  | thread =>
    simp only [act, h.front.2.2]
    exact .goesOn (h.withNote (.thread _) rfl) .keeps fun h => by cases h
  | interrupt => exact .goesOn (h.serve .interrupt) .keeps fun h => by cases h
  | interruptPending => exact .goesOn (h.serve .interruptPending) .keeps fun h => by cases h
  | owner => exact .goesOn (h.withNote (.owner true) rfl) .keeps fun h => by cases h
  | running =>
    simp only [act, h.isRunning]
    exact .goesOn (h.withNote (.running _) rfl) .keeps fun h => by cases h
  | counts =>
    have hn : (Note.counts s.counts : Note V).Alike d.ends (.counts s'.counts) := h.counts
    exact .goesOn (h.withNotes hn) .keeps fun h => by cases h
  | stop => exact .goesOn (h.stop.withNote .stopped rfl) .keeps fun h => by cases h
  | submit kind script => exact .goesOn (.noteSubmitted (h.enqueue ..)) .keeps fun h => by cases h
  | submitWith kind script tag callback => exact .goesOn (.noteSubmitted (h.enqueue ..)) .keeps fun h => by cases h
  | call kind script catches =>
    simp only [act, h.newToken]
    exact .goesOn h (.calls _) fun h => by cases h

/-! ## Moves -/

/-- The serializers only differ in this, and their owners are busy with the same. -/
def Twins (d : Difference σ V) (s s' : Serializer σ V) : Prop :=
  Differ d s s' ∧ s'.current = s.current

theorem twins_finishFrame (h : Differ d s s') (r : Running σ V) (result : JobResult V) :
    Twins d (s.finishFrame r result) (s'.finishFrame r result) := by
  unfold finishFrame
  cases r.outer with
  | cons frame outer => exact ⟨(h.withNote (.called _) rfl).goOn _ _, rfl⟩
  | nil =>
    unfold finish
    cases r.stage with
    | callback succeeded => exact ⟨h.countEnd _, rfl⟩
    | work =>
      cases r.delivery with
      | discard => exact ⟨h.countEnd _, rfl⟩
      | reply => exact ⟨(h.withReply _ _).countEnd _, rfl⟩
      | callback c => exact ⟨(h.withNote (.callback _ _) rfl).goOn _ _, rfl⟩

theorem twins_unwind (h : Differ d s s') (r : Running σ V) (p : Payload) :
    Twins d (s.unwind r p) (s'.unwind r p) := by
  unfold unwind
  cases r.stage <;> cases r.delivery
  case work.reply => exact ⟨(h.withReply _ _).countEnd _, rfl⟩
  all_goals exact ⟨h.countEnd _, rfl⟩

theorem twins_begin (h : Twins d s s') (j : Job σ V) : Twins d (s.begin j) (s'.begin j) := by
  obtain ⟨h, hcurrent⟩ := h
  have hd : s'.Dismisses j ↔ s.Dismisses j := by cases h; rfl
  unfold begin
  rw [if_congr hd rfl rfl]
  split
  · unfold dismiss
    cases h with
    | intro hq hc hr hl =>
      cases j.delivery with
      | reply => exact ⟨.intro hq (hc.plus .dropped) (hr.append _) hl, hcurrent⟩
      | discard | callback c => exact ⟨.intro hq (hc.plus .dropped) hr hl, hcurrent⟩
  · refine ⟨h.goOn _ _, ?_⟩
    simp only [Serializer.goOn, starting, h.newToken]

theorem move_eq_serveAll {m : Move σ V} (hm : m ≠ .owner) (hr : m ≠ .release) :
    s.move m = s.serveAll (s.requestOf m) := by
  cases m with
  | owner => exact absurd rfl hm
  | release => exact absurd rfl hr
  | call kind script =>
    rw [move, call, requestOf]
    split
    · rw [serveAll, Option.elim_some, serve]
      split <;> next heq => rw [heq]
    · rfl
  | _ => rfl

theorem Differ.move (h : Differ d s s') {m : Move σ V} (hm : m ≠ .owner) (hr : m ≠ .release) :
    Differ d (s.move m) (s'.move m) := by
  have hq : s'.requestOf m = s.requestOf m := by
    cases m with
    | owner => exact absurd rfl hm
    | call kind script => rw [requestOf, requestOf, h.isRunning]
    | _ => rfl
  rw [move_eq_serveAll hm hr, move_eq_serveAll hm hr, hq]
  exact h.serveAll _

theorem current_move {m : Move σ V} (hm : m ≠ .owner) (hr : m ≠ .release) :
    (s.move m).current = s.current := by
  rw [move_eq_serveAll hm hr]
  cases s.requestOf m with
  | none => rfl
  | some q => exact congrArg Back.current (back_serve s q)

theorem Differ.move_of_not_alive (h : Differ d s s') (ha : s.owner ≠ .alive) :
    s.move .owner = s ∧ s'.move .owner = s' :=
  ⟨move_of_rest (ownerStep_of_not_alive ha),
    move_of_rest (ownerStep_of_not_alive (h.owner.symm ▸ ha))⟩

theorem twins_release (h : Twins d s s') : Twins d s.release s'.release := by
  obtain ⟨h, hcurrent⟩ := h
  unfold release
  rw [hcurrent]
  split
  · split
    · exact ⟨h.goOn _ _, rfl⟩
    · exact ⟨h, hcurrent⟩
  · exact ⟨h, hcurrent⟩

theorem twins_advance (h : Twins d s s') {r : Running σ V} (ha : s.owner = .alive)
    (hr : s.current = some r) : Twins d (s.move .owner) (s'.move .owner) := by
  obtain ⟨h, hcurrent⟩ := h
  have hs := ownerStep_of_busy ha hr
  have hs' := ownerStep_of_busy (h.owner.trans ha) (hcurrent.trans hr)
  have hturn : ∃ r₁, TurnsAlike d r₁ r₁ (s.nextTurn r) (s'.nextTurn r) := by
    unfold nextTurn
    split
    · exact ⟨r, .ends h _⟩
    · exact ⟨_, differ_act h rfl _ fun _ _ => rfl⟩
  obtain ⟨r₁, hturn⟩ := hturn
  rw [move, move, hs, hs', advance, advance]
  generalize s.nextTurn r = turn, s'.nextTurn r = turn' at hturn
  cases hturn with
  | waits => exact ⟨h, hcurrent⟩
  | goesOn h c hc => exact ⟨h.goOn _ _, rfl⟩
  | ends h result => exact twins_finishFrame h r result
  | panics p => exact twins_unwind h r p

theorem twins_receive (h : Twins d s s') (ha : s.owner = .alive) (hc : s.current = none)
    {msg : Message σ V} {queue queue' : List (Message σ V)} (hq : s.queue = msg :: queue)
    (hq' : s'.queue = msg :: queue') (hgap : Gap d.messages.1 d.messages.2 queue queue') :
    Twins d (s.move .owner) (s'.move .owner) := by
  obtain ⟨h, hcurrent⟩ := h
  have hbehind : Differ d { s with queue } { s' with queue := queue' } := h.withQueue _ hgap
  rw [move, move, ownerStep_of_idle ha hc,
    ownerStep_of_idle (h.owner.trans ha) (hcurrent.trans hc), receive, receive, hq, hq']
  cases msg with
  | job j => exact twins_begin ⟨hbehind, hcurrent⟩ j
  | stop => exact ⟨hbehind.finished, hcurrent⟩

/-- **Every move keeps the difference**, unless the owner gets to where the queues differ. -/
theorem twins_move (h : Twins d s s') (m : Move σ V) (hempty : s.queue = [] → s'.queue = [])
    (hhead : m = .owner → s.owner = .alive → s.current = none →
      ∀ msg queue, s.queue = msg :: queue →
        ∃ queue', s'.queue = msg :: queue' ∧ Gap d.messages.1 d.messages.2 queue queue') :
    Twins d (s.move m) (s'.move m) := by
  by_cases hm : m = .owner
  · subst hm
    by_cases ha : s.owner = .alive
    · cases hc : s.current with
      | some r => exact twins_advance h ha hc
      | none =>
        cases hq : s.queue with
        | nil =>
          have hrest : s.ownerStep = none := by rw [ownerStep_of_idle ha hc, receive, hq]
          have hrest' : s'.ownerStep = none := by
            rw [ownerStep_of_idle (h.1.owner.trans ha) (h.2.trans hc), receive, hempty hq]
          rw [move_of_rest hrest, move_of_rest hrest']
          exact h
        | cons msg queue =>
          obtain ⟨queue', hq', hgap⟩ := hhead rfl ha hc msg queue hq
          exact twins_receive h ha hc hq hq' hgap
    · obtain ⟨hs, hs'⟩ := h.1.move_of_not_alive ha
      rwa [hs, hs']
  · by_cases hr : m = .release
    · subst hr
      exact twins_release h
    · refine ⟨h.1.move hm hr, ?_⟩
      rw [current_move hm hr, current_move hm hr]
      exact h.2

/-- If the queues are the same, the difference stays whatever happens. -/
theorem twins_move_of_messages (h : Twins d s s') (hd : d.messages = ([], [])) (m : Move σ V) :
    Twins d (s.move m) (s'.move m) := by
  have hqueue : s'.queue = s.queue := by
    have hgap := h.1.queue
    rw [hd] at hgap
    exact hgap.eq
  refine twins_move h m (fun hempty => hqueue.trans hempty) fun _ _ _ msg queue hq =>
    ⟨queue, hqueue.trans hq, ?_⟩
  rw [hd]
  exact .refl queue

end Serializer

end SymbolIndex
