import SymbolIndex.Proofs.Serializer.Differences

/-!
# Ends of jobs

The same actions may come to different ends: the job returns a value, fails or panics, and its
callback returns or panics.

* `Ending`, `Receiver`, `Finale`, `Finale.job`: jobs by their actions and their ends;
* `Finale.ended`: all that the end of a job leaves;
* `Closing`, `closing_move`, `exists_ended`: a job whose actions are done ends in a few steps.
-/

namespace SymbolIndex

open Serializer

variable {σ V : Type}

/-- How the work of a job ends behind its actions. -/
inductive Ending (V : Type) where
  /-- with the value that the actions have left -/
  | returns
  | answers (v : V)
  | fails (e : Error)
  | panics (p : Payload)

namespace Ending

def script : Ending V → Script σ V
  | returns => []
  | answers v => [.answer v]
  | fails e => [.fail e]
  | panics p => [.panic p]

theorem script_ne_gate (x : Ending V) (rest : Script σ V) : x.script ≠ .gate :: rest := by
  cases x <;> simp [script]

/-- The outcome of the work, given the value that its actions have left. -/
def outcome (value : Option V) : Ending V → Outcome V
  | returns => .result (.ok value)
  | answers v => .result (.ok (some v))
  | fails e => .result (.error e)
  | panics p => .panicked p

end Ending

/-- Who is told the result of a job. -/
inductive Receiver (V : Type) where
  | nobody
  | caller
  /-- a callback, which notes it under a tag -/
  | callback (tag : V)

/-- How a job ends: its work, and its callback, which panics or returns. -/
structure Finale (V : Type) where
  work : Ending V
  callback : Option Payload := none

namespace Finale

variable (x : Finale V) (seq : ℕ) (who : Receiver V) (value : Option V)

def callbackScript : Script σ V := (x.callback.map Action.panic).toList

theorem callbackScript_ne_gate (rest : Script σ V) : x.callbackScript ≠ .gate :: rest := by
  cases hx : x.callback <;> simp [callbackScript, hx]

def delivery : Receiver V → Delivery σ V
  | .nobody => .discard
  | .caller => .reply
  | .callback tag => .callback ⟨tag, x.callbackScript⟩

/-- The job with these actions that ends like this. -/
def job (kind : JobKind) (actions : Script σ V) : Job σ V :=
  ⟨seq, kind, actions ++ x.work.script, x.delivery who⟩

/-- The job in its last action. -/
def starts (token : Token) : Running σ V :=
  { seq, delivery := x.delivery who, frame := { script := x.work.script, value, token } }

/-- The job behind an answer. -/
def answered (v : V) (token : Token) : Running σ V :=
  { seq, delivery := x.delivery who, frame := { script := [], value := some v, token } }

/-- The job in its callback. -/
def callsBack (succeeded : Bool) : Running σ V :=
  { seq
    delivery := x.delivery who
    stage := .callback succeeded
    frame := { script := x.callbackScript, token := none } }

/-! ## What the end of a job leaves -/

/-- The job has succeeded. -/
def succeeds : Bool :=
  match x.work.outcome value, who with
  | .result result, .callback _ => result.isOk && x.callback.isNone
  | .result result, _ => result.isOk
  | .panicked _, _ => false

/-- What the caller is told. -/
def replies : List (ℕ × Outcome V) :=
  match who with
  | .caller => [(seq, x.work.outcome value)]
  | _ => []

/-- What the callback notes. -/
def notes : List (Note V) :=
  match who, x.work.outcome value with
  | .callback tag, .result result => [.callback tag result]
  | _, _ => []

/-- The serializer once the job has ended. -/
def ended (s : Serializer σ V) : Serializer σ V :=
  { s with
    current := none
    counts := s.counts.plus (.of (x.succeeds who value))
    replies := s.replies ++ x.replies seq who value
    log := s.log ++ x.notes who value }

/-- In what serializers differ in which a job has come to different ends. -/
def difference (y : Finale V) : Difference σ V where
  ends := some (.of (x.succeeds who value), .of (y.succeeds who value))
  replies := (x.replies seq who value, y.replies seq who value)
  notes := (x.notes who value, y.notes who value)

end Finale

namespace Serializer

variable {s s' : Serializer σ V} {x y : Finale V} {seq : ℕ} {who : Receiver V} {value : Option V}

/-- **Different ends of a job only make this difference.** -/
theorem Differ.ended (h : Differ {} s s') :
    Differ (x.difference seq who value y) (x.ended seq who value s) (y.ended seq who value s') := by
  cases h with
  | intro hq hc hr hl =>
    obtain rfl := hc
    obtain rfl := hr.eq
    obtain rfl := hl.eq
    exact .intro hq ⟨s.counts, rfl, rfl⟩ (.last ..) (.last ..)

theorem replyTo_ended (hw : who = .caller) (hnone : s.replyTo seq = none) :
    (x.ended seq who value s).replyTo seq = some (x.work.outcome value) := by
  have hreplies : x.replies seq who value = [(seq, x.work.outcome value)] := by rw [hw]; rfl
  rw [replyTo] at hnone ⊢
  rw [Finale.ended, hreplies, List.lookup_append, hnone, Option.none_or, List.lookup_cons_self]

/-! ## The steps to the end -/

/-- A job whose actions are done, at most `k` steps before it is over, with what it has noted since
then. -/
inductive Closing (x : Finale V) (seq : ℕ) (who : Receiver V) (value : Option V) :
    ℕ → Running σ V → List (Note V) → Prop
  | starts (token : Token) : Closing x seq who value 3 (x.starts seq who value token) []
  | answered {v : V} (h : x.work = .answers v) (token : Token) :
    Closing x seq who value 2 (x.answered seq who v token) []
  | told {tag : V} {result : JobResult V} (hw : who = .callback tag)
    (ho : x.work.outcome value = .result result) :
    Closing x seq who value 1 (x.callsBack seq who result.isOk) [.callback tag result]

/-- The serializer in which a job is being run that has noted something. -/
def goOnWith (s : Serializer σ V) (r : Running σ V) (notes : List (Note V)) : Serializer σ V :=
  { s with current := some r, log := s.log ++ notes }

theorem goOnWith_nil {r : Running σ V} (hr : s.current = some r) : s.goOnWith r [] = s := by
  rw [goOnWith, List.append_nil, ← hr]

theorem Differ.goOnWith (h : Differ {} s s') (r : Running σ V) (notes : List (Note V)) :
    Differ { notes := (notes, []) } (s.goOnWith r notes) s' := by
  cases h with
  | intro hq hc hr hl =>
    obtain rfl := hl.eq
    have hgap : LogGap none notes [] (s.log ++ notes) (s.log ++ []) := .last ..
    rw [List.append_nil] at hgap
    exact .intro hq hc hr hgap

theorem countEnd_eq (s : Serializer σ V) (succeeded : Bool) :
    s.countEnd succeeded =
      { s with current := none, counts := s.counts.plus (.of succeeded) } := by
  cases succeeded <;> rfl

/-- A callback that only notes what it is told ends the job in its next step. -/
theorem move_callsBack {succeeded : Bool} (ha : s.owner = .alive)
    (hr : s.current = some (x.callsBack seq who succeeded)) :
    s.move .owner = s.countEnd (succeeded && x.callback.isNone) := by
  rw [move, ownerStep_of_busy ha hr, advance]
  cases hx : x.callback with
  | none =>
    have ht : s.nextTurn (x.callsBack seq who succeeded) = .ends s (.ok none) := by
      simp [nextTurn, Finale.callsBack, Finale.callbackScript, hx]
    rw [ht, Option.isNone_none, Bool.and_true]
    rfl
  | some p =>
    have ht : s.nextTurn (x.callsBack seq who succeeded) = .panics p := by
      simp [nextTurn, Finale.callsBack, Finale.callbackScript, hx, act, raise, catcher]
    rw [ht, Option.isNone_some, Bool.and_false]
    rfl

theorem closing_finish {k : ℕ} {r : Running σ V} {result : JobResult V} (hk : 1 < k)
    (hseq : r.seq = seq) (hd : r.delivery = x.delivery who) (hg : r.stage = .work)
    (houter : r.outer = []) (ho : x.work.outcome value = .result result) :
    (s.goOnWith r []).finishFrame r result = x.ended seq who value s ∨
      ∃ k' < k, ∃ r' notes, Closing x seq who value k' r' notes ∧
        (s.goOnWith r []).finishFrame r result = s.goOnWith r' notes := by
  subst hseq
  rw [finishFrame, houter, finish, hg, hd]
  cases who with
  | nobody =>
    left
    simp [Finale.delivery, countEnd_eq, goOnWith, Finale.ended, Finale.succeeds, Finale.replies,
      Finale.notes, ho]
  | caller =>
    left
    simp [Finale.delivery, countEnd_eq, goOnWith, withReply, Finale.ended, Finale.succeeds,
      Finale.replies, Finale.notes, ho]
  | callback tag =>
    refine .inr ⟨1, hk, _, _, .told rfl ho, ?_⟩
    simp [Finale.delivery, goOnWith, withNote, Finale.callsBack]

theorem ended_of_panics {token : Token} {p : Payload} (hx : x.work = .panics p) :
    (s.goOnWith (x.starts seq who value token) []).unwind (x.starts seq who value token) p =
      x.ended seq who value s := by
  cases who <;>
    simp [unwind, Finale.starts, Finale.delivery, countEnd_eq, goOnWith, withReply, Finale.ended,
      Finale.succeeds, Finale.replies, Finale.notes, hx, Ending.outcome]

/-- **A job whose actions are done comes closer to its end** with every step of the owner. -/
theorem closing_move {k : ℕ} {r : Running σ V} {notes : List (Note V)} (ha : s.owner = .alive)
    (h : Closing x seq who value k r notes) :
    (s.goOnWith r notes).move .owner = x.ended seq who value s ∨
      ∃ k' < k, ∃ r' notes', Closing x seq who value k' r' notes' ∧
        (s.goOnWith r notes).move .owner = s.goOnWith r' notes' := by
  have hstep : ∀ r notes, (s.goOnWith r notes).move .owner =
      ((s.goOnWith r notes).advance r).getD (s.goOnWith r notes) :=
    fun r notes => by rw [move, ownerStep_of_busy (s := s.goOnWith r notes) ha rfl]
  cases h with
  | starts token =>
    rw [hstep, advance]
    generalize hs : s.goOnWith (x.starts seq who value token) [] = s₁
    cases hx : x.work with
    | returns =>
      have ht : s₁.nextTurn (x.starts seq who value token) = .ends s₁ (.ok value) := by
        simp [nextTurn, Finale.starts, hx, Ending.script]
      rw [ht, ← hs]
      exact closing_finish (r := x.starts seq who value token) (by omega) rfl rfl rfl rfl
        (by rw [hx]; rfl)
    | answers v =>
      have ht : s₁.nextTurn (x.starts seq who value token) =
          .goesOn s₁ (x.answered seq who v token) := by
        simp [nextTurn, Finale.starts, Finale.answered, hx, Ending.script, act]
      rw [ht, ← hs]
      exact .inr ⟨2, by omega, _, _, .answered hx token, rfl⟩
    | fails e =>
      have ht : s₁.nextTurn (x.starts seq who value token) = .ends s₁ (.error e) := by
        simp [nextTurn, Finale.starts, hx, Ending.script, act]
      rw [ht, ← hs]
      exact closing_finish (r := x.starts seq who value token) (by omega) rfl rfl rfl rfl
        (by rw [hx]; rfl)
    | panics p =>
      have ht : s₁.nextTurn (x.starts seq who value token) = .panics p := by
        simp [nextTurn, Finale.starts, hx, Ending.script, act, raise, catcher]
      rw [ht, ← hs]
      exact .inl (ended_of_panics hx)
  | @answered v hx token =>
    rw [hstep]
    exact closing_finish (r := x.answered seq who v token) (by omega) rfl rfl rfl rfl
      (by rw [hx]; rfl)
  | told hw ho =>
    subst hw
    left
    rw [move_callsBack (s := s.goOnWith _ _) ha rfl, countEnd_eq]
    simp [goOnWith, Finale.ended, Finale.succeeds, Finale.replies, Finale.notes, ho]

theorem exists_ended {k : ℕ} {r : Running σ V} {notes : List (Note V)} (ha : s.owner = .alive)
    (h : Closing x seq who value k r notes) :
    ∃ i ≤ k, steps i (s.goOnWith r notes) = x.ended seq who value s := by
  induction k using Nat.strongRecOn generalizing r notes with
  | ind k ih =>
    have hpos : 1 ≤ k := by cases h <;> omega
    rcases closing_move ha h with ho | ⟨k', hk, r', notes', hr, hn⟩
    · exact ⟨1, hpos, by rw [steps_move, ho]; rfl⟩
    · obtain ⟨i, hi, ho⟩ := ih k' hk hr
      refine ⟨i + 1, by omega, ?_⟩
      rw [steps_move, hn, ho]

theorem release_of_ne_gate {r : Running σ V} (hr : s.current = some r)
    (hg : ∀ rest, r.frame.script ≠ .gate :: rest) : s.release = s := by
  unfold release
  rw [hr]
  dsimp only
  split
  · next rest hs => exact absurd hs (hg rest)
  · rfl

theorem Closing.seq_eq {k : ℕ} {r : Running σ V} {notes : List (Note V)}
    (h : Closing x seq who value k r notes) : r.seq = seq := by
  cases h <;> rfl

theorem Closing.notes_prefix {k : ℕ} {r : Running σ V} {notes : List (Note V)}
    (h : Closing x seq who value k r notes) : notes <+: x.notes who value := by
  cases h with
  | starts | answered => exact List.nil_prefix
  | told hw ho => simp [Finale.notes, hw, ho]

theorem Closing.ne_gate {k : ℕ} {r : Running σ V} {notes : List (Note V)}
    (h : Closing x seq who value k r notes) (rest : Script σ V) :
    r.frame.script ≠ .gate :: rest := by
  cases h with
  | starts => exact x.work.script_ne_gate rest
  | answered => exact nofun
  | told => exact x.callbackScript_ne_gate rest

end Serializer

end SymbolIndex
