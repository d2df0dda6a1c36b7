import SymbolIndex.Proofs.Serializer.Endings

/-!
# Tokens

The calls that a job makes are nested inside of each other, and each has a token of its own, made
when it was begun.

* `Running.tokens`: the tokens of a job that is being run and of the calls inside of it;
* `Nesting`, `nesting_of_step`: a move begins one more call, or ends the innermost ones;
* `Run.Opens`, `Run.exists_opens`: every token was made when its call, or its job, was begun.
-/

namespace SymbolIndex

variable {σ V : Type}

/-- The tokens of a job and of the calls inside of it, the outermost in front. -/
def Running.tokens (r : Running σ V) : List Token :=
  r.outer.reverse.map Frame.token ++ [r.frame.token]

theorem Running.tokens_ne_nil (r : Running σ V) : r.tokens ≠ [] := by
  simp [tokens]

theorem Running.tokens_eq (r : Running σ V) :
    r.tokens = ((r.frame :: r.outer).map Frame.token).reverse := by
  simp [tokens]

namespace Serializer

/-- What a move does to the calls of a job. -/
inductive Nesting (s : Serializer σ V) (m : Move σ V) (r : Running σ V) (s' : Serializer σ V) :
    Prop
  /-- they go on -/
  | same {r' : Running σ V} (hc : s'.current = some r') (seq : r'.seq = r.seq)
    (stage : r'.stage = r.stage) (tokens : r'.tokens = r.tokens)
  /-- one more is begun -/
  | calls {r' : Running σ V} {kind : JobKind} {script rest : Script σ V} {catches : Bool}
    (hs : r.frame.script = .call kind script catches :: rest) (hq : s.requestOf m = none)
    (hc : s'.current = some r') (seq : r'.seq = r.seq) (stage : r'.stage = r.stage)
    (tokens : r'.tokens = r.tokens ++ [s.newToken kind])
  /-- the innermost ones end: one returns, or panics with all those that do not catch it -/
  | returns {r' : Running σ V} (hc : s'.current = some r') (seq : r'.seq = r.seq)
    (stage : r'.stage = r.stage) (tokens : r'.tokens <+: r.tokens)
    (fewer : r'.tokens.length < r.tokens.length)
  /-- the work of the job ends, and its callback has no token -/
  | callsBack {r' : Running σ V} {succeeded : Bool} (hc : s'.current = some r')
    (stage : r'.stage = .callback succeeded) (tokens : r'.tokens = [none])
  /-- the job ends -/
  | ends (hc : s'.current = none)

/-- What a turn does to the calls of a job that goes on. -/
inductive Calls (s : Serializer σ V) (a : Action σ V) (r r' : Running σ V) : Prop
  | same (tokens : r'.tokens = r.tokens)
  | calls {kind : JobKind} {script : Script σ V} {catches : Bool} (ha : a = .call kind script catches)
    (tokens : r'.tokens = r.tokens ++ [s.newToken kind])
  | returns {p : Payload} (ha : a = .panic p) (tokens : r'.tokens <+: r.tokens)
    (fewer : r'.tokens.length < r.tokens.length)

theorem catcher_suffix {frame caller : Frame σ V} {outer rest : List (Frame σ V)}
    (h : catcher frame outer = some (caller, rest)) : caller :: rest <:+ outer := by
  induction outer generalizing frame with
  | nil => cases h
  | cons next outer ih =>
    rw [catcher] at h
    split at h
    · obtain ⟨rfl, rfl⟩ := Prod.mk.inj (Option.some.inj h)
      exact List.suffix_refl _
    · exact (ih h).trans (List.suffix_cons next outer)

theorem tokens_of_suffix {r : Running σ V} {frame : Frame σ V} {outer : List (Frame σ V)}
    (h : frame :: outer <:+ r.outer) :
    { r with frame, outer }.tokens <+: r.tokens ∧
      { r with frame, outer }.tokens.length < r.tokens.length := by
  have hlen := h.length_le
  rw [r.tokens_eq, Running.tokens_eq]
  constructor
  · rw [List.reverse_prefix]
    exact (h.trans (List.suffix_cons r.frame r.outer)).map _
  · simp only [List.length_reverse, List.length_map, List.length_cons] at hlen ⊢
    omega

theorem calls_act {s s' : Serializer σ V} {r r' : Running σ V} {a : Action σ V}
    (h : s.act r a = .goesOn s' r') : Calls s a r r' := by
  cases a with
  | perform work =>
    simp only [act] at h
    split at h <;> simp only [Turn.goesOn.injEq, reduceCtorEq] at h
    obtain ⟨-, rfl⟩ := h
    exact .same rfl
  | check | awaitInterrupt =>
    simp only [act] at h
    split at h <;> simp only [Turn.goesOn.injEq, reduceCtorEq] at h
    obtain ⟨-, rfl⟩ := h
    exact .same rfl
  | call kind script catches =>
    obtain ⟨-, rfl⟩ := Turn.goesOn.inj h
    exact .calls rfl (by simp [Running.tokens])
  | panic p =>
    obtain ⟨frame, outer, hc, -, rfl⟩ := exists_of_raise h
    obtain ⟨htokens, hlen⟩ := tokens_of_suffix (catcher_suffix hc)
    exact .returns rfl htokens hlen
  | fail e | gate => cases h
  | _ =>
    obtain ⟨-, rfl⟩ := Turn.goesOn.inj h
    exact .same rfl

theorem calls_nextTurn {s s' : Serializer σ V} {r r' : Running σ V}
    (h : s.nextTurn r = .goesOn s' r') :
    ∃ a rest, r.frame.script = a :: rest ∧ Calls s a r r' := by
  unfold nextTurn at h
  cases hr : r.frame.script with
  | nil => rw [hr] at h; cases h
  | cons a rest =>
    rw [hr] at h
    refine ⟨a, rest, rfl, ?_⟩
    cases calls_act h with
    | same tokens => exact .same tokens
    | calls ha tokens => exact .calls ha tokens
    | returns ha tokens fewer => exact .returns ha tokens fewer

theorem nesting_finishFrame {s : Serializer σ V} {m : Move σ V} (s' : Serializer σ V)
    (r : Running σ V) (result : JobResult V) : Nesting s m r (s'.finishFrame r result) := by
  unfold finishFrame
  cases ho : r.outer with
  | cons frame outer =>
    have hsuffix : frame :: outer <:+ r.outer := ho ▸ List.suffix_refl _
    obtain ⟨htokens, hlen⟩ := tokens_of_suffix hsuffix
    exact .returns rfl rfl rfl htokens hlen
  | nil =>
    unfold finish
    cases hg : r.stage with
    | callback succeeded => exact .ends rfl
    | work =>
      cases hd : r.delivery with
      | discard | reply => exact .ends rfl
      | callback c => exact .callsBack rfl rfl rfl

/-- **What a move does to the calls of a job.** -/
theorem nesting_of_step {s s' : Serializer σ V} {m : Move σ V} {r : Running σ V}
    (h : Step s m s') (hr : s.current = some r) : Nesting s m r s' := by
  cases h with
  | rests hm hq => exact .same hr rfl rfl rfl
  | serves hm hq =>
    exact .same ((congrArg Back.current (back_serve s _)).trans hr) rfl rfl rfl
  | releases hr' hs =>
    obtain rfl := Option.some.inj (hr.symm.trans hr')
    exact .same rfl rfl rfl rfl
  | begins ha hc hq | halts ha hc hq => rw [hr] at hc; cases hc
  | goesOn ha hr' ht =>
    obtain rfl := Option.some.inj (hr.symm.trans hr')
    have hc := continues_nextTurn ht
    obtain ⟨a, rest, hs, hcalls⟩ := calls_nextTurn ht
    cases hcalls with
    | same tokens => exact .same rfl hc.seq hc.stage tokens
    | returns _ tokens fewer => exact .returns rfl hc.seq hc.stage tokens fewer
    | calls hcall tokens =>
      refine .calls (hcall ▸ hs) ?_ rfl hc.seq hc.stage tokens
      rw [requestOf_owner ha hr, requestIn, hs, hcall]
      rfl
  | ends ha hr' ht =>
    obtain rfl := Option.some.inj (hr.symm.trans hr')
    exact nesting_finishFrame _ _ _
  | panics ha hr' ht =>
    obtain rfl := Option.some.inj (hr.symm.trans hr')
    exact .ends (current_unwind s _ _)

end Serializer

namespace Run

open Serializer

variable (R : Run σ V)

/-- The job of this number is being run, with more than `d` calls counting the job itself. -/
def Nested (t n d : ℕ) : Prop :=
  ∃ r, (R.after t).current = some r ∧ r.seq = n ∧ d < r.tokens.length

/-- A move begins a job of this kind, or a call inside of one, `d` levels below the job. -/
inductive Opens (t : ℕ) : ℕ → JobKind → Prop
  /-- the job itself -/
  | job {j : Job σ V} (h : R.Starts t j) : Opens t 0 j.kind
  /-- a call that is the next action of the innermost script -/
  | call {r r' : Running σ V} {kind : JobKind} {script rest : Script σ V} {catches : Bool}
    (hr : (R.after t).current = some r) (hs : r.frame.script = .call kind script catches :: rest)
    (hr' : (R.after (t + 1)).current = some r')
    (hd : r'.tokens.length = r.tokens.length + 1) : Opens t r.tokens.length kind

theorem nesting {t : ℕ} {r : Running σ V} (hr : (R.after t).current = some r) :
    Nesting (R.after t) (R.moves t) r (R.after (t + 1)) :=
  nesting_of_step (R.step t) hr

theorem request_of_leaves {t : ℕ} {j : Job σ V} (h : R.Leaves t j) : R.request t = none := by
  have hq : (R.after t).queue = .job j :: (R.after (t + 1)).queue := h
  rcases front_of_step (R.step t) with hf | ⟨hn, -⟩
  · cases hr : R.request t with
    | none => rfl
    | some q =>
      have hqueue := congrArg Front.queue hf
      rw [show (R.after t).requestOf (R.moves t) = some q from hr] at hqueue
      rw [show (R.after (t + 1)).queue = _ from hqueue] at hq
      exact absurd hq (queue_ne_of_serve _ q _)
  · exact hn

theorem request_of_opens {t d : ℕ} {kind : JobKind} (h : R.Opens t d kind) :
    R.request t = none := by
  cases h with
  | job h => exact R.request_of_leaves h.1
  | @call r r' kind script rest catches hr hs hr' hd =>
    cases R.nesting hr with
    | calls hs hq => exact hq
    | same hc seq stage tokens =>
      obtain rfl := Option.some.inj (hr'.symm.trans hc)
      rw [tokens] at hd
      omega
    | returns hc seq stage tokens fewer =>
      obtain rfl := Option.some.inj (hr'.symm.trans hc)
      omega
    | callsBack hc stage tokens =>
      obtain rfl := Option.some.inj (hr'.symm.trans hc)
      rw [tokens, List.length_singleton] at hd
      have := List.length_pos_iff.mpr r.tokens_ne_nil
      omega
    | ends hc => rw [hr'] at hc; cases hc

theorem exists_opens_succ {t n d : ℕ} {token : Token}
    (h : ∃ s < t, ∃ kind, R.Opens s d kind ∧ token = (R.after s).newToken kind ∧
      ∀ v, s < v → v ≤ t → R.Nested v n d) (hn : R.Nested (t + 1) n d) :
    ∃ s < t + 1, ∃ kind, R.Opens s d kind ∧ token = (R.after s).newToken kind ∧
      ∀ v, s < v → v ≤ t + 1 → R.Nested v n d := by
  obtain ⟨s, hs, kind, ho, htok, hsince⟩ := h
  refine ⟨s, by omega, kind, ho, htok, fun v hv hvt => ?_⟩
  by_cases hlast : v = t + 1
  · rw [hlast]
    exact hn
  · exact hsince v hv (by omega)

/-- **Every token was made when its job or call was begun**, which has been run ever since. Only
the callback itself has none. -/
theorem exists_opens {t d : ℕ} {r : Running σ V} {token : Token}
    (hr : (R.after t).current = some r) (ht : r.tokens[d]? = some token) :
    (d = 0 ∧ r.stage ≠ .work ∧ token = none) ∨
      (d = 0 → r.stage = .work) ∧ ∃ s < t, ∃ kind, R.Opens s d kind ∧
        token = (R.after s).newToken kind ∧ ∀ v, s < v → v ≤ t → R.Nested v r.seq d := by
  induction t generalizing r with
  | zero => cases hr
  | succ t ih =>
    have hnow : R.Nested (t + 1) r.seq d := ⟨r, hr, rfl, (List.getElem?_eq_some_iff.mp ht).1⟩
    have hlast : ∀ v, t < v → v ≤ t + 1 → R.Nested v r.seq d := fun v hv hvt =>
      (show v = t + 1 by omega) ▸ hnow
    -- what was there before this move goes on
    have hkeep : ∀ r₀, (R.after t).current = some r₀ → r.seq = r₀.seq → r.stage = r₀.stage →
        r₀.tokens[d]? = some token → (d = 0 ∧ r.stage ≠ .work ∧ token = none) ∨
          (d = 0 → r.stage = .work) ∧ ∃ s < t + 1, ∃ kind, R.Opens s d kind ∧
            token = (R.after s).newToken kind ∧
              ∀ v, s < v → v ≤ t + 1 → R.Nested v r.seq d := by
      intro r₀ hr₀ seq stage ht₀
      rw [stage]
      rcases ih hr₀ ht₀ with h | ⟨hd, h⟩
      · exact .inl h
      · exact .inr ⟨hd, R.exists_opens_succ (seq ▸ h) hnow⟩
    cases hc : (R.after t).current with
    | none =>
      cases R.uptake hc with
      | none hq hb | drops hq hd hb =>
        have := hr.symm.trans ((congrArg Back.current hb).trans hc)
        cases this
      | @starts j hq hd hb =>
        have hcur : (R.after (t + 1)).current = some ((R.after t).starting j) :=
          congrArg Back.current hb
        obtain rfl := Option.some.inj (hr.symm.trans hcur)
        have htok : [(R.after t).newToken j.kind][d]? = some token := ht
        obtain ⟨hd, rfl⟩ := List.getElem?_eq_some_iff.mp htok
        obtain rfl : d = 0 := by simpa using hd
        exact .inr ⟨fun _ => rfl, t, by omega, j.kind, .job ⟨hq, hcur⟩, rfl, hlast⟩
    | some r₀ =>
      cases R.nesting hc with
      | same hc' seq stage tokens =>
        obtain rfl := Option.some.inj (hr.symm.trans hc')
        exact hkeep r₀ hc seq stage (tokens ▸ ht)
      | @calls r' kind script rest catches hs hq hc' seq stage tokens =>
        obtain rfl := Option.some.inj (hr.symm.trans hc')
        by_cases hd : d < r₀.tokens.length
        · rw [tokens, List.getElem?_append_left hd] at ht
          exact hkeep r₀ hc seq stage ht
        · have hlen := (List.getElem?_eq_some_iff.mp ht).1
          have hpos := List.length_pos_iff.mpr r₀.tokens_ne_nil
          have hsucc : r.tokens.length = r₀.tokens.length + 1 := by
            rw [tokens, List.length_append, List.length_singleton]
          obtain rfl : d = r₀.tokens.length := by omega
          rw [tokens, List.getElem?_concat_length] at ht
          exact .inr ⟨fun h0 => by omega, t, by omega, kind, .call hc hs hr hsucc,
            (Option.some.inj ht).symm, hlast⟩
      | returns hc' seq stage tokens =>
        obtain rfl := Option.some.inj (hr.symm.trans hc')
        obtain ⟨hd, hget⟩ := List.getElem?_eq_some_iff.mp ht
        refine hkeep r₀ hc seq stage ?_
        rw [List.prefix_iff_getElem?.mp tokens d hd, hget]
      | callsBack hc' stage tokens =>
        obtain rfl := Option.some.inj (hr.symm.trans hc')
        rw [tokens] at ht
        obtain ⟨hd, rfl⟩ := List.getElem?_eq_some_iff.mp ht
        obtain rfl : d = 0 := by simpa using hd
        exact .inl ⟨rfl, by rw [stage]; exact nofun, rfl⟩
      | ends hc' => rw [hr] at hc'; cases hc'

theorem not_nested_of_opens {t d n : ℕ} {kind : JobKind} (h : R.Opens t d kind) :
    ¬ R.Nested t n d := by
  rintro ⟨r, hr, -, hd⟩
  cases h with
  | job h =>
    rw [(R.of_leaves h.1).2] at hr
    cases hr
  | call hr₀ hs hr' hlen =>
    obtain rfl := Option.some.inj (hr.symm.trans hr₀)
    exact hd.false

theorem opens_kind {t d : ℕ} {kind kind' : JobKind} (h : R.Opens t d kind)
    (h' : R.Opens t d kind') : kind = kind' := by
  cases h with
  | @job j h =>
    generalize hd : 0 = d at h'
    cases h' with
    | job h' => rw [(R.leaves_unique h.1 h'.1
        (by rw [R.seq_of_leaves h.1, R.seq_of_leaves h'.1])).2]
    | call hr => rw [(R.of_leaves h.1).2] at hr; cases hr
  | @call r r' kind script rest catches hr hs =>
    generalize hd : r.tokens.length = d at h'
    cases h' with
    | job h' => rw [(R.of_leaves h'.1).2] at hr; cases hr
    | call hr' hs' =>
      obtain rfl := Option.some.inj (hr.symm.trans hr')
      have := hs.symm.trans hs'
      simp only [List.cons.injEq, Action.call.injEq] at this
      exact this.1.1

theorem opens_unique {s s' t n d : ℕ} {kind kind' : JobKind} (h : R.Opens s d kind)
    (h' : R.Opens s' d kind') (hst : s < t) (hst' : s' < t)
    (hn : ∀ v, s < v → v ≤ t → R.Nested v n d) (hn' : ∀ v, s' < v → v ≤ t → R.Nested v n d) :
    s = s' ∧ kind = kind' := by
  rcases lt_trichotomy s s' with hlt | rfl | hlt
  · exact absurd (hn s' hlt hst'.le) (R.not_nested_of_opens h')
  · exact ⟨rfl, R.opens_kind h h'⟩
  · exact absurd (hn' s hlt hst.le) (R.not_nested_of_opens h)

end Run

end SymbolIndex
