import SymbolIndex.Proofs.Serializer.Tokens
import SymbolIndex.Proofs.Threads.Order

/-!
# What the owner is busy with

* `DeskStep`, `deskStep`: what becomes of what the owner is busy with, `Nests`: and of the calls of
  a job that is being run;
* `ThreadsRun.desk_entered` and the lemmas behind it: how a job came to where it is;
* `ThreadsRun.judged_once`: the owner looks at a job once;
* `ThreadsRun.Opens`, `exists_opens`, `opens_unique`: every token was made when its job or call was
  begun.
-/

namespace SymbolIndex

open Serializer

variable {σ V : Type}

namespace Threads

variable {s s' : Threads σ V}

/-- What becomes of the calls of a job that is being run. -/
inductive Nests (s : Threads σ V) (r r' : Running σ V) : Prop
  /-- they go on -/
  | same (seq : r'.seq = r.seq) (stage : r'.stage = r.stage) (tokens : r'.tokens = r.tokens)
  /-- one more is begun -/
  | calls {kind : JobKind} {script rest : Script σ V} {catches : Bool}
    (hs : r.frame.script = .call kind script catches :: rest) (seq : r'.seq = r.seq)
    (stage : r'.stage = r.stage) (tokens : r'.tokens = r.tokens ++ [s.common.core.newToken kind])
  /-- the innermost ones end -/
  | returns (seq : r'.seq = r.seq) (stage : r'.stage = r.stage) (tokens : r'.tokens <+: r.tokens)
    (fewer : r'.tokens.length < r.tokens.length)
  /-- the work of the job has ended, and its callback has no token -/
  | callsBack {succeeded : Bool} (seq : r'.seq = r.seq) (stage : r'.stage = .callback succeeded)
    (tokens : r'.tokens = [none])

theorem Nests.seq_eq {r r' : Running σ V} (h : Nests s r r') : r'.seq = r.seq := by
  cases h <;> assumption

/-- What becomes of what the owner is busy with. -/
inductive DeskStep (s : Threads σ V) : Desk σ V → Desk σ V → Prop
  | same {d : Desk σ V} : DeskStep s d d
  | takes {j : Job σ V} : DeskStep s .free (.judges j)
  | halts : DeskStep s .free .halts
  | drops {j : Job σ V} (h : s.common.core.Dismisses j) : DeskStep s (.judges j) (.discards j)
  | keeps {j : Job σ V} (h : ¬ s.common.core.Dismisses j) : DeskStep s (.judges j) (.starts j)
  | discards {j : Job σ V} : DeskStep s (.discards j) (.forgets j)
  | forgets {j : Job σ V} : DeskStep s (.forgets j) .free
  | starts {j : Job σ V} : DeskStep s (.starts j) (.runs (s.common.core.starting j))
  | goesOn {r r' : Running σ V} (h : Nests s r r') : DeskStep s (.runs r) (.runs r')
  | ends {r : Running σ V} {succeeded : Bool} : DeskStep s (.runs r) (.settles r.seq succeeded)
  | settles {n : ℕ} {succeeded : Bool} : DeskStep s (.settles n succeeded) .free
  | closes : DeskStep s .halts .leaves
  | leaves : DeskStep s .leaves .free

theorem deskStep_finish {r : Running σ V} (core : Serializer σ V) (result : JobResult V) :
    DeskStep s (.runs r) (s.finish core r result).desk := by
  unfold finish
  cases ho : r.outer with
  | cons frame outer =>
    have hsuffix : frame :: outer <:+ r.outer := ho ▸ List.suffix_refl _
    obtain ⟨htokens, hlen⟩ := tokens_of_suffix hsuffix
    exact .goesOn (.returns rfl rfl htokens hlen)
  | nil =>
    cases hg : r.stage with
    | callback succeeded => exact .ends
    | work =>
      cases hd : r.delivery with
      | discard | reply => exact .ends
      | callback c => exact .goesOn (.callsBack rfl rfl rfl)

theorem deskStep_unwind {r : Running σ V} (p : Payload) :
    DeskStep s (.runs r) (s.unwind r p).desk := by
  unfold unwind
  split <;> exact .ends

theorem nests_nextTurn {r r' : Running σ V} {core : Serializer σ V}
    (h : s.common.core.nextTurn r = .goesOn core r') : Nests s r r' := by
  have hc := continues_nextTurn h
  obtain ⟨a, rest, hs, hcalls⟩ := calls_nextTurn h
  cases hcalls with
  | same tokens => exact .same hc.seq hc.stage tokens
  | calls ha tokens => exact .calls (ha ▸ hs) hc.seq hc.stage tokens
  | returns _ tokens fewer => exact .returns hc.seq hc.stage tokens fewer

theorem deskStep_of_ownerStep (hs : OwnerStep s s') : DeskStep s s.desk s'.desk := by
  cases hs with
  | rests | begins | works => exact .same
  | takes hd | halts hd | discards hd | forgets hd | starts hd | settles hd | closes hd
  | leaves hd =>
    rw [hd]
    constructor
  | drops hd h => rw [hd]; exact .drops h
  | keeps hd h => rw [hd]; exact .keeps h
  | answered hd | skips hd => rw [hd]; exact .goesOn (.same rfl rfl rfl)
  | goesOn hd _ ht => rw [hd]; exact .goesOn (nests_nextTurn ht)
  | ends hd => rw [hd]; exact deskStep_finish _ _
  | panics hd => rw [hd]; exact deskStep_unwind _

/-- **What becomes of what the owner is busy with.** -/
theorem deskStep {e : Event σ V} (hs : Step s e s') : DeskStep s s.desk s'.desk := by
  cases hs with
  | rests | works | asks | givesUp => exact .same
  | releases hd => rw [hd]; exact .goesOn (.same rfl rfl rfl)
  | owner _ hs => exact deskStep_of_ownerStep hs

end Threads

namespace ThreadsRun

open Threads

variable {R : ThreadsRun σ V}

theorem deskStep (t : ℕ) : DeskStep (R.after t) (R.after t).desk (R.after (t + 1)).desk :=
  Threads.deskStep (R.step t)

/-! ## How a job came to where it is -/

/-- The owner makes the token of a job, which begins. -/
def Begins (R : ThreadsRun σ V) (t : ℕ) (j : Job σ V) : Prop :=
  (R.after t).desk = .starts j ∧ ∃ r, (R.after (t + 1)).desk = .runs r

/-- What the owner is busy with has once begun, and has gone on ever since. -/
theorem desk_entered {P : Desk σ V → Prop} (hfree : ¬ P .free) {t : ℕ} (h : P (R.after t).desk) :
    ∃ u < t, ¬ P (R.after u).desk ∧ ∀ v, u < v → v ≤ t → P (R.after v).desk := by
  induction t with
  | zero => exact absurd h hfree
  | succ t ih =>
    by_cases hP : P (R.after t).desk
    · obtain ⟨u, hut, hu, hsince⟩ := ih hP
      refine ⟨u, by omega, hu, fun v huv hvt => ?_⟩
      rcases Nat.lt_or_eq_of_le hvt with hvt | rfl
      · exact hsince v huv (by omega)
      · exact h
    · exact ⟨t, by omega, hP, fun v htv hvt => by rwa [show v = t + 1 by omega]⟩

theorem takes_of_judges {t : ℕ} {j : Job σ V} (h : (R.after t).desk = .judges j) :
    ∃ u < t, R.Takes u j ∧ ∀ v, u < v → v ≤ t → (R.after v).desk = .judges j := by
  obtain ⟨u, hut, hu, hsince⟩ := desk_entered (P := (· = .judges j)) nofun h
  have hstep := R.deskStep u
  rw [hsince (u + 1) (by omega) hut] at hstep
  generalize hd : (R.after u).desk = d at hu hstep
  cases hstep with
  | takes => exact ⟨u, hut, ⟨hd, hsince (u + 1) (by omega) hut⟩, hsince⟩
  | same => exact absurd rfl hu

theorem judges_of_starts {t : ℕ} {j : Job σ V} (h : (R.after t).desk = .starts j) :
    ∃ u < t, (R.after u).desk = .judges j ∧ (R.after (u + 1)).desk = .starts j := by
  obtain ⟨u, hut, hu, hsince⟩ := desk_entered (P := (· = .starts j)) nofun h
  have hstarts := hsince (u + 1) (by omega) hut
  have hstep := R.deskStep u
  rw [hstarts] at hstep
  generalize hd : (R.after u).desk = d at hu hstep
  cases hstep with
  | keeps => exact ⟨u, hut, hd, hstarts⟩
  | same => exact absurd rfl hu

theorem begins_of_runs {t : ℕ} {r : Running σ V} (h : (R.after t).desk = .runs r) :
    ∃ u < t, ∃ j, R.Begins u j ∧ j.seq = r.seq := by
  obtain ⟨u, hut, hu, hsince⟩ :=
    desk_entered (P := fun d => ∃ q, d = .runs q ∧ q.seq = r.seq) nofun ⟨r, h, rfl⟩
  obtain ⟨q, hruns, hq⟩ := hsince (u + 1) (by omega) hut
  have hstep := R.deskStep u
  rw [hruns] at hstep
  generalize hd : (R.after u).desk = d at hu hstep
  cases hstep with
  | starts => exact ⟨u, hut, _, ⟨hd, _, hruns⟩, hq⟩
  | same => exact absurd ⟨q, rfl, hq⟩ hu
  | goesOn hn => exact absurd ⟨_, rfl, hn.seq_eq.symm.trans hq⟩ hu

theorem runs_of_settles {t n : ℕ} {succeeded : Bool}
    (h : (R.after t).desk = .settles n succeeded) :
    ∃ u < t, ∃ r, (R.after u).desk = .runs r ∧ r.seq = n := by
  obtain ⟨u, hut, hu, hsince⟩ := desk_entered (P := (· = .settles n succeeded)) nofun h
  have hstep := R.deskStep u
  rw [hsince (u + 1) (by omega) hut] at hstep
  generalize hd : (R.after u).desk = d at hu hstep
  cases hstep with
  | ends => exact ⟨u, hut, _, hd, rfl⟩
  | same => exact absurd rfl hu

theorem judges_of_discards {t : ℕ} {j : Job σ V} (h : (R.after t).desk = .discards j) :
    ∃ u < t, (R.after u).desk = .judges j ∧ (R.after (u + 1)).desk = .discards j := by
  obtain ⟨u, hut, hu, hsince⟩ := desk_entered (P := (· = .discards j)) nofun h
  have hdiscards := hsince (u + 1) (by omega) hut
  have hstep := R.deskStep u
  rw [hdiscards] at hstep
  generalize hd : (R.after u).desk = d at hu hstep
  cases hstep with
  | drops => exact ⟨u, hut, hd, hdiscards⟩
  | same => exact absurd rfl hu

theorem discards_of_forgets {t : ℕ} {j : Job σ V} (h : (R.after t).desk = .forgets j) :
    ∃ u < t, (R.after u).desk = .discards j := by
  obtain ⟨u, hut, hu, hsince⟩ := desk_entered (P := (· = .forgets j)) nofun h
  have hstep := R.deskStep u
  rw [hsince (u + 1) (by omega) hut] at hstep
  generalize hd : (R.after u).desk = d at hu hstep
  cases hstep with
  | discards => exact ⟨u, hut, hd⟩
  | same => exact absurd rfl hu

theorem judged_once {t u : ℕ} {j k : Job σ V} {d d' : Desk σ V}
    (h : (R.after t).desk = .judges j) (h' : (R.after u).desk = .judges k)
    (hd : (R.after (t + 1)).desk = d) (hd' : (R.after (u + 1)).desk = d')
    (hne : ∀ i, d ≠ .judges i) (hne' : ∀ i, d' ≠ .judges i) (hn : j.seq = k.seq) :
    t = u ∧ j = k := by
  obtain ⟨a, hat, ha, hsince⟩ := takes_of_judges h
  obtain ⟨b, hbu, hb, hsince'⟩ := takes_of_judges h'
  obtain ⟨rfl, rfl⟩ := takes_unique ha hb hn
  refine ⟨?_, rfl⟩
  rcases lt_trichotomy t u with htu | htu | htu
  · exact absurd (hd.symm.trans (hsince' (t + 1) (by omega) htu)) (hne j)
  · exact htu
  · exact absurd (hd'.symm.trans (hsince (u + 1) (by omega) htu)) (hne' j)

/-! ## Tokens -/

/-- The job of this number is being run, with more than `d` calls counting the job itself. -/
def Nested (R : ThreadsRun σ V) (t n d : ℕ) : Prop :=
  ∃ r, (R.after t).desk = .runs r ∧ r.seq = n ∧ d < r.tokens.length

/-- The token of a job of this kind is made, or of a call inside of one, `d` levels below it. -/
inductive Opens (R : ThreadsRun σ V) (t : ℕ) : ℕ → JobKind → Prop
  /-- the job itself -/
  | job {j : Job σ V} (h : R.Begins t j) : Opens R t 0 j.kind
  /-- a call that is the next action of the innermost script -/
  | call {r r' : Running σ V} {kind : JobKind} {script rest : Script σ V} {catches : Bool}
    (hr : (R.after t).desk = .runs r) (hs : r.frame.script = .call kind script catches :: rest)
    (hr' : (R.after (t + 1)).desk = .runs r') (hd : r'.tokens.length = r.tokens.length + 1) :
    Opens R t r.tokens.length kind

theorem Opens.desk_ne {t d : ℕ} {kind : JobKind} (h : R.Opens t d kind) :
    (R.after (t + 1)).desk ≠ (R.after t).desk := by
  cases h with
  | job h =>
    obtain ⟨r, hr⟩ := h.2
    rw [hr, h.1]
    exact nofun
  | @call r r' _ _ _ _ hr hs hr' hd =>
    rw [hr, hr', ne_eq, Desk.runs.injEq]
    rintro rfl
    omega

theorem exists_opens_of_lt {t n d : ℕ} {token : Token}
    (h : ∃ s < t, ∃ kind, R.Opens s d kind ∧ token = (R.after s).common.core.newToken kind ∧
      ∀ v, s < v → v ≤ t → R.Nested v n d) (hn : R.Nested (t + 1) n d) :
    ∃ s < t + 1, ∃ kind, R.Opens s d kind ∧ token = (R.after s).common.core.newToken kind ∧
      ∀ v, s < v → v ≤ t + 1 → R.Nested v n d := by
  obtain ⟨s, hs, kind, ho, htok, hsince⟩ := h
  refine ⟨s, by omega, kind, ho, htok, fun v hv hvt => ?_⟩
  rcases Nat.lt_or_eq_of_le hvt with hvt | rfl
  · exact hsince v hv (by omega)
  · exact hn

/-- **Every token was made when its job or call was begun**, which has been run ever since. Only
the callback itself has none. -/
theorem exists_opens {t d : ℕ} {r : Running σ V} {token : Token}
    (hr : (R.after t).desk = .runs r) (ht : r.tokens[d]? = some token) :
    (d = 0 ∧ r.stage ≠ .work ∧ token = none) ∨
      (d = 0 → r.stage = .work) ∧ ∃ s < t, ∃ kind, R.Opens s d kind ∧
        token = (R.after s).common.core.newToken kind ∧
          ∀ v, s < v → v ≤ t → R.Nested v r.seq d := by
  induction t generalizing r with
  | zero => cases hr
  | succ t ih =>
    have hnow : R.Nested (t + 1) r.seq d := ⟨r, hr, rfl, (List.getElem?_eq_some_iff.mp ht).1⟩
    have hlast : ∀ v, t < v → v ≤ t + 1 → R.Nested v r.seq d := fun v hv hvt =>
      (show v = t + 1 by omega) ▸ hnow
    -- what was there before this moment goes on
    have hkeep : ∀ r₀, (R.after t).desk = .runs r₀ → r.seq = r₀.seq → r.stage = r₀.stage →
        r₀.tokens[d]? = some token → (d = 0 ∧ r.stage ≠ .work ∧ token = none) ∨
          (d = 0 → r.stage = .work) ∧ ∃ s < t + 1, ∃ kind, R.Opens s d kind ∧
            token = (R.after s).common.core.newToken kind ∧
              ∀ v, s < v → v ≤ t + 1 → R.Nested v r.seq d := by
      intro r₀ hr₀ seq stage ht₀
      rw [stage]
      rcases ih hr₀ ht₀ with h | ⟨hd, h⟩
      · exact .inl h
      · exact .inr ⟨hd, exists_opens_of_lt (seq ▸ h) hnow⟩
    have hstep := R.deskStep t
    have hr' := hr
    rw [hr] at hstep
    generalize hd : (R.after t).desk = desk at hstep
    cases hstep with
    | same => exact hkeep r hd rfl rfl ht
    | @starts j =>
      have htok : [(R.after t).common.core.newToken j.kind][d]? = some token := ht
      obtain ⟨hlt, rfl⟩ := List.getElem?_eq_some_iff.mp htok
      obtain rfl : d = 0 := by simpa using hlt
      exact .inr ⟨fun _ => rfl, t, by omega, j.kind, .job ⟨hd, _, hr'⟩, rfl, hlast⟩
    | @goesOn r₀ _ hn =>
      cases hn with
      | same seq stage tokens => exact hkeep r₀ hd seq stage (tokens ▸ ht)
      | calls hs seq stage tokens =>
        by_cases hlt : d < r₀.tokens.length
        · rw [tokens, List.getElem?_append_left hlt] at ht
          exact hkeep r₀ hd seq stage ht
        · have hlen := (List.getElem?_eq_some_iff.mp ht).1
          have hpos := List.length_pos_iff.mpr r₀.tokens_ne_nil
          have hsucc : r.tokens.length = r₀.tokens.length + 1 := by
            rw [tokens, List.length_append, List.length_singleton]
          obtain rfl : d = r₀.tokens.length := by omega
          rw [tokens, List.getElem?_concat_length] at ht
          exact .inr ⟨fun h0 => by omega, t, by omega, _, .call hd hs hr' hsucc,
            (Option.some.inj ht).symm, hlast⟩
      | returns seq stage tokens =>
        obtain ⟨hlt, hget⟩ := List.getElem?_eq_some_iff.mp ht
        refine hkeep r₀ hd seq stage ?_
        rw [List.prefix_iff_getElem?.mp tokens d hlt, hget]
      | callsBack seq stage tokens =>
        rw [tokens] at ht
        obtain ⟨hlt, rfl⟩ := List.getElem?_eq_some_iff.mp ht
        obtain rfl : d = 0 := by simpa using hlt
        exact .inl ⟨rfl, by rw [stage]; exact nofun, rfl⟩

theorem not_nested_of_opens {t d n : ℕ} {kind : JobKind} (h : R.Opens t d kind) :
    ¬ R.Nested t n d := by
  rintro ⟨r, hr, -, hd⟩
  cases h with
  | job h => cases h.1.symm.trans hr
  | call hr₀ =>
    obtain rfl := Desk.runs.inj (hr.symm.trans hr₀)
    exact hd.false

theorem opens_kind {t d : ℕ} {kind kind' : JobKind} (h : R.Opens t d kind)
    (h' : R.Opens t d kind') : kind = kind' := by
  cases h with
  | @job j h =>
    generalize hd : 0 = d at h'
    cases h' with
    | job h' => rw [Desk.starts.inj (h.1.symm.trans h'.1)]
    | call hr => cases h.1.symm.trans hr
  | @call r r' kind script rest catches hr hs =>
    generalize hd : r.tokens.length = d at h'
    cases h' with
    | job h' => cases h'.1.symm.trans hr
    | call hr' hs' =>
      obtain rfl := Desk.runs.inj (hr.symm.trans hr')
      have := hs.symm.trans hs'
      simp only [List.cons.injEq, Action.call.injEq] at this
      exact this.1.1

theorem opens_unique {s s' t n d : ℕ} {kind kind' : JobKind} (h : R.Opens s d kind)
    (h' : R.Opens s' d kind') (hst : s < t) (hst' : s' < t)
    (hn : ∀ v, s < v → v ≤ t → R.Nested v n d) (hn' : ∀ v, s' < v → v ≤ t → R.Nested v n d) :
    s = s' ∧ kind = kind' := by
  rcases lt_trichotomy s s' with hlt | rfl | hlt
  · exact absurd (hn s' hlt hst'.le) (not_nested_of_opens h')
  · exact ⟨rfl, opens_kind h h'⟩
  · exact absurd (hn' s hlt hst.le) (not_nested_of_opens h)

end ThreadsRun

end SymbolIndex
