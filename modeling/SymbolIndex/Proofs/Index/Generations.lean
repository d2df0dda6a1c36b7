import SymbolIndex.Proofs.Index.Runs
import SymbolIndex.Proofs.Search.Answer

/-!
# Queries see whole generations

A query finds what its plan asks for among the entries of the last successful replacement in front
of it, whatever else is going on, or nothing at all.

* `Queried`, `Run.queried_of_returns`: what a query over some entries comes to;
* `Run.stored_of_starts`, `Run.held_of_busy`: which entries those are, for jobs and for calls inside
  of jobs;
* `Run.Answered`, `Run.answered_of_replyTo`: what callers find;
* `Run.replaces_of_returns`: replacements;
* `Run.SeesGenerations`, `Run.seesGenerations`: the answers of queries, wherever they are made.
-/

namespace SymbolIndex

open Serializer

/-- What a query over some entries has come to: either all its results or, if its token has been
read as interrupted, an error. -/
inductive Queried (plan : Plan) (limit : Option ℕ) (entries : List Entry) (interrupted : Prop) :
    JobResult StoreAnswer → Prop
  | interrupted (h : interrupted) : Queried plan limit entries interrupted (.error .interrupted)
  | found {es : List Entry} (h : plan.execute (entries.map .ok) limit .never = .ok es) :
    Queried plan limit entries interrupted (.ok (some (.entries es)))

theorem queried_of_work {plan : Plan} {limit : Option ℕ} {probe : Bool → Probe} {b : Bool}
    {s : Store} {interrupted : Prop} (h : ∀ k, probe b k = true → interrupted) :
    Queried plan limit s.database.entries interrupted
      ((queryWork plan limit probe b s).1.map some) := by
  have hnever : plan.execute (s.database.entries.map .ok) limit .never = _ :=
    plan.execute_quiet _ limit fun _ => rfl
  rcases plan.execute_cases s.database.entries limit (probe b) with hw | hw
  · have hread : ∃ k, probe b k = true := by
      by_contra hno
      push Not at hno
      rw [plan.execute_quiet s.database.entries limit fun k => by simpa using hno k] at hw
      cases hw
    obtain ⟨k, hk⟩ := hread
    simp only [queryWork, Store.query, hw]
    exact .interrupted (h k hk)
  · simp only [queryWork, Store.query, hw]
    exact .found hnever

theorem foundEntries_of_queried {plan : Plan} {limit : Option ℕ} {entries : List Entry}
    {interrupted : Prop} {result : JobResult StoreAnswer}
    (h : Queried plan limit entries interrupted result) :
    (interrupted ∧ foundEntries result = .ok []) ∨
      foundEntries result = plan.execute (entries.map .ok) limit .never := by
  cases h with
  | interrupted h => exact .inl ⟨h, rfl⟩
  | found h => exact .inr h.symm

namespace Run

variable {R : Run Store StoreAnswer}

/-! ## Which entries a job finds -/

theorem stored_of_starts (hR : IndexRun R) {s : ℕ} {j : Job Store StoreAnswer}
    (h : R.Starts s j) : R.Stored j.seq (R.entries s) := by
  refine stored_of_cut hR (fun u m batches hr hu => ?_) fun u m batches hr hu => ?_
  · obtain ⟨s', hs', k, -, hk, rfl, -⟩ := R.starts_of_busy (R.busy_of_performsAt hr.1)
    exact R.seq_lt_of_leaves hk.1 h.1 (by omega)
  · have hbusy := R.busy_of_performsAt hr.1
    by_cases hsu : u = s
    · obtain ⟨r, hc, -⟩ := hbusy
      rw [hsu, (R.of_leaves h.1).2] at hc
      cases hc
    · exact R.busy_le (R.busy_of_starts h) hbusy (by omega)

theorem stored_of_busy (hR : IndexRun R) {t n : ℕ} (h : R.Busy t n)
    (hown : ∀ u batches, u < t → ¬ R.Replaces u n batches) : R.Stored n (R.entries t) := by
  refine stored_of_cut hR (fun u m batches hr hu => ?_) fun u m batches hr hu => ?_
  · refine Nat.lt_of_le_of_ne (R.busy_le (R.busy_of_performsAt hr.1) h hu.le) fun hmn => ?_
    exact hown u batches hu (hmn ▸ hr)
  · exact R.busy_le h (R.busy_of_performsAt hr.1) hu

/-! ## Queries -/

variable (R) in
/-- The token of a query that a move has begun has been read as interrupted before another one:
there was an interrupt in between, or one while the rows were being read. -/
def ReadsInterrupted (s t : ℕ) (probe : Bool → Probe) : Prop :=
  ∃ b k, probe b k = true ∧ (b = true → ∃ u, s < u ∧ u < t ∧ R.Interrupts u)

theorem readsInterrupted_constant (s t : ℕ) :
    R.ReadsInterrupted s t .constant ↔ ∃ u, s < u ∧ u < t ∧ R.Interrupts u := by
  constructor
  · rintro ⟨b, k, hk, hb⟩
    exact hb hk
  · exact fun h => ⟨true, 0, rfl, fun _ => h⟩

theorem queried_of_returns {s t d : ℕ} {kind : JobKind} {r : Running Store StoreAnswer}
    {plan : Plan} {limit : Option ℕ} {probe : Bool → Probe} {result : JobResult StoreAnswer}
    (ho : R.Opens s d kind) (htok : r.frame.token = (R.after s).newToken kind)
    (hs : (R.after (s + 1)).state = (R.after s).state)
    (hret : R.Returns (s + 1) r (queryWork plan limit probe) t result) :
    Queried plan limit (R.entries s) (R.ReadsInterrupted s t probe) result := by
  obtain ⟨u, hsu, hut, -, -, hresult, -⟩ := hret.performed
  rw [hresult, hs]
  refine queried_of_work fun k hk => ⟨_, k, hk, fun hb => ?_⟩
  rw [htok] at hb
  obtain ⟨-, v, hsv, hvu, hv⟩ := R.exists_interrupts ho (by omega) hb
  exact ⟨v, hsv, by omega, hv⟩

theorem state_of_starts {s : ℕ} {j : Job Store StoreAnswer} (h : R.Starts s j) :
    (R.after (s + 1)).state = (R.after s).state := by
  rcases R.state_succ s with hs | ⟨n, work, hp⟩
  · exact hs
  · obtain ⟨r, hr, -⟩ := R.busy_of_performsAt hp
    rw [(R.of_leaves h.1).2] at hr
    cases hr

theorem queried_of_workEnds (hR : IndexRun R) {s t : ℕ} {j : Job Store StoreAnswer} {plan : Plan}
    {limit : Option ℕ} {probe : Bool → Probe} {o : Outcome StoreAnswer} (h : R.Starts s j)
    (hs : j.script = [.perform (queryWork plan limit probe)]) (hw : R.WorkEnds t j.seq o) :
    ∃ E result, R.Stored j.seq E ∧ o = .result result ∧
      Queried plan limit E (R.ReadsInterrupted s t probe) result := by
  obtain ⟨result, rfl, hret⟩ := R.returns_of_starts h hs hw
  exact ⟨_, result, stored_of_starts hR h, rfl,
    queried_of_returns (.job h) rfl (state_of_starts h) hret⟩

variable (R) in
/-- What the caller of a query has found after some moves: nothing if the query was dropped or
interrupted, and otherwise what its plan asks for among the entries that it was to find. -/
inductive Answered (t : ℕ) (j : Job Store StoreAnswer) (plan : Plan) (limit : Option ℕ)
    (probe : Bool → Probe) : Except Error (List Entry) → Prop
  | dropped {u : ℕ} (hu : u < t) (h : R.Drops u j) : Answered t j plan limit probe (.ok [])
  | interrupted {s u : ℕ} (hs : R.Starts s j) (hu : u < t) (h : R.ReadsInterrupted s u probe) :
    Answered t j plan limit probe (.ok [])
  | found {s u : ℕ} {E : List Entry} (hs : R.Starts s j) (hu : u < t) (h : R.Stored j.seq E) :
    Answered t j plan limit probe (plan.execute (E.map .ok) limit .never)

/-- The caller of a query is told what the query finds, or nothing if it was dropped. -/
theorem answered_of_replyTo (hR : IndexRun R) {t : ℕ} {j : Job Store StoreAnswer} {plan : Plan}
    {limit : Option ℕ} {probe : Bool → Probe} {o : Outcome StoreAnswer} (hj : j ∈ R.accepted t)
    (hs : j.script = [.perform (queryWork plan limit probe)])
    (ho : (R.after t).replyTo j.seq = some o) :
    ∃ result, o = .result result ∧ R.Answered t j plan limit probe (foundEntries result) := by
  obtain ⟨u, hut, k, hk, hseq, -, ⟨hd, rfl⟩ | hw⟩ := R.replyTo_eq_some_iff.mp ho
  · obtain rfl := R.eq_of_seq hk hj hseq
    exact ⟨_, rfl, .dropped hut hd⟩
  · obtain ⟨r, hr, hn, -⟩ := R.workEnds_cases hw
    obtain ⟨s, -, k', hk', hstart, hkn, -⟩ := R.starts_of_busy ⟨r, hr, hn⟩
    obtain rfl := R.eq_of_seq hk' hj hkn
    obtain ⟨E, result, hE, rfl, hq⟩ := queried_of_workEnds hR hstart hs hw
    refine ⟨result, rfl, ?_⟩
    rcases foundEntries_of_queried hq with ⟨hread, hfound⟩ | hfound
    · rw [hfound]
      exact .interrupted hstart hut hread
    · rw [hfound]
      exact .found hstart hut hE

/-- Asking an index for what a plan accepts finds that, unless a job holds its owner up. -/
theorem answered_of_asked (hR : IndexRun R) {t : ℕ} {i : Index} {plan : Plan} {limit : Option ℕ}
    (h : R.Asked t i .cancellable (queryScript plan limit)) :
    ∃ u j, t < u ∧ j.seq = (R.accepted t).length ∧
      (i.run plan limit).2.serializer = R.after u ∧
        (R.Answered u j plan limit .constant (i.run plan limit).1 ∨
          (R.after u).isWaiting = true ∧ (i.run plan limit).1 = .error .timeout) := by
  obtain ⟨u, htu, hafter, hj, hrest, hreply⟩ := R.of_asked h
  have hrun : (i.run plan limit).1 =
      foundEntries (i.ask .cancellable (queryScript plan limit)).1 := rfl
  refine ⟨u, ⟨_, .cancellable, queryScript plan limit, .reply⟩, htu, rfl, hafter, ?_⟩
  rcases hreply with ⟨result, hr, hask⟩ | ⟨hno, hask⟩
  · obtain ⟨result', ho, ha⟩ := answered_of_replyTo hR hj rfl hr
    obtain rfl := Outcome.result.inj ho
    rw [hrun, hask]
    exact .inl ha
  · refine .inr ⟨hrest.resolve_right ?_, by rw [hrun, hask]; rfl⟩
    rintro ⟨o, hr⟩
    obtain ⟨result, rfl, -⟩ := answered_of_replyTo hR hj rfl hr
    exact hno result hr

/-! ## Replacements -/

theorem replaces_of_returns {s e : ℕ} {r : Running Store StoreAnswer}
    {batches : List (List Entry)} {result : JobResult StoreAnswer}
    (h : R.Returns s r (replaceWork batches) e result) (hr : (R.after s).current = some r)
    (hscript : r.frame.script = [.perform (replaceWork batches)]) :
    (∃ g u, s ≤ u ∧ u ≤ e ∧ result = .ok (some (.generation (some g))) ∧
        R.Replaces u r.seq batches) ∨
      ∃ err, result = .error err ∧
        ∀ u n batches', s ≤ u → u ≤ e → ¬ R.Replaces u n batches' := by
  obtain ⟨u, hsu, hue, hp, hstate, hresult, -⟩ := h.performed
  cases hg : ((R.after s).state.replace batches).1 with
  | ok g =>
    refine .inl ⟨g, u, hsu, hue, ?_, hp, g, by rw [hstate, hg]⟩
    simp only [hresult, replaceWork, hg]
    rfl
  | error err =>
    refine .inr ⟨err, ?_, ?_⟩
    · simp only [hresult, replaceWork, hg]
      rfl
    · rintro u' n batches' hsu' hue' ⟨hp', g, hg'⟩
      obtain ⟨hwork, hs⟩ := R.of_performsAt_of_returns h hr hscript hsu' hue' hp'
      have hsame := congrArg Prod.fst (congrFun (congrFun hwork false) (R.after s).state)
      rw [hs] at hg'
      simp only [replaceWork, hg', hg] at hsame
      cases hsame

theorem replaces_of_workEnds {s t : ℕ} {j : Job Store StoreAnswer} {batches : List (List Entry)}
    {o : Outcome StoreAnswer} (h : R.Starts s j) (hs : j.script = replaceScript batches)
    (hw : R.WorkEnds t j.seq o) :
    (∃ g u, u ≤ t ∧ o = .result (.ok (some (.generation (some g)))) ∧
        R.Replaces u j.seq batches) ∨
      ∃ e, o = .result (.error e) ∧ ∀ u batches', u ≤ t → ¬ R.Replaces u j.seq batches' := by
  rw [replaceScript_eq] at hs
  obtain ⟨result, rfl, hret⟩ := R.returns_of_starts h hs hw
  rcases replaces_of_returns hret h.2 hs with ⟨g, u, -, hut, rfl, hu⟩ | ⟨e, rfl, hno⟩
  · exact .inl ⟨g, u, hut, rfl, hu⟩
  · refine .inr ⟨e, rfl, fun u batches' hut hu => ?_⟩
    have hsu : s + 1 ≤ u := by
      obtain ⟨s', hs', k, -, hk, hkn, -⟩ := R.starts_of_busy (R.busy_of_performsAt hu.1)
      have := (R.leaves_unique hk.1 h.1 hkn).1
      omega
    exact hno u j.seq batches' hsu hut hu

/-! ## Calls in place -/

variable (R) in
/-- The entries that a call inside of a job finds after some moves: those that the job was to find,
or those that it has put in their place itself. -/
inductive Held (n s : ℕ) : List Entry → Prop
  | found {E : List Entry} (h : ∀ u batches, u < s → ¬ R.Replaces u n batches)
    (hE : R.Stored n E) : Held n s E
  | replaced {u : ℕ} {batches : List (List Entry)} (h : R.Replaces u n batches) (hu : u < s)
    (hlast : ∀ u' batches', R.Replaces u' n batches' → u' < s → u' ≤ u) :
    Held n s batches.flatten

theorem held_of_busy (hR : IndexRun R) {s n : ℕ} (h : R.Busy s n) : R.Held n s (R.entries s) := by
  by_cases hown : ∃ v batches, v < s ∧ R.Replaces v n batches
  · obtain ⟨v, batches, hv, hr⟩ := hown
    rcases lastReplacement hR s with ⟨hno, -⟩ | ⟨u, hu, m, batches', hr', he, hno⟩
    · exact absurd hr (hno v hv n batches)
    · -- the last replacement is behind one of the job's own, so it is its own
      have hvu : v ≤ u := Nat.le_of_not_lt fun huv => hno v huv hv n batches hr
      have hle := R.busy_le (R.busy_of_performsAt hr.1) (R.busy_of_performsAt hr'.1) hvu
      have hge := R.busy_le (R.busy_of_performsAt hr'.1) h hu.le
      obtain rfl : m = n := by omega
      rw [he]
      refine .replaced hr' hu fun u' batches'' h'' hu' => Nat.le_of_not_lt fun huu' => ?_
      exact hno u' huu' hu' m batches'' h''
  · have hnone : ∀ u batches, u < s → ¬ R.Replaces u n batches := fun u batches hu hr =>
      hown ⟨u, batches, hu, hr⟩
    exact .found hnone (stored_of_busy hR h hnone)

theorem held_unique (hR : IndexRun R) {n s : ℕ} {E E' : List Entry} (h : R.Held n s E)
    (h' : R.Held n s E') : E = E' := by
  cases h with
  | found h hE =>
    cases h' with
    | found h' hE' => exact stored_unique hR hE hE'
    | replaced h' hu' => exact absurd h' (h _ _ hu')
  | replaced h hu hlast =>
    cases h' with
    | found h' hE' => exact absurd h (h' _ _ hu)
    | replaced h' hu' hlast' =>
      obtain rfl := Nat.le_antisymm (hlast' _ _ h hu) (hlast _ _ h' hu')
      rw [← entries_of_replaces hR h, entries_of_replaces hR h']

variable (R) in
/-- A call of one piece of work that a move has begun is still going on after some more, or it has
been noted with a result. -/
def Calls (s t : ℕ) (r' : Running Store StoreAnswer)
    (returned : ℕ → JobResult StoreAnswer → Prop) : Prop :=
  R.Within r' t ∨ ∃ e, s < e ∧ e < t ∧ ∃ result, returned e result ∧
    (R.after (e + 1)).log = (R.after e).log ++ [.called (.result result)]

theorem calls_of_query (hR : IndexRun R) {s t : ℕ} {r r' : Running Store StoreAnswer}
    {kind : JobKind} {plan : Plan} {limit : Option ℕ} {probe : Bool → Probe}
    (h : R.Begins s r r' kind [.perform (queryWork plan limit probe)]) (hst : s < t) :
    R.Calls s t r' fun e result => ∃ E, R.Held r.seq s E ∧
      Queried plan limit E (R.ReadsInterrupted s e probe) result := by
  obtain ⟨⟨isCaught, hframe⟩, -, -, -, hstate⟩ := R.of_begins h
  refine (R.returns_of_begins h hst).imp id ?_
  rintro ⟨e, het, result, hret, hlog⟩
  have htok : r'.frame.token = (R.after s).newToken kind := by rw [hframe]
  exact ⟨e, hret.le, het, result,
    ⟨_, held_of_busy hR ⟨r, h.before, rfl⟩,
      queried_of_returns (R.opens_of_begins h) htok hstate hret⟩, hlog⟩

theorem calls_of_length (hR : IndexRun R) {s t : ℕ} {r r' : Running Store StoreAnswer}
    {kind : JobKind} (h : R.Begins s r r' kind lengthScript) (hst : s < t) :
    R.Calls s t r' fun _ result => ∃ E, R.Held r.seq s E ∧
      result = .ok (some (.count E.length)) := by
  rw [lengthScript_eq] at h
  obtain ⟨-, -, -, -, hstate⟩ := R.of_begins h
  refine (R.returns_of_begins h hst).imp id ?_
  rintro ⟨e, het, result, hret, hlog⟩
  obtain ⟨u, -, -, -, -, hresult, -⟩ := hret.performed
  refine ⟨e, hret.le, het, result, ⟨_, held_of_busy hR ⟨r, h.before, rfl⟩, ?_⟩, hlog⟩
  rw [hresult, hstate, entries]
  simp only [lengthWork, Store.length_eq (sound hR s).2]
  rfl

theorem calls_of_replace {s t : ℕ} {r r' : Running Store StoreAnswer} {kind : JobKind}
    {batches : List (List Entry)} (h : R.Begins s r r' kind (replaceScript batches))
    (hst : s < t) :
    R.Calls s t r' fun e result =>
      (∃ g u, s < u ∧ u ≤ e ∧ result = .ok (some (.generation (some g))) ∧
          R.Replaces u r.seq batches) ∨
        ∃ err, result = .error err ∧
          ∀ u n batches', s < u → u ≤ e → ¬ R.Replaces u n batches' := by
  rw [replaceScript_eq] at h
  obtain ⟨⟨isCaught, hframe⟩, hseq, -⟩ := R.of_begins h
  have hscript : r'.frame.script = [.perform (replaceWork batches)] := by rw [hframe]
  refine (R.returns_of_begins h hst).imp id ?_
  rintro ⟨e, het, result, hret, hlog⟩
  have hmade := replaces_of_returns hret h.behind hscript
  rw [hseq] at hmade
  exact ⟨e, hret.le, het, result, hmade, hlog⟩

/-! ## Whole generations -/

variable (R) in
/-- Queries see whole generations. -/
structure SeesGenerations : Prop where
  /-- there is one generation of entries before each job, and one at each place inside of it -/
  unique : (∀ n E E', R.Stored n E → R.Stored n E' → E = E') ∧
    ∀ n s E E', R.Held n s E → R.Held n s E' → E = E'
  /-- a replacement that was queued has been made exactly if it succeeds -/
  replacements : ∀ s t j batches o, R.Starts s j → j.script = replaceScript batches →
    R.WorkEnds t j.seq o →
    (∃ g u, u ≤ t ∧ o = .result (.ok (some (.generation (some g)))) ∧
        R.Replaces u j.seq batches) ∨
      ∃ e, o = .result (.error e) ∧ ∀ u batches', u ≤ t → ¬ R.Replaces u j.seq batches'
  /-- the work of a query ends with what it finds in the generation before it -/
  queries : ∀ s t j plan limit probe o, R.Starts s j →
    j.script = [.perform (queryWork plan limit probe)] → R.WorkEnds t j.seq o →
    ∃ E result, R.Stored j.seq E ∧ o = .result result ∧
      Queried plan limit E (R.ReadsInterrupted s t probe) result
  /-- the tokens of the queries of an index are interrupted by what comes behind their start -/
  interrupted : ∀ s t, R.ReadsInterrupted s t .constant ↔ ∃ u, s < u ∧ u < t ∧ R.Interrupts u
  /-- that is what its callback is told -/
  callbacks : ∀ s t j plan limit probe c result, R.Starts s j →
    j.script = [.perform (queryWork plan limit probe)] → R.Tells t j.seq c result →
    ∃ E, R.Stored j.seq E ∧ Queried plan limit E (R.ReadsInterrupted s t probe) result
  /-- and what its caller finds, which is nothing if it was dropped or interrupted -/
  replies : ∀ t j plan limit probe o, j ∈ R.accepted t →
    j.script = [.perform (queryWork plan limit probe)] → (R.after t).replyTo j.seq = some o →
    ∃ result, o = .result result ∧ R.Answered t j plan limit probe (foundEntries result)
  /-- that is what an index answers, unless a job holds its owner up -/
  answers : ∀ t i plan limit, R.Asked t i .cancellable (queryScript plan limit) →
    ∃ u j, t < u ∧ j.seq = (R.accepted t).length ∧
      (i.run plan limit).2.serializer = R.after u ∧
        (R.Answered u j plan limit .constant (i.run plan limit).1 ∨
          (R.after u).isWaiting = true ∧ (i.run plan limit).1 = .error .timeout)
  /-- a query in place finds the generation of the job around it -/
  searches : ∀ s t r r' kind plan limit probe,
    R.Begins s r r' kind [.perform (queryWork plan limit probe)] → s < t →
    R.Calls s t r' fun e result => ∃ E, R.Held r.seq s E ∧
      Queried plan limit E (R.ReadsInterrupted s e probe) result
  /-- so does counting the entries in place -/
  lengths : ∀ s t r r' kind, R.Begins s r r' kind lengthScript → s < t →
    R.Calls s t r' fun _ result => ∃ E, R.Held r.seq s E ∧ result = .ok (some (.count E.length))
  /-- that generation is the one before the job, as long as nothing inside of the job has made
  another one -/
  same : ∀ n s E, R.Held n s E → (∀ u batches, u < s → ¬ R.Replaces u n batches) → R.Stored n E
  /-- and that takes a replacement in place that succeeds -/
  inPlace : ∀ s t r r' kind batches, R.Begins s r r' kind (replaceScript batches) → s < t →
    R.Calls s t r' fun e result =>
      (∃ g u, s < u ∧ u ≤ e ∧ result = .ok (some (.generation (some g))) ∧
          R.Replaces u r.seq batches) ∨
        ∃ err, result = .error err ∧
          ∀ u n batches', s < u → u ≤ e → ¬ R.Replaces u n batches'

theorem queried_of_tells (hR : IndexRun R) {s t : ℕ} {j : Job Store StoreAnswer} {plan : Plan}
    {limit : Option ℕ} {probe : Bool → Probe} {c : Callback Store StoreAnswer}
    {result : JobResult StoreAnswer} (h : R.Starts s j)
    (hs : j.script = [.perform (queryWork plan limit probe)]) (ht : R.Tells t j.seq c result) :
    ∃ E, R.Stored j.seq E ∧ Queried plan limit E (R.ReadsInterrupted s t probe) result := by
  obtain ⟨E, result', hE, ho, hq⟩ := queried_of_workEnds hR h hs (R.tells_iff.mp ht).1
  obtain rfl := Outcome.result.inj ho
  exact ⟨E, hE, hq⟩

/-- **Queries see whole generations**, in every run of an index. -/
theorem seesGenerations (hR : IndexRun R) : R.SeesGenerations where
  unique := ⟨fun _ _ _ h h' => stored_unique hR h h', fun _ _ _ _ h h' => held_unique hR h h'⟩
  replacements _ _ _ _ _ h hs hw := replaces_of_workEnds h hs hw
  queries _ _ _ _ _ _ _ h hs hw := queried_of_workEnds hR h hs hw
  interrupted := readsInterrupted_constant
  callbacks _ _ _ _ _ _ _ _ h hs ht := queried_of_tells hR h hs ht
  replies _ _ _ _ _ _ hj hs ho := answered_of_replyTo hR hj hs ho
  answers _ _ _ _ h := answered_of_asked hR h
  searches _ _ _ _ _ _ _ _ h hst := calls_of_query hR h hst
  lengths _ _ _ _ _ h hst := calls_of_length hR h hst
  same n s E h hown := by
    cases h with
    | found _ hE => exact hE
    | replaced hr hu => exact absurd hr (hown _ _ hu)
  inPlace _ _ _ _ _ _ h hst := calls_of_replace h hst

/-- The entries are replaced, and a query is left behind whose callback searches and counts in
place. -/
def usedRun : Run Store StoreAnswer where
  name := ownerName
  background := false
  state := { path := "index", place := "index", database := {}, capacity := Space.pages.byDefault }
  moves
    | 0 => .start
    | 1 => .call .uninterruptible (replaceScript [[{ name := "f", kind := "fn", file := "a" }]])
    | 2 => .submitWith .cancellable (queryScript {} none)
      { tag := .tag 0
        script :=
          [.call .cancellable (queryScript {} none) false,
            .call .uninterruptible lengthScript false] }
    | 3 => .interrupt
    | _ => .owner

theorem seesGenerations_usedRun : IndexRun usedRun ∧ usedRun.SeesGenerations := by
  have hworks : ∀ t, (usedRun.moves t).Performs IndexWork := by
    intro t
    match t with
    | 0 | 3 | t + 4 => exact trivial
    | 1 => exact performs_replaceScript _
    | 2 =>
      exact ⟨performs_queryScript _ _, performs_queryScript _ _, performs_lengthScript, trivial⟩
  have hR : IndexRun usedRun := ⟨by decide, rfl, hworks⟩
  exact ⟨hR, seesGenerations hR⟩

end Run

end SymbolIndex
