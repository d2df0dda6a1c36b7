import SymbolIndex.Editor.Answer
import SymbolIndex.Proofs.Editor.Sessions

/-!
# What calls do to a session

Indexes are opened and closed, and fetches begin, are handed out and are forgotten, by five of the
functions that the editor can call. All others leave the open indexes and the tickets as they are.

* `Request.IsQuiet`, `Session.keeps_answer`: the other functions;
* `Session.openIndex_cases`, `Session.closeIndex_cases`, `Session.fetch_cases`,
  `Session.poll_cases`: all that the five can do;
* `Session.Opens`, `Session.Closes`, `Session.Begins`, `Session.HandsOut`: what a call has done;
* `Session.isOpen_answer`, `Session.standing_answer`, `Session.sound_answer`: the session behind it;
* `Session.answer_of_not_isOpen`, `Session.answer_ne_of_isOpen`: what is said about indexes that are
  not open.
-/

namespace SymbolIndex.Editor

/-- The call neither opens nor closes indexes, and has nothing to do with fetches. -/
def Request.IsQuiet : Request → Prop
  | .openIndex _ | .closeIndex _ | .fetch .. | .poll .. | .cleanup => False
  | _ => True

/-- The call uses the index of a project for a query or a fetch. -/
def Request.Uses (path : String) : Request → Prop
  | .search path' _ _ | .fetch path' _ _ | .poll path' _ | .interrupt path' => path' = path
  | _ => False

namespace Session

variable {s : Session} {root path : String} {ticket : ℕ} {q : Request}

/-- **Most calls leave the open indexes and the tickets as they are.** -/
theorem keeps_answer (s : Session) (hq : q.IsQuiet) : s.Keeps [] (s.answer q).2 := by
  cases q with
  | startLog path =>
    rw [answer]
    cases startLog s.disk.files path with
    | error e => exact .refl s
    | ok files => exact keeps_withDisk s { s.disk with files }
  | search path text limit =>
    exact s.keeps_withIndex path (f := fun i =>
        ((i.search text limit).1.map (i.layout, ·), (i.search text limit).2))
      fun i hi => (Index.sound_search hi text limit).1
  | interrupt path =>
    exact s.keeps_withIndex path (f := fun i => (.ok (), i.interrupt)) fun i hi => hi.interrupt
  | update path =>
    have hupdate : s.Keeps [] (s.update path).2 := by
      unfold update
      cases hfind : s.find path with
      | error e => exact .refl s
      | ok found =>
        obtain ⟨root, i⟩ := found
        obtain ⟨-, hl⟩ := find_eq_ok_iff.mp hfind
        have hdisk := s.keeps_withDisk { s.disk with files := (i.rebuild s.disk.files).2.2 }
        refine hdisk.trans (keeps_put ⟨i, hl⟩ fun hs => ?_)
        exact Index.sound_rebuild (hs.indexes root i hl) _
    exact hupdate
  | kinds path => exact s.keeps_withIndex path fun i hi => Index.sound_kinds hi
  | kindCounts path => exact s.keeps_withIndex path fun i hi => Index.sound_kindCounts hi
  | size path => exact s.keeps_withIndex path fun i hi => Index.sound_length hi
  | completions path text limit =>
    exact s.keeps_withIndex path (f := fun i =>
        ((i.search text limit).1.map (i.completions s.disk.files), (i.search text limit).2))
      fun i hi => (Index.sound_search hi text limit).1
  | preview path entry =>
    rw [answer]
    cases s.find path <;> exact .refl s
  | health => exact s.keeps_healths
  | queryOptions text | renderQuery text | formatMatch entry layout | openCommand command entry =>
    exact .refl s
  | openIndex path | closeIndex path | fetch path text limit | poll path ticket | cleanup =>
    exact hq.elim

/-! ## The other calls -/

theorem openIndex_cases (s : Session) (path : String) :
    (∃ e, s.openIndex path = (.error e, s)) ∨ ∃ root, s.rootOf path = .ok root ∧
      (s.IsOpen root ∧ s.openIndex path = (.ok false, s) ∨
        ¬s.IsOpen root ∧ ∃ i disk, i.Sound ∧
          s.openIndex path = (.ok true, { s with disk, indexes := (root, i) :: s.indexes })) := by
  unfold openIndex
  cases hp : s.rootOf path with
  | error e => exact .inl ⟨e, rfl⟩
  | ok root =>
    cases hl : s.indexes.lookup root with
    | some i => exact .inr ⟨root, rfl, .inl ⟨⟨i, hl⟩, by simp only [hl]⟩⟩
    | none =>
      have hclosed : ¬s.IsOpen root := fun ⟨i, hi⟩ => nomatch hl.symm.trans hi
      cases ho : openProject s.disk s.dataDirectory root with
      | error e => exact .inl ⟨e, by simp only [hl, ho]⟩
      | ok opened =>
        obtain ⟨i, disk⟩ := opened
        exact .inr ⟨root, rfl, .inr ⟨hclosed, i, disk, sound_openProject ho, by simp only [hl, ho]⟩⟩

theorem closeIndex_cases (s : Session) (path : String) :
    (∃ e, s.rootOf path = .error e ∧ s.closeIndex path = (.error e, s)) ∨
      ∃ root, s.rootOf path = .ok root ∧
        (¬s.IsOpen root ∧ s.closeIndex path = (.ok false, s) ∨
          s.IsOpen root ∧ ∃ s', s.closeIndex path = (.ok true, s') ∧
            { s with fetches := s.fetches.forget root }.Keeps [root] s') := by
  unfold closeIndex
  cases hp : s.rootOf path with
  | error e => exact .inl ⟨e, rfl, rfl⟩
  | ok root =>
    cases hl : s.indexes.lookup root with
    | some i =>
      exact .inr ⟨root, rfl, .inr ⟨⟨i, hl⟩, _, by simp only [hl],
        keeps_shut _ root fun hs => hs.indexes root i hl⟩⟩
    | none =>
      have hclosed : ¬s.IsOpen root := fun ⟨i, hi⟩ => nomatch hl.symm.trans hi
      exact .inr ⟨root, rfl, .inl ⟨hclosed, by simp only [hl]⟩⟩

/-- A fetch of an open index begins under the next ticket, even if it is not accepted. -/
theorem fetch_cases (s : Session) (path text : String) (limit : Option ℕ) :
    (∃ e, s.find path = .error e ∧ s.fetch path text limit = (.error e, s)) ∨
      ∃ root, s.rootOf path = .ok root ∧ s.IsOpen root ∧ ∃ r s',
        s.fetch path text limit = (r, s') ∧ (s.Sound → ∀ e, r = .error e → e.IsOwn) ∧
          { s with
            nextTicket := s.nextTicket + 1
            fetches := s.fetches.begin root s.nextTicket }.Keeps [] s' := by
  unfold fetch
  cases hf : s.find path with
  | error e => exact .inl ⟨e, rfl, rfl⟩
  | ok found =>
    obtain ⟨root, i⟩ := found
    obtain ⟨hp, hl⟩ := find_eq_ok_iff.mp hf
    have hasked (hi : i.Sound) := Index.sound_queryAsync hi.interruptPending text
      (some (limit.getD i.settings.resultCount)) s.nextTicket
    refine .inr ⟨root, hp, ⟨i, hl⟩, _, _, rfl, fun hs e he => ?_,
      keeps_put ⟨i, hl⟩ fun hs => (hasked (hs.indexes root i hl)).1⟩
    exact (hasked (hs.indexes root i hl)).2 e (error_of_map_eq_error he)

theorem poll_cases (s : Session) (path : String) (ticket : ℕ) :
    (∃ e, s.find path = .error e ∧ s.poll path ticket = (.error e, s)) ∨
      ∃ root i, s.rootOf path = .ok root ∧ s.indexes.lookup root = some i ∧
        s.poll path ticket = (.ok (i.layout, (s.fetches.poll root ticket).1),
          { s with fetches := (s.fetches.poll root ticket).2 }) := by
  unfold poll
  cases hf : s.find path with
  | error e => exact .inl ⟨e, rfl, rfl⟩
  | ok found =>
    obtain ⟨root, i⟩ := found
    obtain ⟨hp, hl⟩ := find_eq_ok_iff.mp hf
    exact .inr ⟨root, i, hp, hl, rfl⟩

/-! ## What a call has done -/

/-- The call opens an index. -/
def Opens (s : Session) (q : Request) (root : String) : Prop :=
  ∃ path, q = .openIndex path ∧ s.rootOf path = .ok root ∧ (s.answer q).1 = .ok (.boolean true)

/-- The call closes the index of a project. -/
def Closes (s : Session) (q : Request) (root : String) : Prop :=
  ∃ path, q = .closeIndex path ∧ s.rootOf path = .ok root ∧ (s.answer q).1 = .ok (.boolean true)

/-- The call begins a fetch of an open index. -/
def Begins (s : Session) (q : Request) (root : String) (ticket : ℕ) : Prop :=
  ∃ path text limit, q = .fetch path text limit ∧ s.rootOf path = .ok root ∧ s.IsOpen root ∧
    ticket = s.nextTicket

/-- The call hands out the result of a fetch. -/
def HandsOut (s : Session) (q : Request) (root : String) (ticket : ℕ) : Prop :=
  ∃ path, q = .poll path ticket ∧ s.rootOf path = .ok root ∧
    ∃ layout r, (s.poll path ticket).1 = .ok (layout, .ready r)

theorem reported_boolean_iff {r : Except Error Bool} {b : Bool} :
    reported .boolean r = .ok (.boolean b) ↔ r = .ok b := by
  cases r <;> simp [reported]

theorem opens_openIndex_iff :
    s.Opens (.openIndex path) root ↔
      s.rootOf path = .ok root ∧ (s.openIndex path).1 = .ok true := by
  refine ⟨fun ⟨path', hq, hp, ha⟩ => ?_, fun ⟨hp, ha⟩ => ⟨path, rfl, hp, ?_⟩⟩
  · obtain rfl := Request.openIndex.inj hq
    exact ⟨hp, reported_boolean_iff.mp ha⟩
  · exact reported_boolean_iff.mpr ha

theorem closes_closeIndex_iff :
    s.Closes (.closeIndex path) root ↔ s.rootOf path = .ok root ∧ s.IsOpen root := by
  have hanswer : (s.answer (.closeIndex path)).1 = reported .boolean (s.closeIndex path).1 := rfl
  constructor
  · rintro ⟨path', hq, hp, ha⟩
    obtain rfl := Request.closeIndex.inj hq
    rw [hanswer, reported_boolean_iff] at ha
    rcases s.closeIndex_cases path with ⟨e, -, h⟩ | ⟨root', hp', ⟨-, h⟩ | ⟨hopen, -⟩⟩
    · rw [h] at ha
      cases ha
    · rw [h] at ha
      cases ha
    · obtain rfl := Except.ok.inj (hp.symm.trans hp')
      exact ⟨hp, hopen⟩
  · rintro ⟨hp, hopen⟩
    refine ⟨path, rfl, hp, ?_⟩
    rw [hanswer, reported_boolean_iff]
    rcases s.closeIndex_cases path with ⟨e, he, -⟩ | ⟨root', hp', ⟨hclosed, -⟩ | ⟨-, s', h, -⟩⟩
    · cases hp.symm.trans he
    · obtain rfl := Except.ok.inj (hp.symm.trans hp')
      exact absurd hopen hclosed
    · rw [h]

theorem handsOut_poll_iff {t : ℕ} : s.HandsOut (.poll path ticket) root t ↔
    t = ticket ∧ s.rootOf path = .ok root ∧ s.IsOpen root ∧
      ∃ r, s.fetches.latest? root = some ⟨ticket, some r⟩ := by
  rcases s.poll_cases path ticket with ⟨e, he, h⟩ | ⟨root', i, hp, hl, h⟩
  · constructor
    · rintro ⟨path', hq, -, layout, r, hr⟩
      obtain ⟨rfl, rfl⟩ := Request.poll.inj hq
      rw [h] at hr
      cases hr
    · rintro ⟨-, hp, ⟨i, hl⟩, -⟩
      cases he.symm.trans (find_eq_ok_iff.mpr ⟨hp, hl⟩)
  · constructor
    · rintro ⟨path', hq, hp', layout, r, hr⟩
      obtain ⟨rfl, rfl⟩ := Request.poll.inj hq
      obtain rfl := Except.ok.inj (hp'.symm.trans hp)
      rw [h] at hr
      have hready := (Prod.mk.inj (Except.ok.inj hr)).2
      exact ⟨rfl, hp, ⟨i, hl⟩, r, (Fetches.poll_eq_ready_iff _ _ _).mp hready⟩
    · rintro ⟨rfl, hp', -, r, hr⟩
      obtain rfl := Except.ok.inj (hp'.symm.trans hp)
      refine ⟨path, rfl, hp', i.layout, r, ?_⟩
      rw [h, (Fetches.poll_eq_ready_iff _ _ _).mpr hr]

/-! ## The open indexes behind a call -/

theorem isOpen_openIndex (s : Session) (path root : String) :
    (s.openIndex path).2.IsOpen root ↔
      s.rootOf path = .ok root ∧ (s.openIndex path).1 = .ok true ∨ s.IsOpen root := by
  rcases s.openIndex_cases path with ⟨e, h⟩ | ⟨root', hp, ⟨hopen, h⟩ | ⟨hclosed, i, disk, -, h⟩⟩
  · rw [h]
    exact (or_iff_right fun h => nomatch h.2).symm
  · rw [h]
    exact (or_iff_right fun h => nomatch h.2).symm
  · have hlookup : (s.openIndex path).2.indexes.lookup root =
        if root = root' then some i else s.indexes.lookup root := by
      rw [h]
      exact lookup_cons_eq _ _ _ _
    rw [IsOpen, hlookup, h, hp, Except.ok.injEq, and_iff_left rfl]
    split_ifs with hr
    · simp [hr]
    · simp [IsOpen, Ne.symm hr]

theorem isOpen_closeIndex (s : Session) (path root : String) :
    (s.closeIndex path).2.IsOpen root ↔
      s.IsOpen root ∧ ¬(s.rootOf path = .ok root ∧ s.IsOpen root) := by
  rcases s.closeIndex_cases path with ⟨e, he, h⟩ | ⟨root', hp, ⟨hclosed, h⟩ | ⟨-, s', h, hkeeps⟩⟩
  · rw [h, he]
    exact (and_iff_left fun h => nomatch h.1).symm
  · rw [h, hp]
    refine ⟨fun hopen => ⟨hopen, fun hr => ?_⟩, And.left⟩
    exact hclosed (Except.ok.inj hr.1 ▸ hopen)
  · rw [h, hp]
    refine (hkeeps.isOpen root).trans (and_congr_right fun hopen => ?_)
    simp [show s.IsOpen root from hopen, eq_comm]

theorem isOpen_fetch (s : Session) (path text : String) (limit : Option ℕ) (root : String) :
    (s.fetch path text limit).2.IsOpen root ↔ s.IsOpen root := by
  rcases s.fetch_cases path text limit with ⟨e, -, h⟩ | ⟨root', -, -, r, s', h, -, hkeeps⟩
  · rw [h]
  · rw [h]
    exact (hkeeps.isOpen root).trans (and_iff_left List.not_mem_nil)

theorem isOpen_poll (s : Session) (path : String) (ticket : ℕ) (root : String) :
    (s.poll path ticket).2.IsOpen root ↔ s.IsOpen root := by
  rcases s.poll_cases path ticket with ⟨e, -, h⟩ | ⟨root', i, -, -, h⟩
  · rw [h]
  · rw [h]
    rfl

theorem not_isOpen_cleanup (hs : s.Sound) (root : String) : ¬s.cleanup.IsOpen root := fun h =>
  have hkept := ((keeps_cleanup hs).isOpen root).mp h
  hkept.2 (mem_roots_of_isOpen hkept.1)

/-- **What is open behind a call**: what it has opened, and what was open unless it has closed
that. -/
theorem isOpen_answer (hs : s.Sound) (q : Request) (root : String) :
    (s.answer q).2.IsOpen root ↔
      s.Opens q root ∨ s.IsOpen root ∧ ¬(s.Closes q root ∨ q = .cleanup) := by
  by_cases hquiet : q.IsQuiet
  · have hopens : ¬s.Opens q root := by rintro ⟨path, rfl, -⟩; exact hquiet
    have hcloses : ¬s.Closes q root := by rintro ⟨path, rfl, -⟩; exact hquiet
    have hclean : q ≠ .cleanup := by rintro rfl; exact hquiet
    rw [(s.keeps_answer hquiet).isOpen, or_iff_right hopens, or_iff_right hcloses]
    exact and_congr_right fun _ => ⟨fun _ => hclean, fun _ => List.not_mem_nil⟩
  cases q with
  | openIndex path =>
    refine (s.isOpen_openIndex path root).trans (or_congr opens_openIndex_iff.symm ?_)
    simp [Closes]
  | closeIndex path =>
    have hopens : ¬s.Opens (.closeIndex path) root := by simp [Opens]
    rw [closes_closeIndex_iff, or_iff_right hopens, or_iff_left (by simp)]
    exact s.isOpen_closeIndex path root
  | fetch path text limit =>
    refine (s.isOpen_fetch path text limit root).trans ?_
    simp [Opens, Closes]
  | poll path ticket =>
    refine (s.isOpen_poll path ticket root).trans ?_
    simp [Opens, Closes]
  | cleanup =>
    refine (iff_false_intro (not_isOpen_cleanup hs root)).trans ?_
    simp [Opens]
  | _ => exact absurd trivial hquiet

/-! ## The tickets behind a call -/

theorem standing_openIndex (s : Session) (path root : String) :
    (s.openIndex path).2.standing root = s.standing root := by
  rcases s.openIndex_cases path with ⟨e, h⟩ | ⟨_, -, ⟨-, h⟩ | ⟨-, i, disk, -, h⟩⟩
  · rw [h]
  · rw [h]
  · rw [h]
    rfl

theorem standing_closeIndex (s : Session) (path root : String) :
    (s.closeIndex path).2.standing root = some ticket ↔
      s.standing root = some ticket ∧ ¬(s.rootOf path = .ok root ∧ s.IsOpen root) := by
  rcases s.closeIndex_cases path with
    ⟨e, he, h⟩ | ⟨root', hp, ⟨hclosed, h⟩ | ⟨hopen, s', h, hkeeps⟩⟩
  · rw [h, he]
    exact (and_iff_left fun h => nomatch h.1).symm
  · rw [h, hp]
    refine ⟨fun hstands => ⟨hstands, fun hr => ?_⟩, And.left⟩
    exact hclosed (Except.ok.inj hr.1 ▸ hr.2)
  · have hstanding : (s.closeIndex path).2.standing root =
        if root = root' then none else s.standing root := by
      rw [h, hkeeps.standing, standing, Fetches.latest?_forget]
      split_ifs <;> rfl
    rw [hstanding, hp]
    split_ifs with hr
    · subst hr
      simp [hopen]
    · simp [Ne.symm hr]

theorem begins_fetch_iff {text : String} {limit : Option ℕ} :
    s.Begins (.fetch path text limit) root ticket ↔
      (s.rootOf path = .ok root ∧ s.IsOpen root) ∧ ticket = s.nextTicket := by
  simp only [Begins, Request.fetch.injEq]
  constructor
  · rintro ⟨_, _, _, ⟨rfl, rfl, rfl⟩, hp, hopen, ht⟩
    exact ⟨⟨hp, hopen⟩, ht⟩
  · rintro ⟨⟨hp, hopen⟩, ht⟩
    exact ⟨path, text, limit, ⟨rfl, rfl, rfl⟩, hp, hopen, ht⟩

theorem standing_fetch (s : Session) (path text : String) (limit : Option ℕ) (root : String) :
    (s.fetch path text limit).2.standing root = some ticket ↔
      (s.rootOf path = .ok root ∧ s.IsOpen root) ∧ ticket = s.nextTicket ∨
        s.standing root = some ticket ∧ ¬(s.rootOf path = .ok root ∧ s.IsOpen root) := by
  rcases s.fetch_cases path text limit with ⟨e, he, h⟩ | ⟨root', hp, hopen, r, s', h, -, hkeeps⟩
  · have hno : ¬(s.rootOf path = .ok root ∧ s.IsOpen root) := fun ⟨hp, i, hl⟩ =>
      nomatch he.symm.trans (find_eq_ok_iff.mpr ⟨hp, hl⟩)
    rw [h]
    simp [hno]
  · have hstanding : (s.fetch path text limit).2.standing root =
        if root = root' then some s.nextTicket else s.standing root := by
      rw [h, hkeeps.standing, standing, Fetches.begin, Fetches.latest?_put]
      split_ifs <;> rfl
    rw [hstanding, hp]
    split_ifs with hr
    · subst hr
      simp [hopen, eq_comm]
    · simp [Ne.symm hr]

theorem standing_poll (s : Session) (path : String) (asked : ℕ) (root : String) :
    (s.poll path asked).2.standing root = some ticket ↔
      s.standing root = some ticket ∧ ¬s.HandsOut (.poll path asked) root ticket := by
  rw [handsOut_poll_iff]
  rcases s.poll_cases path asked with ⟨e, he, h⟩ | ⟨root', i, hp, hl, h⟩
  · rw [h]
    refine (and_iff_left fun ⟨_, hp, ⟨i, hl⟩, _⟩ => ?_).symm
    exact nomatch he.symm.trans (find_eq_ok_iff.mpr ⟨hp, hl⟩)
  · have hstanding : (s.poll path asked).2.standing root =
        if root = root' then
          ((FetchMove.poll root' asked).onLatest (s.fetches.latest? root')).map Fetch.ticket
        else s.standing root := by
      rw [h, standing, Fetches.latest?_poll]
      exact apply_ite _ _ _ _
    rw [hstanding, hp]
    split_ifs with hr
    · subst hr
      have hopen : s.IsOpen root := ⟨i, hl⟩
      rw [standing]
      cases hlatest : s.fetches.latest? root with
      | none => simp [FetchMove.onLatest]
      | some fetch =>
        obtain ⟨n, result⟩ := fetch
        by_cases hn : n = asked
        · subst hn
          cases result <;> simp [FetchMove.onLatest, Option.filter_some, hopen, eq_comm]
        · simp [FetchMove.onLatest, Option.filter_some, hn]
    · simp [Ne.symm hr]

/-- **The tickets behind a call**: the one that it has given to a new fetch, and those that stood
unless there is a newer fetch, the index has been closed or the result is handed out. -/
theorem standing_answer (hs : s.Sound) (q : Request) (root : String) (ticket : ℕ) :
    (s.answer q).2.standing root = some ticket ↔ s.Begins q root ticket ∨
      s.standing root = some ticket ∧
        ¬((∃ ticket', s.Begins q root ticket') ∨ s.Closes q root ∨ s.HandsOut q root ticket) := by
  by_cases hquiet : q.IsQuiet
  · have hbegins : ∀ ticket, ¬s.Begins q root ticket := by
      rintro ticket ⟨path, text, limit, rfl, -⟩; exact hquiet
    have hcloses : ¬s.Closes q root := by rintro ⟨path, rfl, -⟩; exact hquiet
    have hhands : ¬s.HandsOut q root ticket := by rintro ⟨path, rfl, -⟩; exact hquiet
    rw [(s.keeps_answer hquiet).standing]
    simp [hbegins, hcloses, hhands]
  cases q with
  | openIndex path =>
    rw [show (s.answer (.openIndex path)).2.standing root = _ from s.standing_openIndex path root]
    simp [Begins, Closes, HandsOut]
  | closeIndex path =>
    refine (s.standing_closeIndex path root).trans ?_
    rw [closes_closeIndex_iff]
    simp [Begins, HandsOut]
  | fetch path text limit =>
    refine (s.standing_fetch path text limit root).trans ?_
    simp only [begins_fetch_iff]
    simp [Closes, HandsOut]
  | poll path asked =>
    refine (s.standing_poll path asked root).trans ?_
    simp [Begins, Closes]
  | cleanup =>
    rw [show (s.answer .cleanup).2.standing root = _ from (keeps_cleanup hs).standing root]
    simp [Begins, Closes, HandsOut]
  | _ => exact absurd trivial hquiet

/-! ## What holds behind a call -/

theorem sound_withFetches (hs : s.Sound) {fetches : Fetches} {nextTicket : ℕ}
    (hle : s.nextTicket ≤ nextTicket)
    (h : ∀ root fetch, fetches.latest? root = some fetch →
      s.fetches.latest? root = some fetch ∨ fetch.result = none ∧ fetch.ticket < nextTicket) :
    { s with fetches, nextTicket }.Sound where
  distinct := hs.distinct
  indexes := hs.indexes
  results root ticket e he := by
    rcases h root _ he with hold | ⟨hnone, -⟩
    · exact hs.results root ticket e hold
    · cases hnone
  issued root ticket ht := by
    obtain ⟨fetch, hf, rfl⟩ := Option.map_eq_some_iff.mp ht
    rcases h root fetch hf with hold | ⟨-, hlt⟩
    · exact Nat.lt_of_lt_of_le (hs.issued root _ (congrArg (Option.map Fetch.ticket) hold)) hle
    · exact hlt

theorem sound_openIndex (hs : s.Sound) (path : String) : (s.openIndex path).2.Sound := by
  rcases s.openIndex_cases path with ⟨e, h⟩ | ⟨root, -, ⟨-, h⟩ | ⟨hclosed, i, disk, hi, h⟩⟩
  · rwa [h]
  · rwa [h]
  · rw [h]
    refine ⟨List.nodup_cons.mpr ⟨fun hmem => ?_, hs.distinct⟩, fun root' j hj => ?_, hs.results,
      hs.issued⟩
    · obtain ⟨⟨root', j⟩, hj, rfl⟩ := List.mem_map.mp hmem
      exact hclosed (isOpen_of_mem hj)
    · rw [lookup_cons_eq] at hj
      split_ifs at hj
      · exact Option.some.inj hj ▸ hi
      · exact hs.indexes root' j hj

theorem sound_closeIndex (hs : s.Sound) (path : String) : (s.closeIndex path).2.Sound := by
  rcases s.closeIndex_cases path with ⟨e, -, h⟩ | ⟨root, -, ⟨-, h⟩ | ⟨-, s', h, hkeeps⟩⟩
  · rwa [h]
  · rwa [h]
  · have hforgotten : { s with fetches := s.fetches.forget root }.Sound := by
      refine sound_withFetches hs le_rfl fun root' fetch hf => .inl ?_
      rw [Fetches.latest?_forget] at hf
      split_ifs at hf
      exact hf
    rw [h]
    exact hkeeps.sound hforgotten

theorem sound_fetch (hs : s.Sound) (path text : String) (limit : Option ℕ) :
    (s.fetch path text limit).2.Sound := by
  rcases s.fetch_cases path text limit with ⟨e, -, h⟩ | ⟨root, -, -, r, s', h, -, hkeeps⟩
  · rwa [h]
  · rw [h]
    refine hkeeps.sound (sound_withFetches hs (Nat.le_succ _) fun root' fetch hf => ?_)
    rw [Fetches.begin, Fetches.latest?_put] at hf
    split_ifs at hf
    · obtain rfl := Option.some.inj hf
      exact .inr ⟨rfl, Nat.lt_succ_self _⟩
    · exact .inl hf

theorem sound_poll (hs : s.Sound) (path : String) (ticket : ℕ) : (s.poll path ticket).2.Sound := by
  rcases s.poll_cases path ticket with ⟨e, -, h⟩ | ⟨root, i, -, -, h⟩
  · rwa [h]
  · rw [h]
    refine sound_withFetches hs le_rfl fun root' fetch hf => .inl ?_
    rw [Fetches.latest?_poll] at hf
    split_ifs at hf with hr
    · exact hr ▸ (Option.filter_eq_some_iff.mp hf).1
    · exact hf

/-- **Every call leaves a sound session behind.** -/
theorem sound_answer (hs : s.Sound) (q : Request) : (s.answer q).2.Sound := by
  by_cases hquiet : q.IsQuiet
  · exact (s.keeps_answer hquiet).sound hs
  cases q with
  | openIndex path => exact sound_openIndex hs path
  | closeIndex path => exact sound_closeIndex hs path
  | fetch path text limit => exact sound_fetch hs path text limit
  | poll path ticket => exact sound_poll hs path ticket
  | cleanup => exact (keeps_cleanup hs).sound hs
  | _ => exact absurd trivial hquiet

/-- Tickets are given to fetches one after the other, and to nothing else. -/
theorem nextTicket_answer (hs : s.Sound) (q : Request) :
    (s.answer q).2.nextTicket = s.nextTicket ∨
      (s.answer q).2.nextTicket = s.nextTicket + 1 := by
  by_cases hquiet : q.IsQuiet
  · exact .inl (s.keeps_answer hquiet).nextTicket
  cases q with
  | openIndex path =>
    rcases s.openIndex_cases path with ⟨e, h⟩ | ⟨_, -, ⟨-, h⟩ | ⟨-, i, disk, -, h⟩⟩ <;>
      exact .inl (congrArg (fun r => r.2.nextTicket) h)
  | closeIndex path =>
    rcases s.closeIndex_cases path with ⟨e, -, h⟩ | ⟨_, -, ⟨-, h⟩ | ⟨-, s', h, hkeeps⟩⟩
    · exact .inl (congrArg (fun r => r.2.nextTicket) h)
    · exact .inl (congrArg (fun r => r.2.nextTicket) h)
    · exact .inl ((congrArg (fun r => r.2.nextTicket) h).trans hkeeps.nextTicket)
  | fetch path text limit =>
    rcases s.fetch_cases path text limit with ⟨e, -, h⟩ | ⟨root, -, -, r, s', h, -, hkeeps⟩
    · exact .inl (congrArg (fun r => r.2.nextTicket) h)
    · exact .inr ((congrArg (fun r => r.2.nextTicket) h).trans hkeeps.nextTicket)
  | poll path ticket =>
    rcases s.poll_cases path ticket with ⟨e, -, h⟩ | ⟨root, i, -, -, h⟩ <;>
      exact .inl (congrArg (fun r => r.2.nextTicket) h)
  | cleanup => exact .inl (keeps_cleanup hs).nextTicket
  | _ => exact absurd trivial hquiet

theorem nextTicket_of_begins (h : s.Begins q root ticket) :
    (s.answer q).2.nextTicket = s.nextTicket + 1 := by
  obtain ⟨path, text, limit, rfl, hp, ⟨i, hl⟩, -⟩ := h
  rcases s.fetch_cases path text limit with ⟨e, he, -⟩ | ⟨root', -, -, r, s', h, -, hkeeps⟩
  · exact nomatch he.symm.trans (find_eq_ok_iff.mpr ⟨hp, hl⟩)
  · exact (congrArg (fun r => r.2.nextTicket) h).trans hkeeps.nextTicket

/-! ## What is said about indexes that are not open -/

/-- **Without an open index nothing can be found or fetched.** -/
theorem answer_of_not_isOpen (hp : s.rootOf path = .ok root) (h : ¬s.IsOpen root)
    (hq : q.Uses path) : (s.answer q).1 = .error (.ofError (.indexNotOpen root)) := by
  have hfind := find_of_not_isOpen hp h
  cases q with
  | search path' text limit =>
    obtain rfl : path' = path := hq
    rw [answer, search, withIndex, hfind]
    rfl
  | fetch path' text limit =>
    obtain rfl : path' = path := hq
    rw [answer, fetch, hfind]
    rfl
  | poll path' ticket =>
    obtain rfl : path' = path := hq
    rw [answer, poll, hfind]
    rfl
  | interrupt path' =>
    obtain rfl : path' = path := hq
    rw [answer, interrupt, withIndex, hfind]
    rfl
  | _ => exact hq.elim

theorem reported_ne {α : Type} {f : α → Value} {r : Except Error α}
    (h : ∀ e, r = .error e → e.IsOwn) (other : String) :
    reported f r ≠ .error (.ofError (.indexNotOpen other)) := by
  intro he
  cases r with
  | ok a => cases he
  | error e =>
    have hmessage := Failure.runtime.inj (Except.error.inj he)
    obtain ⟨root, hroot⟩ := Error.eq_of_message_eq hmessage
    exact h e rfl root hroot

theorem answer_poll {i : Index} (h : s.find path = .ok (root, i)) (ticket : ℕ) :
    (s.answer (.poll path ticket)).1 = pollAnswer i.layout (s.fetches.poll root ticket).1 := by
  rw [answer, poll, h]
  rfl

/-- **Where an index is open, nobody is told that none is.** -/
theorem answer_ne_of_isOpen (hs : s.Sound) (hp : s.rootOf path = .ok root) (h : s.IsOpen root)
    (hq : q.Uses path) (other : String) :
    (s.answer q).1 ≠ .error (.ofError (.indexNotOpen other)) := by
  obtain ⟨i, hl⟩ := h
  have hfind : s.find path = .ok (root, i) := find_eq_ok_iff.mpr ⟨hp, hl⟩
  have hi := hs.indexes root i hl
  cases q with
  | search path' text limit =>
    obtain rfl : path' = path := hq
    have hown := (Index.sound_search hi text limit).2
    rw [answer, search, withIndex, hfind]
    exact reported_ne (fun e he => hown e (error_of_map_eq_error he)) other
  | fetch path' text limit =>
    obtain rfl : path' = path := hq
    rcases s.fetch_cases path' text limit with ⟨e, he, -⟩ | ⟨root', -, -, r, s', hf, hr, -⟩
    · exact nomatch he.symm.trans hfind
    · rw [answer, hf]
      exact reported_ne (fun e he => hr hs e (error_of_map_eq_error he)) other
  | poll path' ticket =>
    obtain rfl : path' = path := hq
    rw [answer_poll hfind]
    cases hpoll : (s.fetches.poll root ticket).1 with
    | superseded => exact nofun
    | pending => exact nofun
    | ready r =>
      refine reported_ne (fun e he => ?_) other
      exact hs.results root ticket e (he ▸ (Fetches.poll_eq_ready_iff _ _ _).mp hpoll)
  | interrupt path' =>
    obtain rfl : path' = path := hq
    rw [answer, interrupt, withIndex, hfind]
    exact nofun
  | _ => exact hq.elim

theorem answer_poll_iff (hp : s.rootOf path = .ok root) (h : s.IsOpen root) :
    (s.answer (.poll path ticket)).1 = .ok (.boolean false) ↔ s.standing root ≠ some ticket := by
  obtain ⟨i, hl⟩ := h
  have hsuperseded : (s.fetches.poll root ticket).1 = .superseded ↔
      s.standing root ≠ some ticket := by
    rw [Fetches.poll_eq_superseded_iff, standing, ne_eq, Option.map_eq_some_iff]
    simp only [not_exists, not_and, ne_eq]
  rw [← hsuperseded, answer_poll (find_eq_ok_iff.mpr ⟨hp, hl⟩)]
  cases (s.fetches.poll root ticket).1 with
  | superseded => simp [pollAnswer]
  | pending => simp [pollAnswer]
  | ready r => cases r <;> simp [pollAnswer, reported, entryTables]

end Session

end SymbolIndex.Editor
