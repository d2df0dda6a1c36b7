import SymbolIndex.Proofs.Store.Replace

/-!
# Replacements that fail

A replacement fails at an entry that cannot be stored, or where the storage breaks down: at one of
its steps, or for want of room at one of its rows. It becomes visible all at once in its last step,
so that a failure leaves nothing behind.

* `FirstInvalid`, `HasRoom`: what there is to find fault with in the entries of a replacement;
* `Draft.addBatches_of_firstInvalid`, `Draft.addBatches_of_not_hasRoom`,
  `Draft.addBatches_of_valid`: what becomes of the entries;
* `Breakdown`, `Store.attempt`: replacements over storage that may break down;
* `Store.attempt_cases`: such a replacement changes nothing or is a replacement like any other;
* `Store.attempt_of_firstInvalid`, `Store.attempt_error`, `Store.exists_not_valid_of_malformed`: why
  it fails.
-/

namespace SymbolIndex

/-! ## Entries that cannot be stored -/

/-- The entries before the place `j` of batch `i`, batch by batch. -/
def entriesBefore (batches : List (List Entry)) (i j : ℕ) : List Entry :=
  (batches.take i).flatten ++ (batches[i]?.getD []).take j

/-- The entry at the place `j` of batch `i` lacks something, and no entry before it does. -/
structure FirstInvalid (batches : List (List Entry)) (i j : ℕ) (defect : Defect) : Prop where
  entry : ∃ e, (batches[i]?.getD [])[j]? = some e ∧ e.defect? = some defect
  before : ∀ e ∈ entriesBefore batches i j, e.Valid

theorem FirstInvalid.exists_not_valid {batches : List (List Entry)} {i j : ℕ} {defect : Defect}
    (h : FirstInvalid batches i j defect) : ∃ e ∈ batches.flatten, ¬ e.Valid := by
  obtain ⟨e, he, hd⟩ := h.entry
  refine ⟨e, ?_, fun hv => ?_⟩
  · cases hi : batches[i]? with
    | none => simp [hi] at he
    | some entries =>
      rw [hi] at he
      exact List.mem_flatten.mpr ⟨entries, List.mem_of_getElem? hi, List.mem_of_getElem? he⟩
  · cases hd.symm.trans hv

theorem entriesBefore_zero (entries : List Entry) (batches : List (List Entry)) (j : ℕ) :
    entriesBefore (entries :: batches) 0 j = entries.take j := rfl

theorem entriesBefore_succ (entries : List Entry) (batches : List (List Entry)) (i j : ℕ) :
    entriesBefore (entries :: batches) (i + 1) j = entries ++ entriesBefore batches i j := by
  simp [entriesBefore]

theorem firstInvalid_succ {entries : List Entry} (h : ∀ e ∈ entries, e.Valid)
    {batches : List (List Entry)} {i j : ℕ} {defect : Defect} :
    FirstInvalid (entries :: batches) (i + 1) j defect ↔ FirstInvalid batches i j defect := by
  constructor
  · rintro ⟨hentry, hbefore⟩
    refine ⟨hentry, fun e he => hbefore e ?_⟩
    rw [entriesBefore_succ]
    exact List.mem_append_right _ he
  · rintro ⟨hentry, hbefore⟩
    refine ⟨hentry, fun e he => ?_⟩
    rw [entriesBefore_succ] at he
    exact (List.mem_append.mp he).elim (h e) (hbefore e)

theorem entriesBefore_isPrefix (batches : List (List Entry)) (i j : ℕ) :
    entriesBefore batches i j <+: batches.flatten := by
  induction batches generalizing i with
  | nil => simp [entriesBefore]
  | cons entries batches ih =>
    cases i with
    | zero =>
      rw [entriesBefore_zero, List.flatten_cons]
      exact (List.take_prefix j entries).trans (List.prefix_append _ _)
    | succ i =>
      rw [entriesBefore_succ, List.flatten_cons]
      exact (List.prefix_append_right_inj entries).mpr (ih i)

theorem exists_invalid_of_not_valid {entries : List Entry} (h : ¬ ∀ e ∈ entries, e.Valid) :
    ∃ j e defect, entries[j]? = some e ∧ e.defect? = some defect ∧ ∀ e ∈ entries.take j, e.Valid := by
  induction entries with
  | nil => exact absurd (fun _ he => absurd he List.not_mem_nil) h
  | cons e entries ih =>
    cases hd : e.defect? with
    | some defect => exact ⟨0, e, defect, rfl, hd, fun _ he => absurd he List.not_mem_nil⟩
    | none =>
      obtain ⟨j, e', defect, hj, hd', hbefore⟩ := ih fun hall => h fun e' he' => by
        rcases List.mem_cons.mp he' with rfl | he'
        · exact hd
        · exact hall e' he'
      refine ⟨j + 1, e', defect, hj, hd', fun e'' he'' => ?_⟩
      rcases List.mem_cons.mp he'' with rfl | he''
      · exact hd
      · exact hbefore e'' he''

theorem exists_firstInvalid {batches : List (List Entry)}
    (h : ¬ ∀ e ∈ batches.flatten, e.Valid) : ∃ i j defect, FirstInvalid batches i j defect := by
  induction batches with
  | nil => exact absurd (fun _ he => absurd he List.not_mem_nil) h
  | cons entries batches ih =>
    by_cases hentries : ∀ e ∈ entries, e.Valid
    · obtain ⟨i, j, defect, hfirst⟩ := ih fun hall => h fun e he =>
        (List.mem_append.mp he).elim (hentries e) (hall e)
      exact ⟨i + 1, j, defect, (firstInvalid_succ hentries).mpr hfirst⟩
    · obtain ⟨j, e, defect, hj, hd, hbefore⟩ := exists_invalid_of_not_valid hentries
      exact ⟨0, j, defect, ⟨e, hj, hd⟩, hbefore⟩

/-! ## Room for entries -/

/-- The room that some entries take at most. -/
def costOf (space : Space) (entries : List Entry) : ℕ := (entries.map space.ofRow).sum

theorem costOf_cons (space : Space) (e : Entry) (entries : List Entry) :
    costOf space (e :: entries) = space.ofRow e + costOf space entries := rfl

/-- Where so much of the room is taken, there is room for these entries. -/
def HasRoom (space : Space) (capacity cost : ℕ) (entries : List Entry) : Prop :=
  entries ≠ [] → cost + costOf space entries ≤ capacity

theorem hasRoom_nil (space : Space) (capacity cost : ℕ) : HasRoom space capacity cost [] :=
  fun h => absurd rfl h

theorem hasRoom_cons {space : Space} {capacity cost : ℕ} {e : Entry} {entries : List Entry} :
    HasRoom space capacity cost (e :: entries) ↔
      cost + space.ofRow e ≤ capacity ∧ HasRoom space capacity (cost + space.ofRow e) entries := by
  unfold HasRoom
  rw [costOf_cons, ← Nat.add_assoc]
  cases entries with
  | nil => simp [costOf]
  | cons e' entries =>
    simp only [ne_eq, reduceCtorEq, not_false_eq_true, true_imp_iff]
    omega

theorem hasRoom_append {space : Space} {capacity cost : ℕ} {entries more : List Entry} :
    HasRoom space capacity cost (entries ++ more) ↔
      HasRoom space capacity cost entries ∧ HasRoom space capacity (cost + costOf space entries) more := by
  induction entries generalizing cost with
  | nil => simp [hasRoom_nil, costOf]
  | cons e entries ih =>
    rw [List.cons_append, hasRoom_cons, hasRoom_cons, ih, and_assoc, costOf_cons, Nat.add_assoc]

/-! ## What becomes of the entries -/

namespace Draft

variable {space : Space} {capacity : ℕ} {d : Draft}

theorem add_of_valid (batch index : ℕ) {e : Entry} (hv : e.Valid)
    (hroom : d.cost + space.ofRow e ≤ capacity) :
    ∃ d', d.add space capacity batch index e = .ok d' ∧ d'.cost = d.cost + space.ofRow e := by
  unfold add
  rw [show e.defect? = none from hv]
  exact ⟨_, if_neg (Nat.not_lt.mpr hroom), rfl⟩

theorem add_of_not_hasRoom (batch index : ℕ) {e : Entry} (hv : e.Valid)
    (hroom : ¬ d.cost + space.ofRow e ≤ capacity) :
    d.add space capacity batch index e = .error .dbWrite := by
  unfold add
  rw [show e.defect? = none from hv]
  exact if_pos (Nat.lt_of_not_le hroom)

theorem add_of_invalid (batch index : ℕ) {e : Entry} {defect : Defect}
    (h : e.defect? = some defect) :
    d.add space capacity batch index e = .error (.malformedEntry batch index defect.reason) := by
  unfold add
  rw [h]

theorem addEntries_append (batch index : ℕ) (entries more : List Entry) :
    d.addEntries space capacity batch index (entries ++ more) =
      d.addEntries space capacity batch index entries >>= fun d =>
        d.addEntries space capacity batch (index + entries.length) more := by
  induction entries generalizing d index with
  | nil => rfl
  | cons e entries ih =>
    rw [List.cons_append, addEntries, addEntries]
    cases d.add space capacity batch index e with
    | error err => rfl
    | ok d' =>
      rw [List.length_cons, ← Nat.add_assoc, Nat.add_right_comm]
      exact ih (index + 1)

theorem addEntries_of_valid (batch index : ℕ) {entries : List Entry} (hv : ∀ e ∈ entries, e.Valid)
    (hroom : HasRoom space capacity d.cost entries) :
    ∃ d', d.addEntries space capacity batch index entries = .ok d' ∧
      d'.cost = d.cost + costOf space entries := by
  induction entries generalizing d index with
  | nil => exact ⟨d, rfl, rfl⟩
  | cons e entries ih =>
    obtain ⟨hfirst, hrest⟩ := hasRoom_cons.mp hroom
    obtain ⟨d₁, hadd, hcost⟩ := add_of_valid batch index (hv e List.mem_cons_self) hfirst
    rw [← hcost] at hrest
    obtain ⟨d', hd', hcost'⟩ := ih (index + 1) (fun e' he' => hv e' (List.mem_cons_of_mem e he')) hrest
    refine ⟨d', ?_, by rw [hcost', hcost, costOf_cons, Nat.add_assoc]⟩
    rw [addEntries, hadd]
    exact hd'

theorem addEntries_of_not_hasRoom (batch index : ℕ) {entries : List Entry}
    (hv : ∀ e ∈ entries, e.Valid) (hroom : ¬ HasRoom space capacity d.cost entries) :
    d.addEntries space capacity batch index entries = .error .dbWrite := by
  induction entries generalizing d index with
  | nil => exact absurd (hasRoom_nil space capacity d.cost) hroom
  | cons e entries ih =>
    have hve : e.Valid := hv e List.mem_cons_self
    by_cases hfirst : d.cost + space.ofRow e ≤ capacity
    · obtain ⟨d₁, hadd, hcost⟩ := add_of_valid batch index hve hfirst
      rw [addEntries, hadd]
      refine ih (index + 1) (fun e' he' => hv e' (List.mem_cons_of_mem e he')) fun hrest => ?_
      rw [hcost] at hrest
      exact hroom (hasRoom_cons.mpr ⟨hfirst, hrest⟩)
    · rw [addEntries, add_of_not_hasRoom batch index hve hfirst]
      rfl

/-- An entry that lacks something is found if there is room for those before it. -/
theorem addEntries_of_invalid (batch : ℕ) {entries : List Entry} {j : ℕ} {e : Entry}
    {defect : Defect} (he : entries[j]? = some e) (hd : e.defect? = some defect)
    (hv : ∀ e ∈ entries.take j, e.Valid) (hroom : HasRoom space capacity d.cost (entries.take j)) :
    d.addEntries space capacity batch 0 entries = .error (.malformedEntry batch j defect.reason) := by
  obtain ⟨hj, rfl⟩ := List.getElem?_eq_some_iff.mp he
  have hsplit : entries = entries.take j ++ entries[j] :: entries.drop (j + 1) := by simp
  obtain ⟨d', hd', -⟩ := addEntries_of_valid batch 0 hv hroom
  have hindex : 0 + (entries.take j).length = j := by simp [Nat.le_of_lt hj]
  rw [hsplit, addEntries_append, hd']
  show d'.addEntries space capacity batch (0 + (entries.take j).length) _ = _
  rw [hindex, addEntries, add_of_invalid batch j hd]
  rfl

/-- **Entries that can be stored are stored if there is room for them.** -/
theorem addBatches_of_valid (batch : ℕ) {batches : List (List Entry)}
    (hv : ∀ e ∈ batches.flatten, e.Valid) (hroom : HasRoom space capacity d.cost batches.flatten) :
    ∃ d', d.addBatches space capacity batch batches = .ok d' := by
  induction batches generalizing d batch with
  | nil => exact ⟨d, rfl⟩
  | cons entries batches ih =>
    rw [List.flatten_cons, hasRoom_append] at hroom
    obtain ⟨d₁, hadd, hcost⟩ := addEntries_of_valid batch 0
      (fun e he => hv e (List.mem_append_left _ he)) hroom.1
    obtain ⟨d', hd'⟩ := ih (batch + 1) (fun e he => hv e (List.mem_append_right _ he))
      (by rw [hcost]; exact hroom.2)
    refine ⟨d', ?_⟩
    rw [addBatches, hadd]
    exact hd'

/-- **If there is no room for the first entries, the storage is at fault**, whatever is behind
them. -/
theorem addBatches_of_not_hasRoom (batch : ℕ) {batches : List (List Entry)}
    {entries rest : List Entry} (hsplit : batches.flatten = entries ++ rest)
    (hv : ∀ e ∈ entries, e.Valid) (hroom : ¬ HasRoom space capacity d.cost entries) :
    d.addBatches space capacity batch batches = .error .dbWrite := by
  induction batches generalizing d batch entries with
  | nil =>
    obtain ⟨rfl, -⟩ := List.append_eq_nil_iff.mp hsplit.symm
    exact absurd (hasRoom_nil space capacity d.cost) hroom
  | cons first batches ih =>
    rw [List.flatten_cons] at hsplit
    rw [addBatches]
    rcases List.append_eq_append_iff.mp hsplit with ⟨more, rfl, hmore⟩ | ⟨more, rfl, hmore⟩
    · -- the room lasts for the whole of the first batch or not even for that
      have hfirst : ∀ e ∈ first, e.Valid := fun e he => hv e (List.mem_append_left _ he)
      by_cases hlasts : HasRoom space capacity d.cost first
      · obtain ⟨d₁, hadd, hcost⟩ := addEntries_of_valid batch 0 hfirst hlasts
        rw [hadd]
        refine ih (batch + 1) hmore (fun e he => hv e (List.mem_append_right _ he)) fun hrest => ?_
        rw [hcost] at hrest
        exact hroom (hasRoom_append.mpr ⟨hlasts, hrest⟩)
      · rw [addEntries_of_not_hasRoom batch 0 hfirst hlasts]
        rfl
    · rw [addEntries_append, addEntries_of_not_hasRoom batch 0 hv hroom]
      rfl

/-- **The first entry that cannot be stored is found** if there is room for those before it. -/
theorem addBatches_of_firstInvalid (batch : ℕ) {batches : List (List Entry)} {i j : ℕ}
    {defect : Defect} (h : FirstInvalid batches i j defect)
    (hroom : HasRoom space capacity d.cost (entriesBefore batches i j)) :
    d.addBatches space capacity batch batches =
      .error (.malformedEntry (batch + i) j defect.reason) := by
  induction batches generalizing d batch i with
  | nil =>
    obtain ⟨⟨e, he, -⟩, -⟩ := h
    simp at he
  | cons entries batches ih =>
    cases i with
    | zero =>
      obtain ⟨⟨e, he, hd⟩, hbefore⟩ := h
      have he : entries[j]? = some e := he
      rw [addBatches, addEntries_of_invalid batch he hd hbefore hroom]
      rfl
    | succ i =>
      have hv : ∀ e ∈ entries, e.Valid := fun e he => h.before e (by
        rw [entriesBefore_succ]
        exact List.mem_append_left _ he)
      rw [entriesBefore_succ, hasRoom_append] at hroom
      obtain ⟨d₁, hadd, hcost⟩ := addEntries_of_valid batch 0 hv hroom.1
      have hnumber : batch + (i + 1) = batch + 1 + i := by omega
      rw [hnumber, addBatches, hadd]
      exact ih (batch + 1) ((firstInvalid_succ hv).mp h) (by rw [hcost]; exact hroom.2)

theorem exists_error_of_firstInvalid {batches : List (List Entry)} {i j : ℕ} {defect : Defect}
    (h : FirstInvalid batches i j defect) : ∃ e, d.addBatches space capacity 0 batches = .error e := by
  by_cases hroom : HasRoom space capacity d.cost (entriesBefore batches i j)
  · exact ⟨_, addBatches_of_firstInvalid 0 h hroom⟩
  · obtain ⟨rest, hrest⟩ := entriesBefore_isPrefix batches i j
    exact ⟨_, addBatches_of_not_hasRoom 0 hrest.symm h.before hroom⟩

theorem cases_of_addBatches_eq_error {batches : List (List Entry)} {e : Error}
    (h : d.addBatches space capacity 0 batches = .error e) :
    e = .dbWrite ∨ ∃ i j defect, FirstInvalid batches i j defect ∧
      HasRoom space capacity d.cost (entriesBefore batches i j) := by
  by_cases hv : ∀ e ∈ batches.flatten, e.Valid
  · refine .inl ?_
    by_cases hroom : HasRoom space capacity d.cost batches.flatten
    · obtain ⟨d', hd'⟩ := addBatches_of_valid 0 hv hroom
      cases hd'.symm.trans h
    · have hfull := addBatches_of_not_hasRoom 0 (List.append_nil _).symm hv hroom
      exact (Except.error.inj (hfull.symm.trans h)).symm
  · obtain ⟨i, j, defect, hfirst⟩ := exists_firstInvalid hv
    by_cases hroom : HasRoom space capacity d.cost (entriesBefore batches i j)
    · exact .inr ⟨i, j, defect, hfirst, hroom⟩
    · obtain ⟨rest, hrest⟩ := entriesBefore_isPrefix batches i j
      have hfull := addBatches_of_not_hasRoom 0 hrest.symm hfirst.before hroom
      exact .inl (Except.error.inj (hfull.symm.trans h)).symm

/-! ### More room -/

theorem add_of_le {capacity' batch index : ℕ} (hle : capacity ≤ capacity') {e : Entry} {d' : Draft}
    (h : d.add space capacity batch index e = .ok d') : d.add space capacity' batch index e = .ok d' := by
  unfold add at h ⊢
  cases hd : e.defect? with
  | some defect => rw [hd] at h; cases h
  | none =>
    rw [hd] at h
    dsimp only at h ⊢
    split at h
    · cases h
    · next hroom =>
      rw [if_neg (by omega)]
      exact h

theorem addEntries_of_le {capacity' batch index : ℕ} (hle : capacity ≤ capacity')
    {entries : List Entry} {d' : Draft}
    (h : d.addEntries space capacity batch index entries = .ok d') :
    d.addEntries space capacity' batch index entries = .ok d' := by
  induction entries generalizing d index with
  | nil => exact h
  | cons e entries ih =>
    rw [addEntries] at h ⊢
    cases hadd : d.add space capacity batch index e with
    | error err => rw [hadd] at h; cases h
    | ok d₁ =>
      rw [hadd] at h
      rw [add_of_le hle hadd]
      exact ih h

theorem addBatches_of_le {capacity' batch : ℕ} (hle : capacity ≤ capacity')
    {batches : List (List Entry)} {d' : Draft}
    (h : d.addBatches space capacity batch batches = .ok d') :
    d.addBatches space capacity' batch batches = .ok d' := by
  induction batches generalizing d batch with
  | nil => exact h
  | cons entries batches ih =>
    rw [addBatches] at h ⊢
    cases hadd : d.addEntries space capacity batch 0 entries with
    | error err => rw [hadd] at h; cases h
    | ok d₁ =>
      rw [hadd] at h
      rw [addEntries_of_le hle hadd]
      exact ih h

end Draft

/-! ## Storage that breaks down -/

/-- Where the storage breaks down in a replacement. -/
inductive Breakdown where
  /-- nothing can be begun -/
  | beginning
  /-- the record cannot be read -/
  | reading
  /-- the rows that are there cannot be taken away -/
  | clearing
  /-- there is no more room than this, so that a row cannot be written -/
  | filling (room : ℕ)
  /-- the record cannot be written -/
  | recording
  /-- what has been written cannot be made visible -/
  | committing
  deriving DecidableEq

namespace Breakdown

/-- A step of a replacement, which fails if it is where the storage breaks down. -/
def check (b : Option Breakdown) (step : Breakdown) (e : Error) : Except Error Unit :=
  if b = some step then .error e else .ok ()

/-- The room that there is in fact. -/
def roomOf (b : Option Breakdown) (capacity : ℕ) : ℕ :=
  match b with
  | some (filling room) => min room capacity
  | _ => capacity

/-- What storage reports that breaks down. -/
def errors : List Error := [.dbStartWriteTxn, .dbRead, .dbWrite, .dbCommit]

end Breakdown

namespace Store

open Breakdown

/-- All that a replacement does before it becomes visible: its rows, and what is known of them. -/
def prepare (s : Store) (b : Option Breakdown) (batches : List (List Entry)) :
    Except Error (Draft × Generation) := do
  check b .beginning .dbStartWriteTxn
  check b .reading .dbRead
  let previous ← s.database.generation
  check b .clearing .dbWrite
  let draft ← Draft.addBatches s.space (roomOf b s.capacity) 0 { cost := s.database.cost s.space } batches
  check b .recording .dbWrite
  check b .committing .dbCommit
  return (draft,
    { schemaVersion
      number := (previous.map (·.number)).getD 0 + 1
      count := draft.count })

/-- Put the entries of the batches in the place of all that are there, over storage that may break
down. -/
def attempt (s : Store) (b : Option Breakdown) (batches : List (List Entry)) :
    Except Error Generation × Store :=
  match s.prepare b batches with
  | .error e => (.error e, s)
  | .ok (draft, g) =>
    (.ok g,
      { s with
        database := ⟨draft.rows, some (.generation g)⟩
        knownLength := some draft.count })

variable {s : Store} {b : Option Breakdown} {batches : List (List Entry)}

/-- **Over storage that does not break down it is a replacement.** -/
theorem attempt_none (s : Store) (batches : List (List Entry)) :
    s.attempt none batches = s.replace batches := by
  have hprepare : s.prepare none batches = (do
      let previous ← s.database.generation
      let draft ← Draft.addBatches s.space s.capacity 0 { cost := s.database.cost s.space } batches
      return (draft,
        { schemaVersion
          number := (previous.map (·.number)).getD 0 + 1
          count := draft.count })) := rfl
  rw [attempt, hprepare, replace]
  cases s.database.generation with
  | error e => rfl
  | ok previous =>
    dsimp only
    cases Draft.addBatches s.space s.capacity 0 { cost := s.database.cost s.space } batches <;> rfl

theorem roomOf_le (b : Option Breakdown) (capacity : ℕ) : roomOf b capacity ≤ capacity := by
  unfold roomOf
  split
  · exact Nat.min_le_right _ _
  · exact le_rfl

/-- What has been prepared are all of the entries, under the number behind the last one. -/
theorem prepare_ok {draft : Draft} {g : Generation} (h : s.prepare b batches = .ok (draft, g)) :
    ∃ previous, s.database.generation = .ok previous ∧
      Draft.addBatches s.space (roomOf b s.capacity) 0 { cost := s.database.cost s.space } batches = .ok draft ∧
      g = ⟨schemaVersion, (previous.map (·.number)).getD 0 + 1, draft.count⟩ := by
  unfold prepare at h
  obtain ⟨_, -, h⟩ := exists_of_bind_eq_ok h
  obtain ⟨_, -, h⟩ := exists_of_bind_eq_ok h
  obtain ⟨previous, hprevious, h⟩ := exists_of_bind_eq_ok h
  obtain ⟨_, -, h⟩ := exists_of_bind_eq_ok h
  obtain ⟨draft', hdraft, h⟩ := exists_of_bind_eq_ok h
  obtain ⟨_, -, h⟩ := exists_of_bind_eq_ok h
  obtain ⟨_, -, h⟩ := exists_of_bind_eq_ok h
  obtain ⟨rfl, rfl⟩ := Prod.mk.inj (Except.ok.inj h)
  exact ⟨previous, hprevious, hdraft, rfl⟩

theorem prepare_none {prepared : Draft × Generation} (h : s.prepare b batches = .ok prepared) :
    s.prepare none batches = .ok prepared := by
  obtain ⟨draft, g⟩ := prepared
  obtain ⟨previous, hprevious, hdraft, rfl⟩ := prepare_ok h
  have hall : Draft.addBatches s.space (roomOf none s.capacity) 0 { cost := s.database.cost s.space } batches =
      .ok draft := Draft.addBatches_of_le (roomOf_le b s.capacity) hdraft
  unfold prepare
  rw [hprevious, hall]
  rfl

/-- **A replacement fails and changes nothing, or it succeeds** and the storage has not broken down
as far as anybody can see. -/
theorem attempt_cases (s : Store) (b : Option Breakdown) (batches : List (List Entry)) :
    (∃ e, s.attempt b batches = (.error e, s)) ∨
      s.attempt b batches = s.replace batches ∧ ∃ g, (s.replace batches).1 = .ok g := by
  cases hp : s.prepare b batches with
  | error e => exact .inl ⟨e, by rw [attempt, hp]⟩
  | ok prepared =>
    have hsame : s.attempt b batches = s.attempt none batches := by
      rw [attempt, attempt, hp, prepare_none hp]
    refine .inr ⟨hsame.trans (attempt_none s batches), prepared.2, ?_⟩
    rw [← attempt_none, attempt, prepare_none hp]

/-! ### Why a replacement fails -/

/-- The storage lasts until these entries, the first of a replacement, have been written. -/
structure Lasts (s : Store) (b : Option Breakdown) (entries : List Entry) : Prop where
  begins : b ≠ some .beginning
  reads : b ≠ some .reading
  readable : s.database.record ≠ some .unreadable
  clears : b ≠ some .clearing
  room : HasRoom s.space (roomOf b s.capacity) (s.database.cost s.space) entries

theorem check_eq_ok_iff {step : Breakdown} {e : Error} :
    check b step e = .ok () ↔ b ≠ some step := by
  unfold check
  split <;> simp [*]

theorem eq_of_check_eq_error {step : Breakdown} {e e' : Error} (h : check b step e = .error e') :
    e' = e := by
  unfold check at h
  split at h
  · exact (Except.error.inj h).symm
  · cases h

theorem generation_cases (d : Database) :
    (d.record = some .unreadable ∧ d.generation = .error .dbRead) ∨
      d.record ≠ some .unreadable ∧ ∃ previous, d.generation = .ok previous := by
  unfold Database.generation
  cases d.record with
  | none => exact .inr ⟨by simp, none, rfl⟩
  | some record =>
    cases record with
    | generation g => exact .inr ⟨by simp, some g, rfl⟩
    | unreadable => exact .inl ⟨rfl, rfl⟩

/-- What becomes of the entries of a replacement for which the storage lasts so long. -/
theorem prepare_eq_error (hbegins : b ≠ some .beginning) (hreads : b ≠ some .reading)
    (hreadable : s.database.record ≠ some .unreadable) (hclears : b ≠ some .clearing) {e : Error}
    (h : Draft.addBatches s.space (roomOf b s.capacity) 0 { cost := s.database.cost s.space } batches =
      .error e) : s.prepare b batches = .error e := by
  obtain ⟨previous, hprevious⟩ :=
    ((generation_cases s.database).resolve_left fun hr => hreadable hr.1).2
  unfold prepare
  rw [check_eq_ok_iff.mpr hbegins, check_eq_ok_iff.mpr hreads, hprevious, check_eq_ok_iff.mpr hclears, h]
  rfl

/-- **If an entry is at fault it is the first one that cannot be stored**, and the error says which
one it is and what it lacks. -/
theorem attempt_of_firstInvalid {i j : ℕ} {defect : Defect} (h : FirstInvalid batches i j defect)
    (hl : s.Lasts b (entriesBefore batches i j)) :
    (s.attempt b batches).1 = .error (.malformedEntry i j defect.reason) := by
  have hadd := Draft.addBatches_of_firstInvalid (d := { cost := s.database.cost s.space }) 0 h hl.room
  rw [Nat.zero_add] at hadd
  rw [attempt, prepare_eq_error hl.begins hl.reads hl.readable hl.clears hadd]

/-- **A replacement with an entry that cannot be stored fails.** -/
theorem exists_error_of_firstInvalid {i j : ℕ} {defect : Defect} (s : Store) (b : Option Breakdown)
    (h : FirstInvalid batches i j defect) : ∃ e, (s.attempt b batches).1 = .error e := by
  rcases s.attempt_cases b batches with ⟨e, hs⟩ | ⟨-, g, hg⟩
  · exact ⟨e, by rw [hs]⟩
  · -- a replacement that succeeds has written all of its entries
    rw [← attempt_none, attempt] at hg
    cases hp : s.prepare none batches with
    | error e => rw [hp] at hg; cases hg
    | ok prepared =>
      obtain ⟨_, -, hdraft, -⟩ := prepare_ok hp
      obtain ⟨e, he⟩ := Draft.exists_error_of_firstInvalid h
      cases hdraft.symm.trans he

/-- If a replacement fails and no entry is at fault, it is the storage. -/
theorem attempt_error {e : Error} (he : (s.attempt b batches).1 = .error e) :
    (∃ i j defect, FirstInvalid batches i j defect ∧ s.Lasts b (entriesBefore batches i j)) ∨
      e ∈ Breakdown.errors := by
  have hp : s.prepare b batches = .error e := by
    rw [attempt] at he
    cases hp : s.prepare b batches with
    | error e' =>
      rw [hp] at he
      exact congrArg Except.error (Except.error.inj he)
    | ok prepared =>
      rw [hp] at he
      cases he
  unfold prepare at hp
  rcases error_of_bind_eq_error hp with h | ⟨_, hbegins, hp⟩
  · obtain rfl := eq_of_check_eq_error h
    exact .inr (by decide)
  rcases error_of_bind_eq_error hp with h | ⟨_, hreads, hp⟩
  · obtain rfl := eq_of_check_eq_error h
    exact .inr (by decide)
  rcases error_of_bind_eq_error hp with h | ⟨previous, hprevious, hp⟩
  · rcases generation_cases s.database with ⟨-, hr⟩ | ⟨-, previous, hr⟩
    · obtain rfl := Except.error.inj (hr.symm.trans h)
      exact .inr (by decide)
    · cases hr.symm.trans h
  rcases error_of_bind_eq_error hp with h | ⟨_, hclears, hp⟩
  · obtain rfl := eq_of_check_eq_error h
    exact .inr (by decide)
  rcases error_of_bind_eq_error hp with h | ⟨draft, -, hp⟩
  · rcases Draft.cases_of_addBatches_eq_error h with rfl | ⟨i, j, defect, hfirst, hroom⟩
    · exact .inr (by decide)
    · have hreadable : s.database.record ≠ some .unreadable := fun hr => by
        rw [Database.generation, hr] at hprevious
        cases hprevious
      exact .inl ⟨i, j, defect, hfirst, check_eq_ok_iff.mp hbegins, check_eq_ok_iff.mp hreads,
        hreadable, check_eq_ok_iff.mp hclears, hroom⟩
  rcases error_of_bind_eq_error hp with h | ⟨_, -, hp⟩
  · obtain rfl := eq_of_check_eq_error h
    exact .inr (by decide)
  rcases error_of_bind_eq_error hp with h | ⟨_, -, hp⟩
  · obtain rfl := eq_of_check_eq_error h
    exact .inr (by decide)
  · cases hp

/-- **If a replacement finds fault with an entry, there is one that cannot be stored.** -/
theorem exists_not_valid_of_malformed {i j : ℕ} {reason : String}
    (h : (s.replace batches).1 = .error (.malformedEntry i j reason)) :
    ∃ e ∈ batches.flatten, ¬ e.Valid := by
  rw [← attempt_none] at h
  rcases attempt_error h with ⟨i', j', defect, hfirst, -⟩ | hstorage
  · exact hfirst.exists_not_valid
  · simp [Breakdown.errors] at hstorage

theorem exists_error_of_not_valid (s : Store) {e : Entry} (he : e ∈ batches.flatten)
    (hv : ¬ e.Valid) : ∃ err, (s.replace batches).1 = .error err := by
  obtain ⟨i, j, defect, hfirst⟩ := exists_firstInvalid fun hall => hv (hall e he)
  rw [← attempt_none]
  exact s.exists_error_of_firstInvalid none hfirst

end Store

end SymbolIndex
