import SymbolIndex.Proofs.Store.Breakdown

/-!
# The order in which entries are stored

The entries of a replacement are numbered from its first batch to its last, and keys rise with the
numbers. So a store goes through the entries in the order in which they came, and it makes no
difference where one batch ended and the next began.

* `sequenceKey_lt_iff`: the order of keys is that of numbers;
* `Draft.addBatches_eq_ok_iff`: batches are added like a single one;
* `Store.IteratesOver`, `Store.replace_iteratesOver`: what a replacement leaves behind.
-/

namespace SymbolIndex

/-- **The order of keys is the order of insertion**, as far as keys go. -/
theorem sequenceKey_lt_iff {m n : ℕ} (hm : m < 2 ^ 64) (hn : n < 2 ^ 64) :
    sequenceKey m < sequenceKey n ↔ m < n := by
  refine ⟨fun h => ?_, fun h => sequenceKey_lt h hn⟩
  by_contra hle
  rcases Nat.eq_or_lt_of_le (Nat.le_of_not_lt hle) with rfl | hlt
  · exact List.lt_irrefl _ h
  · exact List.lt_asymm h (sequenceKey_lt hlt hm)

/-! ## Batches -/

namespace Draft

variable {space : Space} {capacity : ℕ} {d d' : Draft}

/-- The place of an entry in its batch only shows in errors. -/
theorem add_eq_ok_iff {batch index : ℕ} (batch' index' : ℕ) {e : Entry} :
    d.add space capacity batch index e = .ok d' ↔ d.add space capacity batch' index' e = .ok d' := by
  unfold add
  cases e.defect? with
  | some defect => simp
  | none => rfl

theorem addEntries_eq_ok_iff {batch index : ℕ} (batch' index' : ℕ) {entries : List Entry} :
    d.addEntries space capacity batch index entries = .ok d' ↔
      d.addEntries space capacity batch' index' entries = .ok d' := by
  induction entries generalizing d index index' with
  | nil => rfl
  | cons e entries ih =>
    rw [addEntries, addEntries]
    constructor
    · intro h
      obtain ⟨d₁, hadd, hrest⟩ := exists_of_bind_eq_ok h
      rw [(add_eq_ok_iff batch' index').mp hadd]
      exact (ih (index' + 1)).mp hrest
    · intro h
      obtain ⟨d₁, hadd, hrest⟩ := exists_of_bind_eq_ok h
      rw [(add_eq_ok_iff batch index).mp hadd]
      exact (ih (index' + 1)).mpr hrest

/-- **Batches are added like a single one.** -/
theorem addBatches_eq_ok_iff {batch : ℕ} {batches : List (List Entry)} :
    d.addBatches space capacity batch batches = .ok d' ↔
      d.addEntries space capacity 0 0 batches.flatten = .ok d' := by
  induction batches generalizing d batch with
  | nil => rfl
  | cons entries batches ih =>
    rw [addBatches, List.flatten_cons, addEntries_append]
    constructor
    · intro h
      obtain ⟨d₁, hadd, hrest⟩ := exists_of_bind_eq_ok h
      rw [(addEntries_eq_ok_iff 0 0).mp hadd]
      exact (addEntries_eq_ok_iff 0 _).mp (ih.mp hrest)
    · intro h
      obtain ⟨d₁, hadd, hrest⟩ := exists_of_bind_eq_ok h
      rw [(addEntries_eq_ok_iff batch 0).mp hadd]
      exact ih.mpr ((addEntries_eq_ok_iff 0 _).mp hrest)

end Draft

/-! ## Stores -/

namespace Store

/-- The store goes through these entries, in this order and no others. -/
structure IteratesOver (s : Store) (entries : List Entry) : Prop where
  /-- there is one row for each of them, under the key of its place -/
  rows : s.database.rows.reverse = entries.zipIdx.map fun (e, n) => (sequenceKey n, e)
  /-- which is the order of the keys -/
  rising : (s.database.rows.reverse.map (·.1)).Pairwise (· < ·)
  query : ∀ plan limit probe, s.query plan limit probe = plan.execute (entries.map .ok) limit probe
  length : s.length.1 = entries.length
  isEmpty : s.isEmpty.1 = true ↔ entries = []
  kindCounts : s.kindCounts = kindCountsOf entries

theorem iteratesOver_replace {s : Store} (hc : s.capacity < 2 ^ 64) {batches : List (List Entry)}
    {g : Generation} (h : (s.replace batches).1 = .ok g) :
    (s.replace batches).2.IteratesOver batches.flatten := by
  obtain ⟨hrows, hfalling, hknown⟩ := replace_rows hc h
  have hentries := (replace_ok hc h).1
  have hlength : (s.replace batches).2.length.1 = batches.flatten.length := by
    rw [length, hknown]
  refine ⟨?_, ?_, fun plan limit probe => ?_, hlength, ?_, ?_⟩
  · rw [hrows, numberedRows, List.reverse_reverse]
  · rw [List.pairwise_map, List.pairwise_reverse]
    exact hfalling
  · rw [query, hentries]
  · show ((s.replace batches).2.length.1 == 0) = true ↔ _
    rw [hlength, beq_iff_eq, List.length_eq_zero_iff]
  · rw [kindCounts, hentries]

/-- A replacement by some batches and one by all their entries in a single batch succeed together,
with one outcome. -/
theorem replace_flatten (s : Store) (batches : List (List Entry)) :
    (s.replace [batches.flatten]).1.toOption = (s.replace batches).1.toOption ∧
      (s.replace [batches.flatten]).2 = (s.replace batches).2 := by
  have hsame : ∀ draft,
      Draft.addBatches s.space s.capacity 0 { cost := s.database.cost s.space } [batches.flatten] = .ok draft ↔
        Draft.addBatches s.space s.capacity 0 { cost := s.database.cost s.space } batches = .ok draft := by
    intro draft
    rw [Draft.addBatches_eq_ok_iff, Draft.addBatches_eq_ok_iff, List.flatten_singleton]
  unfold replace
  cases s.database.generation with
  | error e => exact ⟨rfl, rfl⟩
  | ok previous =>
    cases hd : Draft.addBatches s.space s.capacity 0 { cost := s.database.cost s.space } batches with
    | ok draft =>
      rw [(hsame draft).mpr hd]
      exact ⟨rfl, rfl⟩
    | error e =>
      cases hd' : Draft.addBatches s.space s.capacity 0 { cost := s.database.cost s.space } [batches.flatten] with
      | ok draft => cases ((hsame draft).mp hd').symm.trans hd
      | error e' => exact ⟨rfl, rfl⟩

/-- **A replacement stores the entries of its batches**, one batch after the other, however many
they are; and it does so whether or not they come in a single batch. -/
theorem replace_iteratesOver {s : Store} (hc : s.capacity < 2 ^ 64)
    (batches : List (List Entry)) :
    (∀ g, (s.replace batches).1 = .ok g →
      (s.replace batches).2.IteratesOver batches.flatten ∧
        (s.replace [batches.flatten]).1 = .ok g) ∧
    (s.replace [batches.flatten]).2 = (s.replace batches).2 ∧
    ∀ m n, m < 2 ^ 64 → n < 2 ^ 64 → (sequenceKey m < sequenceKey n ↔ m < n) := by
  obtain ⟨hgeneration, hstore⟩ := replace_flatten s batches
  refine ⟨fun g h => ⟨iteratesOver_replace hc h, ?_⟩, hstore, fun m n => sequenceKey_lt_iff⟩
  rw [h] at hgeneration
  cases hr : (s.replace [batches.flatten]).1 with
  | error e => rw [hr] at hgeneration; cases hgeneration
  | ok g' =>
    rw [hr] at hgeneration
    exact congrArg Except.ok (Option.some.inj hgeneration)

/-- A store that holds an entry of its first generation. -/
def onceReplaced : Store where
  path := "/"
  place := "/"
  database :=
    { rows := [(sequenceKey 0, { name := "old", kind := "fn", file := "a" })]
      record := some (.generation ⟨schemaVersion, 1, 1⟩) }
  capacity := 65536

/-- Batches of which one is empty, with an entry that occurs twice. -/
def unevenBatches : List (List Entry) :=
  [[{ name := "foo", kind := "fn", file := "a" }], [],
    [{ name := "bar", kind := "var", file := "b" }, { name := "foo", kind := "fn", file := "a" }]]

theorem replace_iteratesOver_unevenBatches :
    onceReplaced.capacity < 2 ^ 64 ∧
    (onceReplaced.replace unevenBatches).1 = .ok ⟨schemaVersion, 2, 3⟩ ∧
    (onceReplaced.replace unevenBatches).2.IteratesOver unevenBatches.flatten ∧
    (onceReplaced.replace [unevenBatches.flatten]).2 = (onceReplaced.replace unevenBatches).2 ∧
    sequenceKey 255 < sequenceKey 256 := by
  have hc : onceReplaced.capacity < 2 ^ 64 := by decide
  have hok : (onceReplaced.replace unevenBatches).1 = .ok ⟨schemaVersion, 2, 3⟩ := by decide
  obtain ⟨hstores, hflat, hkeys⟩ := replace_iteratesOver hc unevenBatches
  exact ⟨hc, hok, (hstores _ hok).1, hflat, (hkeys 255 256 (by decide) (by decide)).mpr (by decide)⟩

end Store

end SymbolIndex
