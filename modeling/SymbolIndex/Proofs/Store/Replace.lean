import Mathlib.Tactic.NormNum
import Mathlib.Tactic.Positivity
import SymbolIndex.Proofs.Outcomes
import SymbolIndex.Store.Basic

/-!
# Replacing what a store holds

A replacement that succeeds leaves the entries of its batches behind, one batch after the other, and
one that fails leaves everything as it was.

* `sequenceKey_lt`: the order of keys is the order in which entries are inserted;
* `numberedRows`, `Draft.Holds`, `Draft.holds_addBatches`: the rows of a replacement on its way;
* `Store.replace_rows`, `Store.replace_ok`, `Store.replace_error`: replacements;
* `Store.Counted`, `Store.length_eq`: the number of entries that a store remembers.
-/

namespace SymbolIndex

/-! ## Keys -/

theorem bytesBigEndian_lt (count : ℕ) {m n : ℕ} (h : m % 256 ^ count < n % 256 ^ count) :
    bytesBigEndian count m < bytesBigEndian count n := by
  induction count with
  | zero => simp [Nat.mod_one] at h
  | succ count ih =>
    have hhead : ∀ k : ℕ, (UInt8.ofNat (k >>> (8 * count))).toNat = k / 256 ^ count % 256 := by
      intro k
      rw [UInt8.toNat_ofNat', Nat.shiftRight_eq_div_pow, Nat.pow_mul]
    rw [Nat.mod_pow_succ, Nat.mod_pow_succ] at h
    rw [bytesBigEndian, bytesBigEndian, List.cons_lt_cons_iff, UInt8.lt_iff_toNat_lt,
      ← UInt8.toNat_inj, hhead, hhead]
    rcases lt_trichotomy (m / 256 ^ count % 256) (n / 256 ^ count % 256) with hlt | heq | hgt
    · exact .inl hlt
    · rw [heq] at h
      exact .inr ⟨heq, ih (by omega)⟩
    · -- a higher head cannot be made up for by what is behind it
      have hlow : n % 256 ^ count < 256 ^ count := Nat.mod_lt _ (by positivity)
      have := Nat.mul_le_mul_left (256 ^ count) (Nat.succ_le_of_lt hgt)
      rw [Nat.mul_succ] at this
      omega

/-- **Entries that are inserted later have larger keys**, as far as keys go. -/
theorem sequenceKey_lt {m n : ℕ} (h : m < n) (hn : n < 2 ^ 64) : sequenceKey m < sequenceKey n := by
  have hpow : (256 : ℕ) ^ 8 = 2 ^ 64 := by norm_num
  refine bytesBigEndian_lt 8 ?_
  rw [hpow, Nat.mod_eq_of_lt (h.trans hn), Nat.mod_eq_of_lt hn]
  exact h

/-! ## Drafts -/

/-- Entries under the keys of their places, the last one in front. -/
def numberedRows (entries : List Entry) : Rows :=
  (entries.zipIdx.map fun (e, n) => (sequenceKey n, e)).reverse

theorem numberedRows_concat (entries : List Entry) (e : Entry) :
    numberedRows (entries ++ [e]) = (sequenceKey entries.length, e) :: numberedRows entries := by
  simp [numberedRows, List.zipIdx_append]

theorem entries_numberedRows (entries : List Entry) :
    (numberedRows entries).reverse.map (·.2) = entries := by
  simp only [numberedRows, List.reverse_reverse, List.map_map]
  exact List.zipIdx_map_fst 0 entries

theorem key_of_mem_numberedRows {entries : List Entry} {row : Key × Entry}
    (h : row ∈ numberedRows entries) : ∃ n < entries.length, row.1 = sequenceKey n := by
  obtain ⟨⟨e, n⟩, hmem, rfl⟩ := List.mem_map.mp (List.mem_reverse.mp h)
  exact ⟨n, by simpa using List.snd_lt_of_mem_zipIdx hmem, rfl⟩

/-- The draft holds these entries, in this order. -/
structure Draft.Holds (d : Draft) (entries : List Entry) : Prop where
  count : d.count = entries.length
  rows : d.rows = numberedRows entries
  falling : d.rows.Pairwise fun row below => below.1 < row.1
  /-- every row takes up some room -/
  cost : d.count ≤ d.cost

theorem putRow_of_lt {key : Key} {rows : Rows} (e : Entry) (h : ∀ row ∈ rows, row.1 < key) :
    putRow key e rows = (key, e) :: rows := by
  cases rows with
  | nil => rfl
  | cons row rows => rw [putRow, if_pos (h row List.mem_cons_self)]

namespace Draft

theorem holds_add {space : Space} {capacity batch index : ℕ} {d d' : Draft} {e : Entry}
    {entries : List Entry}
    (hc : capacity < 2 ^ 64) (h : d.Holds entries)
    (ha : d.add space capacity batch index e = .ok d') :
    d'.Holds (entries ++ [e]) := by
  unfold add at ha
  split at ha
  · cases ha
  · simp only at ha
    split at ha
    · cases ha
    · next hroom =>
      obtain rfl := Except.ok.inj ha
      have hpos := space.ofRow_pos e
      have hcost := h.cost
      have hkeys : ∀ row ∈ d.rows, row.1 < sequenceKey d.count := by
        intro row hrow
        rw [h.rows] at hrow
        obtain ⟨n, hn, hkey⟩ := key_of_mem_numberedRows hrow
        rw [hkey]
        exact sequenceKey_lt (h.count ▸ hn) (by omega)
      rw [putRow_of_lt e hkeys]
      refine ⟨by simp [h.count], ?_, List.pairwise_cons.mpr ⟨hkeys, h.falling⟩, ?_⟩
      · rw [numberedRows_concat, ← h.rows, ← h.count]
      · show d.count + 1 ≤ d.cost + space.ofRow e
        omega

theorem holds_addEntries {space : Space} {capacity batch index : ℕ} {d d' : Draft}
    {entries more : List Entry}
    (hc : capacity < 2 ^ 64) (h : d.Holds entries)
    (ha : d.addEntries space capacity batch index more = .ok d') : d'.Holds (entries ++ more) := by
  induction more generalizing index d entries with
  | nil =>
    obtain rfl := Except.ok.inj ha
    rwa [List.append_nil]
  | cons e more ih =>
    rw [addEntries] at ha
    cases hadd : d.add space capacity batch index e with
    | error err => rw [hadd] at ha; cases ha
    | ok d₁ =>
      rw [hadd] at ha
      rw [List.append_cons]
      exact ih (holds_add hc h hadd) ha

theorem holds_addBatches {space : Space} {capacity batch : ℕ} {d d' : Draft} {entries : List Entry}
    {batches : List (List Entry)} (hc : capacity < 2 ^ 64) (h : d.Holds entries)
    (ha : d.addBatches space capacity batch batches = .ok d') :
    d'.Holds (entries ++ batches.flatten) := by
  induction batches generalizing batch d entries with
  | nil =>
    obtain rfl := Except.ok.inj ha
    rwa [List.flatten_nil, List.append_nil]
  | cons more batches ih =>
    rw [addBatches] at ha
    cases hadd : d.addEntries space capacity batch 0 more with
    | error err => rw [hadd] at ha; cases ha
    | ok d₁ =>
      rw [hadd] at ha
      rw [List.flatten_cons, ← List.append_assoc]
      exact ih (holds_addEntries hc h hadd) ha

end Draft

/-! ## Replacements -/

namespace Store

theorem replace_rows {s : Store} (hc : s.capacity < 2 ^ 64) {batches : List (List Entry)}
    {g : Generation} (h : (s.replace batches).1 = .ok g) :
    (s.replace batches).2.database.rows = numberedRows batches.flatten ∧
      (s.replace batches).2.database.rows.Pairwise (fun row below => below.1 < row.1) ∧
      (s.replace batches).2.knownLength = some batches.flatten.length := by
  unfold replace at h ⊢
  cases hg : s.database.generation with
  | error e => rw [hg] at h; cases h
  | ok previous =>
    rw [hg] at h
    cases hd : Draft.addBatches s.space s.capacity 0 { cost := s.database.cost s.space } batches with
    | error e => simp only [hd] at h; cases h
    | ok draft =>
      have hstart : Draft.Holds { cost := s.database.cost s.space } [] :=
        ⟨rfl, rfl, .nil, Nat.zero_le _⟩
      have hholds := Draft.holds_addBatches hc hstart hd
      rw [List.nil_append] at hholds
      exact ⟨hholds.rows, hholds.falling, congrArg some hholds.count⟩

/-- **A replacement that succeeds stores its batches**, in their order and nothing else. -/
theorem replace_ok {s : Store} (hc : s.capacity < 2 ^ 64) {batches : List (List Entry)}
    {g : Generation} (h : (s.replace batches).1 = .ok g) :
    (s.replace batches).2.database.entries = batches.flatten ∧
      (s.replace batches).2.knownLength = some batches.flatten.length := by
  obtain ⟨hrows, -, hknown⟩ := replace_rows hc h
  exact ⟨by rw [Database.entries, hrows, entries_numberedRows], hknown⟩

/-- **A replacement that fails changes nothing.** -/
theorem replace_error {s : Store} {batches : List (List Entry)} {e : Error}
    (h : (s.replace batches).1 = .error e) : (s.replace batches).2 = s := by
  unfold replace at h ⊢
  split
  · rfl
  · next previous hg =>
    rw [hg] at h
    split
    · rfl
    · next draft hd =>
      simp only [hd] at h
      cases h

theorem replace_capacity (s : Store) (batches : List (List Entry)) :
    (s.replace batches).2.capacity = s.capacity := by
  unfold replace
  split
  · rfl
  · split <;> rfl

theorem replace_place (s : Store) (batches : List (List Entry)) :
    (s.replace batches).2.place = s.place := by
  unfold replace
  split
  · rfl
  · split <;> rfl

theorem replace_record {s : Store} (hc : s.capacity < 2 ^ 64) {batches : List (List Entry)}
    {g : Generation} (h : (s.replace batches).1 = .ok g) :
    (s.replace batches).2.database.record = some (.generation g) ∧
      ∃ previous, s.database.generation = .ok previous ∧
        g = ⟨schemaVersion, (previous.map (·.number)).getD 0 + 1, batches.flatten.length⟩ := by
  have hcount := (replace_ok hc h).2
  unfold replace at h hcount ⊢
  cases hg : s.database.generation with
  | error e => rw [hg] at h; cases h
  | ok previous =>
    rw [hg] at h hcount
    cases hd : Draft.addBatches s.space s.capacity 0 { cost := s.database.cost s.space } batches with
    | error e => simp only [hd] at h; cases h
    | ok draft =>
      simp only [hd] at h hcount
      obtain rfl := Except.ok.inj h
      exact ⟨rfl, previous, rfl, by rw [Option.some.inj hcount]⟩

/-! ## The number of entries -/

/-- If the number of entries is remembered, it is right. -/
def Counted (s : Store) : Prop := ∀ n, s.knownLength = some n → n = s.database.entries.length

theorem length_entries (d : Database) : d.entries.length = d.rows.length := by
  simp [Database.entries]

theorem length_eq {s : Store} (h : s.Counted) : s.length.1 = s.database.entries.length := by
  unfold length
  split
  · next n hn => exact h n hn
  · exact (length_entries _).symm

theorem length_database (s : Store) :
    s.length.2.database = s.database ∧ s.length.2.capacity = s.capacity := by
  unfold length
  split <;> exact ⟨rfl, rfl⟩

theorem length_place (s : Store) : s.length.2.place = s.place := by
  unfold length
  split <;> rfl

theorem counted_length {s : Store} (h : s.Counted) : s.length.2.Counted := by
  unfold length
  split
  · exact h
  · intro n hn
    obtain rfl := Option.some.inj hn
    exact (length_entries _).symm

theorem counted_replace {s : Store} (hc : s.capacity < 2 ^ 64) (h : s.Counted)
    (batches : List (List Entry)) : (s.replace batches).2.Counted := by
  cases hr : (s.replace batches).1 with
  | error e => rw [replace_error hr]; exact h
  | ok g =>
    obtain ⟨hentries, hknown⟩ := replace_ok hc hr
    intro n hn
    rw [hknown] at hn
    obtain rfl := Option.some.inj hn
    rw [hentries]

end Store

end SymbolIndex
