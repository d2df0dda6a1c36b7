import SymbolIndex.Proofs.Store.Consistency

/-!
# A replacement that fails leaves nothing behind

What a database holds changes where somebody tampers with it and where a replacement succeeds, and
nowhere else: not by being closed and opened, and not by replacements that fail.

* `Store.LooksLike`: nobody can tell two stores apart;
* `Site.contents_move`, `StoreRun.contents_of_quiet`: what a database holds while it is left alone;
* `Store.Explains`: the error of a replacement says what is at fault;
* `StoreRun.RolledBack`, `StoreRun.replace_rolledBack`: replacements that fail.
-/

namespace SymbolIndex

/-! ## Observations -/

namespace Store

/-- Whatever one asks the two stores for, they give the same answer. -/
structure LooksLike (s s' : Store) : Prop where
  query : ∀ plan limit probe, s'.query plan limit probe = s.query plan limit probe
  length : s'.length.1 = s.length.1
  isEmpty : s'.isEmpty.1 = s.isEmpty.1
  kinds : s'.kinds = s.kinds
  kindCounts : s'.kindCounts = s.kindCounts
  generation : s'.generation = s.generation
  health : s'.health = s.health

theorem looksLike_of_database {s s' : Store} (hplace : s'.place = s.place)
    (hdatabase : s'.database = s.database) (hc : s.Counted) (hc' : s'.Counted) :
    s.LooksLike s' := by
  have hlength : s'.length.1 = s.length.1 := by rw [length_eq hc, length_eq hc', hdatabase]
  refine ⟨fun plan limit probe => ?_, hlength, ?_, ?_, ?_, ?_, ?_⟩
  · rw [Store.query, Store.query, hdatabase]
  · show (s'.length.1 == 0) = (s.length.1 == 0)
    rw [hlength]
  · rw [kinds, kinds, kindCounts, kindCounts, hdatabase]
  · rw [kindCounts, kindCounts, hdatabase]
  · rw [generation, generation, hdatabase]
  · rw [health, health, hdatabase, hplace]

/-- The error of a replacement says what is at fault: the first entry that cannot be stored, if the
storage lasts until the entries before it have been written, and the storage if not. -/
structure Explains (s : Store) (b : Option Breakdown) (batches : List (List Entry)) (e : Error) :
    Prop where
  entry : ∀ i j defect, FirstInvalid batches i j defect → s.Lasts b (entriesBefore batches i j) →
    e = .malformedEntry i j defect.reason
  storage : (∀ i j defect, FirstInvalid batches i j defect →
    ¬ s.Lasts b (entriesBefore batches i j)) → e ∈ Breakdown.errors

variable {s : Store} {b : Option Breakdown} {batches : List (List Entry)}

theorem explains_of_attempt {e : Error} (he : (s.attempt b batches).1 = .error e) :
    s.Explains b batches e where
  entry i j defect hfirst hlasts :=
    Except.error.inj (he.symm.trans (attempt_of_firstInvalid hfirst hlasts))
  storage hnone := by
    rcases attempt_error he with ⟨i, j, defect, hfirst, hlasts⟩ | hstorage
    · exact absurd hlasts (hnone i j defect hfirst)
    · exact hstorage

theorem number_of_attempt {n : ℕ} (h : s.database.Sound n) (hroom : s.capacity < 2 ^ 64)
    {g : Generation} (hg : (s.attempt b batches).1 = .ok g) : g.number = n + 1 := by
  rcases s.attempt_cases b batches with ⟨e, hfails⟩ | ⟨hreplace, -⟩
  · rw [hfails] at hg
    cases hg
  · rw [hreplace] at hg
    exact (sound_replace hroom h hg).2

end Store

/-! ## What a database holds while it is left alone -/

namespace Site

variable {site : Site} {counts : String → ℕ}

/-- The move neither tampers with the database at a place nor replaces what it holds. -/
def Spares (site : Site) (m : StoreMove) (place : String) : Prop :=
  (∀ how, m ≠ .tamper place how) ∧ site.brings m place = none

/-- **A database that is left alone goes on holding what it holds**, also if it is closed and
opened. -/
theorem contents_move (h : site.Sound counts) {m : StoreMove} {place : String}
    (hspares : site.Spares m place) {n : ℕ} (hn : (site.contents place).Sound n) :
    (site.move m).contents place = site.contents place := by
  cases m with
  | close => rfl
  | openAt path size =>
    cases ho : site.closed.openStore path size.toNat with
    | error e =>
      rw [move_openAt_of_error ho]
      rfl
    | ok opened =>
      obtain ⟨s, disk⟩ := opened
      obtain ⟨files, found, -, -, -, hdatabases, -, -⟩ := openStore_ok ho
      rw [move_openAt_of_ok ho]
      by_cases hp : place = s.place
      · subst hp
        rw [contents_of_store rfl, h.database_of_openStore ho, Database.adopted_of_sound hn]
      · rw [contents_of_ne rfl hp, hdatabases]
        rfl
  | tamper p how =>
    have hp : place ≠ p := fun he => hspares.1 how (he ▸ rfl)
    have hmove : site.move (.tamper p how) = ⟨site.closed.alter p how.apply, none⟩ := rfl
    rw [hmove, contents_eq]
    dsimp only
    rw [Disk.lookup_alter, if_neg hp]
    rfl
  | replace b batches =>
    cases hs : site.store with
    | none =>
      have hmove : site.move (.replace b batches) = site := map_store_of_none hs _
      rw [hmove]
    | some s =>
      rcases s.attempt_cases b batches with ⟨e, hfails⟩ | ⟨hreplace, g, hg⟩
      · rw [move_replace hs, hfails, contents_withStore hs rfl]
        split_ifs with hp
        · rw [hp, contents_of_store hs]
        · rfl
      · have hp : place ≠ s.place := fun he => by
          have hbrings := hspares.2
          simp only [brings, hs, if_pos he.symm, hreplace, hg] at hbrings
          cases hbrings
        rw [move_replace hs, hreplace, contents_withStore hs (Store.replace_place s batches), if_neg hp]
  | count =>
    cases hs : site.store with
    | none =>
      have hmove : site.move .count = site := map_store_of_none hs _
      rw [hmove]
    | some s =>
      rw [move_count hs, contents_withStore hs (Store.length_place s)]
      split_ifs with hp
      · rw [hp, contents_of_store hs, (Store.length_database s).1]
      · rfl

end Site

namespace StoreRun

variable {R : StoreRun}

/-- Between two moments the database at a place is left alone. -/
def Quiet (R : StoreRun) (place : String) (t u : ℕ) : Prop :=
  ∀ v, t ≤ v → v < u → (R.after v).Spares (R.moves v) place

theorem contents_of_quiet {place : String} {t u : ℕ} (htu : t ≤ u) (hq : R.Quiet place t u) {n : ℕ}
    (hn : ((R.after t).contents place).Sound n) :
    (R.after u).contents place = (R.after t).contents place := by
  induction u, htu using Nat.le_induction with
  | base => rfl
  | succ u htu ih =>
    have hsame := ih fun v hv hvu => hq v hv (Nat.lt_succ_of_lt hvu)
    rw [← hsame] at hn
    rw [← hsame]
    exact Site.contents_move (R.sound u) (hq u htu (Nat.lt_succ_self u)) hn

/-- **A replacement that fails leaves nothing behind.** -/
structure RolledBack (R : StoreRun) (t : ℕ) (s : Store) : Prop where
  /-- everything is as if it had not been tried -/
  unchanged : R.after (t + 1) = R.after t
  /-- until the next one succeeds, or somebody tampers with the record, whoever looks at the store
  sees what was there before, also if it has been closed and opened in between -/
  later : ∀ u s', t < u → R.Quiet s.place (t + 1) u → (R.after u).store = some s' →
    s'.place = s.place → s.LooksLike s'
  /-- it would have had the next number -/
  number : ∀ b batches g, (s.attempt b batches).1 = .ok g →
    g.number = R.replacements t s.place + 1
  /-- and so has the next one that succeeds -/
  next : ∀ u s' b batches g, t < u → R.Quiet s.place (t + 1) u → (R.after u).store = some s' →
    s'.place = s.place → (s'.attempt b batches).1 = .ok g → g.number = R.replacements t s.place + 1

/-- **A replacement is made as a whole or not at all.** One with an entry that cannot be stored
fails, and one that fails says what is at fault and leaves nothing behind. -/
theorem replace_rolledBack (R : StoreRun) {t : ℕ} {s : Store} {b : Option Breakdown}
    {batches : List (List Entry)} (hs : (R.after t).store = some s)
    (hm : R.moves t = .replace b batches) :
    (∀ i j defect, FirstInvalid batches i j defect → ∃ e, (s.attempt b batches).1 = .error e) ∧
      ∀ e, (s.attempt b batches).1 = .error e → R.RolledBack t s ∧ s.Explains b batches e := by
  refine ⟨fun i j defect => Store.exists_error_of_firstInvalid s b, fun e he => ⟨?_,
    Store.explains_of_attempt he⟩⟩
  have hsound := R.sound t
  have hdatabase := hsound.sound s hs
  have hunchanged : R.after (t + 1) = R.after t := by
    have hsame : (s.attempt b batches).2 = s := by
      rcases s.attempt_cases b batches with ⟨e', hfails⟩ | ⟨hreplace, g, hg⟩
      · rw [hfails]
      · rw [hreplace, hg] at he
        cases he
    rw [after, hm, Site.move_replace hs, hsame, ← hs]
  have hlater : ∀ u s', t < u → R.Quiet s.place (t + 1) u → (R.after u).store = some s' →
      s'.place = s.place → s'.database = s.database := by
    intro u s' htu hq hs' hplace
    have hstart : (R.after (t + 1)).contents s.place = s.database := by
      rw [hunchanged]
      exact Site.contents_of_store hs
    have hend := contents_of_quiet htu hq (hstart ▸ hdatabase)
    rw [hstart, ← hplace, Site.contents_of_store hs'] at hend
    exact hend
  refine ⟨hunchanged, fun u s' htu hq hs' hplace => ?_, fun b batches g hg => ?_,
    fun u s' b batches g htu hq hs' hplace hg => ?_⟩
  · exact Store.looksLike_of_database hplace (hlater u s' htu hq hs' hplace)
      (hsound.counted s hs) ((R.sound u).counted s' hs')
  · exact Store.number_of_attempt hdatabase (hsound.room s hs) hg
  · rw [← hlater u s' htu hq hs' hplace] at hdatabase
    exact Store.number_of_attempt hdatabase ((R.sound u).room s' hs') hg

theorem replace_rolledBack_usedStoreRun :
    ∃ s batches, (usedStoreRun.after 2).store = some s ∧
      usedStoreRun.moves 2 = .replace none batches ∧ FirstInvalid batches 0 1 .emptyName ∧
      (s.attempt none batches).1 = .error (.malformedEntry 0 1 "empty name") ∧
      usedStoreRun.RolledBack 2 s ∧
      s.Explains none batches (.malformedEntry 0 1 "empty name") := by
  have hinvalid : FirstInvalid [[{ name := "bar", kind := "fn", file := "a" },
      { name := "", kind := "fn", file := "b" }]] 0 1 .emptyName :=
    ⟨⟨_, rfl, rfl⟩, by decide⟩
  obtain ⟨-, hrolled⟩ := usedStoreRun.replace_rolledBack store_usedStoreRun rfl
  exact ⟨_, _, store_usedStoreRun, rfl, hinvalid, rfl, hrolled _ rfl⟩

end StoreRun

end SymbolIndex
