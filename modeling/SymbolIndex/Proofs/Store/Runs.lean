import SymbolIndex.Proofs.Store.Breakdown
import SymbolIndex.Proofs.Store.Opening

/-!
# Runs of a store

A store is opened, read and replaced, closed and opened again, over storage that may break down and
by people who may tamper with its record while it is closed.

* `Tampering`, `StoreMove`, `Site`, `Site.move`: what may happen to the databases of a disk;
* `StoreRun`, `StoreRun.after`: any of that in any order, on a disk without databases at first;
* `Site.contents`: what a database holds, whether it is open or not;
* `StoreRun.replacements`: how many replacements have succeeded since it was made or wiped;
* `Database.Sound`, `Database.Kept`, `Site.Sound`: what a record says is true;
* `StoreRun.sound`: that is so in all runs.
-/

namespace SymbolIndex

/-! ## Moves -/

/-- What somebody may do to the record of a database. -/
inductive Tampering where
  | delete
  | overwrite (version : UInt32)
  | scramble

def Tampering.apply : Tampering → Database → Database
  | delete => Database.withoutRecord
  | overwrite version => (·.withSchemaVersion version)
  | scramble => Database.withUnreadableRecord

/-- What may happen to the databases of a disk. Whoever opens a database or tampers with one has
closed the one that was open. -/
inductive StoreMove where
  | openAt (path : String) (size : UInt64)
  | close
  | tamper (place : String) (how : Tampering)
  | replace (b : Option Breakdown) (batches : List (List Entry))
  /-- the entries are counted; no other way of reading leaves a trace -/
  | count

/-- A disk, and the store that is open on it, if one is. -/
structure Site where
  disk : Disk
  store : Option Store := none

namespace Site

/-- The disk once the store is closed. -/
def closed (site : Site) : Disk :=
  match site.store with
  | none => site.disk
  | some s => site.disk.closeStore s

/-- What comes of a move. -/
def move (site : Site) : StoreMove → Site
  | .openAt path size =>
    match site.closed.openStore path size.toNat with
    | .ok (s, disk) => ⟨disk, some s⟩
    | .error _ => ⟨site.closed, none⟩
  | .close => ⟨site.closed, none⟩
  | .tamper place how => ⟨site.closed.alter place how.apply, none⟩
  | .replace b batches => ⟨site.disk, site.store.map fun s => (s.attempt b batches).2⟩
  | .count => ⟨site.disk, site.store.map fun s => s.length.2⟩

/-- What the database at a place holds: in the open store if it is that one, else on the disk. -/
def contents (site : Site) (place : String) : Database :=
  (site.closed.databases.lookup place).getD {}

/-- The move opens the database at a place and makes it anew: there is none yet, or its record is
missing, cannot be read or has another version, and so everything in it is wiped. -/
def renews (site : Site) (m : StoreMove) (place : String) : Bool :=
  match m with
  | .openAt .. =>
    (site.move m).store.any (·.place == place) && !(site.contents place).isCurrent
  | _ => false

/-- The generation that the move puts in the place of the one that is there. -/
def brings (site : Site) (m : StoreMove) (place : String) : Option Generation :=
  match m, site.store with
  | .replace b batches, some s =>
    if s.place = place then (s.attempt b batches).1.toOption else none
  | _, _ => none

/-- How many replacements have succeeded at each place since its database was made or wiped. -/
def tally (site : Site) (m : StoreMove) (counts : String → ℕ) (place : String) : ℕ :=
  if site.renews m place then 0
  else if (site.brings m place).isSome then counts place + 1
  else counts place

end Site

/-- A run: any moves, on a disk without databases at first. -/
structure StoreRun where
  files : FileTree
  moves : ℕ → StoreMove

namespace StoreRun

/-- What there is after some moves. -/
def after (R : StoreRun) : ℕ → Site
  | 0 => ⟨{ files := R.files }, none⟩
  | t + 1 => (R.after t).move (R.moves t)

/-- How many replacements have succeeded at each place since its database was made or wiped. -/
def replacements (R : StoreRun) : ℕ → String → ℕ
  | 0 => fun _ => 0
  | t + 1 => (R.after t).tally (R.moves t) (R.replacements t)

end StoreRun

/-! ## What records say -/

namespace Database

variable {d : Database} {n : ℕ}

/-- There is nothing, or there is a record of so many replacements and of the number of entries. -/
def Sound (d : Database) (n : ℕ) : Prop :=
  d = {} ∧ n = 0 ∨ d.record = some (.generation ⟨schemaVersion, n, d.rows.length⟩)

/-- If there is a record it tells so many replacements and the number of entries, whatever version
it has. -/
def Kept (d : Database) (n : ℕ) : Prop :=
  ∀ g, d.record = some (.generation g) → g.number = n ∧ g.count = d.rows.length

theorem Sound.kept (h : d.Sound n) : d.Kept n := by
  intro g hg
  rcases h with ⟨rfl, -⟩ | h
  · cases hg
  · obtain rfl := Record.generation.inj (Option.some.inj (h.symm.trans hg))
    exact ⟨rfl, rfl⟩

theorem adopted_of_sound (h : d.Sound n) : d.adopted = d := by
  rcases h with ⟨rfl, -⟩ | h
  · rfl
  · exact if_pos (by rw [isCurrent, h]; exact beq_self_eq_true _)

/-- **What is left of a database when it is opened can be relied on.** -/
theorem Kept.sound_adopted (h : d.Kept n) : d.adopted.Sound (if d.isCurrent then n else 0) := by
  unfold adopted
  cases hc : d.isCurrent with
  | false => exact .inl ⟨rfl, rfl⟩
  | true =>
    refine .inr ?_
    unfold isCurrent at hc
    split at hc
    · next g hg =>
      obtain ⟨hnumber, hcount⟩ := h g hg
      have hversion : g.schemaVersion = SymbolIndex.schemaVersion := eq_of_beq hc
      have hd : d.record = some (.generation ⟨g.schemaVersion, g.number, g.count⟩) := hg
      rwa [hversion, hnumber, hcount] at hd
    · cases hc

theorem Kept.tampered (h : d.Kept n) (how : Tampering) : (how.apply d).Kept n := by
  intro g hg
  cases how with
  | delete => cases hg
  | scramble => cases hg
  | overwrite version =>
    change (d.withSchemaVersion version).record = _ at hg
    change _ ∧ _ = (d.withSchemaVersion version).rows.length
    unfold withSchemaVersion at hg ⊢
    cases hr : d.record with
    | none =>
      rw [hr] at hg
      exact h g hg
    | some record =>
      cases record with
      | unreadable =>
        rw [hr] at hg
        exact h g hg
      | generation g' =>
        rw [hr] at hg
        obtain rfl := Record.generation.inj (Option.some.inj hg)
        exact h g' hr

end Database

/-- **A replacement goes on counting where the last one has ended.** -/
theorem Store.sound_replace {s : Store} (hroom : s.capacity < 2 ^ 64) {n : ℕ}
    (h : s.database.Sound n) {batches : List (List Entry)} {g : Generation}
    (hg : (s.replace batches).1 = .ok g) :
    (s.replace batches).2.database.Sound (n + 1) ∧ g.number = n + 1 := by
  obtain ⟨hrecord, previous, hprevious, rfl⟩ := Store.replace_record hroom hg
  have hnumber : (previous.map (·.number)).getD 0 = n := by
    rcases h with ⟨hempty, rfl⟩ | hr
    · rw [hempty] at hprevious
      obtain rfl := Except.ok.inj hprevious
      rfl
    · rw [Database.generation, hr] at hprevious
      obtain rfl := Except.ok.inj hprevious
      rfl
  rw [hnumber] at hrecord ⊢
  refine ⟨.inr ?_, rfl⟩
  rw [hrecord, ← Store.length_entries, (Store.replace_ok hroom hg).1]

/-! ## What a disk keeps -/

namespace Site

variable {site : Site}

theorem contents_eq (site : Site) (place : String) :
    site.contents place =
      match site.store with
      | none => (site.disk.databases.lookup place).getD {}
      | some s =>
        if place = s.place then s.database else (site.disk.databases.lookup place).getD {} := by
  unfold contents closed
  cases site.store with
  | none => rfl
  | some s =>
    rw [Disk.lookup_closeStore]
    by_cases hp : place = s.place
    · rw [if_pos hp]
      dsimp only
      rw [if_pos hp]
      rfl
    · rw [if_neg hp]
      dsimp only
      rw [if_neg hp]

theorem contents_of_store {s : Store} (h : site.store = some s) :
    site.contents s.place = s.database := by
  rw [contents_eq, h]
  exact if_pos rfl

/-- **Every record tells the truth**, and every database is found where it has been left. -/
structure Sound (site : Site) (counts : String → ℕ) : Prop where
  files : ∀ place kept, site.disk.databases.lookup place = some kept →
    HasDatabaseFiles site.disk.files place
  kept : ∀ place, (site.contents place).Kept (counts place)
  here : ∀ s, site.store = some s → HasDatabaseFiles site.disk.files s.place
  sound : ∀ s, site.store = some s → s.database.Sound (counts s.place)
  room : ∀ s, site.store = some s → s.capacity < 2 ^ 64
  counted : ∀ s, site.store = some s → s.Counted

variable {counts : String → ℕ}

/-! ### Step by step -/

theorem Sound.closed (h : site.Sound counts) : (Site.mk site.closed none).Sound counts where
  files place kept hk := by
    cases hs : site.store with
    | none =>
      rw [Site.closed, hs] at hk ⊢
      exact h.files place kept hk
    | some s =>
      rw [Site.closed, hs] at hk ⊢
      rw [Disk.lookup_closeStore] at hk
      by_cases hp : place = s.place
      · rw [hp]
        exact h.here s hs
      · rw [if_neg hp] at hk
        exact h.files place kept hk
  kept := h.kept
  here s hs := by cases hs
  sound s hs := by cases hs
  room s hs := by cases hs
  counted s hs := by cases hs

theorem Sound.database_of_openStore (h : site.Sound counts) {path : String} {size : ℕ} {s : Store}
    {disk : Disk} (ho : site.closed.openStore path size = .ok (s, disk)) :
    s.database = (site.contents s.place).adopted := by
  obtain ⟨files, found, hgrows, hfound, hs, -⟩ := openStore_ok ho
  have hdatabase : s.database = found.adopted := by rw [hs]
  rw [hdatabase]
  unfold contents
  cases hk : site.closed.databases.lookup s.place with
  | none =>
    have hk : ({ site.closed with files } : Disk).databases.lookup s.place = none := hk
    rw [Disk.databaseAt_of_lookup_eq_none hk hfound]
    rfl
  | some kept =>
    have hfiles : HasDatabaseFiles files s.place := (h.closed.files _ _ hk).grows hgrows
    have hkept : ({ site.closed with files } : Disk).databaseAt s.place = .ok kept :=
      Disk.databaseAt_of_lookup_eq_some hfiles hk
    rw [Except.ok.inj (hfound.symm.trans hkept)]
    rfl

theorem move_openAt_of_error {path : String} {size : UInt64} {e : Error}
    (ho : site.closed.openStore path size.toNat = .error e) :
    site.move (.openAt path size) = ⟨site.closed, none⟩ := by
  simp only [move, ho]

theorem move_openAt_of_ok {path : String} {size : UInt64} {s : Store} {disk : Disk}
    (ho : site.closed.openStore path size.toNat = .ok (s, disk)) :
    site.move (.openAt path size) = ⟨disk, some s⟩ := by
  simp only [move, ho]

theorem tally_openAt_of_error {path : String} {size : UInt64} {e : Error}
    (ho : site.closed.openStore path size.toNat = .error e) :
    site.tally (.openAt path size) counts = counts := by
  funext place
  have hrenews : site.renews (.openAt path size) place = false := by
    rw [renews, move_openAt_of_error ho]
    rfl
  rw [tally, hrenews]
  rfl

theorem tally_openAt_of_ok {path : String} {size : UInt64} {s : Store} {disk : Disk}
    (ho : site.closed.openStore path size.toNat = .ok (s, disk)) (place : String) :
    site.tally (.openAt path size) counts place =
      if place = s.place ∧ (site.contents place).isCurrent = false then 0 else counts place := by
  have hrenews : site.renews (.openAt path size) place =
      (s.place == place && !(site.contents place).isCurrent) := by
    rw [renews, move_openAt_of_ok ho]
    rfl
  have hbrings : site.brings (.openAt path size) place = none := rfl
  rw [tally, hrenews, hbrings]
  by_cases hp : place = s.place
  · subst hp
    cases (site.contents s.place).isCurrent <;> simp
  · simp [hp, Ne.symm hp]

theorem Sound.openAt (h : site.Sound counts) (path : String) (size : UInt64) :
    (site.move (.openAt path size)).Sound (site.tally (.openAt path size) counts) := by
  cases ho : site.closed.openStore path size.toNat with
  | error e =>
    rw [move_openAt_of_error ho, tally_openAt_of_error ho]
    exact h.closed
  | ok opened =>
    obtain ⟨s, disk⟩ := opened
    obtain ⟨files, found, hgrows, -, hs, hdatabases, hgrows', hhere⟩ := openStore_ok ho
    have hsound : s.database.Sound (site.tally (.openAt path size) counts s.place) := by
      rw [h.database_of_openStore ho, tally_openAt_of_ok ho]
      have := (h.kept s.place).sound_adopted
      cases hc : (site.contents s.place).isCurrent <;> simpa [hc] using this
    rw [move_openAt_of_ok ho]
    refine ⟨fun place kept hk => ?_, fun place => ?_, ?_, ?_, ?_, ?_⟩
    · rw [hdatabases] at hk
      exact ((h.closed.files place kept hk).grows hgrows).grows hgrows'
    · rw [contents_eq]
      dsimp only
      by_cases hp : place = s.place
      · rw [if_pos hp, hp]
        exact hsound.kept
      · rw [if_neg hp, hdatabases, tally_openAt_of_ok ho, if_neg fun hand => hp hand.1]
        exact h.kept place
    all_goals
      intro s' hs'
      obtain rfl := Option.some.inj hs'
    · exact hhere
    · exact hsound
    · rw [hs]
      dsimp only
      split
      · exact site.closed.space.byDefault_lt
      · exact size.toNat_lt
    · intro n hn
      rw [hs] at hn
      cases hn

theorem Sound.tamper (h : site.Sound counts) (place : String) (how : Tampering) :
    (site.move (.tamper place how)).Sound counts := by
  have hlookup := Disk.lookup_alter site.closed place how.apply
  have hmove : site.move (.tamper place how) = ⟨site.closed.alter place how.apply, none⟩ := rfl
  rw [hmove]
  refine ⟨fun p kept hk => ?_, fun p => ?_, ?_, ?_, ?_, ?_⟩
  · have hk : (site.closed.alter place how.apply).databases.lookup p = some kept := hk
    rw [hlookup] at hk
    cases hold : site.closed.databases.lookup p with
    | none => rw [hold] at hk; split at hk <;> cases hk
    | some old => exact h.closed.files p old hold
  · rw [contents_eq]
    dsimp only
    rw [hlookup]
    split
    · have hkept := h.kept p
      unfold contents at hkept
      cases hold : site.closed.databases.lookup p with
      | none => rw [hold] at hkept; exact hkept
      | some old => rw [hold] at hkept; exact hkept.tampered how
    · exact h.kept p
  all_goals
    intro s hs
    cases hs

theorem contents_of_ne {s : Store} (h : site.store = some s) {place : String}
    (hp : place ≠ s.place) :
    site.contents place = (site.disk.databases.lookup place).getD {} := by
  rw [contents_eq, h]
  exact if_neg hp

theorem move_replace {s : Store} (hs : site.store = some s) (b : Option Breakdown)
    (batches : List (List Entry)) :
    site.move (.replace b batches) = ⟨site.disk, some (s.attempt b batches).2⟩ := by
  rw [move, hs]
  rfl

theorem move_count {s : Store} (hs : site.store = some s) :
    site.move .count = ⟨site.disk, some s.length.2⟩ := by
  rw [move, hs]
  rfl

theorem map_store_of_none (h : site.store = none) (f : Store → Store) :
    Site.mk site.disk (site.store.map f) = site := by
  obtain ⟨disk, store⟩ := site
  subst h
  rfl

/-- A change of the open store changes what is in its place and nothing else. -/
theorem contents_withStore {s s' : Store} (hs : site.store = some s) (hplace : s'.place = s.place)
    (place : String) :
    (Site.mk site.disk (some s')).contents place =
      if place = s.place then s'.database else site.contents place := by
  by_cases hp : place = s.place
  · rw [if_pos hp, hp, ← hplace]
    exact contents_of_store rfl
  · rw [if_neg hp, contents_of_ne hs hp]
    exact contents_of_ne rfl fun he => hp (he.trans hplace)

theorem Sound.withStore (h : site.Sound counts) {s s' : Store} (hs : site.store = some s)
    (hplace : s'.place = s.place) {counts' : String → ℕ}
    (hcounts : ∀ place, place ≠ s.place → counts' place = counts place)
    (hsound : s'.database.Sound (counts' s.place)) (hroom : s'.capacity < 2 ^ 64)
    (hcounted : s'.Counted) : (Site.mk site.disk (some s')).Sound counts' := by
  refine ⟨h.files, fun place => ?_, ?_, ?_, ?_, ?_⟩
  · rw [contents_withStore hs hplace]
    by_cases hp : place = s.place
    · rw [if_pos hp, hp]
      exact hsound.kept
    · rw [if_neg hp, hcounts place hp]
      exact h.kept place
  all_goals
    intro s'' hs''
    obtain rfl := Option.some.inj hs''
  · rw [hplace]
    exact h.here s hs
  · rw [hplace]
    exact hsound
  · exact hroom
  · exact hcounted

theorem tally_replace {s : Store} (hs : site.store = some s) (b : Option Breakdown)
    (batches : List (List Entry)) (place : String) :
    site.tally (.replace b batches) counts place =
      if s.place = place ∧ (s.attempt b batches).1.toOption.isSome then counts place + 1
      else counts place := by
  have hbrings : site.brings (.replace b batches) place =
      if s.place = place then (s.attempt b batches).1.toOption else none := by
    simp only [brings, hs]
  have hrenews : site.renews (.replace b batches) place = false := rfl
  rw [tally, hrenews, hbrings]
  by_cases hp : s.place = place <;> simp [hp]

theorem Sound.replace (h : site.Sound counts) (b : Option Breakdown) (batches : List (List Entry)) :
    (site.move (.replace b batches)).Sound (site.tally (.replace b batches) counts) := by
  cases hs : site.store with
  | none =>
    have htally : site.tally (.replace b batches) counts = counts := by
      funext place
      simp [tally, renews, brings, hs]
    have hmove : site.move (.replace b batches) = site := map_store_of_none hs _
    rw [hmove, htally]
    exact h
  | some s =>
    have hcounts : ∀ place, place ≠ s.place →
        site.tally (.replace b batches) counts place = counts place := fun place hp => by
      rw [tally_replace hs, if_neg fun hand => hp hand.1.symm]
    rw [move_replace hs]
    rcases s.attempt_cases b batches with ⟨e, hfails⟩ | ⟨hreplace, g, hg⟩
    · refine h.withStore hs (by rw [hfails]) hcounts ?_ ?_ ?_
      · rw [tally_replace hs, hfails, if_neg fun hand => Bool.false_ne_true hand.2]
        exact h.sound s hs
      · rw [hfails]
        exact h.room s hs
      · rw [hfails]
        exact h.counted s hs
    · have hroom := h.room s hs
      refine h.withStore hs ?_ hcounts ?_ ?_ ?_
      · rw [hreplace]
        exact Store.replace_place s batches
      · rw [tally_replace hs, hreplace, if_pos ⟨rfl, by rw [hg]; rfl⟩]
        exact (Store.sound_replace hroom (h.sound s hs) hg).1
      · rw [hreplace, Store.replace_capacity]
        exact hroom
      · rw [hreplace]
        exact Store.counted_replace hroom (h.counted s hs) batches

theorem Sound.count (h : site.Sound counts) : (site.move .count).Sound counts := by
  cases hs : site.store with
  | none =>
    have hmove : site.move .count = site := map_store_of_none hs _
    rw [hmove]
    exact h
  | some s =>
    obtain ⟨hdatabase, hcapacity⟩ := Store.length_database s
    rw [move_count hs]
    refine h.withStore hs (Store.length_place s) (fun _ _ => rfl) ?_ ?_ ?_
    · rw [hdatabase]
      exact h.sound s hs
    · rw [hcapacity]
      exact h.room s hs
    · exact Store.counted_length (h.counted s hs)

/-- **A move leaves true what records say.** -/
theorem Sound.move (h : site.Sound counts) (m : StoreMove) :
    (site.move m).Sound (site.tally m counts) := by
  cases m with
  | openAt path size => exact h.openAt path size
  | close => exact h.closed
  | tamper place how => exact h.tamper place how
  | replace b batches => exact h.replace b batches
  | count => exact h.count

end Site

/-- **In every run every record tells the truth.** -/
theorem StoreRun.sound (R : StoreRun) (t : ℕ) : (R.after t).Sound (R.replacements t) := by
  induction t with
  | zero =>
    refine ⟨fun place kept hk => ?_, fun place g hg => ?_, ?_, ?_, ?_, ?_⟩
    · cases hk
    · cases hg
    all_goals
      intro s hs
      cases hs
  | succ t ih => exact ih.move (R.moves t)

end SymbolIndex
