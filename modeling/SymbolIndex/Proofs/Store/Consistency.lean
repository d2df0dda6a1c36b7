import SymbolIndex.Proofs.Search.Answer
import SymbolIndex.Proofs.Store.Kinds
import SymbolIndex.Proofs.Store.Runs

/-!
# What a store says about itself

The record, the rows and the remembered number of entries are three accounts of one thing. Whatever
has been done to a store, they agree while it is open, and so does all that is told about it.

* `Store.Consistent`: all that can be learned about a store agrees;
* `StoreRun.consistent`: so it does whenever a store is open;
* `usedStoreRun`: a store that is opened and replaced.
-/

namespace SymbolIndex

namespace Store

/-- All that can be learned about a store agrees: how many entries there are, which kinds they have
and how many replacements have led to them. -/
structure Consistent (s : Store) (replacements : ℕ) : Prop where
  /-- there is no record and no entry, or the record is right about both numbers -/
  record : s.generation = .ok none ∧ s.database.entries = [] ∧ replacements = 0 ∨
    s.generation = .ok (some ⟨schemaVersion, replacements, s.database.entries.length⟩)
  length : s.length.1 = s.database.entries.length
  isEmpty : s.isEmpty.1 = true ↔ s.database.entries.length = 0
  query : ∃ found, s.query {} none .never = .ok found ∧ found.length = s.database.entries.length
  kindCounts : (s.kindCounts.map (·.2)).sum = s.database.entries.length
  health : ∃ health, s.health = .ok health ∧ health.entryCount = s.database.entries.length ∧
    s.generation = .ok health.generation
  rising : s.kinds.Pairwise (· < ·)
  kinds : ∀ kind, kind ∈ s.kinds ↔ ∃ e ∈ s.database.entries, e.kind = kind

theorem length_query_all (s : Store) :
    ∃ found, s.query {} none .never = .ok found ∧ found.length = s.database.entries.length := by
  refine ⟨_, Plan.execute_quiet {} s.database.entries none fun _ => rfl, ?_⟩
  have hall : s.database.entries.filter ({} : Plan).accepts = s.database.entries :=
    List.filter_eq_self.mpr fun _ _ => rfl
  rw [Plan.results, hall]
  exact (sortsStably_ranked s.database.entries).perm.length_eq

theorem consistent_of_sound {s : Store} {n : ℕ} (h : s.database.Sound n) (hc : s.Counted) :
    s.Consistent n := by
  obtain ⟨hrising, hkinds, hsum⟩ := kindCountsOf_spec s.database.entries
  have hrecord : s.generation = .ok none ∧ s.database.entries = [] ∧ n = 0 ∨
      s.generation = .ok (some ⟨schemaVersion, n, s.database.entries.length⟩) := by
    rcases h with ⟨hempty, hn⟩ | hr
    · refine .inl ⟨?_, ?_, hn⟩
      · rw [generation, hempty]
        rfl
      · rw [hempty]
        rfl
    · refine .inr ?_
      rw [generation, Database.generation, hr, length_entries]
  obtain ⟨previous, hprevious⟩ : ∃ previous, s.generation = .ok previous :=
    hrecord.elim (fun h => ⟨_, h.1⟩) fun h => ⟨_, h⟩
  refine ⟨hrecord, length_eq hc, ?_, s.length_query_all, hsum, ?_, hrising, hkinds⟩
  · rw [← length_eq hc]
    exact beq_iff_eq
  · have hhealth : s.health = .ok ⟨s.place, s.database.rows.length, s.database.recordCount,
        previous⟩ := by
      rw [health, show s.database.generation = .ok previous from hprevious]
      rfl
    exact ⟨_, hhealth, (length_entries s.database).symm, hprevious⟩

end Store

/-- **Whatever has been done to a store, all that can be learned about it agrees** while it is
open. -/
theorem StoreRun.consistent (R : StoreRun) {t : ℕ} {s : Store} (h : (R.after t).store = some s) :
    s.Consistent (R.replacements t s.place) :=
  Store.consistent_of_sound ((R.sound t).sound s h) ((R.sound t).counted s h)

/-! ## A store in use -/

/-- The files of a database in the root directory, with nothing in them. -/
def emptyFiles : FileTree := ⟨[("data.mdb", .file ⟨#[]⟩), ("lock.mdb", .file ⟨#[]⟩)]⟩

theorem place_emptyFiles (last : Bool) :
    emptyFiles.place "/" last = .ok (.found [] (.directory emptyFiles.children)) := by
  simp [FileTree.place, pathPieces, Text.splitAt, Text.consHead, FileTree.follow, FileTree.find?,
    Node.find?]

theorem place_databaseFiles {name : String} (h : name ∈ Disk.databaseFiles) :
    ∃ names, emptyFiles.place ("/" ++ name) true = .ok (.found names (.file ⟨#[]⟩)) := by
  simp only [Disk.databaseFiles, List.mem_cons, List.not_mem_nil, or_false] at h
  rcases h with rfl | rfl <;>
    simp [FileTree.place, pathPieces, Text.splitAt, Text.consHead, FileTree.follow,
      FileTree.find?, Node.find?, emptyFiles, lookup_cons_eq]

theorem makeDirectories_emptyFiles : emptyFiles.makeDirectories "/" = .ok emptyFiles := by
  have hmade : emptyFiles.makeDirectory "/" = .error .alreadyExists := by
    rw [FileTree.makeDirectory, place_emptyFiles]
    rfl
  have hthere : emptyFiles.isDirectory "/" = true := by
    rw [FileTree.isDirectory, FileTree.locate, place_emptyFiles]
    rfl
  have hpath : String.ofList "/".toList = "/" := rfl
  rw [FileTree.makeDirectories, FileTree.makeDirectoriesFrom, if_neg (by decide), hpath, hmade]
  exact if_pos hthere

/-- A database that has just been made in the root directory. -/
def newStore : Store :=
  { path := "/", place := "/", database := {}, capacity := Space.pages.byDefault }

theorem openStore_emptyFiles :
    ∃ disk, ({ files := emptyFiles } : Disk).openStore "/" 0 = .ok (newStore, disk) := by
  have hcanonical : emptyFiles.canonical "/" = .ok "/" := by
    rw [FileTree.canonical, FileTree.locate, place_emptyFiles]
    rfl
  have hfound : ({ files := emptyFiles } : Disk).databaseAt "/" = .ok {} := by
    have hdata : "/data.mdb" ∈ Disk.databaseFiles := by decide
    obtain ⟨names, hplace⟩ := place_databaseFiles hdata
    rw [Disk.databaseAt, FileTree.read, FileTree.locate, hplace]
    rfl
  have hfiles : HasDatabaseFiles (Disk.withDatabaseFiles emptyFiles "/") "/" := by
    refine HasDatabaseFiles.grows (fun name hname => ?_) (grows_withDatabaseFiles _ "/")
    obtain ⟨names, hplace⟩ := place_databaseFiles hname
    exact FileTree.isFile_eq_true.mpr ⟨names, _, hplace⟩
  simp only [Disk.openStore, makeDirectories_emptyFiles, Except.mapError, bind, Except.bind,
    hcanonical, hfound, List.all_eq_true.mpr hfiles]
  exact ⟨_, rfl⟩

/-- A store is opened and replaced, and replaced again by entries one of which has no name. -/
def usedStoreRun : StoreRun where
  files := emptyFiles
  moves
    | 0 => .openAt "/" 0
    | 1 => .replace none [[{ name := "foo", kind := "fn", file := "a" }], []]
    | 2 => .replace none
      [[{ name := "bar", kind := "fn", file := "a" }, { name := "", kind := "fn", file := "b" }]]
    | _ => .count

theorem store_usedStoreRun :
    (usedStoreRun.after 2).store =
      some (newStore.replace [[{ name := "foo", kind := "fn", file := "a" }], []]).2 := by
  obtain ⟨disk, hopen⟩ := openStore_emptyFiles
  have hone : (usedStoreRun.after 1).store = some newStore := by
    have hmove : (Site.mk { files := emptyFiles } none).move (.openAt "/" 0) =
        ⟨disk, some newStore⟩ := Site.move_openAt_of_ok hopen
    rw [StoreRun.after, StoreRun.after]
    exact congrArg Site.store hmove
  show (usedStoreRun.after 1).store.map _ = _
  rw [hone, Option.map_some, Store.attempt_none]

theorem consistent_usedStoreRun :
    ∃ s, (usedStoreRun.after 2).store = some s ∧
      s.generation = .ok (some ⟨schemaVersion, 1, 1⟩) ∧
      s.Consistent (usedStoreRun.replacements 2 s.place) :=
  ⟨_, store_usedStoreRun, rfl, usedStoreRun.consistent store_usedStoreRun⟩

end SymbolIndex
