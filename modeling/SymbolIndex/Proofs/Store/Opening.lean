import SymbolIndex.Proofs.FileTree.Growth
import SymbolIndex.Proofs.Store.Replace
import SymbolIndex.Store.Disk

/-!
# Opening and closing databases

A database that has been closed is found again when it is opened, as its files have been made and
stay where they are.

* `openStore_ok`: what comes of opening a database;
* `Disk.databaseAt_of_lookup_eq_some`, `Disk.databaseAt_of_lookup_eq_none`: what is found;
* `Disk.lookup_closeStore`, `Disk.lookup_alter`: what the disk keeps.
-/

namespace SymbolIndex

/-- Both files of a database are there. -/
def HasDatabaseFiles (files : FileTree) (place : String) : Prop :=
  ∀ name ∈ Disk.databaseFiles, files.isFile (place ++ name) = true

theorem HasDatabaseFiles.grows {files files' : FileTree} {place : String}
    (h : HasDatabaseFiles files place) (hg : files.Grows files') : HasDatabaseFiles files' place :=
  fun name hname => FileTree.isFile_of_grows hg (h name hname)

theorem grows_withDatabaseFiles (files : FileTree) (place : String) :
    files.Grows (Disk.withDatabaseFiles files place) := by
  unfold Disk.withDatabaseFiles
  generalize Disk.databaseFiles = names
  induction names generalizing files with
  | nil => exact .refl files
  | cons name names ih =>
    rw [List.foldl_cons]
    refine FileTree.Grows.trans ?_ (ih _)
    cases hw : files.write (place ++ name) ⟨(List.replicate pageSize 0).toArray⟩ with
    | error e => exact .refl files
    | ok files' => exact FileTree.grows_write hw

/-! ## Opening -/

/-- **What comes of opening a database.** -/
theorem openStore_ok {d d' : Disk} {path : String} {size : ℕ} {s : Store}
    (h : d.openStore path size = .ok (s, d')) :
    ∃ files found, d.files.Grows files ∧ { d with files }.databaseAt s.place = .ok found ∧
      s = { path, place := s.place, database := found.adopted,
            space := d.space, capacity := if size = 0 then d.space.byDefault else size } ∧
      d'.databases = d.databases ∧ files.Grows d'.files ∧ HasDatabaseFiles d'.files s.place := by
  unfold Disk.openStore at h
  obtain ⟨files, hfiles, h⟩ := exists_of_bind_eq_ok h
  obtain ⟨place, -, h⟩ := exists_of_bind_eq_ok h
  dsimp only at h
  by_cases hbad : size % pageSize ≠ 0 ∨ d.opened.contains place = true
  · rw [if_pos hbad] at h
    cases h
  rw [if_neg hbad] at h
  obtain ⟨found, hfound, h⟩ := exists_of_bind_eq_ok h
  by_cases hmissing : ¬ Disk.databaseFiles.all
      (fun name => (Disk.withDatabaseFiles files place).isFile (place ++ name)) = true
  · rw [if_pos hmissing] at h
    cases h
  rw [if_neg hmissing] at h
  by_cases hsmall : (if size = 0 then d.space.byDefault else size) < d.space.least
  · rw [if_pos hsmall] at h
    cases h
  rw [if_neg hsmall] at h
  cases h
  exact ⟨files, found, FileTree.grows_makeDirectories (exists_of_mapError_eq_ok hfiles), hfound,
    rfl, rfl, grows_withDatabaseFiles files place,
    fun name hname => List.all_eq_true.mp (not_not.mp hmissing) name hname⟩

theorem openStore_fresh {d d' : Disk} {path : String} {size : ℕ} {s : Store}
    (h : d.openStore path size = .ok (s, d')) :
    s.capacity = (if size = 0 then d.space.byDefault else size) ∧ s.knownLength = none := by
  obtain ⟨_, _, -, -, hs, -⟩ := openStore_ok h
  rw [hs]
  exact ⟨rfl, rfl⟩

namespace Disk

variable {d : Disk} {place : String}

theorem databaseAt_of_lookup_eq_some (hf : HasDatabaseFiles d.files place) {kept : Database}
    (hk : d.databases.lookup place = some kept) : d.databaseAt place = .ok kept := by
  obtain ⟨content, hread⟩ := FileTree.exists_read_of_isFile (hf "/data.mdb" (by decide))
  unfold databaseAt
  simp only [hread, hk]

theorem databaseAt_of_lookup_eq_none (hk : d.databases.lookup place = none) {found : Database}
    (h : d.databaseAt place = .ok found) : found = {} := by
  unfold databaseAt at h
  split at h
  · exact (Except.ok.inj h).symm
  · cases h
  · rw [hk] at h
    simp only at h
    split_ifs at h
    · exact (Except.ok.inj h).symm

/-! ## What is kept -/

theorem lookup_closeStore (d : Disk) (s : Store) (place : String) :
    (d.closeStore s).databases.lookup place =
      if place = s.place then some s.database else d.databases.lookup place := by
  rw [closeStore, lookup_cons_eq]
  refine ite_congr rfl (fun _ => rfl) fun hne => ?_
  induction d.databases with
  | nil => rfl
  | cons kept databases ih =>
    obtain ⟨k, v⟩ := kept
    rw [lookup_cons_eq]
    by_cases hk : k = s.place
    · rw [List.filter_cons_of_neg (by simp [hk]), if_neg (fun h => hne (h.trans hk)), ih]
    · rw [List.filter_cons_of_pos (by simp [hk]), lookup_cons_eq, ih]

theorem lookup_alter (d : Disk) (p : String) (f : Database → Database) (place : String) :
    (d.alter p f).databases.lookup place =
      if place = p then (d.databases.lookup place).map f else d.databases.lookup place := by
  rw [alter]
  dsimp only
  induction d.databases with
  | nil => split <;> rfl
  | cons kept databases ih =>
    obtain ⟨k, v⟩ := kept
    rw [List.map_cons, lookup_cons_eq, lookup_cons_eq, ih]
    by_cases hk : place = k
    · subst hk
      by_cases hp : place = p <;> simp [hp]
    · rw [if_neg hk, if_neg hk]

end Disk

end SymbolIndex
