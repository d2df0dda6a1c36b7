import SymbolIndex.Proofs.FileTree.Walks
import SymbolIndex.Proofs.Index.Rebuilds
import SymbolIndex.Proofs.Sources.Previews
import SymbolIndex.Proofs.Store.Breakdown

/-!
# Entries of lines and words that cannot be stored

An entry of a line or a word lacks nothing but perhaps its name: that of a blank line, if the filter
keeps the empty text, or an empty match. Nobody looks at it before it is stored, and then it takes
all other entries of the rebuild with it.

* `ContentSource`, `ContentSource.entriesIn`: sources of lines and of words;
* `ContentSource.FindsEmpty`, `ContentSource.FindsEmptyIn`, `ContentSource.FindsEmptyBelow`: lines,
  files and projects in which something is given an empty name;
* `ContentSource.valid_entriesOf_iff`, `ContentSource.valid_entriesIn_iff`: what they give entries
  that cannot be stored;
* `ContentSource.mem_batches_iff`, `ContentSource.exists_not_valid_iff`: what a rebuild stores;
* `ContentSource.Stores`, `ContentSource.stores`: all entries of a project, and rebuilds from them;
* `ContentSource.blank_line_refused`: a blank line that lets a rebuild fail.
-/

namespace SymbolIndex

open Text SymbolIndex.Path Serializer

/-! ## Sources that look into files -/

/-- A source of lines or of words, with the lines that its filter keeps or the words that its
pattern finds. -/
inductive ContentSource where
  | lines (settings : LinesSource) (keep : List Char → Bool)
  | words (settings : WordsSource) (find : List Char → List (List Char))

namespace ContentSource

def kind : ContentSource → String
  | lines settings _ => settings.kind
  | words settings _ => settings.kind

def sizeLimit : ContentSource → ℕ
  | lines settings _ => settings.sizeLimit
  | words settings _ => settings.sizeLimit

/-- The files that the source looks into. -/
def walk (source : ContentSource) (files : FileTree) (root : String) : Except Error (List String) :=
  match source with
  | lines settings _ => walkFiles files root settings.exclude settings.excludeFiles
  | words settings _ => walkFiles files root settings.exclude settings.excludeFiles

/-- The entries of a text. -/
def entriesOf : ContentSource → String → List Char → List Entry
  | lines settings keep => settings.entriesOf keep
  | words settings find => settings.entriesOf find

def scanner : ContentSource → Scanner
  | lines settings keep => settings.scanner keep
  | words settings find => settings.scanner find

/-- The entries of one file. -/
def entriesIn (source : ContentSource) (files : FileTree) (root path : String) : List Entry :=
  eachFile files root source.sizeLimit source.entriesOf [path]

/-- The source gives an empty name to something on a line. -/
def FindsEmpty : ContentSource → List Char → Prop
  | lines _ keep, line => trim line = [] ∧ keep [] = true
  | words _ find, line => [] ∈ find (trim line)

/-- The source gives an empty name to something in a file. -/
def FindsEmptyIn (source : ContentSource) (files : FileTree) (path : String) : Prop :=
  ∃ text, readText files path source.sizeLimit = some text ∧
    ∃ line ∈ Text.lines text, source.FindsEmpty line

/-- The source gives an empty name to something in the project. -/
def FindsEmptyBelow (source : ContentSource) (files : FileTree) (root : String) : Prop :=
  ∃ paths, source.walk files root = .ok paths ∧ ∃ path ∈ paths, source.FindsEmptyIn files path

/-! ## What they find -/

theorem scan_eq (source : ContentSource) (files : FileTree) (root : String) :
    source.scanner.scan files root =
      ⟨(source.walk files root).map (eachFile files root source.sizeLimit source.entriesOf),
        files⟩ := by
  cases source <;> rfl

theorem mem_eachFile_iff {source : ContentSource} {files : FileTree} {root : String}
    {paths : List String} {e : Entry} :
    e ∈ eachFile files root source.sizeLimit source.entriesOf paths ↔
      ∃ path ∈ paths, e ∈ source.entriesIn files root path := by
  simp [eachFile, entriesIn]

theorem exists_mem_zipIdx {α : Type} {l : List α} {a : α} (h : a ∈ l) : ∃ i, (a, i) ∈ l.zipIdx := by
  obtain ⟨i, hi, rfl⟩ := List.mem_iff_getElem.mp h
  exact ⟨i, List.mem_zipIdx_iff_getElem?.mpr (List.getElem?_eq_getElem hi)⟩

section OneFile

variable {source : ContentSource} (hkind : source.kind ≠ "")

include hkind

/-- **The entries of a text can be stored unless one of them has an empty name.** -/
theorem valid_entriesOf_iff {file : String} (hfile : file ≠ "") (text : List Char) :
    (∀ e ∈ source.entriesOf file text, e.Valid) ↔
      ∀ line ∈ Text.lines text, ¬ source.FindsEmpty line := by
  have hname : ∀ {name : List Char} {e : Entry}, e.name = String.ofList name →
      e.kind = source.kind → e.file = file → (e.Valid ↔ name ≠ []) := by
    intro name e hn hk hf
    rw [Entry.valid_iff, hn, hk, hf]
    simp [hkind, hfile]
  cases source with
  | lines settings keep =>
    constructor
    · rintro h line hline ⟨hblank, hkeep⟩
      obtain ⟨i, hi⟩ := exists_mem_zipIdx hline
      rw [← hblank] at hkeep
      have he := h _ (List.mem_filterMap.mpr ⟨(line, i), hi, if_pos hkeep⟩)
      exact (hname rfl rfl rfl).mp he hblank
    · intro h e he
      obtain ⟨⟨line, i⟩, hi, he⟩ := List.mem_filterMap.mp he
      dsimp only at he
      split_ifs at he with hkeep
      obtain rfl := Option.some.inj he
      refine (hname rfl rfl rfl).mpr fun hblank => ?_
      rw [hblank] at hkeep
      exact h line (List.fst_mem_of_mem_zipIdx hi) ⟨hblank, hkeep⟩
  | words settings find =>
    constructor
    · intro h line hline hempty
      obtain ⟨i, hi⟩ := exists_mem_zipIdx hline
      have he := h _ (List.mem_flatMap.mpr ⟨(line, i), hi, List.mem_map.mpr ⟨[], hempty, rfl⟩⟩)
      exact (hname rfl rfl rfl).mp he rfl
    · intro h e he
      obtain ⟨⟨line, i⟩, hi, he⟩ := List.mem_flatMap.mp he
      obtain ⟨word, hword, rfl⟩ := List.mem_map.mp he
      refine (hname rfl rfl rfl).mpr ?_
      rintro rfl
      exact h line (List.fst_mem_of_mem_zipIdx hi) hword

/-- **The entries of a file below the root can be stored unless one of them has an empty name.** -/
theorem valid_entriesIn_iff (files : FileTree) {root path : String} (hpath : IsBelow root path) :
    (∀ e ∈ source.entriesIn files root path, e.Valid) ↔ ¬ source.FindsEmptyIn files path := by
  rw [entriesIn, eachFile, List.flatMap_singleton, FindsEmptyIn]
  cases htext : readText files path source.sizeLimit with
  | none => simp
  | some text =>
    dsimp only
    rw [valid_entriesOf_iff hkind hpath.entryPath_ne]
    simp

end OneFile

/-! ## What they store -/

variable {sources : List ContentSource} {files : FileTree} {root : String}

/-- What the sources have to store are the entries of the files that each of them looks into. -/
theorem mem_batches_iff {e : Entry} :
    e ∈ (batchesOf (scanAll root files (sources.map scanner)).1).flatten ↔
      ∃ source ∈ sources, ∃ paths, source.walk files root = .ok paths ∧
        ∃ path ∈ paths, e ∈ source.entriesIn files root path := by
  have hquiet : Independent root files (sources.map scanner) := by
    refine independent_of_quiet fun s hs files => ?_
    obtain ⟨source, -, rfl⟩ := List.mem_map.mp hs
    rw [scan_eq]
  rw [mem_batchesOf_scanAll hquiet]
  simp only [List.mem_map, exists_exists_and_eq_and, scan_eq]
  refine exists_congr fun source => and_congr_right fun _ => ?_
  cases source.walk files root with
  | error err => simp [Except.map]
  | ok paths => simp [Except.map, mem_eachFile_iff]

/-- One of the entries cannot be stored just if something in the project is given an empty name. -/
theorem exists_not_valid_iff (hnamed : files.Named) (hroot : files.isFile root = false)
    (hkinds : ∀ source ∈ sources, source.kind ≠ "") :
    (∃ e ∈ (batchesOf (scanAll root files (sources.map scanner)).1).flatten, ¬ e.Valid) ↔
      ∃ source ∈ sources, source.FindsEmptyBelow files root := by
  have hfile : ∀ source ∈ sources, ∀ paths, source.walk files root = .ok paths →
      ∀ path ∈ paths, (∃ e ∈ source.entriesIn files root path, ¬ e.Valid) ↔
        source.FindsEmptyIn files path := by
    intro source hs paths hwalk path hp
    have hbelow : IsBelow root path := by
      cases source <;> exact isBelow_of_mem_walkFiles hnamed hroot hwalk path hp
    rw [← not_iff_not, ← valid_entriesIn_iff (hkinds source hs) files hbelow]
    push Not
    rfl
  simp only [mem_batches_iff]
  constructor
  · rintro ⟨e, ⟨source, hs, paths, hwalk, path, hp, he⟩, hv⟩
    exact ⟨source, hs, paths, hwalk, path, hp, (hfile source hs paths hwalk path hp).mp ⟨e, he, hv⟩⟩
  · rintro ⟨source, hs, paths, hwalk, path, hp, hempty⟩
    obtain ⟨e, he, hv⟩ := (hfile source hs paths hwalk path hp).mpr hempty
    exact ⟨e, ⟨source, hs, paths, hwalk, path, hp, he⟩, hv⟩

/-- What becomes of the entries that some sources find in a project. -/
structure Stores (sources : List ContentSource) (files : FileTree) (root : String) : Prop where
  /-- those of a file can be stored unless something in it is given an empty name -/
  entries : ∀ source ∈ sources, ∀ path, IsBelow root path →
    ((∀ e ∈ source.entriesIn files root path, e.Valid) ↔ ¬ source.FindsEmptyIn files path)
  /-- a rebuild only finds fault with an entry if something in the project is given an empty name,
  and then no rebuild succeeds -/
  rebuilds : ∀ (R : Run Store StoreAnswer) (t : ℕ) (i : Index), i.serializer = R.after t →
    i.root = root →
    ((R.after t).isRunning = true → R.Asked t i .uninterruptible
      (replaceScript (batchesOf (scanAll root files (sources.map scanner)).1))) →
    ((∃ batch index reason, (i.rebuiltWith files (sources.map scanner)).1 =
        .error (.malformedEntry batch index reason)) →
      ∃ source ∈ sources, source.FindsEmptyBelow files root) ∧
    ((∃ source ∈ sources, source.FindsEmptyBelow files root) →
      ∃ err, (i.rebuiltWith files (sources.map scanner)).1 = .error err)

/-- **Lines and words can be stored unless one of them is given an empty name**, which is what a
blank line is given that is kept, and an empty match. -/
theorem stores (hnamed : files.Named) (hroot : files.isFile root = false)
    (hkinds : ∀ source ∈ sources, source.kind ≠ "") : Stores sources files root where
  entries source hs path hbelow := valid_entriesIn_iff (hkinds source hs) files hbelow
  rebuilds R t i hi hrootI hasked := by
    subst hrootI
    rw [← exists_not_valid_iff hnamed hroot hkinds]
    constructor
    · rintro ⟨batch, index, reason, hresult⟩
      rcases Index.rebuiltWith_cases hi hasked with h | h | ⟨s, h⟩
      · cases h.symm.trans hresult
      · cases h.symm.trans hresult
      · rw [h] at hresult
        cases hr : (s.replace (batchesOf (scanAll i.root files (sources.map scanner)).1)).1 with
        | ok g => rw [hr] at hresult; cases hresult
        | error err =>
          rw [hr] at hresult
          obtain rfl := Except.error.inj hresult
          exact Store.exists_not_valid_of_malformed hr
    · rintro ⟨e, he, hv⟩
      rcases Index.rebuiltWith_cases hi hasked with h | h | ⟨s, h⟩
      · exact ⟨_, h⟩
      · exact ⟨_, h⟩
      · obtain ⟨err, herr⟩ := s.exists_error_of_not_valid he hv
        exact ⟨err, by rw [h, herr]; rfl⟩

/-- An index of a small project is rebuilt from some sources when it has nothing else to do. -/
def rebuildingRun (sources : List ContentSource) : Run Store StoreAnswer where
  name := ownerName
  background := false
  state := { path := "index", place := "index", database := {}, capacity := Space.pages.byDefault }
  moves
    | 0 => .start
    | 1 => .call .uninterruptible
        (replaceScript (batchesOf (scanAll "/p" mixedProject (sources.map scanner)).1))
    | _ => .owner

def rebuildingIndex (sources : List ContentSource) : Index where
  root := "/p"
  settings := {}
  serializer := (rebuildingRun sources).after 1

theorem isName_of_mixedProject : ∀ name ∈ ["p", "a.c"], IsName name.toList := by
  intro name h
  rcases List.mem_pair.mp h with rfl | rfl <;> exact ⟨by decide, by decide, by decide, by decide⟩

theorem readText_mixedProject {sizeLimit : ℕ} (h : mixedContent.size ≤ sizeLimit) :
    readText mixedProject "/p/a.c" sizeLimit = some (decodeLossy mixedContent) := by
  rw [readText, read_mixedProject]
  exact if_pos h

/-- A source of the lines that are not blank, and one of words. -/
def plainSources : List ContentSource :=
  [.lines { exclude := [], excludeFiles := [] } (· ≠ []),
    .words { exclude := [], excludeFiles := [] } Text.words]

theorem stores_plainSources :
    mixedProject.Named ∧ mixedProject.isFile "/p" = false ∧
      Stores plainSources mixedProject "/p" ∧
      ∀ batch index reason,
        ((rebuildingIndex plainSources).rebuiltWith mixedProject (plainSources.map scanner)).1 ≠
          .error (.malformedEntry batch index reason) := by
  have hnamed : mixedProject.Named := by
    have hfile : (Node.directory [("a.c", .file mixedContent)]).Named := by
      refine .directory ?_ ?_ <;> intro child hc <;> rw [List.mem_singleton.mp hc]
      · exact isName_of_mixedProject "a.c" (by decide)
      · exact .file _
    refine .directory ?_ ?_ <;> intro child hc <;> rw [List.mem_singleton.mp hc]
    · exact isName_of_mixedProject "p" (by decide)
    · exact hfile
  have hroot : mixedProject.isFile "/p" = false := by
    rw [FileTree.isFile, locate_mixedProject]
  have hkinds : ∀ source ∈ plainSources, source.kind ≠ "" := by decide
  have hstores := stores hnamed hroot hkinds
  refine ⟨hnamed, hroot, hstores, fun batch index reason hresult => ?_⟩
  have hasked : (rebuildingRun plainSources).Asked 1 (rebuildingIndex plainSources) .uninterruptible
      (replaceScript (batchesOf (scanAll "/p" mixedProject (plainSources.map scanner)).1)) :=
    ⟨rfl, rfl, rfl, fun k _ => by rw [show 1 + 1 + k = k + 2 by omega]; rfl⟩
  -- no line is kept that is blank, and no word is empty
  have hplain : ∀ source ∈ plainSources, source.walk mixedProject "/p" = .ok ["/p/a.c"] ∧
      readText mixedProject "/p/a.c" source.sizeLimit = some (decodeLossy mixedContent) ∧
      ∀ line ∈ Text.lines (decodeLossy mixedContent), ¬ source.FindsEmpty line := by
    intro source hs
    rcases List.mem_pair.mp hs with rfl | rfl
    · exact ⟨walkFiles_mixedProject, readText_mixedProject (by decide), by simp [FindsEmpty]⟩
    · refine ⟨walkFiles_mixedProject, readText_mixedProject (by decide), ?_⟩
      unfold FindsEmpty
      decide +kernel
  obtain ⟨source, hs, paths, hwalk, path, hp, text, htext, line, hline, hempty⟩ :=
    (hstores.rebuilds _ 1 _ rfl rfl fun _ => hasked).1 ⟨batch, index, reason, hresult⟩
  obtain ⟨hwalk', htext', hnone⟩ := hplain source hs
  obtain rfl := Except.ok.inj (hwalk'.symm.trans hwalk)
  obtain rfl := List.mem_singleton.mp hp
  obtain rfl := Option.some.inj (htext'.symm.trans htext)
  exact hnone line hline hempty

/-- A source of all lines, also of those that are blank. -/
def allLines : LinesSource := { exclude := [], excludeFiles := [] }

def everyLine : ContentSource := lines allLines fun _ => true

/-- A blank line has an entry, and lets a rebuild fail. -/
theorem blank_line_refused :
    everyLine.kind ≠ "" ∧ IsBelow "/p" "/p/a.c" ∧
      (∃ e ∈ everyLine.entriesIn mixedProject "/p" "/p/a.c", ¬ e.Valid) ∧
      ((rebuildingIndex [everyLine]).rebuiltWith mixedProject [everyLine.scanner]).1 =
        .error (.malformedEntry 0 1 "empty name") := by
  have hname : ∀ name ∈ ["a.c"], IsName name.toList := fun name h =>
    isName_of_mixedProject name (List.mem_cons_of_mem _ h)
  have hpath : pathBelow "/p" ["a.c"] = "/p/a.c" := by decide
  have hcut : linesInclusive (decodeLossy mixedContent) = mixedLines := by decide +kernel
  have hentries : everyLine.entriesIn mixedProject "/p" "/p/a.c" =
      allLines.entriesOfLines (fun _ => true) "a.c" mixedLines := by
    rw [entriesIn, eachFile, List.flatMap_singleton, readText_mixedProject (by decide), ← hpath,
      entryPath_pathBelow "/p" (by decide) hname, ← hcut, ← allLines.entriesOf_eq]
    rfl
  have hscan : (scanAll "/p" mixedProject [everyLine.scanner]).1 =
      [("lines", .ok (allLines.entriesOfLines (fun _ => true) "a.c" mixedLines))] := by
    have hwalk : everyLine.walk mixedProject "/p" = .ok ["/p/a.c"] := walkFiles_mixedProject
    rw [scanAll, scan_eq, hwalk, ← hentries]
    rfl
  refine ⟨by decide, ⟨["a.c"], by decide, hname, hpath.symm⟩, ?_, ?_⟩
  · rw [hentries]
    exact ⟨_, List.mem_cons_of_mem _ List.mem_cons_self, by decide⟩
  · rw [Index.rebuiltWith_eq, rebuildingIndex, hscan]
    rfl

end ContentSource

end SymbolIndex
