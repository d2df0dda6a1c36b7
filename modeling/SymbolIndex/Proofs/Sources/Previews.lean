import SymbolIndex.Proofs.FileTree.Walks
import SymbolIndex.Proofs.Path.Below
import SymbolIndex.Proofs.Sources.Shown
import SymbolIndex.Sources.Scanner

/-!
# Lines that are scanned and shown

The scanners of lines and of words number the lines of a file without their ends. A preview counts
the lines with their ends, in the file that the path of an entry leads to.

* `LinesSource.entriesOfLines`, `WordsSource.entriesOfLines`: the entries of the lines of a file;
* `LinesSource.entriesOf_eq`, `WordsSource.entriesOf_eq`: what a scanner makes of a text;
* `eachFile_append_cons`: the part of one file in a scan;
* `BeginsWithLine`, `preview_of_line`: what is shown beside the entry of a line;
* `scanned_and_previewed`: every line that is scanned is shown beside its entries.
-/

namespace SymbolIndex

open Text SymbolIndex.Path

/-! ## Entries of numbered lines -/

/-- The entry of a line, given with its end. -/
def LinesSource.entryOfLine (settings : LinesSource) (file : String) (line : List Char)
    (number : ℕ) : Entry where
  name := String.ofList (trim line)
  kind := settings.kind
  file
  location := some (.line (UInt32.ofNat number))
  priority := settings.priority
  subpriority := settings.subpriority

/-- The entries of the lines that are kept, in the order of the lines. -/
def LinesSource.entriesOfLines (settings : LinesSource) (keep : List Char → Bool) (file : String)
    (ls : List (List Char)) : List Entry :=
  ((ls.zipIdx 1).filter fun (line, _) => keep (trim line)).map fun (line, number) =>
    settings.entryOfLine file line number

/-- The entry of a word of a line. -/
def WordsSource.entryOfWord (settings : WordsSource) (file : String) (line : List Char)
    (number : ℕ) (word : List Char) : Entry where
  name := String.ofList word
  kind := settings.kind
  file
  extra := if trim line = [] then none else some (String.ofList (trim line))
  location := some (.line (UInt32.ofNat number))
  priority := settings.priority
  subpriority := settings.subpriority

/-- The entries of the words that are found, in the order of the lines and then of the words. -/
def WordsSource.entriesOfLines (settings : WordsSource) (find : List Char → List (List Char))
    (file : String) (ls : List (List Char)) : List Entry :=
  (ls.zipIdx 1).flatMap fun (line, number) =>
    (find (trim line)).map (settings.entryOfWord file line number)

theorem WordsSource.extraText_entryOfWord (settings : WordsSource) (file : String)
    (line : List Char) (number : ℕ) (word : List Char) :
    (settings.entryOfWord file line number word).extraText = String.ofList (trim line) := by
  rw [Entry.extraText, entryOfWord]
  dsimp only
  split
  · next h => rw [h]; rfl
  · rfl

theorem lineNumber_eq (position : ℕ) : lineNumber position = UInt32.ofNat (position + 1) :=
  (UInt32.ofNat_add position 1).symm

/-- A scanner of lines counts them from the first one on. -/
theorem LinesSource.entriesOf_eq (settings : LinesSource) (keep : List Char → Bool)
    (file : String) (text : List Char) :
    settings.entriesOf keep file text =
      settings.entriesOfLines keep file (linesInclusive text) := by
  rw [entriesOf, entriesOfLines, lines, List.zipIdx_map, List.zipIdx_succ, List.filterMap_map,
    ← List.filterMap_eq_map, List.filterMap_filter, List.filterMap_map]
  refine List.filterMap_congr ?_
  rintro ⟨line, position⟩ -
  simp only [Function.comp_apply, Prod.map_apply, id_eq, trim_stripLineEnd, lineNumber_eq,
    entryOfLine]

theorem WordsSource.entriesOf_eq (settings : WordsSource) (find : List Char → List (List Char))
    (file : String) (text : List Char) :
    settings.entriesOf find file text =
      settings.entriesOfLines find file (linesInclusive text) := by
  rw [entriesOf, entriesOfLines, lines, List.zipIdx_map, List.zipIdx_succ, List.flatMap_map,
    List.flatMap_map]
  refine List.flatMap_congr ?_
  rintro ⟨line, position⟩ -
  simp only [Prod.map_apply, id_eq, trim_stripLineEnd, lineNumber_eq]
  refine List.map_congr_left fun word _ => ?_
  rw [Entry.withExtra, entryOfWord]
  simp

/-- In a scan of files, the entries of one file stand between those of the files around it. -/
theorem eachFile_append_cons {files : FileTree} {path : String} {content : ByteArray}
    {sizeLimit : ℕ} (hread : files.read path = .ok content) (hsize : content.size ≤ sizeLimit)
    (root : String) (entriesOf : String → List Char → List Entry) (before after : List String) :
    eachFile files root sizeLimit entriesOf (before ++ path :: after) =
      eachFile files root sizeLimit entriesOf before ++
        entriesOf (entryPath path root) (decodeLossy content) ++
          eachFile files root sizeLimit entriesOf after := by
  have htext : readText files path sizeLimit = some (decodeLossy content) := by
    rw [readText, hread]
    exact if_pos hsize
  rw [eachFile, List.flatMap_append, List.flatMap_cons, htext, List.append_assoc]
  rfl

/-! ## What is shown -/

/-- The first line of a text says this between the blanks around it. -/
def BeginsWithLine (text said : String) : Prop :=
  ∃ line rest, AreLines (line :: rest) ∧ text.toList = (line :: rest).flatten ∧
    String.ofList (trim line) = said

section Previews

variable {files : FileTree} {root : String} {names : List String} (hne : names ≠ [])
  (hnames : ∀ name ∈ names, IsName name.toList) {content : ByteArray}
  (hread : files.read (pathBelow root names) = .ok content)
  {ls : List (List Char)} (hls : AreLines ls) (htext : ls.flatten = decodeLossy content)
  (hcount : ls.length < UInt32.size)

include hne hread hls htext hcount

/-- **The line of an entry is shown first** beside it. -/
theorem preview_of_line {e : Entry} (hfile : e.file = pathText names) {line : List Char}
    {number : ℕ} (hline : (line, number) ∈ ls.zipIdx 1)
    (hnumber : e.location = some (.line (UInt32.ofNat number))) :
    BeginsWithLine (preview files root e) (String.ofList (trim line)) := by
  obtain ⟨hpos, hat⟩ := List.mem_zipIdx_iff_le_and_getElem?_sub.mp hline
  obtain ⟨hlt, hat⟩ := List.getElem?_eq_some_iff.mp hat
  dsimp only at hpos hlt hat
  have hrest : ls.drop (number - 1) = line :: ls.drop (number - 1 + 1) := by
    rw [List.drop_eq_getElem_cons hlt, hat]
  have hsplit : linesInclusive (decodeLossy content) =
      ls.take (number - 1) ++ line :: ls.drop (number - 1 + 1) := by
    rw [linesInclusive_eq_iff.mpr ⟨hls, htext⟩, ← hrest, List.take_append_drop]
  have hsmall : number < UInt32.size := by omega
  have hnat : (UInt32.ofNat number).toNat = (ls.take (number - 1)).length + 1 := by
    rw [UInt32.toNat_ofNat_of_lt' hsmall, List.length_take]
    omega
  have hshown : AreLines ((line :: ls.drop (number - 1 + 1)).take previewLength) :=
    hrest ▸ (hls.drop _).take _
  have hread : files.read (resolve root e.file) = .ok content := by
    rw [hfile, resolve_pathText root hne, hread]
  refine ⟨line, _, hshown, ?_, rfl⟩
  rw [preview_of_lines hread, hnumber, previewLines_line hsplit hnat,
    if_neg (flatten_lines_ne_nil hsplit), String.toList_ofList]
  rfl

/-- A scan has found these entries between others, and beside each of them a line is shown first
that says what it is about. -/
structure FindsAndShows (scan : ScanResult) (root : String) (before found after : List Entry)
    (said : Entry → String) : Prop where
  outcome : scan.outcome = .ok (before ++ found ++ after)
  shown : ∀ e ∈ found, BeginsWithLine (preview scan.files root e) (said e)

include hnames

/-- **A line that is scanned is the line that is shown.** The entries of a file are those of its
lines that are kept, or of the words in its lines, in order, and what is shown beside each of them
begins with the line that it is named after or that it was found on. -/
theorem scanned_and_previewed :
    (∀ (settings : LinesSource) (keep : List Char → Bool) (before after : List String),
      content.size ≤ settings.sizeLimit →
      walkFiles files root settings.exclude settings.excludeFiles =
        .ok (before ++ pathBelow root names :: after) →
      FindsAndShows ((settings.scanner keep).scan files root) root
        (eachFile files root settings.sizeLimit (settings.entriesOf keep) before)
        (settings.entriesOfLines keep (pathText names) ls)
        (eachFile files root settings.sizeLimit (settings.entriesOf keep) after) Entry.name) ∧
    ∀ (settings : WordsSource) (find : List Char → List (List Char)) (before after : List String),
      content.size ≤ settings.sizeLimit →
      walkFiles files root settings.exclude settings.excludeFiles =
        .ok (before ++ pathBelow root names :: after) →
      FindsAndShows ((settings.scanner find).scan files root) root
        (eachFile files root settings.sizeLimit (settings.entriesOf find) before)
        (settings.entriesOfLines find (pathText names) ls)
        (eachFile files root settings.sizeLimit (settings.entriesOf find) after)
        Entry.extraText := by
  have hlines : linesInclusive (decodeLossy content) = ls :=
    linesInclusive_eq_iff.mpr ⟨hls, htext⟩
  constructor
  · intro settings keep before after hsize hwalk
    constructor
    · dsimp only [LinesSource.scanner]
      rw [hwalk, Except.map, eachFile_append_cons hread hsize,
        entryPath_pathBelow root hne hnames, settings.entriesOf_eq, hlines]
    · intro e he
      obtain ⟨⟨line, number⟩, hline, rfl⟩ := List.mem_map.mp he
      exact preview_of_line hne hread hls htext hcount rfl (List.mem_of_mem_filter hline) rfl
  · intro settings find before after hsize hwalk
    constructor
    · dsimp only [WordsSource.scanner]
      rw [hwalk, Except.map, eachFile_append_cons hread hsize,
        entryPath_pathBelow root hne hnames, settings.entriesOf_eq, hlines]
    · intro e he
      obtain ⟨⟨line, number⟩, hline, hword⟩ := List.mem_flatMap.mp he
      obtain ⟨word, -, rfl⟩ := List.mem_map.mp hword
      rw [settings.extraText_entryOfWord]
      show BeginsWithLine (preview files root _) _
      exact preview_of_line hne hread hls htext hcount rfl hline rfl

end Previews

/-- A text with ends of both sorts, a byte that is no UTF-8 and nothing at its end. -/
def mixedContent : ByteArray := ⟨#[97, 32, 98, 13, 10, 10, 9, 0xFF, 99]⟩

def mixedLines : List (List Char) :=
  [['a', ' ', 'b', '\r', '\n'], ['\n'], ['\t', replacement, 'c']]

/-- A project with this text in its one file. -/
def mixedProject : FileTree := ⟨[("p", .directory [("a.c", .file mixedContent)])]⟩

theorem read_mixedProject : mixedProject.read "/p/a.c" = .ok mixedContent := by
  have hplace : mixedProject.place "/p/a.c" true =
      .ok (.found ["p", "a.c"] (.file mixedContent)) := by
    simp [FileTree.place, pathPieces, splitAt, consHead, FileTree.follow, FileTree.find?,
      Node.find?, mixedProject]
  rw [FileTree.read, FileTree.locate, hplace]
  rfl

theorem locate_mixedProject :
    mixedProject.locate "/p" = .ok (["p"], .directory [("a.c", .file mixedContent)]) := by
  have hplace : mixedProject.place "/p" true =
      .ok (.found ["p"] (.directory [("a.c", .file mixedContent)])) := by
    simp [FileTree.place, pathPieces, splitAt, consHead, FileTree.follow, FileTree.find?,
      Node.find?, mixedProject]
  rw [FileTree.locate, hplace]
  rfl

theorem walkFiles_mixedProject : walkFiles mixedProject "/p" [] [] = .ok ["/p/a.c"] := by
  have hnode : mixedProject.node? "/p" = some (.directory [("a.c", .file mixedContent)]) := by
    rw [FileTree.node?, locate_mixedProject]
    rfl
  have hfound : (mixedProject.walk "/p" (.ofNames [])).found []
      (.directory [("a.c", .file mixedContent)]) = [["a.c"]] := by
    rw [Walk.found, Walk.collect, Walk.collect]
    dsimp only
    rw [if_neg (by decide)]
    rfl
  have hgits : (mixedProject.walk "/p" (.ofNames [])).isGits ["a.c"] = false := by decide +kernel
  have hlist : (mixedProject.walk "/p" (.ofNames [])).list [] (mixedProject.node? "/p") =
      .ok [["a.c"]] := by
    rw [Walk.list_of_reads fun p hp => absurd hp List.not_mem_nil, hnode]
    dsimp only [Option.elim, Matcher.rules, List.filterMap_nil]
    rw [hfound, Walk.listed, List.filter_singleton, hgits]
    exact congrArg Except.ok (List.mergeSort_singleton _)
  rw [walkFiles, hlist]
  rfl

theorem scanned_and_previewed_mixedProject :
    let lines : LinesSource := { exclude := [], excludeFiles := [] }
    let words : WordsSource := { exclude := [], excludeFiles := [] }
    FindsAndShows ((lines.scanner (· ≠ [])).scan mixedProject "/p") "/p" []
      [lines.entryOfLine "a.c" ['a', ' ', 'b', '\r', '\n'] 1,
        lines.entryOfLine "a.c" ['\t', replacement, 'c'] 3] [] Entry.name ∧
    FindsAndShows ((words.scanner Text.words).scan mixedProject "/p") "/p" []
      [words.entryOfWord "a.c" ['a', ' ', 'b', '\r', '\n'] 1 ['a'],
        words.entryOfWord "a.c" ['a', ' ', 'b', '\r', '\n'] 1 ['b'],
        words.entryOfWord "a.c" ['\t', replacement, 'c'] 3 [replacement, 'c']] []
      Entry.extraText := by
  intro lines words
  have hname : ∀ name ∈ ["a.c"], IsName name.toList := by
    intro name h
    rw [List.mem_singleton.mp h]
    exact ⟨by decide, by decide, by decide, by decide⟩
  have hpath : pathBelow "/p" ["a.c"] = "/p/a.c" := by decide
  have hread : mixedProject.read (pathBelow "/p" ["a.c"]) = .ok mixedContent := by
    rw [hpath, read_mixedProject]
  have hwalk : walkFiles mixedProject "/p" [] [] = .ok ([] ++ pathBelow "/p" ["a.c"] :: []) := by
    rw [hpath, walkFiles_mixedProject, List.nil_append]
  have hcut : linesInclusive (decodeLossy mixedContent) = mixedLines := by decide +kernel
  obtain ⟨hls, htext⟩ := linesInclusive_eq_iff.mp hcut
  obtain ⟨hlines, hwords⟩ := scanned_and_previewed (by decide) hname hread hls htext
    (by decide)
  exact ⟨hlines lines _ [] [] (by decide) hwalk, hwords words _ [] [] (by decide) hwalk⟩

end SymbolIndex
