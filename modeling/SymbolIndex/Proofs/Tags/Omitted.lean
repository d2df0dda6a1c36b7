import SymbolIndex.Proofs.Tags.ByLine

/-!
# Tags without a name or without a file

The blanks around a line are gone before its columns are told apart, and a tab is a blank. So a
line that begins with a tab does not lack its name: the next column that is not blank is taken for
it. Only a line that lacks its file behind a name is sure to be passed over.

* `fileField_trim`: the file of a line whose name is not blank;
* `parseLine_eq_none_iff`: which lines have no entry;
* `ComesToNothing`, `comesToNothing_iff`: lines that make no difference to a text;
* `nameless_fails`: a line without a name that makes the whole text fail.
-/

namespace SymbolIndex.Tags

open Text

/-! ## Columns -/

theorem column_of_not_mem {s : List Char} (h : '\t' ∉ s) : column s = (s, []) := by
  rw [column, splitOnce_of_not_mem h, Option.getD_none]

theorem column_append {before : List Char} (h : '\t' ∉ before) (behind : List Char) :
    column (before ++ '\t' :: behind) = (before, behind) := by
  rw [column, splitOnce_append h, Option.getD_some]

theorem nameField_cons {c : Char} (hc : c ≠ '\t') (s : List Char) : nameField (c :: s) ≠ [] := by
  by_cases hs : '\t' ∈ s
  · obtain ⟨before, behind, rfl, hbefore⟩ := List.eq_append_cons_of_mem hs
    rw [nameField, ← List.cons_append,
      column_append (List.not_mem_cons_of_ne_of_not_mem hc.symm hbefore)]
    exact List.cons_ne_nil _ _
  · rw [nameField, column_of_not_mem (List.not_mem_cons_of_ne_of_not_mem hc.symm hs)]
    exact List.cons_ne_nil _ _

theorem fileField_of_not_mem {s : List Char} (h : '\t' ∉ s) : fileField s = [] := by
  rw [fileField, column_of_not_mem h]
  rfl

theorem fileField_append {before : List Char} (h : '\t' ∉ before) (behind : List Char) :
    fileField (before ++ '\t' :: behind) = nameField behind := by
  rw [fileField, column_append h, nameField]

theorem fileField_of_prefix {s t : List Char} (h : s <+: t) (ht : fileField t = []) :
    fileField s = [] := by
  by_cases hs : '\t' ∈ s
  · obtain ⟨before, behind, rfl, hbefore⟩ := List.eq_append_cons_of_mem hs
    obtain ⟨rest, rfl⟩ := h
    rw [List.append_assoc, List.cons_append, fileField_append hbefore] at ht
    rw [fileField_append hbefore]
    cases behind with
    | nil => rfl
    | cons c behind =>
      have hc : c = '\t' := by
        by_contra hc
        exact nameField_cons hc (behind ++ rest) ht
      subst hc
      exact congrArg Prod.fst (column_append List.not_mem_nil behind)
  · exact fileField_of_not_mem hs

theorem fileField_trimStart {line : List Char} (h : ∃ c ∈ nameField line, isBlank c = false) :
    fileField (trimStart line) = fileField line := by
  by_cases hline : '\t' ∈ line
  · obtain ⟨before, behind, rfl, hbefore⟩ := List.eq_append_cons_of_mem hline
    obtain ⟨c, hc, hblank⟩ := h
    rw [nameField, column_append hbefore] at hc
    have hsome : (before.dropWhile isBlank).isEmpty = false := by
      rw [List.isEmpty_eq_false_iff]
      intro hnil
      rw [List.dropWhile_eq_nil_iff.mp hnil c hc] at hblank
      cases hblank
    have hrest : '\t' ∉ before.dropWhile isBlank := fun hmem =>
      hbefore ((List.dropWhile_suffix isBlank).subset hmem)
    rw [trimStart, List.dropWhile_append, hsome, if_neg Bool.false_ne_true,
      fileField_append hrest, fileField_append hbefore]
  · have hrest : '\t' ∉ trimStart line := fun hmem =>
      hline ((List.dropWhile_suffix isBlank).subset hmem)
    rw [fileField_of_not_mem hrest, fileField_of_not_mem hline]

/-- **A line that lacks its file behind a name lacks it without the blanks around it, too.** -/
theorem fileField_trim {line : List Char} (h : ∃ c ∈ nameField line, isBlank c = false)
    (hfile : fileField line = []) : fileField (trim line) = [] := by
  have hprefix : trim line <+: trimStart line := List.rdropWhile_prefix isBlank _
  exact fileField_of_prefix hprefix ((fileField_trimStart h).trans hfile)

theorem nameField_trim {line : List Char} (h : nameField (trim line) = []) : trim line = [] := by
  cases htrim : trim line with
  | nil => rfl
  | cons c rest =>
    have hstart : trim line <+: trimStart line := List.rdropWhile_prefix isBlank _
    obtain ⟨more, hmore⟩ := htrim ▸ hstart
    have hblank : isBlank c = false := by
      have hhead := List.head?_dropWhile_not isBlank line
      rw [show line.dropWhile isBlank = c :: (rest ++ more) from hmore.symm] at hhead
      exact hhead
    have hc : c ≠ '\t' := by
      rintro rfl
      exact absurd hblank (by decide)
    rw [htrim] at h
    exact absurd h (nameField_cons hc rest)

/-! ## Lines without an entry -/

/-- A file that is empty, or the mark of the directory it starts from. -/
def NoFile (file : List Char) : Prop := file = [] ∨ file = ['.', '/'] ∨ file = ['.', '\\']

theorem normalFile_eq_nil_iff {file : List Char} : normalFile file = [] ↔ NoFile file := by
  have hslash : ∀ c : Char, (if c = '\\' then '/' else c) = '/' ↔ c = '/' ∨ c = '\\' := by
    intro c
    split_ifs with hc
    · exact ⟨fun _ => .inr hc, fun _ => rfl⟩
    · exact ⟨.inl, fun h => h.resolve_right hc⟩
  have hdot : ∀ c : Char, (if c = '\\' then '/' else c) = '.' ↔ c = '.' := by
    intro c
    split_ifs with hc
    · subst hc
      decide
    · exact Iff.rfl
  have hmark : (file.map fun c => if c = '\\' then '/' else c) = ['.', '/'] ↔
      file = ['.', '/'] ∨ file = ['.', '\\'] := by
    match file with
    | [] | [_] | _ :: _ :: _ :: _ => simp
    | [c, d] =>
      rw [List.map_cons, List.map_cons, List.map_nil, List.cons.injEq, List.cons.injEq, hdot,
        hslash]
      simp [and_or_left]
  rw [NoFile, ← hmark]
  unfold normalFile
  split
  · next rest h =>
    have hfile : file ≠ [] := by
      rintro rfl
      cases h
    simp [h, hfile]
  · next h =>
    have hne : (file.map fun c => if c = '\\' then '/' else c) ≠ ['.', '/'] := h []
    rw [List.map_eq_nil_iff, or_iff_left hne]

/-- **Which lines have no entry**: whether they have a name is never asked. -/
theorem parseLine_eq_none_iff (map : KindMap) (priority : Int64) {line : List Char}
    (h : line.head? ≠ some '!') :
    parseLine map priority line = .ok none ↔ NoFile (fileField (trim line)) := by
  rw [← normalFile_eq_nil_iff]
  constructor
  · intro hnone
    rw [parseLine_eq map priority h] at hnone
    split_ifs at hnone with hparts
    · rcases hparts with hname | hfile
      · rw [nameField_trim hname]
        rfl
      · exact hfile
    · cases hl : Location.parse (String.ofList (locationAndFields (placeField (trim line))).1) with
      | error e => rw [hl] at hnone; cases hnone
      | ok location => rw [hl] at hnone; cases Except.ok.inj hnone
  · intro hfile
    rw [parseLine_eq map priority h, if_pos (.inr hfile)]

/-! ## Lines that make no difference -/

/-- Nothing comes of a line. -/
structure ComesToNothing (map : KindMap) (priority : Int64) (line : List Char) : Prop where
  /-- by itself it has no entries -/
  alone : parse map priority line = .ok []
  /-- a text has the same entries without it -/
  entries : ∀ before ended after, AreLines (before ++ ended :: after) → stripLineEnd ended = line →
    ∀ es, parse map priority (before ++ ended :: after).flatten = .ok es ↔
      parse map priority (before ++ after).flatten = .ok es
  /-- and if it fails it is because of the location of another line -/
  failure : ∀ before ended after, AreLines (before ++ ended :: after) → stripLineEnd ended = line →
    ∀ e, parse map priority (before ++ ended :: after).flatten = .error e →
      ∃ other ∈ before ++ after, ∃ raw,
        parse map priority (stripLineEnd other) = .error (lineFailure 0 (.invalidLocation raw))

theorem comesToNothing_of_none {map : KindMap} {priority : Int64} {line : List Char}
    (hline : '\n' ∉ line) (h : parseLine map priority line = .ok none) :
    ComesToNothing map priority line where
  alone := (parse_eq_ok_iff hline).mpr ⟨none, h, rfl⟩
  entries before ended after hls hended es := by
    rw [parse_text_eq_ok_iff, parse_text_eq_ok_iff, hls.lines_flatten, hls.erase.lines_flatten,
      List.map_append, List.map_append, List.map_append, List.map_append, List.map_cons,
      List.map_cons, hended, h]
    constructor
    · rintro ⟨found, hfound, rfl⟩
      obtain ⟨first, rest, rfl, hfirst, hrest⟩ := List.map_eq_append_iff.mp hfound.symm
      obtain ⟨entry, last, rfl, hentry, hlast⟩ := List.map_eq_cons_iff.mp hrest
      obtain rfl := Except.ok.inj hentry
      refine ⟨first ++ last, by rw [List.map_append, hfirst, hlast], ?_⟩
      rw [List.flatMap_append, List.flatMap_cons, List.flatMap_append]
      rfl
    · rintro ⟨found, hfound, rfl⟩
      obtain ⟨first, last, rfl, hfirst, hlast⟩ := List.map_eq_append_iff.mp hfound.symm
      refine ⟨first ++ none :: last, by rw [List.map_append, List.map_cons, hfirst, hlast], ?_⟩
      rw [List.flatMap_append, List.flatMap_append, List.flatMap_cons]
      rfl
  failure before ended after hls hended e he := by
    rcases readable_or_first map priority (lines (before ++ ended :: after).flatten) with
      ⟨found, hfound⟩ | ⟨_, other, _, e', hsplit, -, he'⟩
    · cases (parse_of_lines hfound).symm.trans he
    · have hmem : other ∈ lines (before ++ ended :: after).flatten :=
        hsplit ▸ List.mem_append_right _ List.mem_cons_self
      have hfeed : '\n' ∉ other := not_mem_of_mem_lines hmem
      rw [hls.lines_flatten] at hmem
      obtain ⟨ended', hended', rfl⟩ := List.mem_map.mp hmem
      have hne : ended' ≠ ended := by
        rintro rfl
        rw [hended, h] at he'
        cases he'
      obtain hnone | ⟨_, -, -, hsome⟩ | ⟨raw, herror⟩ :=
        parseLine_cases map priority (stripLineEnd ended')
      · cases hnone.symm.trans he'
      · cases hsome.symm.trans he'
      · refine ⟨ended', ?_, raw, by rw [parse_of_not_mem map priority hfeed, herror]; rfl⟩
        simpa [hne] using hended'

/-- **A tag without a name or without a file** is passed over if there is something in front of the
first tab, or if there is no file behind the blanks that the line begins with. Otherwise what
follows those blanks is taken for the name. -/
theorem comesToNothing_iff (map : KindMap) (priority : Int64) {line : List Char}
    (hline : '\n' ∉ line) (hmeta : line.head? ≠ some '!')
    (hlacks : nameField line = [] ∨ fileField line = []) :
    ComesToNothing map priority line ↔
      (∃ c ∈ nameField line, isBlank c = false) ∨ NoFile (fileField (trim line)) := by
  constructor
  · intro h
    refine .inr ((parseLine_eq_none_iff map priority hmeta).mp ?_)
    obtain ⟨found, hfound, hnil⟩ := (parse_eq_ok_iff hline).mp h.alone
    cases found with
    | none => exact hfound
    | some entry => cases hnil
  · intro h
    refine comesToNothing_of_none hline ((parseLine_eq_none_iff map priority hmeta).mpr ?_)
    rcases h with ⟨c, hc, hblank⟩ | hfile
    · have hname : nameField line ≠ [] := List.ne_nil_of_mem hc
      exact .inl (fileField_trim ⟨c, hc, hblank⟩ (hlacks.resolve_left hname))
    · exact hfile

theorem comesToNothing_fileless :
    ComesToNothing [] 10 "main\t\t/open".toList ∧ ComesToNothing [] 10 "\tmain.c".toList :=
  ⟨(comesToNothing_iff [] 10 (by decide) (by decide) (.inr (by decide))).mpr
      (.inl ⟨'m', by decide, by decide⟩),
    (comesToNothing_iff [] 10 (by decide) (by decide) (.inl (by decide))).mpr
      (.inr (.inl (by decide)))⟩

/-- A tag without a name makes all others go with it: its file is taken for the name, its location
for the file, and the kind for the location. -/
theorem nameless_fails :
    let first := "main\ta.c\t3;\"\tf\n".toList
    let nameless := "\ta.c\t1;\"\tf".toList
    nameField nameless = [] ∧ nameless.head? ≠ some '!' ∧
      parse [] 10 (first ++ nameless) = .error (.scanner "tags"
        "line 2: Invalid location 'f': expected a line number or a delimited line anchor") ∧
      parse [] 10 first = .ok
        [{ name := "main", kind := "ImpFunc", file := "a.c", location := some (.line 3),
           priority := 10, subpriority := 85 }] :=
  ⟨by decide, by decide, rfl, rfl⟩

end SymbolIndex.Tags
