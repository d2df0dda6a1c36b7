import SymbolIndex.Proofs.Location.Reading
import SymbolIndex.Proofs.Text.Lines
import SymbolIndex.Tags.Line

/-!
# Tags are read line by line

What is read from one line does not depend on the lines around it, which only decide by which number
the line goes in a failure. The entries of a text are those of its lines, unless one of them cannot
be read: then the text has none, and the first such line is reported.

* `nameField`, `fileField`, `placeField`: what stands between the tabs of a line;
* `parseLine_eq`: what is read from the line of a tag;
* `KindMap.Named`, `valid_of_parseLine`: the entry of a line can be stored;
* `parse_of_not_mem`: a line by itself;
* `parseLines_append`: lines that can be read, in front of others;
* `ReadsByLine`, `parse_byLine`: whole texts.
-/

namespace SymbolIndex.Tags

open Text

/-! ## One line -/

/-- The text in front of the first tab. -/
def nameField (s : List Char) : List Char := (column s).1

/-- The text between the first tab and the second. -/
def fileField (s : List Char) : List Char := (column (column s).2).1

/-- The text behind the second tab: the location and the fields. -/
def placeField (s : List Char) : List Char := (column (column s).2).2

section OneLine

variable (map : KindMap) (priority : Int64)

/-- The entry of a tag that has this location. -/
def entryAt (s : List Char) (location : Option Location) : Entry :=
  let file := normalFile (fileField s)
  let fields := readFields (locationAndFields (placeField s)).2
  let rule := resolveKind map (String.ofList (fileExtension file)) (String.ofList fields.letter)
  { name := String.ofList (nameField s)
    kind := rule.kind
    file := String.ofList file
    extra := if fields.extra = [] then none else some (String.ofList (spaced fields.extra))
    location
    priority
    subpriority := rule.subpriority }

/-- **What is read from a line** that is not about the file itself. -/
theorem parseLine_eq {line : List Char} (h : line.head? ≠ some '!') :
    parseLine map priority line =
      if nameField (trim line) = [] ∨ normalFile (fileField (trim line)) = [] then .ok none
      else (Location.parse (String.ofList (locationAndFields (placeField (trim line))).1)).map
        fun location => some (entryAt map priority (trim line) location) := by
  unfold parseLine
  rw [if_neg h]
  refine if_congr Iff.rfl rfl ?_
  cases hl : Location.parse (String.ofList (locationAndFields (placeField (trim line))).1) with
  | error e => exact congrArg (· >>= _) hl
  | ok location => exact congrArg (· >>= _) hl

/-- **A line** has no entry, or that of its columns, or a location that is none. -/
theorem parseLine_cases (line : List Char) :
    parseLine map priority line = .ok none ∨
      (∃ location, nameField (trim line) ≠ [] ∧ normalFile (fileField (trim line)) ≠ [] ∧
        parseLine map priority line = .ok (some (entryAt map priority (trim line) location))) ∨
      ∃ raw, parseLine map priority line = .error (.invalidLocation raw) := by
  by_cases hmeta : line.head? = some '!'
  · exact .inl (by rw [parseLine, if_pos hmeta])
  rw [parseLine_eq map priority hmeta]
  split_ifs with hparts
  · exact .inl rfl
  obtain ⟨hname, hfile⟩ := not_or.mp hparts
  obtain ⟨-, hp⟩ | ⟨-, hp⟩ | ⟨_, _, -, -, hp⟩ | hp := Location.parse_cases
    (String.ofList (locationAndFields (placeField (trim line))).1) <;> rw [hp]
  · exact .inr (.inl ⟨_, hname, hfile, rfl⟩)
  · exact .inr (.inl ⟨_, hname, hfile, rfl⟩)
  · exact .inr (.inl ⟨_, hname, hfile, rfl⟩)
  · exact .inr (.inr ⟨_, rfl⟩)

end OneLine

/-! ## Entries that can be stored -/

/-- No kind is configured that has no name. -/
def KindMap.Named (map : KindMap) : Prop := ∀ rules ∈ map, ∀ rule ∈ rules.2, rule.2.kind ≠ ""

theorem mem_of_lookup_eq_some {α β : Type} [BEq α] [LawfulBEq α] {l : List (α × β)} {a : α} {b : β}
    (h : l.lookup a = some b) : (a, b) ∈ l := by
  obtain ⟨before, behind, rfl, -⟩ := List.lookup_eq_some_iff.mp h
  exact List.mem_append_right _ List.mem_cons_self

theorem KindMap.Named.kind_ne {map : KindMap} (h : map.Named) {extension letter : String}
    {rule : KindRule} (hr : map.resolve? extension letter = some rule) : rule.kind ≠ "" := by
  have hrule : ∀ extension, map.rule? extension letter = some rule → rule.kind ≠ "" := by
    intro extension hr
    obtain ⟨rules, hrules, hr⟩ := Option.bind_eq_some_iff.mp hr
    exact h _ (mem_of_lookup_eq_some hrules) _ (mem_of_lookup_eq_some hr)
  rw [KindMap.resolve?, Option.orElse_eq_orElse, Option.orElse_eq_or, Option.or_eq_some_iff] at hr
  exact hr.elim (hrule _) fun hr => hrule _ hr.2

theorem builtinKinds_named : builtinKinds.Named := by
  unfold KindMap.Named
  decide

theorem resolveKind_kind_ne {map : KindMap} (h : map.Named) (extension letter : String) :
    (resolveKind map extension letter).kind ≠ "" := by
  rw [resolveKind, Option.orElse_eq_orElse, Option.orElse_eq_or]
  cases hr : (map.resolve? extension letter).or (builtinKinds.resolve? extension letter) with
  | none => simp
  | some rule =>
    rcases Option.or_eq_some_iff.mp hr with hr | ⟨-, hr⟩
    · exact h.kind_ne hr
    · exact builtinKinds_named.kind_ne hr

/-- **The entry of a line can be stored.** -/
theorem valid_of_parseLine {map : KindMap} (hmap : map.Named) {priority : Int64} {line : List Char}
    {e : Entry} (h : parseLine map priority line = .ok (some e)) : e.Valid := by
  obtain hnone | ⟨location, hname, hfile, hsome⟩ | ⟨raw, herror⟩ :=
    parseLine_cases map priority line
  · cases hnone.symm.trans h
  · obtain rfl := Option.some.inj (Except.ok.inj (hsome.symm.trans h))
    exact Entry.valid_iff.mpr ⟨by simpa [entryAt] using hname, resolveKind_kind_ne hmap _ _,
      by simpa [entryAt] using hfile⟩
  · cases herror.symm.trans h

/-! ## Lines by themselves -/

section Lines

variable (map : KindMap) (priority : Int64)

/-- The line can be read as a text of its own. -/
def Reads (line : List Char) : Prop := ∃ es, parse map priority line = .ok es

/-- A line by itself has the entry that is read from it, or fails as the first line. -/
theorem parse_of_not_mem {line : List Char} (h : '\n' ∉ line) :
    parse map priority line =
      ((parseLine map priority line).map Option.toList).mapError (lineFailure 0) := by
  by_cases hne : line = []
  · subst hne
    rfl
  · rw [parse, lines_of_not_mem h hne, parseLines]
    rcases parseLine map priority line with e | _ | entry <;> rfl

variable {map priority}

theorem parse_eq_ok_iff {line : List Char} (h : '\n' ∉ line) {es : List Entry} :
    parse map priority line = .ok es ↔
      ∃ found, parseLine map priority line = .ok found ∧ es = found.toList := by
  rw [parse_of_not_mem map priority h]
  cases parseLine map priority line with
  | error e => exact ⟨nofun, fun ⟨_, h, _⟩ => nomatch h⟩
  | ok found =>
    refine ⟨fun h => ⟨found, rfl, (Except.ok.inj h).symm⟩, ?_⟩
    rintro ⟨_, hfound, rfl⟩
    obtain rfl := Except.ok.inj hfound
    rfl

/-! ## Lines behind one another -/

/-- Lines that can be read leave their entries, and move those behind them on. -/
theorem parseLines_append {ls : List (List Char)} {found : List (Option Entry)}
    (h : ls.map (parseLine map priority) = found.map .ok) (index : ℕ) (before : List Entry)
    (rest : List (List Char)) :
    parseLines map priority index before (ls ++ rest) =
      parseLines map priority (index + ls.length)
        ((found.flatMap Option.toList).reverse ++ before) rest := by
  induction ls generalizing found index before with
  | nil =>
    obtain rfl := List.map_eq_nil_iff.mp h.symm
    rfl
  | cons line ls ih =>
    obtain ⟨entry, found, rfl, hline, hls⟩ := List.map_eq_cons_iff.mp h.symm
    have hindex : index + (ls.length + 1) = index + 1 + ls.length := by omega
    rw [List.cons_append, parseLines, ← hline, List.length_cons, hindex]
    cases entry with
    | none => exact ih hls.symm (index + 1) before
    | some entry =>
      rw [List.flatMap_cons, Option.toList_some, List.reverse_append, List.reverse_singleton,
        List.append_assoc, List.singleton_append]
      exact ih hls.symm (index + 1) (entry :: before)

theorem parse_of_lines {text : List Char} {found : List (Option Entry)}
    (h : (lines text).map (parseLine map priority) = found.map .ok) :
    parse map priority text = .ok (found.flatMap Option.toList) := by
  have hall := parseLines_append h 0 [] []
  rw [List.append_nil, List.append_nil] at hall
  rw [parse, hall, parseLines, List.reverse_reverse]

theorem parse_of_first {text line : List Char} {before after : List (List Char)}
    (hsplit : lines text = before ++ line :: after) {found : List (Option Entry)}
    (hbefore : before.map (parseLine map priority) = found.map .ok) {e : Error}
    (he : parseLine map priority line = .error e) :
    parse map priority text = .error (lineFailure before.length e) := by
  rw [parse, hsplit, parseLines_append hbefore, Nat.zero_add, parseLines, he]

variable (map priority) in
theorem readable_or_first (ls : List (List Char)) :
    (∃ found : List (Option Entry), ls.map (parseLine map priority) = found.map .ok) ∨
      ∃ before line after e, ls = before ++ line :: after ∧
        (∃ found : List (Option Entry), before.map (parseLine map priority) = found.map .ok) ∧
        parseLine map priority line = .error e := by
  induction ls with
  | nil => exact .inl ⟨[], rfl⟩
  | cons line ls ih =>
    cases hline : parseLine map priority line with
    | error e => exact .inr ⟨[], line, ls, e, rfl, ⟨[], rfl⟩, hline⟩
    | ok entry =>
      have hcons : ∀ {ls : List (List Char)},
          (∃ found : List (Option Entry), ls.map (parseLine map priority) = found.map .ok) →
          ∃ found : List (Option Entry),
            (line :: ls).map (parseLine map priority) = found.map .ok := by
        rintro ls ⟨found, hfound⟩
        exact ⟨entry :: found, by rw [List.map_cons, hline, hfound, List.map_cons]⟩
      rcases ih with hls | ⟨before, first, after, e, rfl, hbefore, hfirst⟩
      · exact .inl (hcons hls)
      · exact .inr ⟨line :: before, first, after, e, rfl, hcons hbefore, hfirst⟩

/-- **The entries of a text are those of its lines.** -/
theorem parse_text_eq_ok_iff {text : List Char} {es : List Entry} :
    parse map priority text = .ok es ↔ ∃ found : List (Option Entry),
      (lines text).map (parseLine map priority) = found.map .ok ∧
        es = found.flatMap Option.toList := by
  constructor
  · intro h
    rcases readable_or_first map priority (lines text) with
      ⟨found, hfound⟩ | ⟨before, line, after, e, hsplit, ⟨found, hfound⟩, he⟩
    · exact ⟨found, hfound, Except.ok.inj (h.symm.trans (parse_of_lines hfound))⟩
    · cases (parse_of_first hsplit hfound he).symm.trans h
  · rintro ⟨found, hfound, rfl⟩
    exact parse_of_lines hfound

theorem map_parse {ls : List (List Char)} (hls : ∀ line ∈ ls, '\n' ∉ line)
    {found : List (Option Entry)} (h : ls.map (parseLine map priority) = found.map .ok) :
    ls.map (parse map priority) = (found.map Option.toList).map .ok := by
  have hparse : ls.map (parse map priority) = (ls.map (parseLine map priority)).map fun r =>
      (r.map Option.toList).mapError (lineFailure 0) := by
    rw [List.map_map]
    exact List.map_congr_left fun line hl => parse_of_not_mem map priority (hls line hl)
  rw [hparse, h, List.map_map, List.map_map]
  rfl

theorem reads_of_map {ls : List (List Char)} {batches : List (List Entry)}
    (h : ls.map (parse map priority) = batches.map .ok) {line : List Char} (hl : line ∈ ls) :
    Reads map priority line := by
  have hmem := List.mem_map_of_mem (f := parse map priority) hl
  rw [h] at hmem
  obtain ⟨es, -, hes⟩ := List.mem_map.mp hmem
  exact ⟨es, hes.symm⟩

end Lines

theorem valid_of_parse {map : KindMap} (hmap : map.Named) {priority : Int64} {text : List Char}
    {es : List Entry} (h : parse map priority text = .ok es) : ∀ e ∈ es, e.Valid := by
  intro e he
  obtain ⟨found, hfound, rfl⟩ := parse_text_eq_ok_iff.mp h
  obtain ⟨entry, hentry, he⟩ := List.mem_flatMap.mp he
  have hmem := List.mem_map_of_mem (f := (Except.ok : _ → Except Error (Option Entry))) hentry
  rw [← hfound] at hmem
  obtain ⟨line, -, hline⟩ := List.mem_map.mp hmem
  rw [Option.mem_toList.mp he] at hline
  exact valid_of_parseLine hmap hline

/-! ## Texts -/

/-- How a text is read. -/
structure ReadsByLine (map : KindMap) (priority : Int64) (text : List Char) : Prop where
  /-- a line by itself has one entry at most -/
  single : ∀ line ∈ lines text, ∀ es, parse map priority line = .ok es → es.length ≤ 1
  /-- if every line can be read by itself, the text has their entries, in their order -/
  entries : (∀ line ∈ lines text, Reads map priority line) → ∃ batches : List (List Entry),
    (lines text).map (parse map priority) = batches.map .ok ∧
      parse map priority text = .ok batches.flatten
  /-- all of which can be stored if no kind without a name is configured -/
  valid : map.Named → ∀ es, parse map priority text = .ok es → ∀ e ∈ es, e.Valid
  /-- otherwise it fails as the first line that cannot be read does by itself, but for the number
  of that line in the text -/
  failure : ¬ (∀ line ∈ lines text, Reads map priority line) → ∃ before line after reason,
    lines text = before ++ line :: after ∧
      (∀ earlier ∈ before, Reads map priority earlier) ∧
      parse map priority line = .error (.scanner "tags" ("line 1:" ++ reason)) ∧
      parse map priority text =
        .error (.scanner "tags" ("line " ++ toString (before.length + 1) ++ ":" ++ reason))

theorem lineFailure_eq (index : ℕ) (e : Error) :
    lineFailure index e =
      .scanner "tags" ("line " ++ toString (index + 1) ++ ":" ++ (" " ++ e.message)) := by
  have hcolon : ": " = ":" ++ " " := rfl
  simp only [lineFailure, failure, hcolon, String.append_assoc]

/-- **Texts are read line by line, and refused as a whole.** -/
theorem parse_byLine (map : KindMap) (priority : Int64) (text : List Char) :
    ReadsByLine map priority text := by
  have hlines : ∀ line ∈ lines text, '\n' ∉ line := fun line h => not_mem_of_mem_lines h
  have hsingle : ∀ line ∈ lines text, ∀ es, parse map priority line = .ok es → es.length ≤ 1 := by
    intro line hl es hes
    obtain ⟨found, -, rfl⟩ := (parse_eq_ok_iff (hlines line hl)).mp hes
    cases found <;> simp
  rcases readable_or_first map priority (lines text) with
    ⟨found, hfound⟩ | ⟨before, line, after, e, hsplit, ⟨found, hfound⟩, he⟩
  · have hbatches := map_parse hlines hfound
    refine ⟨hsingle, fun _ => ⟨_, hbatches, ?_⟩, fun hmap _ => valid_of_parse hmap,
      fun hnot => absurd (fun line hl => reads_of_map hbatches hl) hnot⟩
    rw [parse_of_lines hfound, List.flatMap_def]
  · have hline : line ∈ lines text := hsplit ▸ List.mem_append_right _ List.mem_cons_self
    have hbefore := map_parse (fun earlier hl => hlines earlier (by
      rw [hsplit]
      exact List.mem_append_left _ hl)) hfound
    have halone : parse map priority line = .error (lineFailure 0 e) := by
      rw [parse_of_not_mem map priority (hlines line hline), he]
      rfl
    refine ⟨hsingle, fun hall => ?_, fun hmap _ => valid_of_parse hmap, fun _ => ?_⟩
    · obtain ⟨es, hes⟩ := hall line hline
      cases halone.symm.trans hes
    · refine ⟨before, line, after, " " ++ e.message, hsplit,
        fun earlier hl => reads_of_map hbefore hl, ?_, ?_⟩
      · rw [halone, lineFailure_eq]
        rfl
      · rw [parse_of_first hsplit hfound he, lineFailure_eq]

-- lines without an entry count, too
example : parse [] 1 "!meta\n\r\n\nname\ta.c\t7;\"\nbad\ta.c\tx\n".toList = .error (.scanner "tags"
    "line 5: Invalid location 'x': expected a line number or a delimited line anchor") := rfl

end SymbolIndex.Tags
