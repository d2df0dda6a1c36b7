import SymbolIndex.Proofs.Tags.ByLine

/-!
# Tags are read back

The line of a tag holds its name, its file, its location and its fields with tabs between them. Only
the location may hold tabs itself, and even the mark that ends it. As long as the other parts do
not, every tag is read back from its line.

* `splitLast_append`: the last mark is the one that was put there;
* `fileExtension_eq`: the extension of a file;
* `IsKind`, `IsExtra`: what a field says;
* `foldl_add`: what some fields say together;
* `Tag`, `Tag.line`, `Tag.WellFormed`: tags and their lines;
* `Tag.parseLine_line`, `Tag.parse_line`: every well-formed tag is read back from its line;
* `Tag.parse_lines`: a file of them is read back tag by tag.
-/

namespace SymbolIndex.Tags

open Text

/-! ## Where the location ends -/

theorem splitLast_eq_none {sep s : List Char} (h : ¬ sep <:+: s) : splitLast sep s = none := by
  induction s with
  | nil => rfl
  | cons c s ih =>
    rw [List.infix_cons_iff, not_or] at h
    rw [splitLast, ih h.2, if_neg (by rw [List.isPrefixOf_iff_prefix]; exact h.1)]

theorem splitLast_append {sep behind : List Char} (hne : sep ≠ [])
    (h : ¬ sep <:+: (sep ++ behind).tail) (before : List Char) :
    splitLast sep (before ++ (sep ++ behind)) = some (before, behind) := by
  induction before with
  | nil =>
    obtain ⟨c, rest, rfl⟩ := List.exists_cons_of_ne_nil hne
    rw [List.cons_append, List.tail_cons] at h
    have hprefix : (c :: rest).isPrefixOf (c :: (rest ++ behind)) = true :=
      List.isPrefixOf_iff_prefix.mpr (List.prefix_append (c :: rest) behind)
    rw [List.nil_append, List.cons_append, splitLast, splitLast_eq_none h]
    dsimp only
    rw [if_pos hprefix, ← List.cons_append, List.drop_left]
  | cons c before ih => rw [List.cons_append, splitLast, ih]

/-- The mark that ends a location. -/
def mark : List Char := [';', '"', '\t']

/-- **The location ends at the last mark**, whatever it holds itself. -/
theorem locationAndFields_append {fields : List Char} (h : ¬ mark <:+: fields)
    (location : List Char) :
    locationAndFields (location ++ (mark ++ fields)) = (location, fields) := by
  have hbehind : ¬ mark <:+: (mark ++ fields).tail := by
    simp only [mark, List.cons_append, List.nil_append, List.tail_cons, List.infix_cons_iff] at h ⊢
    simpa using h
  have hmark : [';', '"', '\t'] = mark := rfl
  have hne : mark ≠ [] := List.cons_ne_nil _ _
  rw [locationAndFields, hmark, splitLast_append hne hbehind]

/-! ## The extension -/

/-- The extension is what a file ends with that holds neither a dot nor a slash. -/
theorem fileExtension_eq (file : List Char) :
    fileExtension file = file.rtakeWhile fun c => c != '.' && c != '/' := by
  have htake : ∀ p q : Char → Bool, (file.rtakeWhile p).rtakeWhile q =
      file.rtakeWhile fun c => q c && p c := by
    intro p q
    rw [List.rtakeWhile, List.rtakeWhile, List.reverse_reverse, List.takeWhile_takeWhile]
    simp [List.rtakeWhile]
  unfold fileExtension
  simp only [getLastD_splitAt]
  rw [htake]
  congr 1
  funext c
  rw [Bool.and_comm]
  rfl

/-! ## Fields -/

/-- The key of the field that names the kind, with the colon behind it. -/
def kindKey : List Char := "kind:".toList

/-- The field names the kind: it has no colon, or it has the key for that. -/
def IsKind (field : List Char) : Prop := ':' ∉ field ∨ kindKey <+: field

instance (field : List Char) : Decidable (IsKind field) := by unfold IsKind; infer_instance

/-- The letter in a field that names the kind. -/
def letterOf (field : List Char) : List Char := if ':' ∈ field then field.drop 5 else field

/-- The field has another key, and a value. -/
def IsExtra (field : List Char) : Prop :=
  ¬ kindKey <+: field ∧ field.idxOf ':' + 1 < field.length

instance (field : List Char) : Decidable (IsExtra field) := by unfold IsExtra; infer_instance

theorem exists_keyed {field : List Char} (h : ':' ∈ field) :
    ∃ key value, field = key ++ ':' :: value ∧ ':' ∉ key :=
  List.eq_append_cons_of_mem h

theorem kindKey_prefix_iff {key value : List Char} (h : ':' ∉ key) :
    kindKey <+: key ++ ':' :: value ↔ key = "kind".toList := by
  constructor
  · rintro ⟨rest, hrest⟩
    have hkind : kindKey ++ rest = "kind".toList ++ ':' :: rest := rfl
    have hsplit := congrArg (splitOnce ':') (hkind.symm.trans hrest)
    rw [splitOnce_append (by decide), splitOnce_append h] at hsplit
    exact (Prod.mk.inj (Option.some.inj hsplit)).1.symm
  · rintro rfl
    exact ⟨value, rfl⟩

theorem isKind_keyed {key value : List Char} (h : ':' ∉ key) :
    IsKind (key ++ ':' :: value) ↔ key = "kind".toList := by
  have hcolon : ':' ∈ key ++ ':' :: value := by simp
  rw [IsKind, kindKey_prefix_iff h]
  exact or_iff_right (not_not_intro hcolon)

theorem isExtra_keyed {key value : List Char} (h : ':' ∉ key) :
    IsExtra (key ++ ':' :: value) ↔ key ≠ "kind".toList ∧ value ≠ [] := by
  rw [IsExtra, kindKey_prefix_iff h, List.idxOf_append_of_notMem h, List.idxOf_cons_self,
    List.length_append, List.length_cons, ← List.length_pos_iff]
  exact and_congr_right fun _ => by omega

/-- **What one more field says.** -/
theorem add_eq (said : Fields) (field : List Char) :
    said.add field =
      { letter := if IsKind field then letterOf field else said.letter
        extra := if IsExtra field then said.extra ++ [field] else said.extra } := by
  by_cases hcolon : ':' ∈ field
  · obtain ⟨key, value, rfl, hkey⟩ := exists_keyed hcolon
    rw [Fields.add, splitOnce_append hkey, if_congr (isKind_keyed hkey) rfl rfl,
      if_congr (isExtra_keyed hkey) rfl rfl]
    dsimp only
    by_cases hkind : key = "kind".toList
    · subst hkind
      rw [if_pos rfl, if_pos rfl, if_neg (fun h => h.1 rfl), letterOf, if_pos hcolon]
      rfl
    · rw [if_neg hkind, if_neg hkind]
      by_cases hvalue : value = []
      · rw [if_pos hvalue, if_neg fun h => h.2 hvalue]
      · rw [if_neg hvalue, if_pos ⟨hkind, hvalue⟩]
  · have hkind : IsKind field := .inl hcolon
    have hextra : ¬ IsExtra field := by
      rw [IsExtra, List.idxOf_of_notMem hcolon]
      omega
    rw [Fields.add, splitOnce_of_not_mem hcolon, if_pos hkind, if_neg hextra, letterOf,
      if_neg hcolon]

/-- **What some fields say**: the last one that names the kind, and all those with another key. -/
theorem foldl_add (fields : List (List Char)) :
    fields.foldl Fields.add {} =
      { letter := ((fields.filter IsKind).getLast?.map letterOf).getD []
        extra := fields.filter IsExtra } := by
  induction fields using List.reverseRecOn with
  | nil => rfl
  | append_singleton fields field ih =>
    rw [List.foldl_append, List.foldl_cons, List.foldl_nil, ih, add_eq, List.filter_append,
      List.filter_append]
    by_cases hkind : IsKind field <;> by_cases hextra : IsExtra field <;> simp [hkind, hextra]

/-! ## Tags -/

/-- A tag, as its line says it. -/
structure Tag where
  name : List Char
  file : List Char
  location : List Char
  fields : List (List Char)

namespace Tag

/-- The fields with tabs between them. -/
def tail (t : Tag) : List Char := ['\t'].intercalate t.fields

/-- The line of a tag. -/
def line (t : Tag) : List Char :=
  t.name ++ '\t' :: (t.file ++ '\t' :: (t.location ++ (mark ++ t.tail)))

/-- No part of the tag holds what ends it in the line. -/
structure WellFormed (t : Tag) : Prop where
  /-- the name is not empty and does not begin like a line without a tag -/
  head : ∃ c rest, t.name = c :: rest ∧ isBlank c = false ∧ c ≠ '!'
  name : '\t' ∉ t.name ∧ '\n' ∉ t.name
  file : t.file ≠ [] ∧ '\t' ∉ t.file ∧ '\n' ∉ t.file ∧ '\\' ∉ t.file
  /-- the file is not given from the directory it starts from -/
  relative : ¬ ['.', '/'] <+: t.file
  location : '\n' ∉ t.location
  fields : t.fields ≠ [] ∧ ∀ field ∈ t.fields, field ≠ [] ∧ '\t' ∉ field ∧ '\n' ∉ field
  /-- no mark follows the one that ends the location -/
  last : ¬ mark <:+: t.tail
  /-- the line does not end with a blank -/
  ending : ∀ c ∈ t.tail.getLast?, isBlank c = false

/-- What the file ends with that holds neither a dot nor a slash. -/
def extension (t : Tag) : String :=
  String.ofList (t.file.rtakeWhile fun c => c != '.' && c != '/')

/-- The letter in the last field that names the kind. -/
def letter (t : Tag) : String :=
  String.ofList (((t.fields.filter IsKind).getLast?.map letterOf).getD [])

/-- The fields with another key and a value, with single spaces between them. -/
def extra (t : Tag) : Option String :=
  if t.fields.filter IsExtra = [] then none
  else some (String.ofList ([' '].intercalate (t.fields.filter IsExtra)))

/-- Where the kind is looked up, one after the other: the configured rules for the extension, the
configured default rules, and both of the built-in ones. -/
def rules (t : Tag) (map : KindMap) : List (Option KindRule) :=
  [map.rule? t.extension t.letter, map.rule? "default" t.letter,
    builtinKinds.rule? t.extension t.letter, builtinKinds.rule? "default" t.letter]

/-- The first rule that there is, or else a kind of its own. -/
def rule (t : Tag) (map : KindMap) : KindRule :=
  ((t.rules map).findSome? id).getD ⟨"X-" ++ t.extension ++ "-" ++ t.letter, 5⟩

/-- The entry of a tag. -/
def entry (t : Tag) (map : KindMap) (priority : Int64) (location : Option Location) : Entry where
  name := String.ofList t.name
  kind := (t.rule map).kind
  file := String.ofList t.file
  extra := t.extra
  location := location
  priority := priority
  subpriority := (t.rule map).subpriority

variable {t : Tag}

theorem tail_ne_nil (h : t.WellFormed) : t.tail ≠ [] :=
  intercalate_ne_nil h.fields.1 fun field hf => (h.fields.2 field hf).1

theorem not_mem_line (h : t.WellFormed) : '\n' ∉ t.line := by
  have htail : '\n' ∉ t.tail :=
    not_mem_intercalate (by decide) fun field hf => (h.fields.2 field hf).2.2
  simp only [line, mark, List.mem_append, List.mem_cons, List.not_mem_nil]
  simp [h.name.2, h.file.2.2.1, h.location, htail]

theorem getLast?_line (h : t.WellFormed) : t.line.getLast? = t.tail.getLast? := by
  have hline : t.line =
      (t.name ++ '\t' :: (t.file ++ '\t' :: (t.location ++ mark))) ++ t.tail := by
    simp [line]
  rw [hline, List.getLast?_append_of_ne_nil _ (tail_ne_nil h)]

theorem trim_line (h : t.WellFormed) : trim t.line = t.line := by
  obtain ⟨c, rest, hname, hblank, -⟩ := h.head
  refine trim_eq_self (fun d hd => ?_) fun d hd => h.ending d ?_
  · rw [line, hname, List.cons_append, List.head?_cons] at hd
    obtain rfl := Option.some.inj hd
    exact hblank
  · rwa [getLast?_line h] at hd

theorem normalFile_file (h : t.WellFormed) : normalFile t.file = t.file := by
  have hmap : (t.file.map fun c => if c = '\\' then '/' else c) = t.file := by
    refine (List.map_congr_left fun c hc => if_neg ?_).trans (List.map_id' _)
    rintro rfl
    exact h.file.2.2.2 hc
  unfold normalFile
  rw [hmap]
  split
  · next rest hfile => exact absurd ⟨rest, hfile.symm⟩ h.relative
  · rfl

theorem readFields_tail (h : t.WellFormed) :
    readFields t.tail =
      { letter := ((t.fields.filter IsKind).getLast?.map letterOf).getD []
        extra := t.fields.filter IsExtra } := by
  have hparts : splitAt (· == '\t') t.tail = t.fields :=
    splitAt_intercalate h.fields.1 fun field hf => (h.fields.2 field hf).2.1
  have hfilter : (t.fields.filter fun field => !field.isEmpty) = t.fields :=
    List.filter_eq_self.mpr fun field hf => by simp [(h.fields.2 field hf).1]
  rw [readFields, hparts, hfilter, foldl_add]

theorem resolveKind_eq (t : Tag) (map : KindMap) :
    resolveKind map t.extension t.letter = t.rule map := by
  unfold resolveKind rule rules KindMap.resolve?
  generalize map.rule? t.extension t.letter = a, map.rule? "default" t.letter = b,
    builtinKinds.rule? t.extension t.letter = c, builtinKinds.rule? "default" t.letter = d
  cases a <;> cases b <;> cases c <;> cases d <;> rfl

theorem parseLine_line (map : KindMap) (priority : Int64) (h : t.WellFormed)
    {location : Option Location} (hl : Location.parse (String.ofList t.location) = .ok location) :
    parseLine map priority t.line = .ok (some (t.entry map priority location)) := by
  obtain ⟨c, rest, hname, -, hc⟩ := h.head
  have hhead : t.line.head? ≠ some '!' := by
    rw [line, hname, List.cons_append, List.head?_cons]
    exact fun he => hc (Option.some.inj he)
  have hfirst : column t.line =
      (t.name, t.file ++ '\t' :: (t.location ++ (mark ++ t.tail))) := by
    rw [column, line, splitOnce_append h.name.1, Option.getD_some]
  have hsecond : column (t.file ++ '\t' :: (t.location ++ (mark ++ t.tail))) =
      (t.file, t.location ++ (mark ++ t.tail)) := by
    rw [column, splitOnce_append h.file.2.1, Option.getD_some]
  have hparts : ¬ (t.name = [] ∨ t.file = []) := by
    rw [hname]
    exact not_or.mpr ⟨List.cons_ne_nil _ _, h.file.1⟩
  have hrule : resolveKind map (String.ofList (fileExtension t.file)) t.letter = t.rule map := by
    rw [fileExtension_eq]
    exact resolveKind_eq t map
  unfold parseLine
  rw [if_neg hhead, trim_line h, hfirst]
  dsimp only
  rw [hsecond]
  dsimp only
  rw [locationAndFields_append h.last]
  dsimp only
  rw [normalFile_file h, if_neg hparts, hl, readFields_tail h]
  let rule := resolveKind map (String.ofList (fileExtension t.file)) t.letter
  have hentry : { t.entry map priority location with
      kind := rule.kind, subpriority := rule.subpriority } = t.entry map priority location := by
    rw [show rule = t.rule map from hrule]
    rfl
  exact congrArg (fun entry => Except.ok (some entry)) hentry

/-- **Every well-formed tag is read back from its line**, and nothing else is read from it. -/
theorem parse_line (map : KindMap) (priority : Int64) (h : t.WellFormed)
    {location : Option Location} (hl : Location.parse (String.ofList t.location) = .ok location) :
    parse map priority t.line = .ok [t.entry map priority location] := by
  have hne : t.line ≠ [] := by
    obtain ⟨c, rest, hname, -⟩ := h.head
    rw [line, hname]
    exact List.cons_ne_nil _ _
  rw [parse, lines_of_not_mem (not_mem_line h) hne, parseLines, parseLine_line map priority h hl]
  rfl

/-- The tag of a function whose location holds tabs, and a mark as well. -/
def mainTag : Tag where
  name := "main".toList
  file := "src/main.c".toList
  location := "/^main()\t// ;\"\tx$/".toList
  fields := ["kind:v".toList, "scope:".toList, "access:public".toList, "f".toList]

theorem parse_line_mainTag :
    mainTag.WellFormed ∧ parse [] 10 mainTag.line =
      .ok [{ name := "main", kind := "ImpFunc", file := "src/main.c", extra := some "access:public",
             location := some (.anchor '/' "^main()\t// ;\"\tx$"), priority := 10,
             subpriority := 85 }] := by
  have htail : mainTag.tail = "kind:v\tscope:\taccess:public\tf".toList := rfl
  have hlast : mainTag.tail.getLast? = some 'f' := rfl
  have hending : isBlank 'f' = false := by decide
  have h : mainTag.WellFormed :=
    ⟨⟨'m', "ain".toList, rfl, by decide, by decide⟩, by decide, by decide, by decide, by decide,
      by decide, by simp [htail, mark, List.infix_cons_iff],
      fun c hc => Option.some.inj (hlast.symm.trans hc) ▸ hending⟩
  have hl : Location.parse (String.ofList mainTag.location) =
      .ok (some (.anchor '/' "^main()\t// ;\"\tx$")) := by
    rw [Location.parse, String.toList_ofList]
    rfl
  have hname : String.ofList mainTag.name = "main" := rfl
  have hfile : String.ofList mainTag.file = "src/main.c" := rfl
  have hrule : mainTag.rule [] = ⟨"ImpFunc", 85⟩ := by decide +kernel
  have hextra : mainTag.extra = some "access:public" := rfl
  refine ⟨h, ?_⟩
  rw [parse_line [] 10 h hl, entry, hname, hfile, hrule, hextra]

/-! ## Files of tags -/

theorem lines_line {tags : List Tag} (h : ∀ tag ∈ tags, tag.WellFormed) :
    lines (tags.flatMap fun tag => tag.line ++ ['\n']) = tags.map line := by
  induction tags with
  | nil => rfl
  | cons tag tags ih =>
    have hw := h tag List.mem_cons_self
    have hr : tag.line.getLast? ≠ some '\r' := by
      rw [getLast?_line hw]
      exact fun hr => absurd (hw.ending '\r' hr) (by decide)
    rw [List.flatMap_cons, List.append_assoc, List.singleton_append,
      lines_append (not_mem_line hw) hr, ih fun tag ht => h tag (List.mem_cons_of_mem _ ht),
      List.map_cons]

/-- **A file of well-formed tags is read back**, tag by tag. -/
theorem parse_lines (map : KindMap) (priority : Int64) (tags : List (Tag × Option Location))
    (h : ∀ tag ∈ tags, tag.1.WellFormed ∧
      Location.parse (String.ofList tag.1.location) = .ok tag.2) :
    parse map priority (tags.flatMap fun tag => tag.1.line ++ ['\n']) =
      .ok (tags.map fun tag => tag.1.entry map priority tag.2) := by
  have htags : ∀ tag ∈ tags.map Prod.fst, tag.WellFormed := by
    intro tag ht
    obtain ⟨pair, hpair, rfl⟩ := List.mem_map.mp ht
    exact (h pair hpair).1
  have hlines := lines_line htags
  rw [List.flatMap_map, List.map_map] at hlines
  have hentries : (lines (tags.flatMap fun tag => tag.1.line ++ ['\n'])).map
      (parseLine map priority) =
        (tags.map fun tag => some (tag.1.entry map priority tag.2)).map .ok := by
    rw [hlines, List.map_map, List.map_map]
    exact List.map_congr_left fun tag ht => parseLine_line map priority (h tag ht).1 (h tag ht).2
  rw [parse_of_lines hentries, List.flatMap_map, List.map_eq_flatMap]
  rfl

end Tag

end SymbolIndex.Tags
