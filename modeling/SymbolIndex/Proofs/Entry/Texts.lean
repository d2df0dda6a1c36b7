import SymbolIndex.Proofs.Outcomes
import SymbolIndex.Proofs.Tags.Reading

/-!
# Entries that texts make

What an entry holds can be written as texts: the extra text and the location as empty texts if there
are none. An entry that has been made of texts, from its parts or from a line of a tags file, is
read from its own texts again.

* `Entry.Restorable`, `Entry.FromTexts`: entries that can be read again, and entries made of texts;
* `restorable_of_ofRaw`, `Tags.restorable_of_parse`: both ways to make entries;
* `ofRaw_texts`: the entry that the texts of an entry make.
-/

namespace SymbolIndex

/-- What is written for the extra text and for the location of the entry is read as what they are. -/
structure Entry.Restorable (e : Entry) : Prop where
  extra : e.extra ≠ some ""
  location : ∀ l ∈ e.location, Location.parse l.render = .ok (some l)

/-- The entry is made of raw parts or comes from a line of a tags file. -/
inductive Entry.FromTexts : Entry → Prop
  | parts {name kind file : String} {extra location : Option String} {priority subpriority : Int64}
    {e : Entry} (h : Entry.ofRaw name kind file extra location priority subpriority = .ok e) :
    FromTexts e
  | tags {map : Tags.KindMap} {priority : Int64} {text : List Char} {es : List Entry} {e : Entry}
    (h : Tags.parse map priority text = .ok es) (he : e ∈ es) : FromTexts e

theorem Location.parse_render_of_parse {raw : String} {location : Option Location}
    (h : Location.parse raw = .ok location) :
    ∀ l ∈ location, Location.parse l.render = .ok (some l) := by
  rintro l rfl
  exact (Location.readsBack h).again

theorem ofRaw_eq (name kind file : String) (extra location : Option String)
    (priority subpriority : Int64) :
    Entry.ofRaw name kind file extra location priority subpriority =
      (location.elim (.ok none) Location.parse).map fun location =>
        { name, kind, file, extra := extra.filter (· != ""), location, priority, subpriority } := by
  cases location with
  | none => rfl
  | some raw =>
    rw [Option.elim_some, Entry.ofRaw]
    cases Location.parse raw <;> rfl

theorem restorable_of_ofRaw {name kind file : String} {extra location : Option String}
    {priority subpriority : Int64} {e : Entry}
    (h : Entry.ofRaw name kind file extra location priority subpriority = .ok e) :
    e.Restorable := by
  rw [ofRaw_eq] at h
  obtain ⟨l, hl, rfl⟩ := exists_of_map_eq_ok h
  refine ⟨fun hextra => ?_, ?_⟩
  · exact absurd (Option.filter_eq_some_iff.mp hextra).2 (by decide)
  · cases location with
    | none =>
      obtain rfl := Except.ok.inj hl
      exact nofun
    | some raw => exact Location.parse_render_of_parse hl

namespace Tags

variable {map : KindMap} {priority : Int64}

theorem exists_of_parseLine {line : List Char} {e : Entry}
    (h : parseLine map priority line = .ok (some e)) : ∃ raw location,
      Location.parse raw = .ok location ∧ e = entryAt map priority (Text.trim line) location := by
  have hmeta : line.head? ≠ some '!' := fun hmeta => by
    rw [parseLine, if_pos hmeta] at h
    cases h
  rw [parseLine_eq map priority hmeta] at h
  split_ifs at h with hparts
  · cases h
  · obtain ⟨location, hl, he⟩ := exists_of_map_eq_ok h
    exact ⟨_, location, hl, (Option.some.inj he).symm⟩

theorem extra_entryAt_ne (map : KindMap) (priority : Int64) (s : List Char)
    (location : Option Location) : (entryAt map priority s location).extra ≠ some "" := by
  rw [entryAt]
  dsimp only
  generalize hfields : (readFields (locationAndFields (placeField s)).2).extra = fields
  split_ifs with hnone
  · exact (Option.some_ne_none "").symm
  intro hempty
  have hempty := String.ofList_eq_empty_iff.mp (Option.some.inj hempty)
  refine Text.intercalate_ne_nil hnone (fun field hf => ?_) hempty
  -- empty fields have been left out before
  rw [← hfields, readFields, foldl_add] at hf
  simpa using (List.mem_filter.mp (List.mem_filter.mp hf).1).2

theorem restorable_of_parse {text : List Char} {es : List Entry}
    (h : parse map priority text = .ok es) {e : Entry} (he : e ∈ es) : e.Restorable := by
  obtain ⟨found, hfound, rfl⟩ := parse_text_eq_ok_iff.mp h
  obtain ⟨entry, hentry, hmem⟩ := List.mem_flatMap.mp he
  obtain rfl := Option.mem_toList.mp hmem
  have hline : (.ok (some e) : Except Error (Option Entry)) ∈
      (Text.lines text).map (parseLine map priority) := by
    rw [hfound]
    exact List.mem_map_of_mem hentry
  obtain ⟨line, -, hline⟩ := List.mem_map.mp hline
  obtain ⟨raw, location, hl, rfl⟩ := exists_of_parseLine hline
  exact ⟨extra_entryAt_ne map priority _ location, Location.parse_render_of_parse hl⟩

end Tags

/-- **What texts make of an entry can be read from texts again.** -/
theorem restorable_of_fromTexts {e : Entry} (h : e.FromTexts) : e.Restorable := by
  cases h with
  | parts h => exact restorable_of_ofRaw h
  | tags h he => exact Tags.restorable_of_parse h he

theorem ofRaw_texts {e : Entry} (h : e.Restorable) :
    Entry.ofRaw e.name e.kind e.file (some e.extraText) (some e.locationText) e.priority
      e.subpriority = .ok e := by
  obtain ⟨name, kind, file, extra, location, priority, subpriority⟩ := e
  have hextra : (some (extra.getD "")).filter (· != "") = extra := by
    cases extra with
    | none => rfl
    | some text =>
      have htext : text ≠ "" := fun hempty => h.extra (congrArg some hempty)
      simp [Option.filter_some, htext]
  have hlocation : Location.parse (Entry.locationText
      ⟨name, kind, file, extra, location, priority, subpriority⟩) = .ok location := by
    cases location with
    | none => rfl
    | some l => exact h.location l rfl
  rw [ofRaw_eq, Option.elim_some, hlocation, Entry.extraText, hextra]
  rfl

end SymbolIndex
