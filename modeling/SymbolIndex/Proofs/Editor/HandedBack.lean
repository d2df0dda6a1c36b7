import Mathlib.Data.List.Forall2
import SymbolIndex.Editor.Answer
import SymbolIndex.Proofs.Editor.Sessions
import SymbolIndex.Proofs.Entry.Texts
import SymbolIndex.Proofs.Search.Answer

/-!
# Entries that are handed back

The editor gets entries as tables of texts and numbers, in which no extra text and no location are
empty texts, and hands the tables back. An entry that has been made of texts comes back as it was,
as long as the editor has numbers for its priorities.

* `Entry.Exact`, `word?_ofInt`: the priorities that the editor has numbers for;
* `entryOf_entryTable`: reading the table of an entry;
* `ComesBack`, `comesBack_entryTable`: what becomes of a table that is handed back;
* `entries_comeBack`: the results of searches and fetches among them.
-/

namespace SymbolIndex

/-- Each priority of the entry is at most 2 ^ 53 away from zero, so that the editor has a number for
it. -/
structure Entry.Exact (e : Entry) : Prop where
  priority : e.priority.toInt.natAbs ≤ 2 ^ 53
  subpriority : e.subpriority.toInt.natAbs ≤ 2 ^ 53

namespace Editor

/-! ## Tables -/

theorem nearest_of_le {n : Int} (h : n.natAbs ≤ 2 ^ 53) : nearest n = n := by
  rcases Nat.lt_or_eq_of_le h with hlt | heq
  · exact nearest_of_small hlt
  · have hlargest : nearestNat (2 ^ 53) = 2 ^ 53 := rfl
    rw [nearest, heq, hlargest, ← heq, Int.sign_mul_natAbs]

theorem word?_ofInt {w : Int64} (h : w.toInt.natAbs ≤ 2 ^ 53) :
    (Value.ofInt w.toInt).word? = some w := by
  have hlargest : w.toInt ≠ Int64.maxValue.toInt + 1 := by
    have hmax : Int64.maxValue.toInt = 2 ^ 63 - 1 := rfl
    rw [hmax]
    omega
  rw [Value.ofInt, nearest_of_le h, Value.word?, Value.whole?, Option.bind_some, if_neg hlargest,
    if_pos ⟨Int64.minValue_le_toInt w, Int64.toInt_le w⟩, Int64.ofInt_toInt]

theorem field_entryTable (layout : Layout) (e : Entry) :
    (entryTable layout e).field "name" = .text e.name ∧
      (entryTable layout e).field "kind" = .text e.kind ∧
      (entryTable layout e).field "file" = .text e.file ∧
      (entryTable layout e).field "extra" = .text e.extraText ∧
      (entryTable layout e).field "location" = .text e.locationText ∧
      (entryTable layout e).field "priority" = .ofInt e.priority.toInt ∧
      (entryTable layout e).field "subpriority" = .ofInt e.subpriority.toInt := by
  -- the line number may be missing, but nothing else depends on it
  unfold entryTable
  cases e.location.bind Location.line? <;> exact ⟨rfl, rfl, rfl, rfl, rfl, rfl, rfl⟩

theorem converted_optional_word {w : Int64} (h : w.toInt.natAbs ≤ 2 ^ 53) :
    converted ((Value.ofInt w.toInt).optional? Value.word?) = .ok (some w) := by
  have hword : (Value.ofInt w.toInt).optional? Value.word? =
      (Value.ofInt w.toInt).word?.map some := rfl
  rw [hword, word?_ofInt h]
  rfl

/-- **The table of an entry is read as the entry.** -/
theorem entryOf_entryTable (layout : Layout) {e : Entry} (hr : e.Restorable) (hx : e.Exact) :
    entryOf (entryTable layout e) = .ok e := by
  obtain ⟨hname, hkind, hfile, hextra, hlocation, hpriority, hsubpriority⟩ :=
    field_entryTable layout e
  unfold entryOf
  simp only [hname, hkind, hfile, hextra, hlocation, hpriority, hsubpriority,
    converted_optional_word hx.priority, converted_optional_word hx.subpriority]
  exact congrArg (Except.mapError Failure.ofError) (ofRaw_texts hr)

/-! ## What is handed back -/

/-- What becomes of a table that the editor hands back for an entry. -/
structure ComesBack (e : Entry) (table : Value) : Prop where
  /-- it is read as the entry -/
  entry : entryOf table = .ok e
  /-- so it is shown as the entry is, in every layout -/
  shown : ∀ (s : Session) layout, s.call? "format_match" [table, layout] =
    some (.ok (.text ((layoutOf layout).render e)), s)
  /-- it is opened as the entry is -/
  opened : ∀ (s : Session) command, s.call? "open_command" [.text command, table] =
    some (.ok (.text (SymbolIndex.openCommand command e)), s)
  /-- and beside it stands what stands beside the entry, in every project that is open -/
  previewed : ∀ (s : Session) path root i, s.find path = .ok (root, i) →
    s.call? "preview" [.text path, table] = some (.ok (.text (i.preview s.disk.files e)), s)

theorem comesBack_entryTable (layout : Layout) {e : Entry} (he : e.FromTexts) (hx : e.Exact) :
    ComesBack e (entryTable layout e) := by
  have hentry := entryOf_entryTable layout (restorable_of_fromTexts he) hx
  refine ⟨hentry, fun s layout' => ?_, fun s command => ?_, fun s path root i hi => ?_⟩
  · have hcall : s.call? "format_match" [entryTable layout e, layout'] =
        some (s.answer (.formatMatch (entryTable layout e) layout')) := rfl
    rw [hcall, Session.answer, hentry]
    rfl
  · have hcall : s.call? "open_command" [.text command, entryTable layout e] =
        some (s.answer (.openCommand command (entryTable layout e))) := rfl
    rw [hcall, Session.answer, hentry]
    rfl
  · have hcall : s.call? "preview" [.text path, entryTable layout e] =
        some (s.answer (.preview path (entryTable layout e))) := rfl
    rw [hcall, Session.answer, hi, hentry]
    rfl

/-- The tables of some entries, each of which comes back. -/
def ComeBack (found : List Entry) (tables : List Value) : Prop :=
  List.Forall₂ (fun e table => e.FromTexts → e.Exact → ComesBack e table) found tables

theorem comeBack_entryTables (layout : Layout) (found : List Entry) :
    ComeBack found (found.map (entryTable layout)) :=
  List.forall₂_map_right_iff.mpr (List.forall₂_same.mpr fun _ _ => comesBack_entryTable layout)

/-! A session in which an entry can be searched and has been fetched. -/

/-- A function with a place in its file and with the largest priorities that the editor has numbers
for. -/
def farEntry : Entry where
  name := "f"
  kind := "ImpFunc"
  file := "a.c"
  location := some (.anchor '/' "^int f(a b)$")
  priority := 2 ^ 53
  subpriority := -2 ^ 53

/-- A project in which this is the only entry, and where a fetch has found it. -/
def farSession : Session where
  disk := { files := ⟨[]⟩ }
  dataDirectory := "/data"
  indexes := [("/", {
    root := "/"
    settings := {}
    serializer := Serializer.start {
      name := ownerName
      state := {
        path := "/.zem"
        place := "/.zem"
        database := { rows := [(sequenceKey 0, farEntry)] }
        capacity := defaultMapSize } } })]
  fetches := ⟨[("/", { ticket := 1, result := some (.ok [farEntry]) })]⟩

theorem fromTexts_farEntry : farEntry.FromTexts := by
  have hraw : Entry.ofRaw "f" "ImpFunc" "a.c" (some "") (some "/^int f(a b)$/") (2 ^ 53) (-2 ^ 53) =
      .ok farEntry := rfl
  exact .parts hraw

theorem find_farSession : ∃ i, farSession.find "/" = .ok ("/", i) ∧ i.serializer.Ready ∧
    i.serializer.state.database.entries = [farEntry] := by
  have hplace (last : Bool) : (FileTree.mk []).place "/" last = .ok (.found [] (.directory [])) := by
    simp [FileTree.place, pathPieces, Text.splitAt, Text.consHead, FileTree.follow, FileTree.find?,
      Node.find?]
  have hroot : (FileTree.mk []).canonical "/" = .ok "/" := by
    rw [FileTree.canonical, FileTree.locate, hplace]
    rfl
  refine ⟨_, Session.find_eq_ok_iff.mpr ⟨?_, rfl⟩,
    ⟨rfl, rfl, rfl, rfl, Nat.le_refl 0, fun _ _ h => absurd h List.not_mem_nil⟩, rfl⟩
  rw [Session.rootOf, farSession, hroot]
  rfl

theorem search_farSession :
    ∃ layout s', farSession.search "/" "" none = (.ok (layout, [farEntry]), s') := by
  obtain ⟨i, hi, hready, hentries⟩ := find_farSession
  have hplan : searchPlan "" = .ok {} := rfl
  have hresults : Plan.results {} none [farEntry] = [farEntry] := by
    simp [Plan.results, ranked, farEntry, Plan.accepts]
  have hsearch := Index.search_of_ready hready hplan none
  rw [hentries, hresults] at hsearch
  rw [Session.search, Session.withIndex, hi]
  dsimp only
  rw [hsearch]
  exact ⟨_, _, rfl⟩

theorem poll_farSession :
    ∃ layout s', farSession.poll "/" 1 = (.ok (layout, .ready (.ok [farEntry])), s') := by
  obtain ⟨i, hi, -⟩ := find_farSession
  rw [Session.poll, hi]
  exact ⟨_, _, rfl⟩

/-- **Entries survive the way to the editor and back**, and with them the results of searches and
fetches. -/
theorem entries_comeBack :
    (∀ e layout, e.FromTexts → e.Exact → ComesBack e (entryTable layout e)) ∧
    (∀ (s s' : Session) path text limit layout found,
      s.search path text limit = (.ok (layout, found), s') →
      ∃ tables, s.answer (.search path text limit) = (.ok (.list tables), s') ∧
        ComeBack found tables) ∧
    ∀ (s s' : Session) path ticket layout found,
      s.poll path ticket = (.ok (layout, .ready (.ok found)), s') →
      ∃ tables, s.answer (.poll path ticket) = (.ok (.list tables), s') ∧
        ComeBack found tables := by
  refine ⟨fun e layout he hx => comesBack_entryTable layout he hx, ?_, ?_⟩
  · intro s s' path text limit layout found h
    refine ⟨_, ?_, comeBack_entryTables layout found⟩
    rw [Session.answer, h]
    rfl
  · intro s s' path ticket layout found h
    refine ⟨_, ?_, comeBack_entryTables layout found⟩
    rw [Session.answer, h]
    rfl

theorem entries_comeBack_farEntry :
    farEntry.FromTexts ∧ farEntry.Exact ∧
      (∀ layout, ComesBack farEntry (entryTable layout farEntry)) ∧
      (∃ tables s', farSession.answer (.search "/" "" none) = (.ok (.list tables), s') ∧
        ComeBack [farEntry] tables) ∧
      ∃ tables s', farSession.answer (.poll "/" 1) = (.ok (.list tables), s') ∧
        ComeBack [farEntry] tables := by
  have hexact : farEntry.Exact := ⟨by decide, by decide⟩
  obtain ⟨hentry, hsearch, hpoll⟩ := entries_comeBack
  obtain ⟨layout, s, hs⟩ := search_farSession
  obtain ⟨layout', s', hs'⟩ := poll_farSession
  obtain ⟨tables, hsearch⟩ := hsearch _ _ _ _ _ _ _ hs
  obtain ⟨tables', hpoll⟩ := hpoll _ _ _ _ _ _ hs'
  exact ⟨fromTexts_farEntry, hexact, fun layout => hentry _ layout fromTexts_farEntry hexact,
    ⟨tables, s, hsearch⟩, ⟨tables', s', hpoll⟩⟩

end Editor

end SymbolIndex
