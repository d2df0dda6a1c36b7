import SymbolIndex.Proofs.Index.Generations
import SymbolIndex.Proofs.Index.Uses
import SymbolIndex.Proofs.Store.Kinds

/-!
# Rebuilds

A source that fails is reported and contributes nothing: all else is as if it was not there. What
the other sources have found is stored in their order, or nothing is stored at all.

* `Scanner.failure?`, `Independent`: failing scanners, and scanners that leave each other alone;
* `scanAll_of_independent`, `mem_batchesOf_scanAll`: what these find, and have to store;
* `Reports`, `reports_replaceScanned`, `reports_rebuildWith`: rebuilding without those that fail;
* `Store.Rebuilt`, `Store.rebuildsTo_replace`: what a rebuild leaves in the store;
* `Run.works_of_asked`, `Index.ready_answered`: asking an index for work on its store;
* `Index.rebuiltWith_eq`, `Index.rebuiltWith_cases`: where the answer to a rebuild comes from;
* `Index.Rebuilds`, `Index.rebuilds`: rebuilding an index.
-/

namespace SymbolIndex

open Serializer

/-! ## What scanners find -/

/-- The failure of a scanner, if it fails. -/
def Scanner.failure? (scanner : Scanner) (files : FileTree) (root : String) :
    Option SourceFailure :=
  match (scanner.scan files root).outcome with
  | .ok _ => none
  | .error e => some ⟨scanner.name, e.message⟩

/-- The scanners that do not fail. -/
def succeeding (root : String) (files : FileTree) (scanners : List Scanner) : List Scanner :=
  scanners.filter fun scanner => (scanner.scan files root).outcome.isOk

/-- Scanners that do not get into each other's way: whichever of them have been run before, each
returns the same batch, or fails in the same way. -/
def Independent (root : String) (files : FileTree) (scanners : List Scanner) : Prop :=
  ∀ ran ⊆ scanners, ∀ scanner ∈ scanners,
    (scanner.scan (scanAll root files ran).2 root).outcome = (scanner.scan files root).outcome

theorem scanAll_append (root : String) (files : FileTree) (scanners more : List Scanner) :
    scanAll root files (scanners ++ more) =
      ((scanAll root files scanners).1 ++ (scanAll root (scanAll root files scanners).2 more).1,
        (scanAll root (scanAll root files scanners).2 more).2) := by
  induction scanners generalizing files with
  | nil => rfl
  | cons scanner scanners ih => simp only [List.cons_append, scanAll, ih]

/-- Scanners that leave the files alone do not get into each other's way. -/
theorem independent_of_quiet {root : String} {files : FileTree} {scanners : List Scanner}
    (h : ∀ scanner ∈ scanners, ∀ files, (scanner.scan files root).files = files) :
    Independent root files scanners := by
  intro ran hran scanner _
  have hfiles : (scanAll root files ran).2 = files := by
    induction ran with
    | nil => rfl
    | cons first ran ih =>
      obtain ⟨hfirst, hrest⟩ := List.cons_subset.mp hran
      simp only [scanAll, h first hfirst]
      exact ih hrest
  rw [hfiles]

theorem scanAll_of_independent {root : String} {files : FileTree} {scanners : List Scanner}
    (h : Independent root files scanners) {chosen : List Scanner} (hs : chosen ⊆ scanners) :
    (scanAll root files chosen).1 =
      chosen.map fun scanner => (scanner.name, (scanner.scan files root).outcome) := by
  induction chosen using List.reverseRecOn with
  | nil => rfl
  | append_singleton chosen scanner ih =>
    obtain ⟨hchosen, hlast⟩ := List.append_subset.mp hs
    have hout := h chosen hchosen scanner (hlast List.mem_cons_self)
    simp only [scanAll_append, List.map_append, ih hchosen, scanAll, List.map_cons, List.map_nil,
      hout]

theorem toOption_eq_some_iff {α : Type} {r : Except Error α} {a : α} :
    r.toOption = some a ↔ r = .ok a := by
  cases r <;> simp [Except.toOption]

theorem mem_batchesOf_scanAll {root : String} {files : FileTree} {scanners : List Scanner}
    (h : Independent root files scanners) {e : Entry} :
    e ∈ (batchesOf (scanAll root files scanners).1).flatten ↔
      ∃ scanner ∈ scanners, ∃ entries, (scanner.scan files root).outcome = .ok entries ∧
        e ∈ entries := by
  rw [scanAll_of_independent h (List.Subset.refl _), batchesOf, List.filterMap_map,
    List.mem_flatten]
  constructor
  · rintro ⟨entries, hentries, he⟩
    obtain ⟨scanner, hs, hok⟩ := List.mem_filterMap.mp hentries
    exact ⟨scanner, hs, entries, toOption_eq_some_iff.mp hok, he⟩
  · rintro ⟨scanner, hs, entries, hok, he⟩
    exact ⟨entries, List.mem_filterMap.mpr ⟨scanner, hs, toOption_eq_some_iff.mpr hok⟩, he⟩

theorem batchesOf_filter (scanned : List (String × Except Error (List Entry))) :
    batchesOf (scanned.filter (·.2.isOk)) = batchesOf scanned := by
  rw [batchesOf, List.filterMap_filter]
  refine List.filterMap_congr ?_
  rintro ⟨source, r⟩ -
  cases r <;> rfl

theorem failuresOf_filter (scanned : List (String × Except Error (List Entry))) :
    failuresOf (scanned.filter (·.2.isOk)) = [] := by
  rw [failuresOf, List.filterMap_filter, List.filterMap_eq_nil_iff]
  rintro ⟨source, r⟩ -
  cases r <;> rfl

/-- A rebuild has come to the same as another one that reports no failures, and reports these. -/
structure Reports (failures : List SourceFailure) (r r' : Except Error RebuildSummary × Index) :
    Prop where
  index : r.2 = r'.2
  result : r.1 = r'.1.map fun summary => { summary with failures }
  complete : ∀ summary, r'.1 = .ok summary → summary.failures = []

/-- **Scanners that have failed contribute nothing** but their failures. -/
theorem reports_replaceScanned (i : Index) (scanned : List (String × Except Error (List Entry))) :
    Reports (failuresOf scanned) (i.replaceScanned scanned)
      (i.replaceScanned (scanned.filter (·.2.isOk))) := by
  simp only [Index.replaceScanned, batchesOf_filter, failuresOf_filter]
  cases (i.replace (batchesOf scanned)).1 with
  | error e => exact ⟨rfl, rfl, nofun⟩
  | ok g =>
    refine ⟨rfl, rfl, fun summary h => ?_⟩
    rw [← Except.ok.inj h]

/-- What a rebuild tells, and the index behind it. -/
def Index.rebuiltWith (i : Index) (files : FileTree) (scanners : List Scanner) :
    Except Error RebuildSummary × Index :=
  ((i.rebuildWith files scanners).1, (i.rebuildWith files scanners).2.1)

theorem failuresOf_scanAll {root : String} {files : FileTree} {scanners : List Scanner}
    (h : Independent root files scanners) :
    failuresOf (scanAll root files scanners).1 = scanners.filterMap (·.failure? files root) := by
  rw [scanAll_of_independent h (List.Subset.refl _), failuresOf, List.filterMap_map]
  refine List.filterMap_congr fun scanner _ => ?_
  cases h : (scanner.scan files root).outcome with
  | ok entries => simp [Scanner.failure?, h]
  | error e => simp [Scanner.failure?, h]

theorem reports_rebuildWith {i : Index} {files : FileTree} {scanners : List Scanner}
    (h : Independent i.root files scanners) :
    Reports (scanners.filterMap (·.failure? files i.root)) (i.rebuiltWith files scanners)
      (i.rebuiltWith files (succeeding i.root files scanners)) := by
  have hscan : (scanAll i.root files (succeeding i.root files scanners)).1 =
      (scanAll i.root files scanners).1.filter (·.2.isOk) := by
    have hsome : succeeding i.root files scanners ⊆ scanners := List.filter_subset_self _
    rw [scanAll_of_independent h hsome, scanAll_of_independent h (List.Subset.refl _),
      List.filter_map]
    rfl
  have hreports := reports_replaceScanned i (scanAll i.root files scanners).1
  rw [failuresOf_scanAll h, ← hscan] at hreports
  exact hreports

/-! ## What the store holds -/

/-- What a rebuild from these batches has made of a store. -/
structure Store.Rebuilt (s s' : Store) (batches : List (List Entry)) (summary : RebuildSummary) :
    Prop where
  /-- the batches are stored one after the other -/
  entries : s'.database.entries = batches.flatten
  count : summary.count = batches.flatten.length
  /-- the kinds are those of the store, in rising order, and no entry is left out -/
  kindCounts : summary.kindCounts = s'.kindCounts
  rising : Rising summary.kindCounts
  sum : (summary.kindCounts.map (·.2)).sum = summary.count
  generation : s'.generation = .ok (some ⟨schemaVersion, summary.generation, summary.count⟩)
  next : ∃ previous, s.generation = .ok previous ∧
    summary.generation = (previous.map (·.number)).getD 0 + 1

/-- What a rebuild tells about a replacement that has been made. -/
def summaryOf (scanned : List (String × Except Error (List Entry))) (g : Generation) :
    RebuildSummary where
  generation := g.number
  count := g.count
  kindCounts := kindCountsOf (batchesOf scanned).flatten
  failures := failuresOf scanned

/-- What a rebuild tells is what it has made of the store: all of it, or nothing. -/
def Store.RebuildsTo (s s' : Store) (scanned : List (String × Except Error (List Entry))) :
    Except Error RebuildSummary → Prop
  | .ok summary => s.Rebuilt s' (batchesOf scanned) summary ∧ summary.failures = failuresOf scanned
  | .error _ => s' = s

theorem Store.rebuildsTo_replace {s : Store} (hc : s.capacity < 2 ^ 64)
    (scanned : List (String × Except Error (List Entry))) :
    s.RebuildsTo (s.replace (batchesOf scanned)).2 scanned
      ((s.replace (batchesOf scanned)).1.map (summaryOf scanned)) := by
  cases hr : (s.replace (batchesOf scanned)).1 with
  | error e => exact replace_error hr
  | ok g =>
    obtain ⟨hentries, -⟩ := replace_ok hc hr
    obtain ⟨hrecord, previous, hprevious, hg⟩ := replace_record hc hr
    obtain ⟨hrising, -, hsum⟩ := kindCountsOf_spec (batchesOf scanned).flatten
    have hcount : g.count = (batchesOf scanned).flatten.length := by rw [hg]
    refine ⟨⟨hentries, hcount, ?_, hrising, hsum.trans hcount.symm, ?_, previous, hprevious, ?_⟩,
      rfl⟩
    · rw [kindCounts, hentries]
      rfl
    · rw [generation, Database.generation, hrecord, hg]
      rfl
    · rw [hg]
      rfl

/-! ## Asking an index for work -/

namespace Run

variable {R : Run Store StoreAnswer}

/-- Asking an index for some work is answered with what comes of it on the store as it is when the
owner gets to it, unless a job holds the owner up. -/
theorem works_of_asked {t : ℕ} {i : Index} (work : Work Store StoreAnswer)
    (h : R.Asked t i .uninterruptible [.perform work]) :
    ∃ u, t < u ∧ (i.ask .uninterruptible [.perform work]).2.serializer = R.after u ∧
      ((R.after u).isWaiting = true ∧
          (i.ask .uninterruptible [.perform work]).1 = .error .timeout ∨
        ∃ s e b, s < e ∧ e < u ∧
          R.Starts s ⟨(R.accepted t).length, .uninterruptible, [.perform work], .reply⟩ ∧
          (i.ask .uninterruptible [.perform work]).1 = (work b (R.after s).state).1.map some ∧
          (R.after (e + 1)).state = (work b (R.after s).state).2) := by
  obtain ⟨u, htu, hafter, hj, hrest, hreply⟩ := R.of_asked h
  refine ⟨u, htu, hafter, ?_⟩
  -- the job is not dropped, so that its caller is told what has come of the work
  have htold : ∀ o, (R.after u).replyTo (R.accepted t).length = some o → ∃ s e b result, s < e ∧
      e < u ∧ o = .result result ∧
      R.Starts s ⟨(R.accepted t).length, .uninterruptible, [.perform work], .reply⟩ ∧
      result = (work b (R.after s).state).1.map some ∧
      (R.after (e + 1)).state = (work b (R.after s).state).2 := by
    intro o ho
    obtain ⟨e, heu, k, hk, hseq, -, ⟨hd, -⟩ | hw⟩ := R.replyTo_eq_some_iff.mp ho
    · obtain rfl := R.eq_of_seq hk hj hseq
      exact absurd ((R.drops_iff hd.1).mp hd).1 nofun
    · obtain ⟨r, hr, hn, -⟩ := R.workEnds_cases hw
      obtain ⟨s, -, k', hk', hstart, hkn, -⟩ := R.starts_of_busy ⟨r, hr, hn⟩
      obtain rfl := R.eq_of_seq hk' hj hkn
      obtain ⟨result, rfl, hret⟩ := R.returns_of_starts hstart rfl hw
      obtain ⟨v, -, -, -, -, hresult, hstate⟩ := hret.performed
      rw [state_of_starts hstart] at hresult hstate
      exact ⟨s, e, _, result, hret.le, heu, rfl, hstart, hresult, hstate⟩
  rcases hreply with ⟨result, hr, hask⟩ | ⟨hno, hask⟩
  · obtain ⟨s, e, b, result', hse, heu, ho, hstart, hresult, hstate⟩ := htold _ hr
    obtain rfl := Outcome.result.inj ho
    exact .inr ⟨s, e, b, hse, heu, hstart, hask.trans hresult, hstate⟩
  · refine .inl ⟨hrest.resolve_right ?_, hask⟩
    rintro ⟨o, hr⟩
    obtain ⟨s, e, b, result, -, -, rfl, -⟩ := htold o hr
    exact hno result hr

end Run

namespace Index

theorem ready_answered {s : Serializer Store StoreAnswer} (h : s.Ready) (kind : JobKind)
    (work : Work Store StoreAnswer) : (s.answered kind work).Ready := by
  rw [answered, asked_of_ready kind work h]
  refine ⟨h.phase, h.owner, rfl, rfl, Nat.le_succ_of_le h.mark, fun n o hm => ?_⟩
  have hreplies : (n, o) ∈ s.replies ++ [(s.nextSeq, _)] := hm
  rcases List.mem_append.mp hreplies with hm | hm
  · exact Nat.lt_succ_of_lt (h.replies n o hm)
  · have hn : n = s.nextSeq := congrArg Prod.fst (List.mem_singleton.mp hm)
    exact Nat.lt_succ_of_le hn.le

theorem replace_of_ask {i : Index} {batches : List (List Entry)} {b : Bool} {s : Store}
    (h : (i.ask .uninterruptible (replaceScript batches)).1 =
      (replaceWork batches b s).1.map some) : (i.replace batches).1 = (s.replace batches).1 := by
  rw [replace, read]
  simp only [h, replaceWork]
  cases (s.replace batches).1 <;> rfl

theorem kindCounts_of_ready {i : Index} (h : i.serializer.Ready) :
    i.kindCounts.1 = .ok i.serializer.state.kindCounts := by
  rw [kindCounts, read, readScript, ask_of_ready h]
  rfl

theorem read_index {α : Type} (i : Index) (script : Script Store StoreAnswer)
    (f : StoreAnswer → Option α) : (i.read script f).2 = (i.ask .uninterruptible script).2 := by
  rw [read]
  cases i.ask .uninterruptible script with
  | mk r i' => cases r <;> rfl

end Index

/-! ## Sources -/

/-- The failure of a source that has no scanner. -/
def Source.failure? (source : Source) : Option SourceFailure :=
  match source.scanner with
  | .ok _ => none
  | .error e => some ⟨source.name, e.message⟩

/-- The scanners of the sources that have one. -/
def Index.scanners (i : Index) : List Scanner :=
  i.settings.sources.filterMap fun source => source.scanner.toOption

/-- The failures of the others. -/
def Index.unusable (i : Index) : List SourceFailure := i.settings.sources.filterMap Source.failure?

/-! ## Rebuilding -/

namespace Index

/-- What rebuilding does to an index that is where the run is after some moves. -/
structure Rebuilds (R : Run Store StoreAnswer) (t : ℕ) (i : Index) (files : FileTree)
    (scanners : List Scanner) : Prop where
  /-- whatever scanners have come to, it is as if those that have failed had not been there, but for
  their failures -/
  isolates : i.rebuiltWith files scanners = i.replaceScanned (scanAll i.root files scanners).1 ∧
    ∀ scanned, Reports (failuresOf scanned) (i.replaceScanned scanned)
      (i.replaceScanned (scanned.filter (·.2.isOk)))
  /-- so scanners that leave each other alone may as well be left out if they fail -/
  reports : Independent i.root files scanners →
    Reports (scanners.filterMap (·.failure? files i.root)) (i.rebuiltWith files scanners)
      (i.rebuiltWith files (succeeding i.root files scanners))
  /-- if the owner has nothing else to do, the store then holds what the scanners have found, or
  what it has held before -/
  ready : (R.after t).isRunning = true → (R.after t).current = none → (R.after t).queue = [] →
    i.serializer.state.RebuildsTo (i.rebuiltWith files scanners).2.serializer.state
      (scanAll i.root files scanners).1 (i.rebuiltWith files scanners).1
  /-- and the index counts the same kinds -/
  kinds : (R.after t).isRunning = true → (R.after t).current = none → (R.after t).queue = [] →
    ∀ summary, (i.rebuiltWith files scanners).1 = .ok summary →
      (i.rebuiltWith files scanners).2.kindCounts.1 = .ok summary.kindCounts
  /-- if other jobs come first, that is so when the owner gets to the replacement -/
  asked : R.Asked t i .uninterruptible
      (replaceScript (batchesOf (scanAll i.root files scanners).1)) →
    ∃ u, t < u ∧ (i.rebuiltWith files scanners).2.serializer = R.after u ∧
      ((R.after u).isWaiting = true ∧ (i.rebuiltWith files scanners).1 = .error .timeout ∨
        ∃ s e j, s < e ∧ e < u ∧ R.Starts s j ∧ j.seq = (R.accepted t).length ∧
          (R.after s).state.RebuildsTo (R.after (e + 1)).state
            (scanAll i.root files scanners).1 (i.rebuiltWith files scanners).1)
  /-- an index that does not run is left alone -/
  refused : (R.after t).isRunning = false →
    i.rebuiltWith files scanners = (.error .notStarted, i)
  /-- rebuilding from the sources also reports, in front, those that cannot be used -/
  sources : (i.rebuild files).2 = (i.rebuildWith files i.scanners).2 ∧
    (i.rebuild files).1 = (i.rebuildWith files i.scanners).1.map fun summary =>
      { summary with failures := i.unusable ++ summary.failures }

variable {R : Run Store StoreAnswer}

/-- To rebuild is to ask for a replacement by what the scanners have found. -/
theorem rebuiltWith_eq (i : Index) (files : FileTree) (scanners : List Scanner) :
    i.rebuiltWith files scanners =
      ((i.replace (batchesOf (scanAll i.root files scanners).1)).1.map
          (summaryOf (scanAll i.root files scanners).1),
        (i.ask .uninterruptible
          (replaceScript (batchesOf (scanAll i.root files scanners).1))).2) := by
  have hindex : (i.rebuiltWith files scanners).2 =
      (i.replace (batchesOf (scanAll i.root files scanners).1)).2 := rfl
  rw [replace, read_index] at hindex
  exact Prod.ext rfl hindex

theorem rebuiltWith_cases {t : ℕ} {i : Index} (hi : i.serializer = R.after t) {files : FileTree}
    {scanners : List Scanner}
    (hasked : (R.after t).isRunning = true → R.Asked t i .uninterruptible
      (replaceScript (batchesOf (scanAll i.root files scanners).1))) :
    (i.rebuiltWith files scanners).1 = .error .notStarted ∨
      (i.rebuiltWith files scanners).1 = .error .timeout ∨
      ∃ s : Store, (i.rebuiltWith files scanners).1 =
        (s.replace (batchesOf (scanAll i.root files scanners).1)).1.map
          (summaryOf (scanAll i.root files scanners).1) := by
  rw [rebuiltWith_eq]
  cases hrunning : (R.after t).isRunning with
  | false =>
    refine .inl ?_
    rw [← hi] at hrunning
    simp only [replace, read, ask, call, hrunning]
    rfl
  | true =>
    have hwork := Run.works_of_asked (replaceWork _) (hasked hrunning)
    obtain ⟨u, -, -, ⟨-, htimeout⟩ | ⟨s, e, b, -, -, -, hresult, -⟩⟩ := hwork
    · refine .inr (.inl ?_)
      rw [← replaceScript_eq] at htimeout
      simp only [replace, read, htimeout]
      rfl
    · rw [← replaceScript_eq] at hresult
      exact .inr (.inr ⟨(R.after s).state, by rw [replace_of_ask hresult]⟩)

/-- If the owner has nothing else to do, the answer tells what the replacement makes of the store,
and the owner has nothing to do again. -/
theorem rebuiltWith_of_ready {i : Index} (h : i.serializer.Ready)
    (hc : i.serializer.state.capacity < 2 ^ 64) (files : FileTree) (scanners : List Scanner) :
    (i.rebuiltWith files scanners).2.serializer.Ready ∧
      i.serializer.state.RebuildsTo (i.rebuiltWith files scanners).2.serializer.state
        (scanAll i.root files scanners).1 (i.rebuiltWith files scanners).1 := by
  have hask := ask_of_ready h .uninterruptible
    (replaceWork (batchesOf (scanAll i.root files scanners).1))
  have hresult := replace_of_ask (congrArg Prod.fst hask)
  rw [← replaceScript_eq] at hask
  rw [rebuiltWith_eq, hask, hresult]
  exact ⟨ready_answered h _ _, Store.rebuildsTo_replace hc _⟩

/-- **A rebuild isolates its failures**, and what it tells about an index that has been opened and
used is what it has made of its store. -/
theorem rebuilds (hR : IndexRun R) {t : ℕ} {i : Index} (hi : i.serializer = R.after t)
    (files : FileTree) (scanners : List Scanner) : i.Rebuilds R t files scanners where
  isolates := ⟨rfl, reports_replaceScanned i⟩
  reports := reports_rebuildWith
  ready hp hc hq := by
    have hready : i.serializer.Ready := hi ▸ R.ready hp hc hq
    exact (rebuiltWith_of_ready hready (hi ▸ (R.sound hR t).1) files scanners).2
  kinds hp hc hq summary h := by
    have hready : i.serializer.Ready := hi ▸ R.ready hp hc hq
    obtain ⟨hready', hrebuilt⟩ :=
      rebuiltWith_of_ready hready (hi ▸ (R.sound hR t).1) files scanners
    rw [h] at hrebuilt
    rw [hrebuilt.1.kindCounts, kindCounts_of_ready hready']
  asked h := by
    have hwork := Run.works_of_asked (replaceWork _) h
    rw [← replaceScript_eq] at hwork
    obtain ⟨u, htu, hafter, hanswer⟩ := hwork
    rw [rebuiltWith_eq]
    refine ⟨u, htu, hafter, ?_⟩
    rcases hanswer with ⟨hwait, htimeout⟩ | ⟨s, e, b, hse, heu, hstart, hresult, hstate⟩
    · refine .inl ⟨hwait, ?_⟩
      simp only [replace, read, htimeout]
      rfl
    · refine .inr ⟨s, e, _, hse, heu, hstart, rfl, ?_⟩
      rw [hstate, replace_of_ask hresult]
      exact Store.rebuildsTo_replace (R.sound hR s).1 _
  refused h := by
    have hrunning : i.serializer.isRunning = false := hi ▸ h
    have hask : i.ask .uninterruptible
        (replaceScript (batchesOf (scanAll i.root files scanners).1)) = (.error .notStarted, i) := by
      rw [ask, call, hrunning]
      rfl
    rw [rebuiltWith_eq, replace, read, hask]
    rfl
  sources := ⟨rfl, rfl⟩

/-- The entries are replaced in an index that has nothing else to do. -/
def rebuiltRun : Run Store StoreAnswer where
  name := ownerName
  background := false
  state := { path := "index", place := "index", database := {}, capacity := Space.pages.byDefault }
  moves
    | 0 => .start
    | 1 => .call .uninterruptible (replaceScript [[{ name := "f", kind := "fn", file := "a" }]])
    | _ => .owner

def rebuiltIndex : Index := { root := "/", settings := {}, serializer := rebuiltRun.after 1 }

/-- A scanner that fails, and one that finds an entry. -/
def twoScanners : List Scanner :=
  [⟨"broken", fun files _ => ⟨.error .regex, files⟩⟩,
    ⟨"fixed", fun files _ => ⟨.ok [{ name := "f", kind := "fn", file := "a" }], files⟩⟩]

/-- What a rebuild from the two scanners tells. -/
def twoScannersSummary : RebuildSummary where
  generation := 1
  count := 1
  kindCounts := [("fn", 1)]
  failures := [⟨"broken", Error.regex.message⟩]

theorem rebuilds_twoScanners :
    IndexRun rebuiltRun ∧
      Reports [⟨"broken", Error.regex.message⟩] (rebuiltIndex.rebuiltWith ⟨[]⟩ twoScanners)
        (rebuiltIndex.rebuiltWith ⟨[]⟩ twoScanners.tail) ∧
      rebuiltIndex.serializer.state.RebuildsTo
        (rebuiltIndex.rebuiltWith ⟨[]⟩ twoScanners).2.serializer.state
        (scanAll "/" ⟨[]⟩ twoScanners).1 (.ok twoScannersSummary) ∧
      (rebuiltIndex.rebuiltWith ⟨[]⟩ twoScanners).2.kindCounts.1 = .ok [("fn", 1)] ∧
      ∃ u, 1 < u ∧
        (rebuiltIndex.rebuiltWith ⟨[]⟩ twoScanners).2.serializer = rebuiltRun.after u := by
  have hworks : ∀ t, (rebuiltRun.moves t).Performs IndexWork := by
    intro t
    match t with
    | 0 | t + 2 => exact trivial
    | 1 => exact performs_replaceScript _
  have hR : IndexRun rebuiltRun := ⟨by decide, rfl, hworks⟩
  have hquiet : Independent rebuiltIndex.root ⟨[]⟩ twoScanners := by
    refine independent_of_quiet fun scanner hs files => ?_
    rcases List.mem_pair.mp hs with rfl | rfl <;> rfl
  have h := rebuilds hR (t := 1) (i := rebuiltIndex) rfl ⟨[]⟩ twoScanners
  have hasked : rebuiltRun.Asked 1 rebuiltIndex .uninterruptible
      (replaceScript (batchesOf (scanAll rebuiltIndex.root ⟨[]⟩ twoScanners).1)) :=
    ⟨rfl, rfl, rfl, fun k _ => by rw [show 1 + 1 + k = k + 2 by omega]; rfl⟩
  obtain ⟨u, hu, hafter, -⟩ := h.asked hasked
  exact ⟨hR, h.reports hquiet, h.ready rfl rfl rfl,
    h.kinds rfl rfl rfl twoScannersSummary rfl, u, hu, hafter⟩

end Index

end SymbolIndex
