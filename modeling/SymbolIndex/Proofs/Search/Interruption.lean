import Mathlib.Order.Bounds.Basic
import SymbolIndex.Proofs.Search.Answer

/-!
# Runs that are interrupted or that cannot read a row

A plan looks at its token before every 256th row and once more at the end, and it ends with the
first row that cannot be read. Which of the two comes first depends on where the interruption and
the row are relative to the next look.

* `FailsFirst`: the first row that cannot be read;
* `Plan.scan_failing`, `Plan.scan_noticed`: a scan up to that row, and up to the look that notices
  an interruption;
* `IsNextLook`, `Plan.scan_stops`: the look that comes next once a row has been fetched, where an
  interrupted scan stops at the latest;
* `Plan.Stops`, `Plan.Completes`: what runs come to that are interrupted, and those that are not;
* `Plan.stops_or_completes`: all runs of a plan.
-/

namespace SymbolIndex

/-! ## Rows that cannot be read -/

/-- Row `j` cannot be read because of `e`, and all rows in front of it can. -/
structure FailsFirst (rows : List (Except Error Entry)) (j : ℕ) (e : Error) : Prop where
  failed : rows[j]? = some (.error e)
  before : ∀ i < j, ∃ entry, rows[i]? = some (.ok entry)

theorem FailsFirst.cons {rows : List (Except Error Entry)} {j : ℕ} {e : Error}
    (h : FailsFirst rows j e) (entry : Entry) : FailsFirst (.ok entry :: rows) (j + 1) e where
  failed := by rw [List.getElem?_cons_succ, h.failed]
  before i hi := by
    cases i with
    | zero => exact ⟨entry, rfl⟩
    | succ i => exact h.before i (Nat.lt_of_succ_lt_succ hi)

theorem FailsFirst.lt_length {rows : List (Except Error Entry)} {j : ℕ} {e : Error}
    (h : FailsFirst rows j e) : j < rows.length :=
  (List.getElem?_eq_some_iff.mp h.failed).1

theorem exists_readable {rows : List (Except Error Entry)} {m : ℕ} (hm : m ≤ rows.length)
    (h : ∀ j e, FailsFirst rows j e → m ≤ j) :
    ∃ (entries : List Entry) (after : List (Except Error Entry)),
      entries.length = m ∧ rows = entries.map .ok ++ after := by
  induction m generalizing rows with
  | zero => exact ⟨[], rows, rfl, rfl⟩
  | succ m ih =>
    cases rows with
    | nil => cases hm
    | cons row rows =>
      cases row with
      | error e => exact absurd (h 0 e ⟨rfl, nofun⟩) (Nat.not_succ_le_zero m)
      | ok entry =>
        obtain ⟨entries, after, hlength, rfl⟩ := ih (Nat.le_of_succ_le_succ hm) fun j e hj =>
          Nat.le_of_succ_le_succ (h (j + 1) e (hj.cons entry))
        exact ⟨entry :: entries, after, by rw [List.length_cons, hlength], rfl⟩

theorem failsFirst_append (entries : List Entry) (e : Error) (after : List (Except Error Entry)) :
    FailsFirst (entries.map .ok ++ .error e :: after) entries.length e := by
  induction entries with
  | nil => exact ⟨rfl, nofun⟩
  | cons entry entries ih => exact ih.cons entry

theorem FailsFirst.le {rows : List (Except Error Entry)} {i j : ℕ} {e e' : Error}
    (h : FailsFirst rows j e) (h' : FailsFirst rows i e') : j ≤ i := by
  by_contra hlt
  obtain ⟨entry, hentry⟩ := h.before i (Nat.lt_of_not_le hlt)
  rw [h'.failed] at hentry
  cases hentry

theorem FailsFirst.split {rows : List (Except Error Entry)} {j : ℕ} {e : Error}
    (h : FailsFirst rows j e) :
    ∃ (entries : List Entry) (after : List (Except Error Entry)),
      entries.length = j ∧ rows = entries.map .ok ++ .error e :: after := by
  obtain ⟨entries, after, hlength, hrows⟩ :=
    exists_readable h.lt_length.le fun _ _ hi => h.le hi
  have hfailed := h.failed
  rw [hrows, List.getElem?_append_right (by simp [hlength]), List.length_map, hlength,
    Nat.sub_self, ← List.head?_eq_getElem?] at hfailed
  obtain ⟨rest, rfl⟩ := List.head?_eq_some_iff.mp hfailed
  exact ⟨entries, rest, hlength, hrows⟩

/-! ## Scans that do not reach the end -/

section Scans

variable (plan : Plan) {probe : Probe} {entries : List Entry}
  (h : ∀ n < entries.length, checkInterval ∣ n → probe (n + 1) = false)

include h

/-- A row that cannot be read ends the scan, unless a look right at it notices an interruption. -/
theorem Plan.scan_failing {e : Error} (after : List (Except Error Entry))
    (hlook : checkInterval ∣ entries.length → probe (entries.length + 1) = false) :
    plan.scan probe (entries.map .ok ++ .error e :: after) =
      ⟨.error e, entries.length + 1⟩ := by
  rw [plan.scan_append h, scanFrom, if_neg]
  rintro ⟨hdvd, hprobe⟩
  rw [hlook (Nat.dvd_of_mod_eq_zero hdvd)] at hprobe
  cases hprobe

/-- A look that notices an interruption ends the scan, whatever the row is that it comes with. -/
theorem Plan.scan_noticed (row : Except Error Entry) (after : List (Except Error Entry))
    (hdvd : checkInterval ∣ entries.length) (hprobe : probe (entries.length + 1) = true) :
    plan.scan probe (entries.map .ok ++ row :: after) =
      ⟨.error .interrupted, entries.length + 1⟩ := by
  have hlook := And.intro (Nat.mod_eq_zero_of_dvd hdvd) hprobe
  rw [plan.scan_append h]
  cases row <;> rw [scanFrom, if_pos hlook]

end Scans

/-! ## Interruptions -/

/-- The look at the token that comes with row `m` is the next one once row `k` has been fetched. -/
def IsNextLook (k m : ℕ) : Prop := IsLeast {n | checkInterval ∣ n ∧ k ≤ n} m

theorem exists_isNextLook (k : ℕ) : ∃ m, IsNextLook k m := by
  classical
  have hex : ∃ n, checkInterval ∣ n ∧ k ≤ n :=
    ⟨checkInterval * k, Nat.dvd_mul_right _ _, Nat.le_mul_of_pos_left k (by decide)⟩
  exact ⟨Nat.find hex, Nat.find_spec hex, fun n hn => Nat.find_min' hex hn⟩

theorem IsNextLook.quiet {k m : ℕ} (h : IsNextLook k m) {n : ℕ} (hn : n < m)
    (hdvd : checkInterval ∣ n) : Probe.fromRow k (n + 1) = false := by
  have hk : ¬ k ≤ n := fun hle => Nat.not_le_of_lt hn (h.2 ⟨hdvd, hle⟩)
  exact decide_eq_false (by omega)

theorem IsNextLook.notices {k m : ℕ} (h : IsNextLook k m) : Probe.fromRow k (m + 1) = true :=
  decide_eq_true (Nat.lt_succ_of_le h.1.2)

/-- What a run comes to whose token is interrupted as row `k` of its rows is fetched, where row `m`
is the one with the next look. -/
structure Plan.Stops (plan : Plan) (limit : Option ℕ) (rows : List (Except Error Entry))
    (k m : ℕ) : Prop where
  look : IsNextLook k m
  /-- it ends with the first row that cannot be read, if that is in front of the look -/
  failure : ∀ j e, FailsFirst rows j e → j < m →
    plan.execute rows limit (.fromRow k) = .error e
  /-- and is interrupted otherwise -/
  interruption : (∀ j e, FailsFirst rows j e → m ≤ j) →
    plan.execute rows limit (.fromRow k) = .error .interrupted
  /-- so it never answers anything, not even a part of the results -/
  silent : ∀ found, plan.execute rows limit (.fromRow k) ≠ .ok found
  /-- nor does it fetch a row behind the look -/
  fetched : (plan.scan (.fromRow k) rows).fetched ≤ m + 1

/-- What a run comes to that is not interrupted. -/
structure Plan.Completes (plan : Plan) (limit : Option ℕ) (rows : List (Except Error Entry))
    (probe : Probe) : Prop where
  /-- it ends with the first row that cannot be read -/
  failure : ∀ j e, FailsFirst rows j e → plan.execute rows limit probe = .error e
  /-- and answers all results if there is none: the accepted entries in the stable order of results,
  up to the limit -/
  results : ∀ entries : List Entry, rows = entries.map .ok → ∃ sorted,
    SortsStably (entries.filter plan.accepts) sorted ∧
      plan.execute rows limit probe = .ok (firstOf limit sorted)

section Runs

variable (plan : Plan) (limit : Option ℕ) {rows : List (Except Error Entry)}

theorem Plan.execute_of_error {probe : Probe} {e : Error} {fetched : ℕ}
    (h : plan.scan probe rows = ⟨.error e, fetched⟩) :
    plan.execute rows limit probe = .error e := by
  rw [execute, h]
  rfl

theorem Plan.completes {probe : Probe} (h : ∀ n ≤ rows.length, probe n = false) :
    plan.Completes limit rows probe where
  failure j e hj := by
    have hlt := hj.lt_length
    obtain ⟨entries, after, rfl, rfl⟩ := hj.split
    refine plan.execute_of_error limit (plan.scan_failing (fun n hn _ => ?_) after fun _ => ?_)
    · exact h (n + 1) (by omega)
    · exact h (entries.length + 1) (by omega)
  results entries hrows := by
    subst hrows
    rw [List.length_map] at h
    have hscan : plan.scan probe (entries.map .ok) =
        ⟨.ok (entries.filter plan.accepts), entries.length⟩ := by
      rw [plan.scan_readable fun n hn _ => h (n + 1) (by omega), h _ le_rfl]
      rfl
    refine ⟨_, sortsStably_ranked _, ?_⟩
    rw [execute, hscan, ← cutTo_eq]
    rfl

section Stops

variable {k m : ℕ} (hm : IsNextLook k m)

include hm

theorem Plan.scan_of_failsFirst {j : ℕ} {e : Error} (hj : FailsFirst rows j e) (hjm : j < m) :
    plan.scan (.fromRow k) rows = ⟨.error e, j + 1⟩ := by
  obtain ⟨entries, after, rfl, rfl⟩ := hj.split
  exact plan.scan_failing (fun n hn => hm.quiet (hn.trans hjm)) after (hm.quiet hjm)

theorem Plan.scan_interrupted (hk : k < rows.length)
    (hnone : ∀ j e, FailsFirst rows j e → m ≤ j) :
    plan.scan (.fromRow k) rows = ⟨.error .interrupted, min rows.length (m + 1)⟩ := by
  by_cases hlt : m < rows.length
  -- the look comes with a row
  · obtain ⟨entries, after, rfl, rfl⟩ := exists_readable hlt.le hnone
    cases after with
    | nil => simp at hlt
    | cons row after =>
      rw [plan.scan_noticed (fun n hn => hm.quiet hn) row after hm.1.1 hm.notices,
        Nat.min_eq_right hlt]
  -- the rows end before, and the last look is the one that notices
  · obtain ⟨entries, after, hlength, hrows⟩ := exists_readable le_rfl fun j e hj =>
      (Nat.le_of_not_lt hlt).trans (hnone j e hj)
    obtain rfl : after = [] := by
      have := congrArg List.length hrows
      rw [List.length_append, List.length_map, hlength] at this
      exact List.eq_nil_of_length_eq_zero (by omega)
    rw [List.append_nil] at hrows
    have hend : Probe.fromRow k entries.length = true := decide_eq_true (hlength.symm ▸ hk)
    rw [hrows, plan.scan_readable fun n hn => hm.quiet (by omega), hend, ← hrows, hlength,
      Nat.min_eq_left (by omega)]
    rfl

/-- **An interrupted scan fails**, and fetches no row behind the look. -/
theorem Plan.scan_stops (hk : k < rows.length) :
    ∃ e fetched, plan.scan (.fromRow k) rows = ⟨.error e, fetched⟩ ∧ fetched ≤ m + 1 := by
  by_cases hex : ∃ j e, FailsFirst rows j e ∧ j < m
  · obtain ⟨j, e, hj, hjm⟩ := hex
    exact ⟨e, j + 1, plan.scan_of_failsFirst hm hj hjm, Nat.succ_le_succ hjm.le⟩
  · push Not at hex
    exact ⟨_, _, plan.scan_interrupted hm hk hex, Nat.min_le_right _ _⟩

theorem Plan.stops (hk : k < rows.length) : plan.Stops limit rows k m where
  look := hm
  failure _ _ hj hjm := plan.execute_of_error limit (plan.scan_of_failsFirst hm hj hjm)
  interruption hnone := plan.execute_of_error limit (plan.scan_interrupted hm hk hnone)
  silent found hfound := by
    obtain ⟨e, fetched, hscan, -⟩ := plan.scan_stops hm hk
    rw [plan.execute_of_error limit hscan] at hfound
    cases hfound
  fetched := by
    obtain ⟨e, fetched, hscan, hle⟩ := plan.scan_stops hm hk
    rw [hscan]
    exact hle

end Stops

end Runs

/-- **All runs of a plan.** One that is interrupted at one of its rows stops at the next look at the
latest and answers nothing; any other one answers everything or ends with the first row that cannot
be read. -/
theorem Plan.stops_or_completes (plan : Plan) (limit : Option ℕ)
    (rows : List (Except Error Entry)) :
    (∀ k < rows.length, ∃ m, plan.Stops limit rows k m) ∧
      (∀ k, rows.length ≤ k → plan.Completes limit rows (.fromRow k)) ∧
      plan.Completes limit rows .never := by
  refine ⟨fun k hk => ?_, fun k hk => plan.completes limit fun n hn => ?_,
    plan.completes limit fun _ _ => rfl⟩
  · obtain ⟨m, hm⟩ := exists_isNextLook k
    exact ⟨m, plan.stops limit hm hk⟩
  · exact decide_eq_false (by omega)

/-- Rows of which the one with the second look cannot be read. -/
def lateRows : List (Except Error Entry) :=
  (List.replicate checkInterval { name := "main", kind := "function", file := "main.c" }).map .ok ++
    [.error (.invalidLocation "x")]

theorem length_lateRows : lateRows.length = 257 := by
  rw [lateRows, List.length_append, List.length_map, List.length_replicate]
  rfl

theorem failsFirst_lateRows : FailsFirst lateRows 256 (.invalidLocation "x") := by
  have h := failsFirst_append (List.replicate checkInterval
    { name := "main", kind := "function", file := "main.c" }) (.invalidLocation "x") []
  rwa [List.length_replicate] at h

/-- The look is in front of the row that it comes with. -/
theorem Plan.stops_or_completes_lateRows :
    3 < lateRows.length ∧ lateRows.length ≤ 257 ∧
      Plan.execute {} lateRows none (.fromRow 3) = .error .interrupted ∧
      Plan.execute {} lateRows none (.fromRow 257) = .error (.invalidLocation "x") := by
  have hstart : 3 < lateRows.length := by
    rw [length_lateRows]
    decide
  have hlook : IsNextLook 3 256 := by
    refine ⟨⟨Nat.dvd_refl _, by decide⟩, fun n hn => Nat.le_of_dvd ?_ hn.1⟩
    exact Nat.lt_of_lt_of_le (by decide) hn.2
  obtain ⟨hstops, hcompletes, -⟩ := Plan.stops_or_completes {} none lateRows
  obtain ⟨m, hm⟩ := hstops 3 hstart
  have hm256 : m = 256 := IsLeast.unique hm.look hlook
  subst hm256
  exact ⟨hstart, length_lateRows.le, hm.interruption fun _ _ hj => failsFirst_lateRows.le hj,
    (hcompletes 257 length_lateRows.le).failure _ _ failsFirst_lateRows⟩

end SymbolIndex
