import SymbolIndex.Entry

/-!
# Fetches

A fetch is a query that the editor does not wait for. It gets a ticket and asks for the result later
on. For each project only the latest fetch counts, and its result is handed out once.

* `Fetches`: the latest fetch of each project;
* `Fetches.begin`, `Fetches.complete`, `Fetches.forget`: a new fetch, its result, and its end;
* `Fetches.poll`: asking for the result.
-/

namespace SymbolIndex.Editor

/-- What a fetch has found, or why it has failed. -/
abbrev FetchResult := Except Error (List Entry)

/-- A fetch that has not been handed out. -/
structure Fetch where
  ticket : Nat
  result : Option FetchResult := none

/-- The latest fetch of each project, by its directory. -/
structure Fetches where
  slots : List (String × Fetch) := []

/-- What the editor is told when it asks for a result. -/
inductive Poll where
  /-- there is a newer fetch, or none at all -/
  | superseded
  | pending
  | ready (r : FetchResult)

namespace Fetches

def latest? (f : Fetches) (root : String) : Option Fetch := f.slots.lookup root

/-- The latest fetch of a project, if it has this ticket. -/
def current? (f : Fetches) (root : String) (ticket : Nat) : Option Fetch :=
  (f.latest? root).filter (·.ticket == ticket)

/-- The project has no fetch any more. -/
def forget (f : Fetches) (root : String) : Fetches := ⟨f.slots.filter (·.1 != root)⟩

def put (f : Fetches) (root : String) (fetch : Fetch) : Fetches :=
  ⟨(root, fetch) :: (f.forget root).slots⟩

/-- A new fetch takes the place of the latest one. -/
def begin (f : Fetches) (root : String) (ticket : Nat) : Fetches := f.put root { ticket }

/-- A fetch has its result, which only counts if there is no newer one. -/
def complete (f : Fetches) (root : String) (ticket : Nat) (r : FetchResult) : Fetches :=
  match f.current? root ticket with
  | some _ => f.put root { ticket, result := some r }
  | none => f

/-- Ask for the result of a fetch. A result that is handed out is forgotten. -/
def poll (f : Fetches) (root : String) (ticket : Nat) : Poll × Fetches :=
  match f.current? root ticket with
  | none => (.superseded, f)
  | some fetch =>
    match fetch.result with
    | none => (.pending, f)
    | some r => (.ready r, f.forget root)

/-! ## Lemmas -/

@[simp] theorem latest?_empty (root : String) : (Fetches.mk []).latest? root = none := rfl

theorem latest?_forget (f : Fetches) (root other : String) :
    (f.forget root).latest? other = if other = root then none else f.latest? other := by
  obtain ⟨slots⟩ := f
  simp only [forget, latest?]
  induction slots with
  | nil => simp
  | cons slot slots ih =>
    obtain ⟨key, fetch⟩ := slot
    by_cases hk : key = root
    · subst hk
      by_cases ho : other = key
      · subst ho
        simpa using ih
      · have hb : (other == key) = false := by simpa using ho
        simpa [List.lookup_cons, hb, ho] using ih
    · have hf : (key != root) = true := by simpa using hk
      rw [List.filter_cons_of_pos (by simpa using hf), List.lookup_cons, List.lookup_cons, ih]
      by_cases ho : other = key
      · subst ho
        simp [hk]
      · have hb : (other == key) = false := by simpa using ho
        simp [hb]

theorem latest?_put (f : Fetches) (root other : String) (fetch : Fetch) :
    (f.put root fetch).latest? other = if other = root then some fetch else f.latest? other := by
  have h := latest?_forget f root other
  simp only [put, latest?, List.lookup_cons] at h ⊢
  by_cases ho : other = root
  · simp [ho]
  · have hb : (other == root) = false := by simpa using ho
    simpa [hb, ho] using h

end Fetches

end SymbolIndex.Editor
