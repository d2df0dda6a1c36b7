import Mathlib.Algebra.Ring.Parity
import Mathlib.Data.List.DropRight
import SymbolIndex.Layout

/-!
# The search in an open command

The command that opens an entry at an anchor carries a search for the anchor's body as one of its
arguments. Backslashes in front of spaces and slashes keep them from ending the argument or the
search, and as backslashes themselves have others in front, the search is found again when one level
of escapes is undone.

* `shield`, `searchArgument_eq`: the four replacements come to one for each character;
* `withoutEscapes`, `withoutEscapes_shielded`: one level of escapes undone;
* `odd_of_shielded`: spaces and slashes have an odd number of backslashes in front;
* `argumentsOf`, `IsPart`: a command line cut apart at its unescaped spaces;
* `Carries`, `openCommand_carries`: the search in an open command.
-/

namespace SymbolIndex

/-! ## Escapes -/

/-- A character of a search as it stands in an argument. -/
def shield (c : Char) : List Char := if c = '\\' ∨ c = '/' ∨ c = ' ' then ['\\', c] else [c]

/-- The search for a body before it becomes an argument. -/
def searchOf (body : List Char) : List Char := '\\' :: 'M' :: substitute '\t' ['\\', 't'] body

theorem substitute_flatMap (c : Char) (text : List Char) (f : Char → List Char) (s : List Char) :
    substitute c text (s.flatMap f) = s.flatMap fun d => substitute c text (f d) :=
  List.flatMap_assoc

/-- **The replacements come to one escape for each character**: no later one rewrites what an
earlier one has put in. -/
theorem searchArgument_eq (body : List Char) :
    searchArgument body = (searchOf body).flatMap shield := by
  have hchar : ∀ c : Char, substitute ' ' ['\\', ' '] (substitute '/' ['\\', '/']
      (if c = '\\' then ['\\', '\\'] else [c])) = shield c := by
    intro c
    by_cases hbackslash : c = '\\'
    · subst hbackslash
      rfl
    · by_cases hslash : c = '/'
      · subst hslash
        rfl
      · by_cases hspace : c = ' '
        · subst hspace
          rfl
        · simp [shield, substitute, hbackslash, hslash, hspace]
  have hsearch : substitute '\t' ['\\', 't'] ('\\' :: 'M' :: body) = searchOf body := rfl
  have hfirst : substitute '\\' ['\\', '\\'] (searchOf body) =
      (searchOf body).flatMap fun c => if c = '\\' then ['\\', '\\'] else [c] := rfl
  rw [searchArgument, hsearch, hfirst, substitute_flatMap, substitute_flatMap]
  exact congrArg (List.flatMap · (searchOf body)) (funext hchar)

theorem tab_not_mem_searchOf (body : List Char) : '\t' ∉ searchOf body := by
  have hbody : '\t' ∉ substitute '\t' ['\\', 't'] body := by
    intro h
    obtain ⟨c, -, hc⟩ := List.mem_flatMap.mp h
    split_ifs at hc with htab
    · simp at hc
    · exact htab (List.mem_singleton.mp hc).symm
  simpa [searchOf] using hbody

theorem tab_not_mem_searchArgument (body : List Char) : '\t' ∉ searchArgument body := by
  rw [searchArgument_eq]
  intro h
  obtain ⟨c, hc, htab⟩ := List.mem_flatMap.mp h
  have hself : '\t' = c := by
    unfold shield at htab
    split_ifs at htab <;> simpa using htab
  exact tab_not_mem_searchOf body (hself ▸ hc)

/-- The text with one level of escapes undone, from left to right. -/
def withoutEscapes : List Char → List Char
  | '\\' :: c :: rest => c :: withoutEscapes rest
  | c :: rest => c :: withoutEscapes rest
  | [] => []

theorem withoutEscapes_cons {c : Char} (h : c ≠ '\\') (rest : List Char) :
    withoutEscapes (c :: rest) = c :: withoutEscapes rest := by
  rw [withoutEscapes]
  exact fun _ _ hc => absurd hc h

theorem withoutEscapes_shielded (s : List Char) : withoutEscapes (s.flatMap shield) = s := by
  induction s with
  | nil => rfl
  | cons c s ih =>
    rw [List.flatMap_cons, shield]
    split_ifs with h
    · exact congrArg (c :: ·) ih
    · rw [List.singleton_append, withoutEscapes_cons fun hc => h (.inl hc), ih]

/-- How many backslashes a text ends with. -/
def backslashesAtEnd (s : List Char) : ℕ := (s.rtakeWhile (· == '\\')).length

theorem backslashesAtEnd_concat (s : List Char) (c : Char) :
    backslashesAtEnd (s ++ [c]) = if c = '\\' then backslashesAtEnd s + 1 else 0 := by
  by_cases hc : c = '\\'
  · rw [if_pos hc, backslashesAtEnd, List.rtakeWhile_concat_pos _ _ _ (by simpa using hc),
      List.length_append, List.length_singleton, backslashesAtEnd]
  · rw [if_neg hc, backslashesAtEnd, List.rtakeWhile_concat_neg _ _ _ (by simpa using hc),
      List.length_nil]

theorem even_backslashesAtEnd_shielded (s : List Char) :
    Even (backslashesAtEnd (s.flatMap shield)) := by
  induction s using List.reverseRecOn with
  | nil => exact ⟨0, rfl⟩
  | append_singleton s c ih =>
    rw [List.flatMap_append, List.flatMap_singleton, shield]
    by_cases hc : c = '\\'
    · rw [if_pos (.inl hc), List.append_cons, backslashesAtEnd_concat, if_pos hc,
        backslashesAtEnd_concat, if_pos rfl]
      exact ih.add (even_two)
    · split_ifs
      · rw [List.append_cons, backslashesAtEnd_concat, if_neg hc]
        exact Even.zero
      · rw [backslashesAtEnd_concat, if_neg hc]
        exact Even.zero

/-- A character of a text that is put together piece by piece belongs to one of the pieces. -/
theorem exists_of_flatMap_eq {f : Char → List Char} {s before after : List Char} {c : Char}
    (h : s.flatMap f = before ++ c :: after) :
    ∃ (front : List Char) (d : Char) (u v : List Char),
      before = front.flatMap f ++ u ∧ f d = u ++ c :: v := by
  induction s generalizing before with
  | nil => simp at h
  | cons d s ih =>
    rw [List.flatMap_cons] at h
    rcases List.append_eq_append_iff.mp h with ⟨more, rfl, hmore⟩ | ⟨more, hd, hmore⟩
    · obtain ⟨front, d', u, v, rfl, hv⟩ := ih hmore
      exact ⟨d :: front, d', u, v, by rw [List.flatMap_cons, List.append_assoc], hv⟩
    · cases more with
      | nil =>
        -- the pieces behind begin with the character
        have hbehind : s.flatMap f = [] ++ c :: after := hmore.symm
        obtain ⟨front, d', u, v, hu, hv⟩ := ih hbehind
        exact ⟨d :: front, d', u, v, by
          rw [List.flatMap_cons, List.append_assoc, ← hu, hd, List.append_nil, List.append_nil], hv⟩
      | cons x more =>
        obtain ⟨rfl, -⟩ := List.cons.inj hmore
        exact ⟨[], d, before, more, rfl, hd⟩

/-- **A space or a slash has an odd number of backslashes in front.** -/
theorem odd_of_shielded {s before after : List Char} {c : Char} (hc : c = ' ' ∨ c = '/')
    (h : s.flatMap shield = before ++ c :: after) : Odd (backslashesAtEnd before) := by
  obtain ⟨front, d, u, v, rfl, hd⟩ := exists_of_flatMap_eq h
  have hu : u = ['\\'] := by
    have hne : c ≠ '\\' := by rcases hc with rfl | rfl <;> decide
    unfold shield at hd
    split_ifs at hd with hshield
    · -- the backslash comes first
      match u, hd with
      | [], hd => exact absurd (List.cons.inj hd).1.symm hne
      | [x], hd => rw [(List.cons.inj hd).1]
      | _ :: _ :: _, hd => simp at hd
    · match u, hd with
      | [], hd =>
        obtain ⟨rfl, -⟩ := List.cons.inj hd
        exact absurd (.inr hc.symm) hshield
      | _ :: _, hd => simp at hd
  rw [hu, backslashesAtEnd_concat, if_pos rfl]
  exact (even_backslashesAtEnd_shielded front).add_one

/-! ## Arguments -/

/-- The parts of a command line between its spaces; a space behind a backslash is part of one. -/
def argumentsOf : List Char → List (List Char)
  | [] => [[]]
  | '\\' :: c :: rest => (argumentsOf rest).modifyHead fun part => '\\' :: c :: part
  | c :: rest =>
    if c = ' ' then [] :: argumentsOf rest else (argumentsOf rest).modifyHead (c :: ·)

/-- In front of anything the text is part of a single argument. -/
def IsPart (s : List Char) : Prop :=
  ∀ rest, argumentsOf (s ++ rest) = (argumentsOf rest).modifyHead (s ++ ·)

namespace IsPart

theorem nil : IsPart [] := fun rest => (congrFun List.modifyHead_id (argumentsOf rest)).symm

theorem append {s t : List Char} (hs : IsPart s) (ht : IsPart t) : IsPart (s ++ t) := by
  intro rest
  rw [List.append_assoc, hs, ht, List.modifyHead_modifyHead]
  congr 1
  funext part
  exact (List.append_assoc s t part).symm

theorem singleton {c : Char} (hbackslash : c ≠ '\\') (hspace : c ≠ ' ') : IsPart [c] := by
  intro rest
  rw [List.singleton_append, argumentsOf, if_neg hspace]
  · rfl
  · exact fun _ _ hc => absurd hc hbackslash

theorem escaped (c : Char) : IsPart ['\\', c] := fun _ => rfl

theorem flatMap {f : Char → List Char} {s : List Char} (h : ∀ c ∈ s, IsPart (f c)) :
    IsPart (s.flatMap f) := by
  induction s with
  | nil => exact nil
  | cons c s ih =>
    rw [List.flatMap_cons]
    exact (h c List.mem_cons_self).append (ih fun d hd => h d (List.mem_cons_of_mem _ hd))

theorem shielded (s : List Char) : IsPart (s.flatMap shield) := by
  refine flatMap fun c _ => ?_
  unfold shield
  split_ifs with hc
  · exact escaped c
  · exact singleton (fun h => hc (.inl h)) fun h => hc (.inr (.inr h))

theorem of_plain {s : List Char} (hspace : ' ' ∉ s) (hbackslash : '\\' ∉ s) : IsPart s := by
  have hparts : IsPart (s.flatMap fun c => [c]) := flatMap fun c hc =>
    singleton (fun h => hbackslash (h ▸ hc)) fun h => hspace (h ▸ hc)
  rwa [List.flatMap_singleton'] at hparts

theorem argumentsOf_eq {s : List Char} (h : IsPart s) : argumentsOf s = [s] := by
  have hend := h []
  rw [List.append_nil] at hend
  rw [hend, argumentsOf, List.modifyHead_cons, List.append_nil]

theorem argumentsOf_append {s : List Char} (h : IsPart s) (rest : List Char) :
    argumentsOf (s ++ ' ' :: rest) = s :: argumentsOf rest := by
  have hspace : argumentsOf (' ' :: rest) = [] :: argumentsOf rest := by
    rw [argumentsOf, if_pos rfl]
    exact fun _ _ hc => absurd hc (by decide)
  rw [h, hspace, List.modifyHead_cons, List.append_nil]

end IsPart

/-! ## Open commands -/

/-- An argument carries the search for a body, with escapes that keep it together. -/
structure Carries (search body : List Char) : Prop where
  no_tab : '\t' ∉ search
  /-- spaces and slashes are escaped -/
  odd : ∀ before c after, search = before ++ c :: after → c = ' ' ∨ c = '/' →
    Odd (backslashesAtEnd before)
  /-- without its escapes it is a search in which only escaped characters mean something, for the
  body with its tabs spelled out -/
  eq : withoutEscapes search = '\\' :: 'M' :: substitute '\t' ['\\', 't'] body

theorem carries_searchArgument (body : List Char) : Carries (searchArgument body) body where
  no_tab := tab_not_mem_searchArgument body
  odd before c after h hc := by
    rw [searchArgument_eq] at h
    exact odd_of_shielded hc h
  eq := by
    rw [searchArgument_eq, withoutEscapes_shielded]
    rfl

/-- **The command that opens an entry at an anchor carries a search for its body.** Cut apart at the
unescaped spaces, it is the command, the way to the location and the file. -/
theorem openCommand_carries {e : Entry} {boundary : Char} {body : String}
    (he : e.location = some (.anchor boundary body)) (command : String) :
    ∃ search, Carries search body.toList ∧
      (openCommand command e).toList =
        command.toList ++ ' ' :: '+' :: '/' :: search ++ '/' :: ' ' :: e.file.toList ∧
      (' ' ∉ command.toList → '\\' ∉ command.toList → ' ' ∉ e.file.toList →
        '\\' ∉ e.file.toList →
        argumentsOf (openCommand command e).toList =
          [command.toList, '+' :: '/' :: search ++ ['/'], e.file.toList]) := by
  have hline : (openCommand command e).toList =
      command.toList ++ ' ' :: (('+' :: '/' :: searchArgument body.toList ++ ['/']) ++
        ' ' :: e.file.toList) := by
    simp [openCommand, he, jump]
  refine ⟨searchArgument body.toList, carries_searchArgument _, by simp [hline], ?_⟩
  intro hspace hbackslash hspace' hbackslash'
  have hjump : IsPart ('+' :: '/' :: searchArgument body.toList ++ ['/']) := by
    have hopen : IsPart ['+', '/'] := .of_plain (by decide) (by decide)
    have hclose : IsPart ['/'] := .of_plain (by decide) (by decide)
    rw [searchArgument_eq]
    exact (hopen.append (.shielded _)).append hclose
  rw [hline, (IsPart.of_plain hspace hbackslash).argumentsOf_append, hjump.argumentsOf_append,
    (IsPart.of_plain hspace' hbackslash').argumentsOf_eq]

/-- An entry at an anchor with a backslash in front of a space, and with a slash and a tab. -/
def awkwardEntry : Entry where
  name := "f"
  kind := "fn"
  file := "a.c"
  location := some (.anchor '/' "a\\ /\tb\\")

theorem openCommand_carries_awkward :
    awkwardEntry.location = some (.anchor '/' "a\\ /\tb\\") ∧
    ∃ search, Carries search "a\\ /\tb\\".toList ∧
      argumentsOf (openCommand "edit" awkwardEntry).toList =
        ["edit".toList, '+' :: '/' :: search ++ ['/'], "a.c".toList] := by
  have he : awkwardEntry.location = some (.anchor '/' "a\\ /\tb\\") := rfl
  obtain ⟨search, hcarries, -, harguments⟩ := openCommand_carries he "edit"
  exact ⟨he, search, hcarries, harguments (by decide) (by decide) (by decide) (by decide)⟩

end SymbolIndex
