import SymbolIndex.Proofs.Query.RoundTrip
import SymbolIndex.Proofs.Text.Lines

/-!
# Queries in parts

A query is read word by word, and what one word says does not depend on the others. Texts with blanks
between them are read one after the other, and a reader that is not interested in some attributes
gets what every reader gets, without the clauses about them.

* `words_append_blanks`: the words of texts with blanks between them;
* `parse_append_blanks`: their clauses;
* `parse_eq_filter`: what a reader gets of all clauses;
* `keeps_without_rest`: there is a reader for every choice of attributes;
* `ReadInParts`, `parse_inParts`: all of it.
-/

namespace SymbolIndex

namespace Text

theorem words_append_cons {c : Char} (hc : isBlank c = true) (a b : List Char) :
    words (a ++ c :: b) = words a ++ words b := by
  rw [words, splitAt_append_cons isBlank hc, List.filter_append, words, words]

/-- **The words of texts with blanks between them** are those of the one and those of the other. -/
theorem words_append_blanks {blanks : List Char} (hne : blanks ≠ [])
    (hblank : ∀ c ∈ blanks, isBlank c = true) (a b : List Char) :
    words (a ++ blanks ++ b) = words a ++ words b := by
  obtain ⟨c, blanks, rfl⟩ := List.exists_cons_of_ne_nil hne
  obtain ⟨hc, hblanks⟩ := List.forall_mem_cons.mp hblank
  rw [List.append_assoc, List.cons_append, words_append_cons hc, words_append_of_blank hblanks]

end Text

namespace Query

open Text

/-! ## Texts behind one another -/

theorem parseWords_append (selection : Selection) (ws vs : List (List Char)) :
    parseWords selection (ws ++ vs) = parseWords selection ws ++ parseWords selection vs := by
  rw [parseWords, List.filterMap_append, List.filter_append, parseWords, parseWords]

/-- **Texts with blanks between them are read one after the other.** -/
theorem parse_append_blanks (selection : Selection) (a b : String) {blanks : String}
    (hne : blanks ≠ "") (hblank : ∀ c ∈ blanks.toList, isBlank c = true) :
    parse selection (a ++ blanks ++ b) = parse selection a ++ parse selection b := by
  have hne : blanks.toList ≠ [] := by simpa using hne
  rw [parse, String.toList_append, String.toList_append, words_append_blanks hne hblank,
    parseWords_append, parse, parse]

/-! ## Some of the attributes -/

/-- **A reader gets those of all clauses that it is interested in**, in their order. -/
theorem parse_eq_filter (selection : Selection) (text : String) :
    parse selection text = (parse .full text).filter fun c => selection.keeps c.target := by
  rw [parse_full, parse, parseWords]

theorem parse_without (excluded : List Attribute) (text : String) :
    parse (.without excluded) text = (parse .full text).filter (·.target ∉ excluded) := by
  rw [parse_eq_filter]
  exact List.filter_congr fun c _ => by simp [Selection.keeps]

theorem keeps_without_rest (keeps : Attribute → Bool) (a : Attribute) :
    (Selection.without (Attribute.all.filter fun a => !keeps a)).keeps a = keeps a := by
  have hmem : a ∈ Attribute.all := by cases a <;> decide
  cases h : keeps a <;> simp [Selection.keeps, hmem, h]

/-- How the clauses of a text are made up of those of its parts. -/
structure ReadInParts (selection : Selection) (text : String) : Prop where
  /-- in front of blanks and another text, it says what it says by itself, and so does the other -/
  append : ∀ blanks other : String, blanks ≠ "" → (∀ c ∈ blanks.toList, isBlank c = true) →
    parse selection (text ++ blanks ++ other) = parse selection text ++ parse selection other
  /-- of all its clauses, in their order, those are read that are not about what is left out -/
  without : ∀ excluded, parse (.without excluded) text =
    (parse .full text).filter (·.target ∉ excluded)
  /-- and attributes that are left out one after the other are left out together -/
  twice : ∀ excluded excluded' both : List Attribute,
    (∀ a, a ∈ both ↔ a ∈ excluded ∨ a ∈ excluded') →
    (parse (.without excluded) text).filter (·.target ∉ excluded') = parse (.without both) text
  /-- whatever a reader is interested in, it is a reader that leaves out the rest -/
  reader : ∀ keeps : Attribute → Bool,
    parse (.without (Attribute.all.filter fun a => !keeps a)) text =
      (parse .full text).filter fun c => keeps c.target

/-- **Queries are read in parts**, by their words and by their attributes. -/
theorem parse_inParts (selection : Selection) (text : String) : ReadInParts selection text where
  append _ other hne hblank := parse_append_blanks selection text other hne hblank
  without excluded := parse_without excluded text
  twice excluded excluded' both hboth := by
    rw [parse_without, parse_without, List.filter_filter]
    refine List.filter_congr fun c _ => ?_
    simp [hboth, Bool.and_comm]
  reader keeps := by
    rw [parse_eq_filter]
    exact List.filter_congr fun c _ => keeps_without_rest keeps c.target

end Query

end SymbolIndex
