import Mathlib.Data.List.Basic
import SymbolIndex.Exclusion.Rules

/-!
# More rules

Patterns are valid or not each by itself, and valid ones make rules that are kept in their order.
The last rule that fits has its way, so that patterns behind all others can only leave more out,
unless they begin with a `!`.

* `Matcher.Reads`, `Matcher.rules`, `Matcher.rulesOf_of_reads`: the rules of some patterns;
* `Matcher.Lawful`: what is known of patterns;
* `Matcher.Lawful.excluded_append`: what other rules do to a verdict;
* `lawful_globMatcher`: that is so of globs.
-/

namespace SymbolIndex

namespace Matcher

variable {N R : Type} {m : Matcher N R}

/-! ## The rules of patterns -/

/-- The text can be read as a line of rules. -/
def Reads (m : Matcher N R) (pattern : String) : Prop := m.line pattern ≠ .invalid

instance : DecidablePred m.Reads := fun pattern =>
  match h : m.line pattern with
  | .invalid => .isFalse fun hp => hp h
  | .blank => .isTrue fun hinvalid => by rw [h] at hinvalid; cases hinvalid
  | .rule _ => .isTrue fun hinvalid => by rw [h] at hinvalid; cases hinvalid

/-- The rules of those patterns that can be read. -/
def rules (m : Matcher N R) (patterns : List String) : List R :=
  patterns.filterMap fun pattern =>
    match m.line pattern with
    | .rule r => some r
    | _ => none

theorem rules_append (patterns more : List String) :
    m.rules (patterns ++ more) = m.rules patterns ++ m.rules more := List.filterMap_append

theorem rulesOf_of_reads {patterns : List String} (h : ∀ p ∈ patterns, m.Reads p) :
    m.rulesOf patterns = .ok (m.rules patterns) := by
  induction patterns with
  | nil => rfl
  | cons pattern patterns ih =>
    have hrest := ih fun p hp => h p (List.mem_cons_of_mem _ hp)
    rw [rulesOf, rules, List.filterMap_cons, hrest]
    cases hline : m.line pattern with
    | invalid => exact absurd hline (h pattern List.mem_cons_self)
    | blank => rfl
    | rule r => rfl

theorem rulesOf_of_not_reads {patterns : List String} (h : ¬ ∀ p ∈ patterns, m.Reads p) :
    m.rulesOf patterns = .error .ignore := by
  induction patterns with
  | nil => exact absurd nofun h
  | cons pattern patterns ih =>
    have hrest : m.Reads pattern → m.rulesOf patterns = .error .ignore := fun hpattern =>
      ih fun hall => h fun p hp => (List.mem_cons.mp hp).elim (fun he => he ▸ hpattern) (hall p)
    rw [rulesOf]
    cases hline : m.line pattern with
    | invalid => rfl
    | blank => exact hrest (by simp [Reads, hline])
    | rule r =>
      dsimp only
      rw [hrest (by simp [Reads, hline])]
      rfl

/-! ## What rules say -/

/-- What is known of patterns in the manner of git. -/
structure Lawful (m : Matcher N R) : Prop where
  /-- no rules say nothing -/
  nil : ∀ names isDirectory, m.verdict [] names isDirectory = .open
  /-- the last rule that says anything has its way -/
  append : ∀ rules more names isDirectory, m.verdict (rules ++ more) names isDirectory =
    if m.verdict more names isDirectory = .open then m.verdict rules names isDirectory
    else m.verdict more names isDirectory
  /-- only a pattern that begins with a `!` keeps what it fits -/
  keeps : ∀ pattern r, m.line pattern = .rule r → pattern.toList.head? ≠ some '!' →
    ∀ names isDirectory, m.verdict [r] names isDirectory ≠ .kept

/-- **What is left out stays so** with one more rule behind all others, unless that keeps what it
fits. -/
theorem Lawful.excluded_append (hm : m.Lawful) {rules more : List R} {names : List N}
    {isDirectory : Bool} (hmore : m.verdict more names isDirectory ≠ .kept)
    (h : m.verdict rules names isDirectory = .excluded) :
    m.verdict (rules ++ more) names isDirectory = .excluded := by
  rw [hm.append, h]
  cases hv : m.verdict more names isDirectory with
  | «open» => rfl
  | excluded => rfl
  | kept => exact absurd hv hmore

theorem Lawful.verdict_rules_ne (hm : m.Lawful) {pattern : String}
    (h : pattern.toList.head? ≠ some '!') (names : List N) (isDirectory : Bool) :
    m.verdict (m.rules [pattern]) names isDirectory ≠ .kept := by
  have hnil : m.verdict [] names isDirectory ≠ .kept := by rw [hm.nil]; decide
  cases hline : m.line pattern with
  | rule r =>
    have hrules : m.rules [pattern] = [r] := by simp [rules, hline]
    rw [hrules]
    exact hm.keeps pattern r hline h names isDirectory
  | blank | invalid =>
    have hrules : m.rules [pattern] = [] := by simp [rules, hline]
    rwa [hrules]

end Matcher

/-! ## Globs -/

namespace Rule

theorem trimLine_prefix (line : List Char) : trimLine line <+: line := by
  unfold trimLine
  split
  · exact List.prefix_rfl
  · rw [Text.trimEnd, ← List.reverse_suffix, List.reverse_reverse]
    exact List.dropWhile_suffix _

theorem keeps_of_ofGlob {keeps anchored : Bool} {s : List Char} {r : Rule}
    (h : ofGlob keeps anchored s = .rule r) : r.keeps = keeps := by
  unfold ofGlob at h
  dsimp only at h
  split at h
  · obtain rfl := RuleLine.rule.inj h
    rfl
  · cases h

theorem keeps_of_ofLine {line : List Char} {r : Rule} (h : ofLine line = .rule r)
    (hline : line.head? ≠ some '!') : r.keeps = false := by
  have hhead : ∀ rest, trimLine line ≠ '!' :: rest := by
    intro rest htrim
    obtain ⟨behind, hbehind⟩ := trimLine_prefix line
    rw [htrim] at hbehind
    exact hline (by rw [← hbehind]; rfl)
  unfold ofLine at h
  split at h
  · cases h
  · split at h
    · cases h
    · exact keeps_of_ofGlob h
    · exact keeps_of_ofGlob h
    · next htrim => exact absurd htrim (hhead _)
    · next htrim => exact absurd htrim (hhead _)
    · exact keeps_of_ofGlob h
    · exact keeps_of_ofGlob h

end Rule

/-- What the last rule that fits says, if there is one. -/
def verdictOfLast (last : Option Rule) : Verdict := (last.map Rule.verdict).getD .open

theorem verdict_eq (rules : List Rule) (path : List Char) (isDirectory : Bool) :
    verdict rules path isDirectory =
      verdictOfLast (rules.reverse.find? fun r => r.fits path isDirectory) := by
  unfold verdict
  split
  · next h => rw [h]; rfl
  · next h => rw [h]; rfl

theorem verdictOfLast_or (last other : Option Rule) :
    verdictOfLast (last.or other) =
      if verdictOfLast last = .open then verdictOfLast other else verdictOfLast last := by
  cases last with
  | none => rfl
  | some r =>
    have hne : r.verdict ≠ .open := by
      rw [Rule.verdict]
      split <;> decide
    exact (if_neg hne).symm

/-- **Globs are such patterns.** -/
theorem lawful_globMatcher {N : Type} (path : List N → List Char) : (globMatcher path).Lawful where
  nil _ _ := rfl
  append rules more names isDirectory := by
    simp only [globMatcher, verdict_eq, List.reverse_append, List.find?_append, verdictOfLast_or]
  keeps pattern r hline h names isDirectory := by
    have hr : r.verdict = .excluded := by
      rw [Rule.verdict, Rule.keeps_of_ofLine hline h]
      rfl
    simp only [globMatcher, verdict_eq, List.reverse_singleton, List.find?_singleton]
    split
    · exact hr.trans_ne (by decide)
    · decide

end SymbolIndex
