import SymbolIndex.Proofs.Search.Clauses
import SymbolIndex.Proofs.Search.Matching

/-!
# How a kind begins

A leading comparison counts bytes, cuts as many off the front of a text and compares them. The cut
may fall inside a character. Then the comparison fails: no character has bytes that begin those of
another, and folding the case of a letter leaves all bytes alone that are not letters themselves.

* `BeginsWith`, `leadMatch_iff_beginsWith`: how texts begin, character by character;
* `BeginsWith.take_bytesOf`, `BeginsWith.isValid`: where the bytes end that are compared;
* `cutMatch?`, `cutMatch?_eq`: the comparison with a cut that fails where bytes are missing;
* `any_kindLeads_iff`: plans fold the case of their leads, which changes nothing;
* `ComparesCharacters`, `leadMatch_compares`: what the comparison comes to.
-/

namespace SymbolIndex

open Text Query

/-! ## Characters -/

/-- The text begins with the characters of the lead, one by one and up to the case of ASCII
letters. -/
structure BeginsWith (lead text : List Char) : Prop where
  enough : lead.length ≤ text.length
  alike : ∀ i (h : i < lead.length), lower lead[i] = lower text[i]

theorem folded_isPrefix_iff (lead text : List Char) :
    folded lead <+: folded text ↔ BeginsWith lead text := by
  rw [List.prefix_iff_getElem]
  simp only [folded, List.length_map, List.getElem_map]
  constructor
  · rintro ⟨henough, halike⟩
    exact ⟨henough, halike⟩
  · exact fun h => ⟨h.enough, h.alike⟩

theorem leadMatch_iff_beginsWith (lead text : String) :
    leadMatch lead text = true ↔ BeginsWith lead.toList text.toList := by
  rw [leadMatch_iff, folded_isPrefix_iff]

theorem BeginsWith.folded_take {lead text : List Char} (h : BeginsWith lead text) :
    folded (text.take lead.length) = folded lead := by
  have hprefix := List.prefix_iff_eq_take.mp ((folded_isPrefix_iff lead text).mpr h)
  rw [folded, List.length_map] at hprefix
  rw [folded, List.map_take]
  exact hprefix.symm

/-! ## Bytes -/

theorem length_bytesOf (s : String) : (bytesOf s).length = s.utf8ByteSize := rfl

theorem bytesOf_append (front back : String) :
    bytesOf (front ++ back) = bytesOf front ++ bytesOf back := by
  rw [bytesOf_eq, bytesOf_eq, bytesOf_eq, String.toList_append, encode, List.flatMap_append]
  rfl

theorem length_encode_of_folded_eq {cs ds : List Char} (h : folded cs = folded ds) :
    (encode cs).length = (encode ds).length := by
  calc (encode cs).length
      = (encode (folded cs)).length := by rw [← map_lowerByte_encode, List.length_map]
    _ = (encode (folded ds)).length := by rw [h]
    _ = (encode ds).length := by rw [← map_lowerByte_encode, List.length_map]

/-- The first `count` characters of a text. -/
def frontOf (count : Nat) (text : String) : String := String.ofList (text.toList.take count)

theorem exists_eq_frontOf_append (count : Nat) (text : String) :
    ∃ back, text = frontOf count text ++ back := by
  refine ⟨String.ofList (text.toList.drop count), ?_⟩
  rw [frontOf, ← String.ofList_append, List.take_append_drop, String.ofList_toList]

section

variable {lead text : String}

theorem BeginsWith.length_bytesOf_frontOf (h : BeginsWith lead.toList text.toList) :
    (bytesOf (frontOf lead.length text)).length = (bytesOf lead).length := by
  rw [bytesOf_eq, bytesOf_eq, frontOf, String.toList_ofList, ← String.length_toList]
  exact length_encode_of_folded_eq h.folded_take

theorem BeginsWith.take_bytesOf (h : BeginsWith lead.toList text.toList) :
    (bytesOf text).take (bytesOf lead).length = bytesOf (frontOf lead.length text) := by
  obtain ⟨back, hback⟩ := exists_eq_frontOf_append lead.length text
  have hbytes := congrArg bytesOf hback
  rw [bytesOf_append] at hbytes
  rw [hbytes, ← h.length_bytesOf_frontOf, List.take_left]

theorem BeginsWith.isValid (h : BeginsWith lead.toList text.toList) :
    String.Pos.Raw.IsValid text ⟨(bytesOf lead).length⟩ := by
  obtain ⟨back, hback⟩ := exists_eq_frontOf_append lead.length text
  refine String.Pos.Raw.isValid_iff_exists_append.mpr ⟨_, back, hback, ?_⟩
  rw [← h.length_bytesOf_frontOf, length_bytesOf]
  rfl

end

/-! ## The cut -/

/-- The first `count` bytes. All of them have to be there. -/
def firstBytes? (count : Nat) (bytes : List UInt8) : Option (List UInt8) :=
  if count ≤ bytes.length then some (bytes.take count) else none

/-- The comparison with a cut that can fail. There is no outcome if bytes are cut off that the text
does not have. -/
def cutMatch? (lead text : String) : Option Bool :=
  if (bytesOf lead).length ≤ (bytesOf text).length then
    (firstBytes? (bytesOf lead).length (bytesOf text)).map fun front =>
      front.map lowerByte == (bytesOf lead).map lowerByte
  else some false

/-- **The cut never fails.** The lengths have been compared before. -/
theorem cutMatch?_eq (lead text : String) : cutMatch? lead text = some (leadMatch lead text) := by
  rw [cutMatch?, leadMatch]
  by_cases h : (bytesOf lead).length ≤ (bytesOf text).length
  · rw [if_pos h, firstBytes?, if_pos h, decide_eq_true h, Bool.true_and, Option.map_some]
  · rw [if_neg h, decide_eq_false h, Bool.false_and]

/-! ## Leads in plans -/

theorem any_kindLeads_iff {clauses : List Clause} {plan : Plan}
    (h : Plan.compile clauses = .ok plan) (kind : String) :
    plan.kindLeads.any (leadMatch · kind) = true ↔
      ∃ c ∈ clauses, c.mode = .leading ∧ leadMatch c.value kind = true := by
  have hplan := Plan.compile_of_known (Plan.known_of_compile h)
  rw [h] at hplan
  cases hplan
  simp only [List.any_eq_true, List.mem_filterMap, Clause.kindLead?_eq_some_iff]
  constructor
  · rintro ⟨_, ⟨c, hc, hmode, rfl⟩, hmatch⟩
    rw [leadMatch_foldCase] at hmatch
    exact ⟨c, hc, hmode, hmatch⟩
  · rintro ⟨c, hc, hmode, hmatch⟩
    rw [← leadMatch_foldCase] at hmatch
    exact ⟨_, ⟨c, hc, hmode, rfl⟩, hmatch⟩

/-! ## What is compared -/

/-- What the comparison of leads with a text comes to. -/
structure ComparesCharacters (text : String) : Prop where
  /-- it finds a lead exactly if the text begins with its characters -/
  found : ∀ lead, leadMatch lead text = true ↔ BeginsWith lead.toList text.toList
  /-- the bytes that are cut off the text then end between two characters -/
  boundary : ∀ lead, leadMatch lead text = true →
    String.Pos.Raw.IsValid text ⟨(bytesOf lead).length⟩
  /-- and are those of as many characters as the lead has -/
  whole : ∀ lead, leadMatch lead text = true →
    (bytesOf text).take (bytesOf lead).length = bytesOf (frontOf lead.length text)
  /-- no bytes are cut off that the text does not have, whether the lead is found or not -/
  inRange : ∀ lead, cutMatch? lead text = some (leadMatch lead text)
  /-- it finds a lead exactly if it finds it with its case folded -/
  folds : ∀ lead, leadMatch (String.ofList (foldCase lead)) text = leadMatch lead text
  /-- so that plans, which fold it, find the kinds that begin as their clauses say -/
  planned : ∀ clauses plan, Plan.compile clauses = .ok plan →
    (plan.kindLeads.any (leadMatch · text) = true ↔
      ∃ c ∈ clauses, c.mode = .leading ∧ BeginsWith c.value.toList text.toList)

/-- **A comparison byte by byte compares characters.** -/
theorem leadMatch_compares (text : String) : ComparesCharacters text where
  found lead := leadMatch_iff_beginsWith lead text
  boundary lead h := ((leadMatch_iff_beginsWith lead text).mp h).isValid
  whole lead h := ((leadMatch_iff_beginsWith lead text).mp h).take_bytesOf
  inRange lead := cutMatch?_eq lead text
  folds lead := leadMatch_foldCase lead text
  planned clauses plan h := by
    rw [any_kindLeads_iff h]
    simp only [leadMatch_iff_beginsWith]

/-- Only ASCII letters have two cases, and the two bytes of `é` cut the three of `€` apart. -/
example : leadMatch "äP" "äpfel" = true ∧ leadMatch "ä" "Äpfel" = false ∧
    leadMatch "é" "€" = false ∧ firstBytes? 4 (bytesOf "€") = none := by decide

end SymbolIndex
