import SymbolIndex.Proofs.Query.RoundTrip
import SymbolIndex.Proofs.Search.Answer

/-!
# Typing on

A query is typed word by word and character by character. Every further word that is not about
kinds, and every further character of a word that is compared fuzzily, leaves some of the results
out and the others where they are. A further word about kinds brings results back.

* `answerTo`, `exists_accepts`: what a text finds among some entries;
* `asks_of_append`: words that are compared fuzzily, and the same words typed on;
* `wantedBy_insert`, `wantedBy_insert_kind`: one word more;
* `TypedOn`: what typing on does to the results of a text;
* `answerTo_typedOn`: it does so for every text.
-/

namespace SymbolIndex

open Text Query

/-! ## Words -/

theorem classify_kind_iff {w : List Char} :
    (∃ c, classify w = some c ∧ c.target = .kind) ↔ ∃ value, value ≠ [] ∧ w = '=' :: value := by
  constructor
  · rintro ⟨c, hc, hkind⟩
    obtain ⟨r, hr, value, hne, -, rfl, rfl⟩ := classify_eq_some_iff.mp hc
    simp only [rules, List.mem_cons, List.not_mem_nil, or_false] at hr
    rcases hr with rfl | rfl | rfl | rfl | rfl | rfl
    · exact ⟨value, hne, rfl⟩
    all_goals cases hkind
  · rintro ⟨value, hne, rfl⟩
    obtain ⟨c, value, rfl⟩ := List.exists_cons_of_ne_nil hne
    exact ⟨_, rfl, rfl⟩

/-- **A word that is compared fuzzily asks for more the longer it is**, and is never about kinds. -/
theorem asks_of_append {w : List Char} {c : Clause} (hc : classify w = some c)
    (hfuzzy : c.mode = .fuzzy) (more : List Char) :
    (∀ e, Asks (w ++ more) e → Asks w e) ∧ ∀ value, w ++ more ≠ '=' :: value := by
  have hshort : ∀ {value : List Char} {text : String}, InOrder (value ++ more) text →
      InOrder value text := by
    intro value text h
    rw [InOrder, folded, List.map_append] at h
    exact (List.sublist_append_left _ _).trans h
  obtain ⟨r, hr, value, hne, hplain, rfl, rfl⟩ := classify_eq_some_iff.mp hc
  simp only [rules, List.mem_cons, List.not_mem_nil, or_false] at hr
  rcases hr with rfl | rfl | rfl | rfl | rfl | rfl
  case inr.inl => exact ⟨fun e => hshort, fun value' h => absurd (List.cons.inj h).1 (by decide)⟩
  case inr.inr.inr.inl => exact ⟨fun e => hshort, fun value' h => absurd (List.cons.inj h).1 (by decide)⟩
  case inr.inr.inr.inr.inr =>
    obtain ⟨d, value, rfl⟩ := List.exists_cons_of_ne_nil hne
    have hd : d ∉ leadCharacters := hplain rfl d rfl
    simp only [leadCharacters, List.mem_cons, List.not_mem_nil, or_false, not_or] at hd
    obtain ⟨h₁, h₂, h₃, h₄, h₅⟩ := hd
    refine ⟨fun e h => ?_, fun value' h => h₁ (List.cons.inj h).1⟩
    exact (asks_plain value e h₁ h₂ h₃ h₄ h₅).mpr
      (hshort ((asks_plain (value ++ more) e h₁ h₂ h₃ h₄ h₅).mp h))
  all_goals cases hfuzzy

/-! ## One word more -/

section Insert

variable {before behind : List (List Char)} {w : List Char} {e : Entry}

theorem mem_insert_iff {v : List Char} :
    v ∈ before ++ w :: behind ↔ v = w ∨ v ∈ before ++ behind := by
  simp only [List.mem_append, List.mem_cons]
  exact or_left_comm

/-- A further word that is not about kinds is one more thing to ask for. -/
theorem wantedBy_insert (hw : ∀ value, value ≠ [] → w ≠ '=' :: value) :
    WantedBy (· ∈ before ++ w :: behind) e ↔ WantedBy (· ∈ before ++ behind) e ∧ Asks w e := by
  have hkind : ∀ value, AsksKind (· ∈ before ++ w :: behind) value ↔
      AsksKind (· ∈ before ++ behind) value := fun value => by
    refine and_congr_right fun hne => mem_insert_iff.trans (or_iff_right fun h => ?_)
    exact hw value hne h.symm
  constructor
  · rintro ⟨hasks, hkinds⟩
    simp only [hkind] at hkinds
    exact ⟨⟨fun v hv => hasks v (mem_insert_iff.mpr (.inr hv)), hkinds⟩,
      hasks w (mem_insert_iff.mpr (.inl rfl))⟩
  · rintro ⟨⟨hasks, hkinds⟩, hlast⟩
    refine ⟨fun v hv => ?_, by simpa only [hkind] using hkinds⟩
    rcases mem_insert_iff.mp hv with rfl | hv
    · exact hlast
    · exact hasks v hv

/-- A further word about kinds is one more way to be of a kind that is asked for. -/
theorem wantedBy_insert_kind {value : List Char}
    (hex : ∃ v, AsksKind (· ∈ before ++ behind) v)
    (h : WantedBy (· ∈ before ++ behind) e) :
    WantedBy (· ∈ before ++ ('=' :: value) :: behind) e where
  asks v hv := by
    rcases mem_insert_iff.mp hv with rfl | hv
    · exact trivial
    · exact h.asks v hv
  kind _ := by
    obtain ⟨v, ⟨hne, hv⟩, hlead⟩ := h.kind hex
    exact ⟨v, ⟨hne, mem_insert_iff.mpr (.inr hv)⟩, hlead⟩

end Insert

/-! ## Results -/

/-- What a query text finds among some entries when nothing interrupts it. -/
def answerTo (text : String) (limit : Option ℕ) (entries : List Entry) :
    Except Error (List Entry) :=
  (searchPlan text).bind fun plan => plan.execute (entries.map .ok) limit .never

theorem exists_accepts {text : String} {ws : List (List Char)} (h : Spaced text.toList ws) :
    ∃ accepts : Entry → Bool, (∀ e, accepts e = true ↔ WantedBy (· ∈ ws) e) ∧
      ∀ limit entries,
        answerTo text limit entries = .ok (firstOf limit (ranked (entries.filter accepts))) := by
  obtain ⟨plan, hplan, haccepts⟩ := exists_searchPlan text
  have hwords : IsWord text.toList = (· ∈ ws) := by
    funext v
    rw [← words_of_spaced h]
    exact propext (mem_words_iff _ v).symm
  refine ⟨plan.accepts, fun e => by rw [haccepts, Wanted, hwords], fun limit entries => ?_⟩
  rw [answerTo, hplan]
  exact plan.execute_quiet entries limit fun _ => rfl

theorem exists_answerTo (text : String) (limit : Option ℕ) (entries : List Entry) :
    ∃ found, answerTo text limit entries = .ok found := by
  obtain ⟨accepts, -, hanswer⟩ := exists_accepts (words_eq_iff.mp rfl)
  exact ⟨_, hanswer limit entries⟩

/-- A text that asks for one thing more finds those of the results that it holds of. -/
theorem answerTo_filter {text text' : String} {ws ws' : List (List Char)}
    (hs : Spaced text.toList ws) (hs' : Spaced text'.toList ws') {q : Entry → Bool}
    (h : ∀ e, WantedBy (· ∈ ws') e ↔ WantedBy (· ∈ ws) e ∧ q e = true)
    {entries found : List Entry} (hfound : answerTo text none entries = .ok found) :
    answerTo text' none entries = .ok (found.filter q) := by
  obtain ⟨accepts, haccepts, hanswer⟩ := exists_accepts hs
  obtain ⟨accepts', haccepts', hanswer'⟩ := exists_accepts hs'
  rw [hanswer, firstOf_none] at hfound
  obtain rfl := Except.ok.inj hfound
  rw [hanswer', firstOf_none, ← ranked_filter, List.filter_filter]
  congr 3
  funext e
  rw [Bool.eq_iff_iff, haccepts', h, ← haccepts, Bool.and_eq_true, and_comm]

open Classical in
/-- What typing on does to the results `found` of a text among some entries. -/
structure TypedOn (text : String) (entries found : List Entry) : Prop where
  /-- one more word that is not about kinds leaves those results that the word asks for -/
  word : ∀ before w behind text', Spaced text.toList (before ++ behind) →
    Spaced text'.toList (before ++ w :: behind) →
    (∀ c, classify w = some c → c.target ≠ .kind) →
    ∃ found', answerTo text' none entries = .ok found' ∧ found'.Sublist found ∧
      found' = found.filter fun e => decide (Asks w e)
  /-- and so do more characters of a word that is compared fuzzily -/
  characters : ∀ before w more behind text' c, Spaced text.toList (before ++ w :: behind) →
    Spaced text'.toList (before ++ (w ++ more) :: behind) →
    classify w = some c → c.mode = .fuzzy →
    ∃ found', answerTo text' none entries = .ok found' ∧ found'.Sublist found ∧
      found' = found.filter fun e => decide (Asks (w ++ more) e)
  /-- one more word about kinds, where there is one already, keeps all results -/
  kind : ∀ before w behind text' c v d, Spaced text.toList (before ++ behind) →
    Spaced text'.toList (before ++ w :: behind) →
    classify w = some c → c.target = .kind →
    v ∈ before ++ behind → classify v = some d → d.target = .kind →
    ∃ found', answerTo text' none entries = .ok found' ∧ found.Sublist found'

theorem typedOn {text : String} {entries found : List Entry}
    (hfound : answerTo text none entries = .ok found) : TypedOn text entries found where
  word before w behind text' hs hs' hw := by
    classical
    have hkind : ∀ value, value ≠ [] → w ≠ '=' :: value := fun value hne hv => by
      obtain ⟨c, hc, htarget⟩ := classify_kind_iff.mpr ⟨value, hne, hv⟩
      exact hw c hc htarget
    refine ⟨_, answerTo_filter hs hs' (fun e => ?_) hfound, List.filter_sublist, rfl⟩
    rw [wantedBy_insert hkind, decide_eq_true_eq]
  characters before w more behind text' c hs hs' hc hfuzzy := by
    classical
    obtain ⟨hasks, hlong⟩ := asks_of_append hc hfuzzy more
    have hshort : ∀ value, w ≠ '=' :: value := by
      simpa using (asks_of_append hc hfuzzy []).2
    refine ⟨_, answerTo_filter hs hs' (fun e => ?_) hfound, List.filter_sublist, rfl⟩
    rw [wantedBy_insert fun value _ => hlong value, wantedBy_insert fun value _ => hshort value,
      decide_eq_true_eq, and_assoc]
    exact and_congr_right fun _ => (and_iff_right_of_imp (hasks e)).symm
  kind before w behind text' c v d hs hs' hc htarget hv hd hkind := by
    classical
    obtain ⟨value, -, rfl⟩ := classify_kind_iff.mp ⟨c, hc, htarget⟩
    obtain ⟨value', hne', rfl⟩ := classify_kind_iff.mp ⟨d, hd, hkind⟩
    -- the shorter text is the one that asks for more
    obtain ⟨found', hfound'⟩ := exists_answerTo text' none entries
    have hfilter := answerTo_filter hs' hs
      (q := fun e => decide (WantedBy (· ∈ before ++ behind) e)) (fun e => by
        rw [decide_eq_true_eq]
        exact (and_iff_right_of_imp fun h => wantedBy_insert_kind ⟨value', hne', hv⟩ h).symm) hfound'
    obtain rfl := Except.ok.inj (hfound.symm.trans hfilter)
    exact ⟨found', hfound', List.filter_sublist⟩

/-- **Typing on narrows the results in order**, whatever has been typed, and a limit cuts them off
in order. -/
theorem answerTo_typedOn (text : String) (entries : List Entry) :
    (∃ found, answerTo text none entries = .ok found ∧ TypedOn text entries found) ∧
      ∀ a b, 0 < a → a ≤ b → ∃ few many, answerTo text (some a) entries = .ok few ∧
        answerTo text (some b) entries = .ok many ∧ few = many.take a := by
  obtain ⟨found, hfound⟩ := exists_answerTo text none entries
  refine ⟨⟨found, hfound, typedOn hfound⟩, fun a b ha hab => ?_⟩
  obtain ⟨accepts, -, hanswer⟩ := exists_accepts (words_eq_iff.mp (rfl : words text.toList = _))
  refine ⟨_, _, hanswer (some a) entries, hanswer (some b) entries, ?_⟩
  have hb : 0 < b := Nat.lt_of_lt_of_le ha hab
  rw [firstOf, firstOf, if_neg (by simpa using ha.ne'), if_neg (by simpa using hb.ne'),
    Option.getD_some, Option.getD_some, List.take_take, Nat.min_eq_left hab]

/-- Two definitions that differ in their names and in what goes with them. -/
def definitions : List Entry :=
  [{ name := "CONST_C", kind := "Define", file := "file.b", extra := some "int" },
   { name := "CONST_A", kind := "Define", file := "file.a", extra := some "str" }]

/-- What is typed on to a query about names and kinds. -/
theorem answerTo_typedOn_definitions :
    Spaced "con =De".toList ["con".toList, "=De".toList] ∧
      Spaced "con :int =De".toList ["con".toList, ":int".toList, "=De".toList] ∧
      Spaced "const =De".toList ["con".toList ++ "st".toList, "=De".toList] ∧
      Spaced "con =De =Fi".toList ["con".toList, "=De".toList, "=Fi".toList] ∧
      ∃ found, answerTo "con =De" none definitions = .ok found ∧
        (∃ found', answerTo "con :int =De" none definitions = .ok found' ∧ found'.Sublist found) ∧
        (∃ found', answerTo "const =De" none definitions = .ok found' ∧ found'.Sublist found) ∧
        (∃ found', answerTo "con =De =Fi" none definitions = .ok found' ∧ found.Sublist found') ∧
        ∃ few many, answerTo "con =De" (some 1) definitions = .ok few ∧
          answerTo "con =De" (some 2) definitions = .ok many ∧ few = many.take 1 := by
  have hs : Spaced "con =De".toList ["con".toList, "=De".toList] := words_eq_iff.mp rfl
  have hword : Spaced "con :int =De".toList ["con".toList, ":int".toList, "=De".toList] :=
    words_eq_iff.mp rfl
  have hcharacters : Spaced "const =De".toList ["con".toList ++ "st".toList, "=De".toList] :=
    words_eq_iff.mp rfl
  have hkind : Spaced "con =De =Fi".toList ["con".toList, "=De".toList, "=Fi".toList] :=
    words_eq_iff.mp rfl
  obtain ⟨⟨found, hfound, htyped⟩, hlimits⟩ := answerTo_typedOn "con =De" definitions
  have hextra : ∀ c, classify ":int".toList = some c → c.target ≠ .kind := by
    intro c hc
    obtain rfl : ⟨.extra, .fuzzy, .every, "int"⟩ = c := Option.some.inj hc
    decide
  obtain ⟨found₁, hfound₁, hsub₁, -⟩ :=
    htyped.word ["con".toList] ":int".toList ["=De".toList] _ hs hword hextra
  obtain ⟨found₂, hfound₂, hsub₂, -⟩ :=
    htyped.characters [] "con".toList "st".toList ["=De".toList] _ _ hs hcharacters rfl rfl
  obtain ⟨found₃, hfound₃, hsub₃⟩ := htyped.kind ["con".toList, "=De".toList] "=Fi".toList [] _ _
    "=De".toList _ hs hkind rfl rfl (List.mem_cons_of_mem _ List.mem_cons_self) rfl rfl
  exact ⟨hs, hword, hcharacters, hkind, found, hfound, ⟨found₁, hfound₁, hsub₁⟩,
    ⟨found₂, hfound₂, hsub₂⟩, ⟨found₃, hfound₃, hsub₃⟩, hlimits 1 2 (by decide) (by decide)⟩

end SymbolIndex
