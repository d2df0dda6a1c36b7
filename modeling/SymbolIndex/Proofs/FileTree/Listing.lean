import Mathlib.Data.List.Sort
import SymbolIndex.Proofs.FileTree.Changes
import SymbolIndex.Proofs.Path.Order
import SymbolIndex.Proofs.Search.Matching
import SymbolIndex.Proofs.Text.Words

/-!
# What a walk lists

What a walk comes back with is a matter of the files alone and not of the way in which they are come
across: it lists all files that the patterns spare, but for what belongs to git, in the order of
their names. With one more pattern there are at most fewer of them. Of patterns only the laws in
`Matcher.Lawful` are needed, and of names only that they are ordered, so that they may be bytes that
are no text.

* `Walk.LeadsThroughGit`, `Walk.isGits_iff`: what belongs to git;
* `Walk.notAfter_iff`, `Walk.listed_of_perm`: the order of a list;
* `Walk.IsListing`, `Walk.list_isListing`: the list of a walk;
* `FileTree.mem_walkFiles_iff`, `FileTree.pairwise_walkFiles`: the paths of files with texts as
  names, in the order of paths.
-/

namespace SymbolIndex

open SymbolIndex.Path

namespace Text

theorem decodeStrict_eq_some_iff {bytes : ByteArray} {text : String} :
    decodeStrict bytes = some text ↔ text.toUTF8 = bytes := by
  unfold decodeStrict String.fromUTF8?
  constructor
  · intro h
    split at h
    · obtain rfl := Option.some.inj h
      rfl
    · cases h
  · rintro rfl
    exact dif_pos text.isValidUTF8

end Text

namespace Walk

variable {N R : Type} {w : Walk N R}

/-! ## What belongs to git -/

/-- There is a directory of git's own in the path to what the names lead to. -/
def LeadsThroughGit (w : Walk N R) (names : List N) : Prop :=
  bytesOf "/.git/" <:+: (w.path names).data.toList

/-- The path to what the names lead to is a text. -/
def IsText (w : Walk N R) (names : List N) : Prop := ∃ text : String, text.toUTF8 = w.path names

theorem isGits_iff {names : List N} (h : w.IsText names) :
    w.isGits names = true ↔ w.LeadsThroughGit names := by
  obtain ⟨text, htext⟩ := h
  have hbytes : (w.path names).data.toList = encode text.toList := by
    rw [← htext, ← bytesOf_eq]
    rfl
  have hgit : bytesOf "/.git/" = encode "/.git/".toList := bytesOf_eq _
  rw [isGits, Text.decodeStrict_eq_some_iff.mpr htext, LeadsThroughGit, hbytes, hgit]
  exact Text.occurs_iff.trans (encode_isInfix_iff (by decide) _ _).symm

theorem leadsThroughGit_of_isGits {names : List N} (h : w.isGits names = true) :
    w.LeadsThroughGit names := by
  cases htext : Text.decodeStrict (w.path names) with
  | none =>
    rw [isGits, htext] at h
    cases h
  | some text => exact (isGits_iff ⟨text, Text.decodeStrict_eq_some_iff.mp htext⟩).mp h

/-! ## The order of a list -/

section

variable [LinearOrder N]

theorem notAfter_iff (hw : ∀ a b, w.before a b = true ↔ a < b) {names names' : List N} :
    w.notAfter names names' = true ↔ ¬ names' < names := by
  induction names generalizing names' with
  | nil => simp [notAfter]
  | cons a names ih =>
    cases names' with
    | nil => simp [notAfter]
    | cons b names' =>
      rw [notAfter, Bool.or_eq_true, Bool.and_eq_true, Bool.not_eq_true', ← Bool.not_eq_true, hw,
        hw, ih, List.cons_lt_cons_iff]
      rcases lt_trichotomy a b with hlt | rfl | hlt
      · simp [hlt, hlt.not_gt, hlt.ne']
      · simp
      · simp [hlt, hlt.not_gt]

theorem sorted_listed (hw : ∀ a b, w.before a b = true ↔ a < b) (found : List (List N)) :
    (w.listed found).Pairwise fun names names' => ¬ names' < names := by
  refine (List.pairwise_mergeSort (fun a b c hab hbc => ?_) (fun a b => ?_) _).imp
    fun h => (notAfter_iff hw).mp h
  · rw [notAfter_iff hw, not_lt] at *
    exact hab.trans hbc
  · rw [Bool.or_eq_true, notAfter_iff hw, notAfter_iff hw, not_lt, not_lt]
    exact le_total a b

/-- The order in which files are come across does not show. -/
theorem listed_of_perm (hw : ∀ a b, w.before a b = true ↔ a < b) {found found' : List (List N)}
    (h : found.Perm found') : w.listed found = w.listed found' := by
  refine List.Perm.eq_of_pairwise (fun a b _ _ hab hba => ?_) (sorted_listed hw found)
    (sorted_listed hw found') ?_
  · exact le_antisymm (not_lt.mp hab) (not_lt.mp hba)
  · exact (List.mergeSort_perm _ _).trans
      ((h.filter _).trans (List.mergeSort_perm _ _).symm)

theorem ascending_listed (hw : ∀ a b, w.before a b = true ↔ a < b) {found : List (List N)}
    (h : found.Nodup) : (w.listed found).Pairwise (· < ·) := by
  have hdistinct : (w.listed found).Nodup :=
    (List.mergeSort_perm _ _).nodup_iff.mpr (h.filter _)
  exact ((sorted_listed hw found).and hdistinct).imp fun hlt =>
    lt_of_le_of_ne (not_lt.mp hlt.1) hlt.2

/-! ## The list of a walk -/

/-- From what the walk begins with the names lead to a file, and through no link. -/
def LeadsToFile (root : Option (Node N)) (names : List N) : Prop :=
  ∃ node ∈ root, ∃ content, node.find? names = some (.file content)

/-- The list holds all files that the rules spare and that are not git's own, each of them once and
in their order. Left open is only whether a file of git's own is in it whose path is no text. -/
structure IsListing (w : Walk N R) (root : Option (Node N)) (rules : List R)
    (files : List (List N)) : Prop where
  mem_iff : ∀ names, w.IsText names ∨ ¬ w.LeadsThroughGit names →
    (names ∈ files ↔
      LeadsToFile root names ∧ Spares w.matcher rules [] names ∧ ¬ w.LeadsThroughGit names)
  sound : ∀ names ∈ files, LeadsToFile root names ∧ Spares w.matcher rules [] names
  ascending : files.Pairwise (· < ·)
  /-- there is no other list of these files in this order -/
  unique : ∀ files', (∀ names, names ∈ files' ↔ names ∈ files) → files'.Pairwise (· < ·) →
    files' = files
  /-- the files may be come across in any order -/
  any_order : ∀ found, found.Perm (root.elim [] (w.found rules)) → w.listed found = files

/-- The list holds just those files below the root that the rules spare and that are not git's
own. -/
def FiltersBelow (w : Walk N R) (root : Option (Node N)) (rules : List R)
    (files : List (List N)) : Prop :=
  ∀ names, names ∈ files ↔ names ≠ [] ∧ LeadsToFile root names ∧
    Spares w.matcher rules [] names ∧ ¬ w.LeadsThroughGit names

theorem mem_listed_found_iff (hm : w.matcher.Lawful) (hhonoured : w.honoured = .ofNames [])
    {root : Option (Node N)} (hroot : ∀ node ∈ root, node.Distinct) (rules : List R)
    {names : List N} :
    names ∈ w.listed (root.elim [] (w.found rules)) ↔
      (LeadsToFile root names ∧ Spares w.matcher rules [] names) ∧ w.isGits names = false := by
  rw [mem_listed]
  refine and_congr_left fun _ => ?_
  cases root with
  | none => simp [LeadsToFile]
  | some node => simp [LeadsToFile, mem_found_iff hm hhonoured (hroot node rfl)]

theorem isListing_listed (hm : w.matcher.Lawful) (hhonoured : w.honoured = .ofNames [])
    (hw : ∀ a b, w.before a b = true ↔ a < b) {root : Option (Node N)}
    (hroot : ∀ node ∈ root, node.Distinct) (rules : List R) :
    w.IsListing root rules (w.listed (root.elim [] (w.found rules))) := by
  have hnodup : (root.elim [] (w.found rules)).Nodup := by
    cases root with
    | none => exact List.nodup_nil
    | some node => exact nodup_found hm hhonoured (hroot node rfl)
  have hascending := ascending_listed hw hnodup
  refine ⟨fun names hnames => ?_, fun names hn => ?_, hascending,
    fun files' hmem hascending' => hascending'.eq_of_mem_iff hascending hmem,
    fun found hfound => listed_of_perm hw hfound⟩
  · have hgits : w.isGits names = false ↔ ¬ w.LeadsThroughGit names := by
      rw [← Bool.not_eq_true]
      rcases hnames with htext | hgit
      · rw [isGits_iff htext]
      · exact iff_of_true (fun h => hgit (leadsThroughGit_of_isGits h)) hgit
    rw [mem_listed_found_iff hm hhonoured hroot, hgits, and_assoc]
  · exact ((mem_listed_found_iff hm hhonoured hroot rules).mp hn).1

/-- With one more pattern that keeps nothing, fewer files are listed. -/
theorem listed_sublist (hm : w.matcher.Lawful) (hhonoured : w.honoured = .ofNames [])
    (hw : ∀ a b, w.before a b = true ↔ a < b) {root : Option (Node N)}
    (hroot : ∀ node ∈ root, node.Distinct) (patterns : List String) {pattern : String}
    (hpattern : pattern.toList.head? ≠ some '!') :
    (w.listed (root.elim [] (w.found (w.matcher.rules (patterns ++ [pattern]))))).Sublist
      (w.listed (root.elim [] (w.found (w.matcher.rules patterns)))) := by
  have hfewer := isListing_listed hm hhonoured hw hroot (w.matcher.rules (patterns ++ [pattern]))
  refine List.sublist_of_subperm_of_pairwise
    (List.subperm_of_subset (hfewer.ascending.imp fun h => ne_of_lt h) fun names hn => ?_)
    hfewer.ascending (isListing_listed hm hhonoured hw hroot (w.matcher.rules patterns)).ascending
  rw [mem_listed_found_iff hm hhonoured hroot, Matcher.rules_append] at hn
  obtain ⟨⟨hfile, hspares⟩, hgit⟩ := hn
  refine (mem_listed_found_iff hm hhonoured hroot _).mpr
    ⟨⟨hfile, fun front name behind hway hexcludes => ?_⟩, hgit⟩
  exact hspares front name behind hway
    (hm.excluded_append (hm.verdict_rules_ne hpattern _ _) hexcludes)

/-- **A walk that honours no files with rules lists all files that its patterns spare**, each of
them once and in their order; one more pattern that keeps nothing can only take files from the list.
It does so unless one of its patterns cannot be read. -/
theorem list_isListing (w : Walk N R) (hm : w.matcher.Lawful)
    (hhonoured : w.honoured = .ofNames []) (hw : ∀ a b, w.before a b = true ↔ a < b)
    (root : Option (Node N)) (hroot : ∀ node ∈ root, node.Distinct) (exclude : List String) :
    (w.list exclude root = .error .ignore ↔ ¬ ∀ p ∈ exclude, w.matcher.Reads p) ∧
    ((∀ p ∈ exclude, w.matcher.Reads p) →
      ∃ files, w.list exclude root = .ok files ∧
        w.IsListing root (w.matcher.rules exclude) files ∧
        ∀ pattern, w.matcher.Reads pattern → pattern.toList.head? ≠ some '!' →
          ∃ fewer, w.list (exclude ++ [pattern]) root = .ok fewer ∧ fewer.Sublist files) := by
  refine ⟨⟨fun he hreads => ?_, fun h => list_of_not_reads h root⟩, fun hreads => ?_⟩
  · rw [list_of_reads hreads] at he
    cases he
  · refine ⟨_, list_of_reads hreads root, isListing_listed hm hhonoured hw hroot _,
      fun pattern hpattern hkeeps => ?_⟩
    have hreads' : ∀ p ∈ exclude ++ [pattern], w.matcher.Reads p := by
      intro p hp
      rcases List.mem_append.mp hp with hp | hp
      · exact hreads p hp
      · rwa [List.mem_singleton.mp hp]
    exact ⟨_, list_of_reads hreads' root, listed_sublist hm hhonoured hw hroot exclude hkeeps⟩

end

end Walk

/-! ## Names that are texts -/

namespace FileTree

variable {t : FileTree} {root : String} {exclude paths : List String}

theorem sound_of_mem_node? (h : t.Sound) {node : Node String} (hnode : node ∈ t.node? root) :
    node.Sound := by
  unfold node? at hnode
  cases hl : t.locate root with
  | error e => rw [hl] at hnode; cases hnode
  | ok place =>
    rw [hl] at hnode
    obtain rfl := Option.some.inj hnode
    exact ⟨named_of_locate h.1 hl, distinct_of_locate h.2 hl⟩

theorem exists_isListing (h : t.Sound) (hw : walkFiles t root exclude [] = .ok paths) :
    ∃ files, (t.walk root (.ofNames [])).IsListing (t.node? root)
      ((t.walk root (.ofNames [])).matcher.rules exclude) files ∧
      paths = files.map (pathBelow root) := by
  obtain ⟨files, hlist, rfl⟩ := exists_of_map_eq_ok hw
  refine ⟨files, ?_, rfl⟩
  by_cases hreads : ∀ p ∈ exclude, (t.walk root (.ofNames [])).matcher.Reads p
  · rw [Walk.list_of_reads hreads] at hlist
    obtain rfl := Except.ok.inj hlist
    exact Walk.isListing_listed (lawful_globMatcher _) rfl (fun _ _ => decide_eq_true_iff)
      (fun node hnode => (sound_of_mem_node? h hnode).2) _
  · rw [Walk.list_of_not_reads hreads] at hlist
    cases hlist

/-- **Where names are texts, all paths are listed but those with git's directory in them.** -/
theorem mem_walkFiles_iff (h : t.Sound) (hw : walkFiles t root exclude [] = .ok paths)
    {path : String} :
    path ∈ paths ↔ ∃ names, path = pathBelow root names ∧
      Walk.LeadsToFile (t.node? root) names ∧
      Spares (t.walk root (.ofNames [])).matcher
        ((t.walk root (.ofNames [])).matcher.rules exclude) [] names ∧
      ¬ bytesOf "/.git/" <:+: bytesOf path := by
  obtain ⟨files, hlisting, rfl⟩ := exists_isListing h hw
  have hmem := fun names => hlisting.mem_iff names (.inl ⟨pathBelow root names, rfl⟩)
  rw [List.mem_map]
  constructor
  · rintro ⟨names, hn, rfl⟩
    exact ⟨names, rfl, (hmem names).mp hn⟩
  · rintro ⟨names, rfl, hnames⟩
    exact ⟨names, (hmem names).mpr hnames, rfl⟩

/-- **Paths come one after the other**, step by step from the left. -/
theorem pairwise_walkFiles (h : t.Sound) (hw : walkFiles t root exclude [] = .ok paths) :
    paths.Pairwise Precedes := by
  obtain ⟨files, hlisting, rfl⟩ := exists_isListing h hw
  have hnames : ∀ names ∈ files, ∀ name ∈ names, IsName name.toList := by
    intro names hn
    obtain ⟨node, hnode, content, hfind⟩ := (hlisting.sound names hn).1
    exact Node.isName_of_find? (sound_of_mem_node? h hnode).1 hfind
  exact List.pairwise_map.mpr (hlisting.ascending.imp_of_mem fun hn hn' hlt =>
    precedes_pathBelow root (hnames _ hn) (hnames _ hn') hlt)

end FileTree

/-! ## Names that are bytes -/

namespace Walk

/-- A walk from `/p`, with names of bytes that are written as characters. -/
def byteWalk : Walk (List Char) Rule where
  matcher := globMatcher fun names => ['/'].intercalate names
  honoured := .ofNames []
  rulesIn _ _ _ := []
  before name other := decide (name < other)
  path names := ⟨((['/'].intercalate ("/p".toList :: names)).map fun c =>
    c.toNat.toUInt8).toArray⟩

/-- A project with a directory of what is built, and with names that are no texts. -/
def byteProject : Node (List Char) :=
  .directory [("build".toList, .directory [("a.c".toList, .file .empty)]),
    ("a.c".toList, .file .empty), (['ÿ'], .file .empty),
    (".git".toList, .directory [(['ÿ'], .file .empty)])]

theorem distinct_byteProject : byteProject.Distinct := by
  have hfile : ∀ name : List Char, (Node.directory [(name, .file .empty)]).Distinct := fun name =>
    .directory (List.nodup_singleton name) fun child hc => by
      rw [List.mem_singleton.mp hc]
      exact .file .empty
  refine .directory (by decide) fun child hc => ?_
  simp only [List.mem_cons, List.not_mem_nil, or_false] at hc
  rcases hc with rfl | rfl | rfl | rfl
  exacts [hfile _, .file .empty, .file .empty, hfile _]

theorem isText_byteWalk : ¬ byteWalk.IsText [['ÿ']] := by
  rintro ⟨text, htext⟩
  have hnone : Text.decodeStrict (byteWalk.path [['ÿ']]) = none := by decide +kernel
  rw [Text.decodeStrict_eq_some_iff.mpr htext] at hnone
  cases hnone

/-- The file in `build` is kept by the second pattern, but the directory is not. -/
theorem list_isListing_byteProject :
    let exclude := ["build", "!a.c"]
    (∀ p ∈ exclude, byteWalk.matcher.Reads p) ∧ byteWalk.matcher.Reads "*.o" ∧
      ∃ files, byteWalk.list exclude (some byteProject) = .ok files ∧
        byteWalk.IsListing (some byteProject) (byteWalk.matcher.rules exclude) files ∧
        [['ÿ']] ∈ files ∧ ¬ byteWalk.IsText [['ÿ']] ∧ ["build".toList, "a.c".toList] ∉ files ∧
        ∃ fewer, byteWalk.list (exclude ++ ["*.o"]) (some byteProject) = .ok fewer ∧
          fewer.Sublist files := by
  intro exclude
  have hreads : ∀ p ∈ exclude, byteWalk.matcher.Reads p := by decide +kernel
  have hobjects : byteWalk.matcher.Reads "*.o" := by decide +kernel
  obtain ⟨-, hlists⟩ := byteWalk.list_isListing (lawful_globMatcher _) rfl
    (fun _ _ => decide_eq_true_iff) (some byteProject)
    (fun node hnode => Option.some.inj hnode ▸ distinct_byteProject) exclude
  obtain ⟨files, hlist, hlisting, hfewer⟩ := hlists hreads
  have hgit : ¬ byteWalk.LeadsThroughGit [['ÿ']] := by
    unfold LeadsThroughGit
    decide +kernel
  have hspares : Spares byteWalk.matcher (byteWalk.matcher.rules exclude) [] [['ÿ']] := by
    decide +kernel
  have hbuild : ¬ Spares byteWalk.matcher (byteWalk.matcher.rules exclude) []
      ["build".toList, "a.c".toList] := by decide +kernel
  refine ⟨hreads, hobjects, files, hlist, hlisting, ?_, isText_byteWalk,
    fun hn => hbuild (hlisting.sound _ hn).2, hfewer "*.o" hobjects (by decide)⟩
  exact (hlisting.mem_iff _ (.inr hgit)).mpr ⟨⟨_, rfl, .empty, rfl⟩, hspares, hgit⟩

/-- A root that is a file is in its own list, and a file of git's own whose path is no text is in
the list as well. -/
theorem list_not_filtersBelow :
    byteWalk.list [] (some (.file .empty)) = .ok [[]] ∧
      ¬ byteWalk.FiltersBelow (some (.file .empty)) [] [[]] ∧
    ∃ files, byteWalk.list [] (some byteProject) = .ok files ∧
      [".git".toList, ['ÿ']] ∈ files ∧ ¬ byteWalk.FiltersBelow (some byteProject) [] files := by
  have hreads : ∀ p ∈ ([] : List String), byteWalk.matcher.Reads p :=
    fun p hp => absurd hp List.not_mem_nil
  have hgits : byteWalk.isGits [] = false := by decide +kernel
  have hroot : byteWalk.list [] (some (.file .empty)) = .ok [[]] := by
    rw [list_of_reads hreads]
    simp [found, listed, hgits]
  have hdistinct : ∀ node ∈ some byteProject, node.Distinct := fun node hnode =>
    Option.some.inj hnode ▸ distinct_byteProject
  have hgit : byteWalk.LeadsThroughGit [".git".toList, ['ÿ']] := by
    unfold LeadsThroughGit
    decide +kernel
  have hmem : [".git".toList, ['ÿ']] ∈
      byteWalk.listed ((some byteProject).elim [] (byteWalk.found [])) :=
    (mem_listed_found_iff (lawful_globMatcher _) rfl hdistinct []).mpr
      ⟨⟨⟨_, rfl, .empty, rfl⟩, by decide +kernel⟩, by decide +kernel⟩
  exact ⟨hroot, fun h => ((h []).mp List.mem_cons_self).1 rfl, _, list_of_reads hreads _, hmem,
    fun h => ((h _).mp hmem).2.2.2 hgit⟩

end Walk

end SymbolIndex
