import SymbolIndex.Proofs.Exclusion.Verdicts
import SymbolIndex.Proofs.FileTree.Growth
import SymbolIndex.Proofs.Outcomes
import SymbolIndex.Proofs.Path.Below

/-!
# What a walk comes across

A walk goes down from a directory, so that every path it comes back with is that of the directory
with some names behind it. They are names in the tree, and what they lead to is below the directory.

* `Node.Named`, `FileTree.Named`: trees all of whose names are names;
* `Node.find?_keeps`, `FileTree.named_of_locate`: what a path leads to is such a tree again;
* `Walk.list_of_reads`, `Walk.mem_listed`: what is listed of what has been found;
* `Walk.names_of_mem_collect`, `Walk.names_of_mem_found`: what a walk finds;
* `IsBelow`, `isBelow_of_mem_walkFiles`: the paths that it comes back with.
-/

namespace SymbolIndex

open SymbolIndex.Path

/-! ## Names in trees -/

/-- All names below are such as something in a directory may have. -/
inductive Node.Named : Node String → Prop
  | file (content : ByteArray) : Named (.file content)
  | link (target : String) : Named (.link target)
  | directory {children : List (String × Node String)} (hnames : ∀ child ∈ children, IsName child.1.toList)
    (h : ∀ child ∈ children, Named child.2) : Named (.directory children)

/-- All names in the tree are such as something in a directory may have. -/
def FileTree.Named (t : FileTree) : Prop := (Node.directory t.children).Named

theorem Node.Named.children {children : List (String × Node String)}
    (h : (Node.directory children).Named) :
    ∀ child ∈ children, IsName child.1.toList ∧ child.2.Named := by
  cases h with
  | directory hnames h => exact fun child hc => ⟨hnames child hc, h child hc⟩

/-- What holds of a node, and with a directory of all that is in it, holds of what names lead to. -/
theorem Node.find?_keeps {N : Type} [BEq N] [LawfulBEq N] {P : Node N → Prop}
    (hP : ∀ children, P (.directory children) → ∀ child ∈ children, P child.2) {node found : Node N}
    (h : P node) {names : List N} (hf : node.find? names = some found) : P found := by
  induction names generalizing node with
  | nil => rwa [← Option.some.inj hf]
  | cons name names ih =>
    cases node with
    | file content => cases hf
    | link target => cases hf
    | directory children =>
      obtain ⟨child, hchild, hfound⟩ := Option.bind_eq_some_iff.mp hf
      obtain ⟨before, behind, rfl, -⟩ := List.lookup_eq_some_iff.mp hchild
      exact ih (hP _ h _ (List.mem_append_right _ List.mem_cons_self)) hfound

theorem Node.isName_of_find? {node found : Node String} (h : node.Named) {names : List String}
    (hf : node.find? names = some found) : ∀ name ∈ names, IsName name.toList := by
  induction names generalizing node with
  | nil => exact nofun
  | cons name names ih =>
    cases node with
    | file content => cases hf
    | link target => cases hf
    | directory children =>
      obtain ⟨child, hchild, hfound⟩ := Option.bind_eq_some_iff.mp hf
      obtain ⟨before, behind, rfl, -⟩ := List.lookup_eq_some_iff.mp hchild
      have hnamed := h.children _ (List.mem_append_right _ List.mem_cons_self)
      intro name' hn
      rcases List.mem_cons.mp hn with rfl | hn
      · exact hnamed.1
      · exact ih hnamed.2 hfound name' hn

namespace FileTree

variable {t : FileTree}

theorem find?_of_locate {path : String} {names : List String} {node : Node String}
    (hl : t.locate path = .ok (names, node)) : t.find? names = some node := by
  unfold locate at hl
  cases hp : t.place path true with
  | error e => rw [hp] at hl; cases hl
  | ok p =>
    rw [hp] at hl
    cases p with
    | missing directory name => cases hl
    | found names' node' =>
      obtain ⟨rfl, rfl⟩ := Prod.mk.inj (Except.ok.inj hl)
      exact fits_of_place hp

theorem named_of_locate (h : t.Named) {path : String} {names : List String} {node : Node String}
    (hl : t.locate path = .ok (names, node)) : node.Named :=
  Node.find?_keeps (fun _ hd child hc => (hd.children child hc).2) h (find?_of_locate hl)

end FileTree

/-! ## Walks -/

namespace Walk

section

variable {N R : Type} {w : Walk N R}

theorem list_of_reads {exclude : List String} (h : ∀ p ∈ exclude, w.matcher.Reads p)
    (root : Option (Node N)) :
    w.list exclude root = .ok (w.listed (root.elim [] (w.found (w.matcher.rules exclude)))) := by
  rw [list, Matcher.rulesOf_of_reads h]
  rfl

theorem list_of_not_reads {exclude : List String} (h : ¬ ∀ p ∈ exclude, w.matcher.Reads p)
    (root : Option (Node N)) : w.list exclude root = .error .ignore := by
  rw [list, Matcher.rulesOf_of_not_reads h]
  rfl

theorem mem_listed {found : List (List N)} {names : List N} :
    names ∈ w.listed found ↔ names ∈ found ∧ w.isGits names = false := by
  rw [listed, List.mem_mergeSort, List.mem_filter, Bool.not_eq_true']

theorem mem_of_list {exclude : List String} {root : Option (Node N)} {files : List (List N)}
    (h : w.list exclude root = .ok files) {names : List N} (hn : names ∈ files) :
    names ∈ root.elim [] (w.found (w.matcher.rules exclude)) := by
  by_cases hexclude : ∀ p ∈ exclude, w.matcher.Reads p
  · rw [list_of_reads hexclude] at h
    obtain rfl := Except.ok.inj h
    exact (mem_listed.mp hn).1
  · rw [list_of_not_reads hexclude] at h
    cases h

end

variable {R : Type}

/-- **A walk collects lists of names**, each behind the names that have led to where it is. -/
theorem names_of_mem_collect (w : Walk String R) (exclude : List R) :
    ∀ (children : List (String × Node String)) (levels : List (Level String R))
      (steps : List String), (∀ child ∈ children, IsName child.1.toList ∧ child.2.Named) →
      (∀ step ∈ steps, IsName step.toList) →
      ∀ names ∈ w.collect exclude levels steps children,
        names ≠ [] ∧ ∀ name ∈ names, IsName name.toList
  | [], _, _, _, _ => fun names hn => by
    rw [collect] at hn
    cases hn
  | (name, node) :: rest, levels, steps, h, hsteps => fun names hn => by
    obtain ⟨hname, hnode⟩ := h _ List.mem_cons_self
    have hnext : ∀ step ∈ steps ++ [name], IsName step.toList := by
      intro step hs
      rcases List.mem_append.mp hs with hs | hs
      · exact hsteps step hs
      · rwa [List.mem_singleton.mp hs]
    unfold collect at hn
    rcases List.mem_append.mp hn with hn | hn
    · cases node with
      | file content =>
        dsimp only at hn
        split_ifs at hn
        · cases hn
        · rw [List.mem_singleton.mp hn]
          exact ⟨by simp, hnext⟩
      | directory children =>
        dsimp only at hn
        split_ifs at hn
        · cases hn
        · exact names_of_mem_collect w exclude children _ _ hnode.children hnext names hn
      | link target => cases hn
    · exact names_of_mem_collect w exclude rest levels steps
        (fun child hc => h child (List.mem_cons_of_mem _ hc)) hsteps names hn

theorem names_of_mem_found (w : Walk String R) (exclude : List R) {node : Node String}
    (h : node.Named) :
    ∀ names ∈ w.found exclude node,
      ((∀ content, node ≠ .file content) → names ≠ []) ∧ ∀ name ∈ names, IsName name.toList := by
  intro names hn
  cases node with
  | file content =>
    rw [List.mem_singleton.mp hn]
    exact ⟨fun hfile => absurd rfl (hfile content), nofun⟩
  | link target => cases hn
  | directory children =>
    have hnames := names_of_mem_collect w exclude children _ [] h.children nofun names hn
    exact ⟨fun _ => hnames.1, hnames.2⟩

end Walk

/-- The path is that of a directory with some names behind it. -/
def IsBelow (root path : String) : Prop :=
  ∃ names, names ≠ [] ∧ (∀ name ∈ names, IsName name.toList) ∧ path = pathBelow root names

theorem IsBelow.entryPath_ne {root path : String} (h : IsBelow root path) :
    entryPath path root ≠ "" := by
  obtain ⟨names, hne, hnames, rfl⟩ := h
  rw [entryPath_pathBelow root hne hnames]
  intro hnil
  have hsteps := components_pathText hnames
  rw [hnil] at hsteps
  exact hne (List.map_eq_nil_iff.mp hsteps.symm)

/-- **A walk comes back with paths below the directory** that it has started from. -/
theorem isBelow_of_mem_walkFiles {files : FileTree} (h : files.Named) {root : String}
    (hroot : files.isFile root = false) {exclude excludeFiles paths : List String}
    (hw : walkFiles files root exclude excludeFiles = .ok paths) :
    ∀ path ∈ paths, IsBelow root path := by
  intro path hp
  obtain ⟨listed, hlist, rfl⟩ := exists_of_map_eq_ok hw
  obtain ⟨names, hn, rfl⟩ := List.mem_map.mp hp
  have hfound := Walk.mem_of_list hlist hn
  unfold FileTree.node? at hfound
  cases hl : files.locate root with
  | error e => rw [hl] at hfound; cases hfound
  | ok place =>
    rw [hl] at hfound
    obtain ⟨start, node⟩ := place
    obtain ⟨hne, hnames⟩ :=
      Walk.names_of_mem_found _ _ (FileTree.named_of_locate h hl) names hfound
    refine ⟨names, hne fun content hnode => ?_, hnames, rfl⟩
    rw [FileTree.isFile, hl, hnode] at hroot
    cases hroot

end SymbolIndex
