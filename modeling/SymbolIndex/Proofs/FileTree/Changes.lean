import SymbolIndex.Proofs.FileTree.Pruning

/-!
# What all changes keep

Trees begin empty and are changed by paths. However they have come about, their names are such as
something in a directory may have, and no directory has two children of one name.

* `Node.Sound`, `FileTree.Sound`: such trees;
* `FileTree.sound_put`: putting something where names lead;
* `FileTree.names_of_place`: where paths lead;
* `FileTree.Change`, `FileTree.sound_of_changes`: changes one after the other;
* `FileTree.Made`, `FileTree.Made.sound`: all trees that come about.
-/

namespace SymbolIndex

open SymbolIndex.Path

/-! ## Putting something where names lead -/

/-- All names below are names, and no directory has two children of one. -/
def Node.Sound (node : Node String) : Prop := node.Named ∧ node.Distinct

/-- All names in the tree are names, and no directory has two children of one. -/
def FileTree.Sound (t : FileTree) : Prop := (Node.directory t.children).Sound

namespace Node

theorem sound_directory_iff {children : List (String × Node String)} :
    (directory children).Sound ↔
      ((∀ name ∈ children.map (·.1), IsName name.toList) ∧ (children.map (·.1)).Nodup) ∧
        ∀ child ∈ children, child.2.Sound := by
  constructor
  · rintro ⟨hnamed, hdistinct⟩
    refine ⟨⟨fun name hname => ?_, hdistinct.children.1⟩, fun child hc => ?_⟩
    · obtain ⟨child, hc, rfl⟩ := List.mem_map.mp hname
      exact (hnamed.children child hc).1
    · exact ⟨(hnamed.children child hc).2, hdistinct.children.2 child hc⟩
  · rintro ⟨⟨hnames, hdistinct⟩, hchildren⟩
    exact ⟨.directory (fun child hc => hnames child.1 (List.mem_map_of_mem hc))
      fun child hc => (hchildren child hc).1, .directory hdistinct fun child hc =>
      (hchildren child hc).2⟩

/-- There is nothing below. -/
def IsBare : Node String → Prop
  | file _ | link _ | directory [] => True
  | directory (_ :: _) => False

theorem IsBare.sound {node : Node String} (h : node.IsBare) : node.Sound :=
  match node, h with
  | file content, _ => ⟨.file content, .file content⟩
  | link target, _ => ⟨.link target, .link target⟩
  | directory [], _ => sound_directory_iff.mpr ⟨⟨nofun, List.nodup_nil⟩, nofun⟩

end Node

theorem names_map_setChild (name : String) (node : Node String)
    (children : List (String × Node String)) :
    (children.map fun child => if child.1 == name then (name, node) else child).map (·.1) =
      children.map (·.1) := by
  rw [List.map_map]
  refine List.map_congr_left fun child _ => ?_
  by_cases h : child.1 = name <;> simp [h]

theorem sound_setChild {name : String} (hname : IsName name.toList) {node : Option (Node String)}
    (hnode : ∀ n ∈ node, n.Sound) {children : List (String × Node String)}
    (h : (Node.directory children).Sound) :
    (Node.directory (setChild name node children)).Sound := by
  rw [Node.sound_directory_iff] at h ⊢
  obtain ⟨⟨hnames, hdistinct⟩, hchildren⟩ := h
  cases node with
  | none =>
    have hsub : (setChild name none children).Sublist children := List.filter_sublist
    have hsubnames := hsub.map (·.1)
    exact ⟨⟨fun name' h => hnames name' (hsubnames.subset h), hdistinct.sublist hsubnames⟩,
      fun child hc => hchildren child (hsub.subset hc)⟩
  | some node =>
    have hnode := hnode node rfl
    rw [setChild]
    split_ifs with hany
    · rw [names_map_setChild]
      refine ⟨⟨hnames, hdistinct⟩, fun child hc => ?_⟩
      obtain ⟨old, hold, rfl⟩ := List.mem_map.mp hc
      split_ifs
      · exact hnode
      · exact hchildren old hold
    · have hnew : name ∉ children.map (·.1) := by simpa using hany
      rw [List.map_append, List.map_singleton, ← List.concat_eq_append]
      refine ⟨⟨fun name' h => ?_, hdistinct.concat hnew⟩, fun child hc => ?_⟩
      · rw [List.concat_eq_append, List.mem_append] at h
        rcases h with h | h
        · exact hnames name' h
        · rwa [List.mem_singleton.mp h]
      · rcases List.mem_append.mp hc with hc | hc
        · exact hchildren child hc
        · rw [List.mem_singleton.mp hc]
          exact hnode

theorem sound_putChildren {node : Option (Node String)} (hnode : ∀ n ∈ node, n.Sound)
    (names : List String)
    (hnames : ∀ name ∈ names, IsName name.toList) {children : List (String × Node String)}
    (h : (Node.directory children).Sound) :
    (Node.directory (putChildren node names children)).Sound := by
  induction names generalizing children with
  | nil => exact h
  | cons name names ih =>
    have hname := hnames name List.mem_cons_self
    cases names with
    | nil => exact sound_setChild hname hnode h
    | cons next names =>
      rw [putChildren]
      · split
        · next inner hinner =>
          have hsound : (Node.directory inner).Sound :=
            (Node.sound_directory_iff.mp h).2 (name, .directory inner)
              ((lookup_eq_some_iff h.2.children.1).mp hinner)
          refine sound_setChild hname (fun n hn => ?_) h
          obtain rfl := Option.some.inj hn
          exact ih (fun name' hn' => hnames name' (List.mem_cons_of_mem _ hn')) hsound
        · exact h
      · simp

namespace FileTree

variable {t t' : FileTree}

theorem sound_empty : empty.Sound :=
  have hbare : (Node.directory []).IsBare := trivial
  hbare.sound

/-- **Putting something sound where names lead** leaves a tree sound. -/
theorem sound_put (h : t.Sound) {names : List String} (hnames : ∀ name ∈ names, IsName name.toList)
    {node : Option (Node String)} (hnode : ∀ n ∈ node, n.Sound) : (t.put names node).Sound :=
  sound_putChildren hnode names hnames h

/-! ## Where paths lead -/

theorem isName_of_piece {piece : String} (hpiece : '/' ∉ piece.toList)
    (hdot : ¬ (piece = "" ∨ piece = ".")) (hup : piece ≠ "..") : IsName piece.toList where
  ne_nil h := hdot (.inl (String.toList_inj.mp h))
  unbroken := hpiece
  ne_current h := hdot (.inr (String.toList_inj.mp h))
  ne_parent h := hup (String.toList_inj.mp h)

theorem names_concat_piece {here : List String} (hhere : ∀ name ∈ here, IsName name.toList)
    {piece : String} (hpiece : '/' ∉ piece.toList) (hdot : ¬ (piece = "" ∨ piece = "."))
    (hup : piece ≠ "..") : ∀ name ∈ here ++ [piece], IsName name.toList := by
  intro name hname
  rcases List.mem_append.mp hname with hname | hname
  · exact hhere name hname
  · rw [List.mem_singleton.mp hname]
    exact isName_of_piece hpiece hdot hup

theorem unbroken_of_mem_pathPieces {path piece : String} (h : piece ∈ pathPieces path) :
    '/' ∉ piece.toList := by
  obtain ⟨part, hpart, rfl⟩ := List.mem_map.mp h
  rw [String.toList_ofList]
  intro hslash
  simpa using Text.uncut_of_mem_splitAt hpart _ hslash

/-- **What a path leads to has names.** -/
theorem names_of_follow {last : Bool} {links : ℕ} {here pieces : List String} {place : Place}
    (hhere : ∀ name ∈ here, IsName name.toList) (hpieces : ∀ piece ∈ pieces, '/' ∉ piece.toList)
    (h : t.follow last links here pieces = .ok place) :
    ∀ name ∈ place.names, IsName name.toList := by
  fun_induction t.follow last links here pieces with
  | case1 links here node hnode =>
    obtain rfl := Except.ok.inj h
    exact hhere
  | case4 links here piece pieces children hchildren hdot ih =>
    exact ih hhere (fun p hp => hpieces p (List.mem_cons_of_mem _ hp)) h
  | case5 links here pieces children hchildren hdot ih =>
    exact ih (fun name hn => hhere name (List.dropLast_subset _ hn))
      (fun p hp => hpieces p (List.mem_cons_of_mem _ hp)) h
  | case6 links here piece pieces children hchildren hdot hup hnone hlast =>
    obtain rfl := Except.ok.inj h
    exact names_concat_piece hhere (hpieces piece List.mem_cons_self) hdot hup
  | case8 links here piece pieces children hchildren hdot hup target hlink hlast =>
    obtain rfl := Except.ok.inj h
    exact names_concat_piece hhere (hpieces piece List.mem_cons_self) hdot hup
  | case10 here piece pieces children hchildren hdot hup target hlink hlast links start ih =>
    refine ih (fun name hn => ?_) (fun p hp => ?_) h
    · rcases Decidable.em (target.toList.head? = some '/') with hroot | hroot
      · rw [show start = [] from if_pos hroot] at hn
        cases hn
      · rw [show start = here from if_neg hroot] at hn
        exact hhere name hn
    · rcases List.mem_append.mp hp with hp | hp
      · exact unbroken_of_mem_pathPieces hp
      · exact hpieces p (List.mem_cons_of_mem _ hp)
  | case11 links here piece pieces children hchildren hdot hup child hnolink hchild ih =>
    exact ih (names_concat_piece hhere (hpieces piece List.mem_cons_self) hdot hup)
      (fun p hp => hpieces p (List.mem_cons_of_mem _ hp)) h
  | _ => cases h

theorem names_of_place {path : String} {last : Bool} {place : Place}
    (h : t.place path last = .ok place) : ∀ name ∈ place.names, IsName name.toList := by
  unfold FileTree.place at h
  split_ifs at h
  exact names_of_follow (fun _ hn => (List.not_mem_nil hn).elim)
    (fun _ => unbroken_of_mem_pathPieces) h

/-! ## Changes -/

/-- Something with nothing below, or nothing, is put where a path leads. -/
inductive Change (t : FileTree) : FileTree → Prop
  | put {path : String} {last : Bool} {place : Place} (h : t.place path last = .ok place)
    {node : Option (Node String)} (hnode : ∀ n ∈ node, n.IsBare) : Change t (t.put place.names node)

theorem Change.put_some {path : String} {last : Bool} {place : Place}
    (h : t.place path last = .ok place) {node : Node String} (hnode : node.IsBare) :
    Change t (t.put place.names (some node)) :=
  .put h fun n hn => by rwa [← Option.some.inj hn]

theorem Change.sound (hc : Change t t') (h : t.Sound) : t'.Sound := by
  cases hc with
  | put hplace hnode => exact sound_put h (names_of_place hplace) fun n hn => (hnode n hn).sound

theorem sound_of_changes (h : t.Sound) (hc : Relation.ReflTransGen Change t t') : t'.Sound := by
  induction hc with
  | refl => exact h
  | tail _ hc ih => exact hc.sound ih

theorem change_write {path : String} {content : ByteArray} (h : t.write path content = .ok t') :
    Change t t' := by
  obtain ⟨p, hp, -, rfl⟩ := write_ok h
  exact .put_some hp trivial

theorem change_makeDirectory {path : String} (h : t.makeDirectory path = .ok t') : Change t t' := by
  obtain ⟨directory, name, hp, rfl⟩ := makeDirectory_ok h
  exact .put_some hp trivial

theorem changes_makeDirectories {path : String} (h : t.makeDirectories path = .ok t') :
    Relation.ReflTransGen Change t t' :=
  Relation.ReflTransGen.mono (fun _ _ ⟨_, hmade⟩ => change_makeDirectory hmade) _ _
    (addsDirectories_makeDirectoriesFrom h)

theorem change_makeLink {path target : String} (h : t.makeLink path target = .ok t') :
    Change t t' := by
  obtain ⟨directory, name, hp, rfl⟩ := makeLink_ok h
  exact .put_some hp trivial

theorem change_remove {path : String} (h : t.remove path = .ok t') : Change t t' := by
  obtain ⟨names, node, hp, rfl⟩ := remove_ok h
  exact .put hp nofun

/-- The tree has come about from no files at all. -/
inductive Made : FileTree → Prop
  | empty : Made empty
  | write {t t' : FileTree} {path : String} {content : ByteArray} (ht : Made t)
    (h : t.write path content = .ok t') : Made t'
  | makeDirectory {t t' : FileTree} {path : String} (ht : Made t)
    (h : t.makeDirectory path = .ok t') : Made t'
  | makeDirectories {t t' : FileTree} {path : String} (ht : Made t)
    (h : t.makeDirectories path = .ok t') : Made t'
  | makeLink {t t' : FileTree} {path target : String} (ht : Made t)
    (h : t.makeLink path target = .ok t') : Made t'
  | remove {t t' : FileTree} {path : String} (ht : Made t) (h : t.remove path = .ok t') : Made t'

/-- **All trees that come about are sound.** -/
theorem Made.sound (h : Made t) : t.Sound := by
  induction h with
  | empty => exact sound_empty
  | write _ h ih => exact (change_write h).sound ih
  | makeDirectory _ h ih => exact (change_makeDirectory h).sound ih
  | makeDirectories _ h ih => exact sound_of_changes ih (changes_makeDirectories h)
  | makeLink _ h ih => exact (change_makeLink h).sound ih
  | remove _ h ih => exact (change_remove h).sound ih

end FileTree

end SymbolIndex
