import Mathlib.Data.List.Basic
import Mathlib.Logic.Relation
import SymbolIndex.FileTree.Basic
import SymbolIndex.Proofs.Outcomes

/-!
# Files that stay where they are

Whatever is made or written in a file tree, what a path leads to afterwards is of the same sort as
before.

* `Node.Grows`, `FileTree.Grows`: files stay files, directories keep their names and links their
  targets;
* `FileTree.grows_put`: putting something in the place of a file, or of nothing;
* `FileTree.write_ok`, `FileTree.makeDirectory_ok`, `FileTree.makeLink_ok`, `FileTree.remove_ok`:
  what each change does to a tree;
* `FileTree.grows_write`, `FileTree.grows_makeDirectories`: those that let it grow;
* `FileTree.isFile_of_grows`: a path that leads to a file goes on leading to one.
-/

namespace SymbolIndex

namespace Node

/-- Two nodes are files, or directories, or links with one target. -/
def Alike : Node String → Node String → Prop
  | .file _, .file _ => True
  | .directory _, .directory _ => True
  | .link target, .link target' => target = target'
  | _, _ => False

/-- Everything below one node is also below the other. -/
def Grows (node node' : Node String) : Prop :=
  ∀ names found, node.find? names = some found →
    ∃ found', node'.find? names = some found' ∧ found.Alike found'

theorem Alike.refl (node : Node String) : node.Alike node := by
  cases node <;> simp [Alike]

theorem Alike.trans {a b c : Node String} (h : a.Alike b) (h' : b.Alike c) : a.Alike c := by
  cases a <;> cases b <;> cases c <;> simp_all [Alike]

theorem Grows.refl (node : Node String) : node.Grows node := fun _ found h =>
    ⟨found, h, .refl found⟩

theorem Grows.trans {a b c : Node String} (h : a.Grows b) (h' : b.Grows c) : a.Grows c := by
  intro names found hf
  obtain ⟨found', hf', hlike⟩ := h names found hf
  obtain ⟨found'', hf'', hlike'⟩ := h' names found' hf'
  exact ⟨found'', hf'', hlike.trans hlike'⟩

theorem grows_file (content content' : ByteArray) : (file content).Grows (file content') := by
  intro names found h
  cases names with
  | nil =>
    obtain rfl := Option.some.inj h
    exact ⟨_, rfl, trivial⟩
  | cons name names => cases h

theorem find?_append (node : Node String) (names more : List String) :
    node.find? (names ++ more) = (node.find? names).bind (find? more) := by
  induction names generalizing node with
  | nil => rfl
  | cons name names ih =>
    cases node with
    | file content => rfl
    | link target => rfl
    | directory children =>
      rw [List.cons_append, find?, find?]
      cases children.lookup name with
      | none => rfl
      | some child => exact ih child

theorem find?_concat {node : Node String} {names : List String}
    {children : List (String × Node String)}
    (h : node.find? names = some (.directory children)) (name : String) :
    node.find? (names ++ [name]) = children.lookup name := by
  rw [find?_append, h]
  cases hc : children.lookup name <;> simp [find?, hc]

theorem grows_directory {children children' : List (String × Node String)}
    (h : ∀ name child, children.lookup name = some child →
      ∃ child', children'.lookup name = some child' ∧ child.Grows child') :
    (directory children).Grows (directory children') := by
  intro names found hf
  cases names with
  | nil =>
    obtain rfl := Option.some.inj hf
    exact ⟨_, rfl, trivial⟩
  | cons name names =>
    rw [find?] at hf
    obtain ⟨child, hc, hf⟩ := Option.bind_eq_some_iff.mp hf
    obtain ⟨child', hc', hg⟩ := h name child hc
    obtain ⟨found', hf', hlike⟩ := hg names found hf
    exact ⟨found', by rw [find?, hc']; exact hf', hlike⟩

end Node

/-! ## Putting something where a file or nothing is -/

theorem lookup_cons_eq {β : Type} (key k : String) (v : β) (rest : List (String × β)) :
    ((k, v) :: rest).lookup key = if key = k then some v else rest.lookup key := by
  by_cases h : key = k
  · simp [h]
  · rw [if_neg h, List.lookup_cons, beq_eq_false_iff_ne.mpr h]

theorem lookup_map_setChild (name : String) (node : Node String)
    (children : List (String × Node String))
    (other : String) :
    (children.map fun child => if child.1 == name then (name, node) else child).lookup other =
      if other = name ∧ children.any (·.1 == name) = true then some node
      else children.lookup other := by
  induction children with
  | nil => simp
  | cons child children ih =>
    obtain ⟨k, v⟩ := child
    rw [List.map_cons, List.any_cons]
    by_cases hk : k = name
    · rw [if_pos (beq_iff_eq.mpr hk), lookup_cons_eq, lookup_cons_eq, ih]
      by_cases ho : other = name <;> simp [ho, hk]
    · rw [if_neg (mt beq_iff_eq.mp hk), lookup_cons_eq, lookup_cons_eq, ih]
      rw [beq_eq_false_iff_ne.mpr hk, Bool.false_or]
      by_cases ho : other = name
      · simp [ho, Ne.symm hk]
      · simp [ho]

theorem lookup_concat {name : String} {children : List (String × Node String)}
    (h : children.any (·.1 == name) = false) (node : Node String) (other : String) :
    (children ++ [(name, node)]).lookup other =
      if other = name then some node else children.lookup other := by
  induction children with
  | nil => exact lookup_cons_eq other name node []
  | cons child children ih =>
    obtain ⟨k, v⟩ := child
    rw [List.any_cons, Bool.or_eq_false_iff, beq_eq_false_iff_ne] at h
    rw [List.cons_append, lookup_cons_eq, lookup_cons_eq, ih h.2]
    by_cases ho : other = k
    · rw [if_pos ho, if_pos ho, if_neg fun hn => h.1 (ho.symm.trans hn)]
    · rw [if_neg ho, if_neg ho]

theorem lookup_setChild (name : String) (node : Node String)
    (children : List (String × Node String))
    (other : String) :
    (setChild name (some node) children).lookup other =
      if other = name then some node else children.lookup other := by
  cases hany : children.any (·.1 == name) with
  | true =>
    have hset : setChild name (some node) children =
        children.map fun child => if child.1 == name then (name, node) else child := if_pos hany
    rw [hset, lookup_map_setChild, hany]
    simp
  | false =>
    have hset : setChild name (some node) children = children ++ [(name, node)] :=
      if_neg (by rw [hany]; decide)
    rw [hset, lookup_concat hany]

theorem grows_setChild {name : String} {node : Node String} {children : List (String × Node String)}
    (h : ∀ old, children.lookup name = some old → old.Grows node) :
    (Node.directory children).Grows (.directory (setChild name (some node) children)) := by
  refine Node.grows_directory fun other old ho => ?_
  rw [lookup_setChild]
  by_cases he : other = name
  · exact ⟨node, if_pos he, h old (he ▸ ho)⟩
  · exact ⟨old, by rw [if_neg he, ho], .refl old⟩

theorem grows_putChildren {node : Node String} (names : List String)
    {children : List (String × Node String)}
    (h : ∀ old, (Node.directory children).find? names = some old → old.Grows node) :
    (Node.directory children).Grows (.directory (putChildren (some node) names children)) := by
  induction names generalizing children with
  | nil => exact .refl _
  | cons name names ih =>
    cases names with
    | nil =>
      refine grows_setChild fun old ho => h old ?_
      rw [Node.find?, ho]
      rfl
    | cons next names =>
      rw [putChildren]
      · cases hc : children.lookup name with
        | none => exact .refl _
        | some child =>
          cases child with
          | file content => exact .refl _
          | link target => exact .refl _
          | directory inner =>
            refine grows_setChild fun old ho => ?_
            obtain rfl := Option.some.inj (hc.symm.trans ho)
            refine ih fun old ho => h old ?_
            rw [Node.find?, hc]
            exact ho
      · simp

namespace FileTree

/-- Everything that is in one tree is also in the other. -/
def Grows (t t' : FileTree) : Prop := (Node.directory t.children).Grows (.directory t'.children)

theorem Grows.refl (t : FileTree) : t.Grows t := Node.Grows.refl _

theorem Grows.trans {t t' t'' : FileTree} (h : t.Grows t') (h' : t'.Grows t'') : t.Grows t'' :=
  Node.Grows.trans h h'

/-- **Putting something in the place of a file or of nothing leaves everything else as it is.** -/
theorem grows_put {t : FileTree} {names : List String} {node : Node String}
    (h : ∀ old, t.find? names = some old → old.Grows node) : t.Grows (t.put names (some node)) :=
  grows_putChildren names h

/-! ## Where paths lead -/

/-- What a path is said to lead to is there, or is not there but could be. -/
def Fits (t : FileTree) : Place → Prop
  | .found names node => t.find? names = some node
  | .missing directory name =>
    ∃ children, t.find? directory = some (.directory children) ∧ children.lookup name = none

variable {t t' : FileTree}

theorem fits_of_follow {last : Bool} {links : ℕ} {here pieces : List String} {place : Place}
    (h : t.follow last links here pieces = .ok place) : t.Fits place := by
  fun_induction t.follow last links here pieces with
  | case1 links here node hnode =>
    obtain rfl := Except.ok.inj h
    exact hnode
  | case4 _ _ _ _ _ _ _ ih => exact ih h
  | case5 _ _ _ _ _ _ ih => exact ih h
  | case6 links here piece pieces children hhere _ _ hnone _ =>
    obtain rfl := Except.ok.inj h
    exact ⟨children, hhere, hnone⟩
  | case8 links here piece pieces children hhere _ _ target hlink _ =>
    obtain rfl := Except.ok.inj h
    exact (Node.find?_concat hhere piece).trans hlink
  | case10 _ _ _ _ _ _ _ _ _ _ _ _ ih => exact ih h
  | case11 _ _ _ _ _ _ _ _ _ _ _ ih => exact ih h
  | _ => cases h

theorem exists_directory_of_grows (hg : t.Grows t') {here : List String}
    {children : List (String × Node String)} (h : t.find? here = some (.directory children)) :
    ∃ children', t'.find? here = some (.directory children') ∧
      ∀ piece child, children.lookup piece = some child →
        ∃ child', children'.lookup piece = some child' ∧ child.Alike child' := by
  obtain ⟨found, hfound, hlike⟩ := hg here _ h
  cases found with
  | file content => exact hlike.elim
  | link target => exact hlike.elim
  | directory children' =>
    refine ⟨children', hfound, fun piece child hc => ?_⟩
    obtain ⟨child', hc', hlike'⟩ := hg (here ++ [piece]) child ((Node.find?_concat h piece).trans hc)
    exact ⟨child', (Node.find?_concat hfound piece).symm.trans hc', hlike'⟩

/-- **A path that leads to something goes on doing so**, and to something of the same sort. -/
theorem follow_of_grows (hg : t.Grows t') {last : Bool} {links : ℕ}
    {here pieces names : List String}
    {node : Node String} (h : t.follow last links here pieces = .ok (.found names node)) :
    ∃ node', t'.follow last links here pieces = .ok (.found names node') ∧ node.Alike node' := by
  fun_induction t.follow last links here pieces with
  | case1 links here found hfound =>
    obtain ⟨rfl, rfl⟩ := Place.found.inj (Except.ok.inj h)
    obtain ⟨node', hnode', hlike⟩ := hg here found hfound
    exact ⟨node', by rw [follow, show t'.find? here = some node' from hnode'], hlike⟩
  | case4 links here piece pieces children hhere hdot ih =>
    obtain ⟨children', hhere', -⟩ := exists_directory_of_grows hg hhere
    rw [follow, hhere']
    simp only [if_pos hdot]
    exact ih h
  | case5 links here pieces children hhere hdot ih =>
    obtain ⟨children', hhere', -⟩ := exists_directory_of_grows hg hhere
    rw [follow, hhere']
    exact ih h
  | case8 links here piece pieces children hhere hdot hup target hlink hlast =>
    obtain ⟨rfl, rfl⟩ := Place.found.inj (Except.ok.inj h)
    obtain ⟨children', hhere', hchildren⟩ := exists_directory_of_grows hg hhere
    obtain ⟨child', hchild', hlike⟩ := hchildren piece _ hlink
    cases child' with
    | file content => exact hlike.elim
    | directory inner => exact hlike.elim
    | link target' =>
      rw [follow, hhere']
      simp only [if_neg hdot, if_neg hup, hchild', if_pos hlast]
      exact ⟨_, rfl, hlike⟩
  | case10 here piece pieces children hhere hdot hup target hlink hlast links start ih =>
    obtain ⟨children', hhere', hchildren⟩ := exists_directory_of_grows hg hhere
    obtain ⟨child', hchild', hlike⟩ := hchildren piece _ hlink
    cases child' with
    | file content => exact hlike.elim
    | directory inner => exact hlike.elim
    | link target' =>
      obtain rfl : target = target' := hlike
      rw [follow, hhere']
      simp only [if_neg hdot, if_neg hup, hchild', if_neg hlast]
      exact ih h
  | case11 links here piece pieces children hhere hdot hup child hnolink hchild ih =>
    obtain ⟨children', hhere', hchildren⟩ := exists_directory_of_grows hg hhere
    obtain ⟨child', hchild', hlike⟩ := hchildren piece _ hchild
    rw [follow, hhere']
    simp only [if_neg hdot, if_neg hup, hchild']
    cases child' with
    | link target =>
      cases child with
      | link target' => exact (hnolink target' rfl).elim
      | file content => exact hlike.elim
      | directory inner => exact hlike.elim
    | file content => exact ih h
    | directory inner => exact ih h
  | _ => cases h

theorem place_of_grows (hg : t.Grows t') {path : String} {last : Bool} {names : List String}
    {node : Node String} (h : t.place path last = .ok (.found names node)) :
    ∃ node', t'.place path last = .ok (.found names node') ∧ node.Alike node' := by
  unfold place at h ⊢
  split_ifs at h ⊢
  exact follow_of_grows hg h

theorem fits_of_place {path : String} {last : Bool} {p : Place}
    (h : t.place path last = .ok p) : t.Fits p := by
  unfold place at h
  split_ifs at h
  exact fits_of_follow h

theorem isFile_eq_true {path : String} :
    t.isFile path = true ↔
      ∃ names content, t.place path true = .ok (.found names (.file content)) := by
  unfold isFile locate
  cases t.place path true with
  | error e => simp [bind, Except.bind]
  | ok p =>
    cases p with
    | missing directory name => simp [bind, Except.bind]
    | found names node => cases node <;> simp [bind, Except.bind, pure, Except.pure]

theorem exists_read_of_isFile {path : String} (h : t.isFile path = true) :
    ∃ content, t.read path = .ok content := by
  obtain ⟨names, content, hp⟩ := isFile_eq_true.mp h
  exact ⟨content, by rw [read, locate, hp]; rfl⟩

/-- **A path that leads to a file goes on leading to one.** -/
theorem isFile_of_grows (hg : t.Grows t') {path : String} (h : t.isFile path = true) :
    t'.isFile path = true := by
  obtain ⟨names, content, hp⟩ := isFile_eq_true.mp h
  obtain ⟨node, hp', hlike⟩ := place_of_grows hg hp
  cases node with
  | file content' => exact isFile_eq_true.mpr ⟨names, content', hp'⟩
  | directory children => exact hlike.elim
  | link target => exact hlike.elim

/-! ## Changing files -/

/-- The names of what is there, or could be. -/
def Place.names : Place → List String
  | found names _ => names
  | missing directory name => directory ++ [name]

theorem write_ok {path : String} {content : ByteArray} (h : t.write path content = .ok t') :
    ∃ p, t.place path true = .ok p ∧
      (∀ names node, p = .found names node → ∃ old, node = .file old) ∧
      t' = t.put p.names (some (.file content)) := by
  obtain ⟨p, hp, h⟩ := exists_of_bind_eq_ok h
  refine ⟨p, hp, ?_⟩
  cases p with
  | missing directory name =>
    dsimp only at h
    split_ifs at h
    obtain rfl := Except.ok.inj h
    exact ⟨nofun, rfl⟩
  | found names node =>
    cases node with
    | directory children => cases h
    | link target => cases h
    | file old =>
      obtain rfl := Except.ok.inj h
      refine ⟨fun names' node' hfound => ⟨old, ?_⟩, rfl⟩
      exact (Place.found.inj hfound).2.symm

theorem makeDirectory_ok {path : String} (h : t.makeDirectory path = .ok t') :
    ∃ directory name, t.place path false = .ok (.missing directory name) ∧
      t' = t.put (directory ++ [name]) (some (.directory [])) := by
  obtain ⟨p, hp, h⟩ := exists_of_bind_eq_ok h
  cases p with
  | found names node => cases h
  | missing directory name => exact ⟨directory, name, hp, (Except.ok.inj h).symm⟩

theorem makeLink_ok {path target : String} (h : t.makeLink path target = .ok t') :
    ∃ directory name, t.place path false = .ok (.missing directory name) ∧
      t' = t.put (directory ++ [name]) (some (.link target)) := by
  obtain ⟨p, hp, h⟩ := exists_of_bind_eq_ok h
  cases p with
  | found names node => cases h
  | missing directory name => exact ⟨directory, name, hp, (Except.ok.inj h).symm⟩

theorem remove_ok {path : String} (h : t.remove path = .ok t') :
    ∃ names node, t.place path false = .ok (.found names node) ∧ t' = t.put names none := by
  obtain ⟨p, hp, h⟩ := exists_of_bind_eq_ok h
  cases p with
  | missing directory name => cases h
  | found names node =>
    refine ⟨names, node, hp, ?_⟩
    cases node with
    | directory children => cases h
    | file old => exact (Except.ok.inj h).symm
    | link target => exact (Except.ok.inj h).symm

theorem grows_put_missing {directory : List String} {name : String}
    (h : t.Fits (.missing directory name)) (node : Node String) :
    t.Grows (t.put (directory ++ [name]) (some node)) := by
  obtain ⟨children, hdirectory, hnone⟩ := h
  refine grows_put fun old hold => ?_
  have hlookup := Node.find?_concat hdirectory name
  rw [hnone] at hlookup
  exact absurd (hlookup.symm.trans hold) (by simp)

theorem grows_write {path : String} {content : ByteArray} (h : t.write path content = .ok t') :
    t.Grows t' := by
  obtain ⟨p, hp, hfile, rfl⟩ := write_ok h
  have hfits := fits_of_place hp
  cases p with
  | missing directory name => exact grows_put_missing hfits _
  | found names node =>
    obtain ⟨old, rfl⟩ := hfile names node rfl
    refine grows_put fun found hfound => ?_
    obtain rfl := Option.some.inj (hfits.symm.trans hfound)
    exact Node.grows_file old content

theorem grows_makeDirectory {path : String} (h : t.makeDirectory path = .ok t') : t.Grows t' := by
  obtain ⟨directory, name, hp, rfl⟩ := makeDirectory_ok h
  exact grows_put_missing (fits_of_place hp) _

/-- One of the trees is the other with one more directory. -/
def AddsDirectory (t t' : FileTree) : Prop := ∃ path, t.makeDirectory path = .ok t'

/-- Directories are made one by one, those above before those in them. -/
theorem addsDirectories_makeDirectoriesFrom {path : List Char} {depth : ℕ}
    (h : t.makeDirectoriesFrom path depth = .ok t') :
    Relation.ReflTransGen AddsDirectory t t' := by
  induction depth generalizing path t' with
  | zero => cases h
  | succ depth ih =>
    rw [makeDirectoriesFrom] at h
    split at h
    · obtain rfl := Except.ok.inj h
      exact .refl
    · split at h
      · next t₁ hmade =>
        obtain rfl := Except.ok.inj h
        exact .single ⟨_, hmade⟩
      · split at h
        · cases h
        · next above _ =>
          cases habove : t.makeDirectoriesFrom above depth with
          | error e => rw [habove] at h; cases h
          | ok t₁ =>
            rw [habove] at h
            simp only [bind, Except.bind] at h
            refine (ih habove).trans ?_
            split at h
            · next t₂ hmade =>
              obtain rfl := Except.ok.inj h
              exact .single ⟨_, hmade⟩
            · split at h
              · obtain rfl := Except.ok.inj h
                exact .refl
              · cases h
      · split at h
        · obtain rfl := Except.ok.inj h
          exact .refl
        · cases h

theorem grows_addsDirectories (h : Relation.ReflTransGen AddsDirectory t t') : t.Grows t' := by
  induction h with
  | refl => exact .refl t
  | tail _ hadds ih =>
    obtain ⟨path, hmade⟩ := hadds
    exact ih.trans (grows_makeDirectory hmade)

theorem grows_makeDirectories {path : String} (h : t.makeDirectories path = .ok t') :
    t.Grows t' :=
  grows_addsDirectories (addsDirectories_makeDirectoriesFrom h)

end FileTree

end SymbolIndex
