import Mathlib.Data.List.Nodup
import SymbolIndex.Proofs.FileTree.Walks

/-!
# Walks that prune

A walk does not enter a directory that is left out, so it never looks at most of the files that it
passes over. It comes back with the same files as somebody who looks at every file and asks about
each directory on the way to it, and with none of them twice. That is so whatever patterns leave
files out and whatever can be a name.

* `Node.induction`: what holds of every node;
* `Node.Distinct`, `Node.find?_directory_iff`: trees without two children of one name;
* `Excludes`, `Spares`: what rules say on the way to a file;
* `Walk.mem_found_iff`, `Walk.nodup_found`: what a walk finds.
-/

namespace SymbolIndex

section

variable {N : Type}

theorem sizeOf_child_lt {child : N × Node N} {children : List (N × Node N)}
    (h : child ∈ children) : sizeOf child.2 < 1 + sizeOf children := by
  have hlist := List.sizeOf_lt_of_mem h
  obtain ⟨name, node⟩ := child
  simp only [Prod.mk.sizeOf_spec] at hlist ⊢
  omega

/-- What holds of files and links, and of a directory if it holds of all that is in it, holds of
every node. -/
@[elab_as_elim, induction_eliminator]
theorem Node.induction {P : Node N → Prop} (file : ∀ content, P (.file content))
    (link : ∀ target, P (.link target))
    (directory : ∀ children, (∀ child ∈ children, P child.2) → P (.directory children)) :
    ∀ node, P node
  | .file content => file content
  | .link target => link target
  | .directory children => directory children fun child hc =>
    have := sizeOf_child_lt hc
    Node.induction file link directory child.2
termination_by node => sizeOf node

/-! ## Trees without two children of one name -/

/-- No directory has two children of one name. -/
inductive Node.Distinct : Node N → Prop
  | file (content : ByteArray) : Distinct (.file content)
  | link (target : String) : Distinct (.link target)
  | directory {children : List (N × Node N)} (hnames : (children.map (·.1)).Nodup)
    (h : ∀ child ∈ children, Distinct child.2) : Distinct (.directory children)

/-- No directory in the tree has two children of one name. -/
def FileTree.Distinct (t : FileTree) : Prop := (Node.directory t.children).Distinct

theorem Node.Distinct.children {children : List (N × Node N)}
    (h : (Node.directory children).Distinct) :
    (children.map (·.1)).Nodup ∧ ∀ child ∈ children, child.2.Distinct := by
  cases h with
  | directory hnames h => exact ⟨hnames, h⟩

theorem FileTree.distinct_of_locate {t : FileTree} (h : t.Distinct) {path : String}
    {names : List String} {node : Node String}
    (hl : t.locate path = .ok (names, node)) : node.Distinct :=
  Node.find?_keeps (fun _ hd => hd.children.2) h (find?_of_locate hl)

variable [BEq N] [LawfulBEq N]

theorem lookup_eq_some_iff {children : List (N × Node N)} (h : (children.map (·.1)).Nodup)
    {name : N} {node : Node N} : children.lookup name = some node ↔ (name, node) ∈ children := by
  induction children with
  | nil => simp
  | cons child children ih =>
    obtain ⟨key, value⟩ := child
    rw [List.map_cons, List.nodup_cons] at h
    rw [List.lookup_cons, List.mem_cons, ← ih h.2, Prod.mk.injEq]
    by_cases hname : name = key
    · subst hname
      have hnone : ∀ node, (name, node) ∉ children := fun node hn =>
        h.1 (List.mem_map.mpr ⟨_, hn, rfl⟩)
      simp [ih h.2, hnone, eq_comm]
    · simp [hname, beq_false_of_ne hname]

theorem Node.find?_directory_iff {children : List (N × Node N)}
    (h : (children.map (·.1)).Nodup) {names : List N} {content : ByteArray} :
    (Node.directory children).find? names = some (.file content) ↔
      ∃ child ∈ children, ∃ way, names = child.1 :: way ∧
        child.2.find? way = some (.file content) := by
  cases names with
  | nil => simp [find?]
  | cons name way =>
    rw [find?, Option.bind_eq_some_iff]
    constructor
    · rintro ⟨node, hnode, hfind⟩
      exact ⟨(name, node), (lookup_eq_some_iff h).mp hnode, way, rfl, hfind⟩
    · rintro ⟨child, hchild, way, hnames, hfind⟩
      obtain ⟨rfl, rfl⟩ := List.cons.inj hnames
      exact ⟨child.2, (lookup_eq_some_iff h).mpr hchild, hfind⟩

end

/-! ## What rules say on the way -/

section

variable {N R : Type} {m : Matcher N R}

/-- The rules leave out what these names lead to. -/
def Excludes (m : Matcher N R) (rules : List R) (names : List N) (isDirectory : Bool) : Prop :=
  m.verdict rules names isDirectory = .excluded

instance (rules : List R) (names : List N) (isDirectory : Bool) :
    Decidable (Excludes m rules names isDirectory) := by unfold Excludes; infer_instance

/-- On the way that goes on behind `steps` the rules leave out neither the file at its end nor a
directory before it. -/
def Spares (m : Matcher N R) (rules : List R) (steps way : List N) : Prop :=
  ∀ front name behind, way = front ++ name :: behind →
    ¬ Excludes m rules (steps ++ front ++ [name]) (!behind.isEmpty)

theorem spares_nil (rules : List R) (steps : List N) : Spares m rules steps [] :=
  fun front name behind h => by simp at h

theorem spares_cons {rules : List R} {steps way : List N} {name : N} :
    Spares m rules steps (name :: way) ↔
      ¬ Excludes m rules (steps ++ [name]) (!way.isEmpty) ∧
        Spares m rules (steps ++ [name]) way := by
  constructor
  · intro h
    refine ⟨by simpa using h [] name way rfl, fun front name' behind hway => ?_⟩
    simpa using h (name :: front) name' behind (by rw [hway, List.cons_append])
  · rintro ⟨hname, hway⟩ front name' behind h
    cases front with
    | nil =>
      obtain ⟨rfl, rfl⟩ := List.cons.inj h
      simpa using hname
    | cons first front =>
      obtain ⟨rfl, rfl⟩ := List.cons.inj h
      simpa using hway front name' behind rfl

instance decidableSpares (rules : List R) :
    ∀ steps way : List N, Decidable (Spares m rules steps way)
  | steps, [] => .isTrue (spares_nil rules steps)
  | steps, name :: way =>
    have := decidableSpares rules (steps ++ [name]) way
    decidable_of_iff _ spares_cons.symm

theorem spares_singleton {rules : List R} {steps : List N} {name : N} :
    Spares m rules steps [name] ↔ ¬ Excludes m rules (steps ++ [name]) false :=
  spares_cons.trans (and_iff_left (spares_nil _ _))

theorem spares_cons_cons {rules : List R} {steps way : List N} {name next : N} :
    Spares m rules steps (name :: next :: way) ↔
      ¬ Excludes m rules (steps ++ [name]) true ∧
        Spares m rules (steps ++ [name]) (next :: way) :=
  spares_cons

/-! ## Walks that honour no files with rules -/

/-- There are no rules at this level. -/
structure Level.IsSilent (level : Level N R) : Prop where
  custom : level.custom = []
  plain : level.plain = []
  git : level.git = []

theorem Level.IsSilent.descend {level : Level N R} (h : level.IsSilent) (name : N) :
    (level.descend name).IsSilent := ⟨h.custom, h.plain, h.git⟩

theorem firstVerdict_of_open {verdicts : List Verdict} (h : ∀ v ∈ verdicts, v = .open) :
    firstVerdict verdicts = .open := by
  have hnone : verdicts.find? (· != .open) = none :=
    List.find?_eq_none.mpr fun v hv => by simp [h v hv]
  rw [firstVerdict, hnone, Option.getD_none]

theorem levelsVerdict_of_silent (hm : m.Lawful) {levels : List (Level N R)}
    (h : ∀ level ∈ levels, level.IsSilent) (name : N) (isDirectory : Bool) :
    levelsVerdict m levels name isDirectory = .open := by
  have hopen : ∀ rules : Level N R → List R, (∀ level ∈ levels, rules level = []) →
      firstVerdict (levels.map fun level => level.verdictOf m (rules level) name isDirectory) =
        .open := by
    intro rules hrules
    refine firstVerdict_of_open fun v hv => ?_
    obtain ⟨level, hlevel, rfl⟩ := List.mem_map.mp hv
    rw [hrules level hlevel]
    exact hm.nil _ _
  unfold levelsVerdict
  dsimp only
  rw [hopen _ fun level hl => (h level hl).custom,
    hopen _ fun level hl => (h level hl).plain, hopen _ fun level hl => (h level hl).git]
  rfl

namespace Walk

theorem collect_eq_flatMap (w : Walk N R) (exclude : List R) (levels : List (Level N R))
    (steps : List N) (children : List (N × Node N)) :
    w.collect exclude levels steps children =
      children.flatMap fun child => w.collect exclude levels steps [child] := by
  induction children with
  | nil => rw [collect, List.flatMap_nil]
  | cons child children ih =>
    obtain ⟨name, node⟩ := child
    rw [List.flatMap_cons, ← ih]
    cases node <;> simp only [collect, List.append_nil]

variable {w : Walk N R} {rules : List R} {steps : List N} {levels : List (Level N R)}

theorem silent_levelAt (hw : w.honoured = .ofNames []) (steps : List N)
    (children : List (N × Node N)) : (w.levelAt steps children).IsSilent := by
  constructor <;> rw [levelAt, hw] <;> rfl

theorem silent_first (hw : w.honoured = .ofNames []) (children : List (N × Node N)) :
    ∀ level ∈ [w.levelAt [] children], level.IsSilent := by
  intro level hlevel
  rw [List.mem_singleton.mp hlevel]
  exact silent_levelAt hw [] children

theorem collect_file (hm : w.matcher.Lawful) (h : ∀ level ∈ levels, level.IsSilent) (name : N)
    (content : ByteArray) :
    w.collect rules levels steps [(name, .file content)] =
      if Excludes w.matcher rules (steps ++ [name]) false then [] else [steps ++ [name]] := by
  simp [collect, levelsVerdict_of_silent hm h, Excludes]

variable (rules steps) in
theorem collect_directory (hm : w.matcher.Lawful) (hw : w.honoured = .ofNames [])
    (h : ∀ level ∈ levels, level.IsSilent) (name : N) (children : List (N × Node N)) :
    ∃ levels' : List (Level N R), (∀ level ∈ levels', level.IsSilent) ∧
      w.collect rules levels steps [(name, .directory children)] =
        if Excludes w.matcher rules (steps ++ [name]) true then []
        else w.collect rules levels' (steps ++ [name]) children := by
  refine ⟨w.levelAt (steps ++ [name]) children :: levels.map (·.descend name), ?_, ?_⟩
  · intro level hlevel
    rcases List.mem_cons.mp hlevel with rfl | hlevel
    · exact silent_levelAt hw _ _
    · obtain ⟨above, habove, rfl⟩ := List.mem_map.mp hlevel
      exact (h above habove).descend name
  · simp [collect, levelsVerdict_of_silent hm h, Excludes]

theorem collect_link (name : N) (target : String) :
    w.collect rules levels steps [(name, .link target)] = [] := by
  simp [collect]

variable [BEq N] [LawfulBEq N]

theorem mem_collect_of_children {children : List (N × Node N)}
    (hnames : (children.map (·.1)).Nodup) {names : List N}
    (h : ∀ child ∈ children,
      names ∈ w.collect rules levels steps [child] ↔
        ∃ way content, names = steps ++ child.1 :: way ∧ child.2.find? way = some (.file content) ∧
          Spares w.matcher rules steps (child.1 :: way)) :
    names ∈ w.collect rules levels steps children ↔
      ∃ way content, names = steps ++ way ∧
        (Node.directory children).find? way = some (.file content) ∧
          Spares w.matcher rules steps way := by
  rw [collect_eq_flatMap, List.mem_flatMap]
  constructor
  · rintro ⟨child, hchild, hn⟩
    obtain ⟨way, content, rfl, hway, hspares⟩ := (h child hchild).mp hn
    exact ⟨child.1 :: way, content, rfl,
      (Node.find?_directory_iff hnames).mpr ⟨child, hchild, way, rfl, hway⟩, hspares⟩
  · rintro ⟨way, content, rfl, hway, hspares⟩
    obtain ⟨child, hchild, way, rfl, hfind⟩ := (Node.find?_directory_iff hnames).mp hway
    exact ⟨child, hchild, (h child hchild).mpr ⟨way, content, rfl, hfind, hspares⟩⟩

/-- What is collected from one child: the files that its name and others lead to, unless the rules
leave them out, or a directory on the way. -/
theorem mem_collect_child (hm : w.matcher.Lawful) (hw : w.honoured = .ofNames [])
    {node : Node N} (hnode : node.Distinct) (h : ∀ level ∈ levels, level.IsSilent) {name : N}
    {names : List N} :
    names ∈ w.collect rules levels steps [(name, node)] ↔
      ∃ way content, names = steps ++ name :: way ∧ node.find? way = some (.file content) ∧
        Spares w.matcher rules steps (name :: way) := by
  induction node generalizing name levels steps with
  | file content =>
    have hfind : ∀ {way : List N} {content' : ByteArray},
        (Node.file content).find? way = some (.file content') → way = [] := by
      intro way content' hway
      cases way with
      | nil => rfl
      | cons step way => cases hway
    rw [collect_file hm h]
    constructor
    · intro hn
      split_ifs at hn with hexcluded
      · cases hn
      · exact ⟨[], content, List.mem_singleton.mp hn, rfl, spares_singleton.mpr hexcluded⟩
    · rintro ⟨way, content', rfl, hway, hspares⟩
      obtain rfl := hfind hway
      rw [if_neg (spares_singleton.mp hspares)]
      exact List.mem_singleton_self _
  | link target =>
    rw [collect_link]
    constructor
    · nofun
    · rintro ⟨way, content, -, hway, -⟩
      cases way <;> cases hway
  | directory children ih =>
    obtain ⟨hnames, hchildren⟩ := hnode.children
    obtain ⟨levels', hlevels', hcollect⟩ := collect_directory rules steps hm hw h name children
    have hinside : names ∈ w.collect rules levels' (steps ++ [name]) children ↔
        ∃ way content, names = steps ++ [name] ++ way ∧
          (Node.directory children).find? way = some (.file content) ∧
            Spares w.matcher rules (steps ++ [name]) way :=
      mem_collect_of_children hnames fun child hc => ih child hc (hchildren child hc) hlevels'
    rw [hcollect]
    constructor
    · intro hn
      split_ifs at hn with hexcluded
      · cases hn
      · obtain ⟨way, content, rfl, hway, hspares⟩ := hinside.mp hn
        obtain ⟨child, -, way, rfl, -⟩ := (Node.find?_directory_iff hnames).mp hway
        exact ⟨_, content, by simp, hway, spares_cons_cons.mpr ⟨hexcluded, hspares⟩⟩
    · rintro ⟨way, content, rfl, hway, hspares⟩
      obtain ⟨child, -, way, rfl, -⟩ := (Node.find?_directory_iff hnames).mp hway
      obtain ⟨hincluded, hspares⟩ := spares_cons_cons.mp hspares
      rw [if_neg hincluded]
      exact hinside.mpr ⟨_, content, by simp, hway, hspares⟩

theorem nodup_collect_of_children (hm : w.matcher.Lawful) (hw : w.honoured = .ofNames [])
    {children : List (N × Node N)} (hd : (Node.directory children).Distinct)
    (hlevels : ∀ level ∈ levels, level.IsSilent)
    (h : ∀ child ∈ children, (w.collect rules levels steps [child]).Nodup) :
    (w.collect rules levels steps children).Nodup := by
  obtain ⟨hnames, hchildren⟩ := hd.children
  rw [collect_eq_flatMap, List.nodup_flatMap]
  refine ⟨h, (List.pairwise_map.mp hnames).imp_of_mem fun {child other} hc ho hne => ?_⟩
  -- what is collected from two children goes on with different names
  intro names hn hn'
  obtain ⟨way, _, rfl, -, -⟩ := (mem_collect_child hm hw (hchildren child hc) hlevels).mp hn
  obtain ⟨way', _, hway, -, -⟩ := (mem_collect_child hm hw (hchildren other ho) hlevels).mp hn'
  exact hne (List.cons.inj (List.append_cancel_left hway)).1

theorem nodup_collect_child (hm : w.matcher.Lawful) (hw : w.honoured = .ofNames [])
    {node : Node N} (hnode : node.Distinct) (h : ∀ level ∈ levels, level.IsSilent) (name : N) :
    (w.collect rules levels steps [(name, node)]).Nodup := by
  induction node generalizing name levels steps with
  | file content =>
    rw [collect_file hm h]
    split_ifs <;> simp
  | link target =>
    rw [collect_link]
    exact List.nodup_nil
  | directory children ih =>
    obtain ⟨levels', hlevels', hcollect⟩ := collect_directory rules steps hm hw h name children
    rw [hcollect]
    split_ifs
    · exact List.nodup_nil
    · exact nodup_collect_of_children hm hw hnode hlevels' fun child hc =>
        ih child hc (hnode.children.2 child hc) hlevels' child.1

/-- **A walk that prunes finds the same files as one that looks at the whole way to each.** -/
theorem mem_found_iff (hm : w.matcher.Lawful) (hw : w.honoured = .ofNames []) {node : Node N}
    (hd : node.Distinct) {names : List N} :
    names ∈ w.found rules node ↔
      (∃ content, node.find? names = some (.file content)) ∧ Spares w.matcher rules [] names := by
  cases node with
  | file content =>
    cases names with
    | nil => simp [found, Node.find?, spares_nil]
    | cons name names => simp [found, Node.find?]
  | link target => cases names <;> simp [found, Node.find?]
  | directory children =>
    have hcollect : names ∈ w.collect rules [w.levelAt [] children] [] children ↔
        ∃ way content, names = [] ++ way ∧
          (Node.directory children).find? way = some (.file content) ∧
            Spares w.matcher rules [] way :=
      mem_collect_of_children hd.children.1 fun child hc =>
        mem_collect_child hm hw (hd.children.2 child hc) (silent_first hw children)
    rw [found, hcollect]
    constructor
    · rintro ⟨way, content, rfl, hway, hspares⟩
      exact ⟨⟨content, hway⟩, hspares⟩
    · rintro ⟨⟨content, hway⟩, hspares⟩
      exact ⟨names, content, rfl, hway, hspares⟩

/-- **A walk finds nothing twice.** -/
theorem nodup_found (hm : w.matcher.Lawful) (hw : w.honoured = .ofNames []) {node : Node N}
    (hd : node.Distinct) : (w.found rules node).Nodup := by
  cases node with
  | file content => exact List.nodup_singleton []
  | link target => exact List.nodup_nil
  | directory children =>
    exact nodup_collect_of_children hm hw hd (silent_first hw children) fun child hc =>
      nodup_collect_child hm hw (hd.children.2 child hc) (silent_first hw children) child.1

end Walk

end

end SymbolIndex
