import SymbolIndex.FileTree.Walk
import SymbolIndex.Proofs.Text.Lines

/-!
# Paths below a directory

Seen from a directory, a file below it is a list of names. Entries keep those names, and the
directory with these names behind it is the path of the file again.

* `IsName`, `Component.IsOnward`: what a file or a directory may be called, and the steps that may
  come behind others;
* `components_join`: the steps of a path that leads on from a directory;
* `components_route`, `ofComponents_onward`: steps that lead on, as a path;
* `entryPath_of_inside`: what entries keep of a path inside of a directory;
* `entryPath_pathBelow`, `resolve_pathText`: what entries keep of the path of a file, and where that
  leads.
-/

namespace SymbolIndex.Path

open Text

/-- Something in a directory may be called this. -/
structure IsName (name : List Char) : Prop where
  ne_nil : name ≠ []
  unbroken : '/' ∉ name
  ne_current : name ≠ ['.']
  ne_parent : name ≠ ['.', '.']

instance : DecidablePred IsName := fun name =>
  decidable_of_iff (name ≠ [] ∧ '/' ∉ name ∧ name ≠ ['.'] ∧ name ≠ ['.', '.'])
    ⟨fun ⟨hne, hslash, hdot, hup⟩ => ⟨hne, hslash, hdot, hup⟩,
      fun ⟨hne, hslash, hdot, hup⟩ => ⟨hne, hslash, hdot, hup⟩⟩

/-- The path that leads through directories of these names. -/
def route (names : List (List Char)) : List Char := ['/'].intercalate names

/-- The step leads on from where one is. -/
inductive Component.IsOnward : Component → Prop
  | parent : IsOnward .parent
  | normal {name : List Char} (h : IsName name) : IsOnward (.normal name)

namespace Component.IsOnward

variable {step : Component} (h : step.IsOnward)

include h

theorem text_ne_nil : step.text ≠ [] := by
  cases h with
  | parent => simp [Component.text]
  | normal h => exact h.ne_nil

theorem unbroken : '/' ∉ step.text := by
  cases h with
  | parent => simp [Component.text]
  | normal h => exact h.unbroken

theorem text_ne_current : step.text ≠ ['.'] := by
  cases h with
  | parent => simp [Component.text]
  | normal h => exact h.ne_current

theorem step?_text : step? step.text = some step := by
  cases h with
  | parent => rfl
  | normal h =>
    rw [Component.text, step?, if_neg (not_or.mpr ⟨h.ne_nil, h.ne_current⟩), if_neg h.ne_parent]

theorem getLast?_ne : step.text.getLast? ≠ some '/' :=
  fun hlast => h.unbroken (List.mem_of_mem_getLast? hlast)

end Component.IsOnward

theorem isOnward_of_step? {piece : List Char} {step : Component} (hslash : '/' ∉ piece)
    (h : step? piece = some step) : step.IsOnward := by
  unfold step? at h
  split_ifs at h with hnone hparent
  · obtain rfl := Option.some.inj h
    exact .parent
  · obtain rfl := Option.some.inj h
    obtain ⟨hnil, hcurrent⟩ := not_or.mp hnone
    exact .normal ⟨hnil, hslash, hcurrent, hparent⟩

/-! ## Steps -/

/-- The step that a path begins with before it comes to names. -/
def leadOf (path : List Char) : List Component :=
  if isAbsolute path = true then [.root]
  else if (splitAt (· == '/') path).head? = some ['.'] then [.current]
  else []

theorem leadOf_slash (path : List Char) : leadOf ('/' :: path) = [.root] := if_pos rfl

theorem splitAt_slash_append (base path : List Char) :
    splitAt (· == '/') (base ++ '/' :: path) =
      splitAt (· == '/') base ++ splitAt (· == '/') path :=
  splitAt_append_cons _ rfl base path

theorem splitAt_slash (path : List Char) :
    splitAt (· == '/') ('/' :: path) = [] :: splitAt (· == '/') path :=
  splitAt_slash_append [] path

/-- The steps of a path are those of its pieces, behind the one that it begins with. -/
theorem components_eq (path : List Char) :
    components path = leadOf path ++ (splitAt (· == '/') path).filterMap step? := by
  unfold components
  split
  · next rest =>
    rw [leadOf_slash, splitAt_slash]
    rfl
  · next h =>
    have habsolute : ¬ isAbsolute path = true := fun ha => by
      rw [isAbsolute, beq_iff_eq] at ha
      obtain ⟨rest, hrest⟩ := List.head?_eq_some_iff.mp ha
      exact h rest hrest
    rw [leadOf, if_neg habsolute]
    split
    · next rest hpieces =>
      rw [hpieces]
      rfl
    · next hpieces =>
      rw [if_neg, List.nil_append]
      intro hhead
      obtain ⟨rest, hrest⟩ := List.head?_eq_some_iff.mp hhead
      exact hpieces rest hrest

theorem components_append {base : List Char} (h : base ≠ []) (path : List Char) :
    components (base ++ '/' :: path) =
      components base ++ (splitAt (· == '/') path).filterMap step? := by
  have hlead : leadOf (base ++ '/' :: path) = leadOf base := by
    rw [leadOf, leadOf, isAbsolute, isAbsolute, List.head?_append_of_ne_nil _ h,
      splitAt_slash_append, List.head?_append_of_ne_nil _ (splitAt_ne_nil _ _)]
  rw [components_eq, components_eq base, hlead, splitAt_slash_append, List.filterMap_append,
    List.append_assoc]

theorem components_of_lead {path : List Char} (h : leadOf path = []) :
    components path = (splitAt (· == '/') path).filterMap step? := by
  rw [components_eq, h, List.nil_append]

theorem isAbsolute_of_lead {path : List Char} (h : leadOf path = []) : isAbsolute path = false := by
  unfold leadOf at h
  split_ifs at h with habsolute
  exact Bool.not_eq_true _ ▸ habsolute

/-- **The steps of a path that leads on from a directory** follow those of the directory. -/
theorem components_join {path : List Char} (h : leadOf path = []) (base : List Char) :
    components (join base path) = components base ++ components path := by
  have hbehind : ∀ {base : List Char}, base ≠ [] →
      components (base ++ '/' :: path) = components base ++ components path :=
    fun hbase => by rw [components_append hbase, components_of_lead h]
  rw [join, isAbsolute_of_lead h, if_neg Bool.false_ne_true]
  rcases List.eq_nil_or_concat base with rfl | ⟨front, c, rfl⟩
  · rw [if_pos (.inl rfl), List.nil_append]
    rfl
  · rw [List.concat_eq_append] at *
    by_cases hc : c = '/'
    · subst hc
      rw [if_pos (.inr (by simp)), List.append_assoc, List.singleton_append]
      by_cases hfront : front = []
      -- the root itself
      · subst hfront
        rw [List.nil_append, components_eq, leadOf_slash, splitAt_slash,
          List.filterMap_cons_none rfl, components_of_lead h]
        rfl
      · have hslash : components (front ++ ['/']) = components front := by
          rw [components_append hfront, splitAt_nil, List.filterMap_cons_none rfl,
            List.filterMap_nil, List.append_nil]
        rw [hbehind hfront, hslash]
    · rw [if_neg (by simpa using hc), hbehind (by simp)]

theorem isAbsolute_join {path : List Char} (h : isAbsolute path = false) (base : List Char) :
    isAbsolute (join base path) = isAbsolute base := by
  rw [join, h, if_neg Bool.false_ne_true]
  by_cases hbase : base = []
  · subst hbase
    rw [if_pos (.inl rfl), List.nil_append, h]
    rfl
  · split <;> rw [isAbsolute, isAbsolute, List.head?_append_of_ne_nil _ hbase]

/-! ## Steps as paths -/

section Steps

variable {steps : List Component} (hsteps : ∀ step ∈ steps, step.IsOnward)

include hsteps

theorem filterMap_step? : (steps.map Component.text).filterMap step? = steps := by
  induction steps with
  | nil => rfl
  | cons step steps ih =>
    have hstep := (hsteps step List.mem_cons_self).step?_text
    rw [List.map_cons, List.filterMap_cons_some hstep,
      ih fun s hs => hsteps s (List.mem_cons_of_mem _ hs)]

theorem splitAt_route (hne : steps ≠ []) :
    splitAt (· == '/') (route (steps.map Component.text)) = steps.map Component.text := by
  refine splitAt_intercalate (by simpa using hne) fun part hpart => ?_
  obtain ⟨step, hs, rfl⟩ := List.mem_map.mp hpart
  exact (hsteps step hs).unbroken

theorem head?_route (hne : steps ≠ []) :
    ∃ c, (route (steps.map Component.text)).head? = some c ∧ c ≠ '/' := by
  obtain ⟨step, steps, rfl⟩ := List.exists_cons_of_ne_nil hne
  have hstep := hsteps step List.mem_cons_self
  obtain ⟨c, text, htext⟩ := List.exists_cons_of_ne_nil hstep.text_ne_nil
  have hc : c ≠ '/' := fun h => hstep.unbroken (htext ▸ h ▸ List.mem_cons_self)
  rw [List.map_cons, htext]
  cases steps <;> exact ⟨c, rfl, hc⟩

theorem leadOf_route : leadOf (route (steps.map Component.text)) = [] := by
  by_cases hne : steps = []
  · subst hne
    rfl
  · obtain ⟨c, hhead, hc⟩ := head?_route hsteps hne
    have habsolute : ¬ isAbsolute (route (steps.map Component.text)) = true := by
      rw [isAbsolute, hhead]
      simpa using hc
    have hdot : (splitAt (· == '/') (route (steps.map Component.text))).head? ≠ some ['.'] := by
      rw [splitAt_route hsteps hne]
      intro h
      obtain ⟨step, hs, htext⟩ := List.mem_map.mp (List.mem_of_mem_head? h)
      exact (hsteps step hs).text_ne_current htext
    rw [leadOf, if_neg habsolute, if_neg hdot]

theorem components_route : components (route (steps.map Component.text)) = steps := by
  rw [components_of_lead (leadOf_route hsteps)]
  by_cases hne : steps = []
  · subst hne
    rfl
  · rw [splitAt_route hsteps hne, filterMap_step? hsteps]

end Steps

theorem join_step {path : List Char} {step : Component} (hpath : path ≠ [])
    (hlast : path.getLast? ≠ some '/') (h : step.IsOnward) :
    join path step.text = path ++ '/' :: step.text := by
  have hrelative : isAbsolute step.text = false := by
    rw [isAbsolute, beq_eq_false_iff_ne]
    exact fun hhead => h.unbroken (List.mem_of_mem_head? hhead)
  rw [join, hrelative, if_neg Bool.false_ne_true, if_neg (not_or.mpr ⟨hpath, hlast⟩)]

theorem foldl_join {path : List Char} {steps : List Component} (hpath : path ≠ [])
    (hlast : path.getLast? ≠ some '/') (hsteps : ∀ step ∈ steps, step.IsOnward) :
    steps.foldl (fun path step => join path step.text) path =
      route (path :: steps.map Component.text) := by
  induction steps generalizing path with
  | nil => rw [List.map_nil, List.foldl_nil, route, List.intercalate_singleton]
  | cons step steps ih =>
    have hstep := hsteps step List.mem_cons_self
    have hnext : (path ++ '/' :: step.text).getLast? ≠ some '/' := by
      rw [List.getLast?_append_cons, List.getLast?_cons_of_ne_nil hstep.text_ne_nil]
      exact hstep.getLast?_ne
    rw [List.foldl_cons, join_step hpath hlast hstep,
      ih (by simp) hnext fun s hs => hsteps s (List.mem_cons_of_mem _ hs)]
    cases steps <;> simp [route, List.intercalate_cons_cons]

theorem ofComponents_onward {steps : List Component} (hsteps : ∀ step ∈ steps, step.IsOnward) :
    ofComponents steps = route (steps.map Component.text) := by
  cases steps with
  | nil => rfl
  | cons step steps =>
    have hstep := hsteps step List.mem_cons_self
    have hfirst : join [] step.text = step.text := by
      rw [join]
      split
      · rfl
      · rw [if_pos (.inl rfl), List.nil_append]
    rw [ofComponents, List.foldl_cons, hfirst,
      foldl_join hstep.text_ne_nil hstep.getLast?_ne fun s hs => hsteps s (List.mem_cons_of_mem _ hs),
      List.map_cons]

/-! ## The way from a directory to a file below it -/

theorem differenceFrom_append (steps base : List Component) :
    differenceFrom false (base ++ steps) base = some steps := by
  induction base with
  | nil => cases steps <;> rfl
  | cons step base ih => rw [List.cons_append, differenceFrom, if_pos ⟨rfl, rfl⟩, ih]

/-! ## What entries keep -/

theorem entryPath_of_inside {path root : String} {steps : List Component}
    (habsolute : isAbsolute path.toList = isAbsolute root.toList)
    (hsteps : ∀ step ∈ steps, step.IsOnward)
    (h : components path.toList = components root.toList ++ steps)
    (hinside : steps.head? ≠ some .parent) :
    entryPath path root = String.ofList (route (steps.map Component.text)) := by
  have hdifference : difference? path.toList root.toList =
      some (route (steps.map Component.text)) := by
    rw [difference?, if_pos habsolute, h, differenceFrom_append, Option.map_some,
      ofComponents_onward hsteps]
  have hleaves : leavesUpward (route (steps.map Component.text)) = false := by
    rw [leavesUpward, components_route hsteps]
    exact beq_false_of_ne hinside
  rw [entryPath, hdifference]
  dsimp only
  rw [hleaves, if_neg Bool.false_ne_true]

/-- The steps through files and directories of these names. -/
def stepsOf (names : List String) : List Component := names.map fun name => .normal name.toList

theorem onward_stepsOf {names : List String} (hnames : ∀ name ∈ names, IsName name.toList) :
    ∀ step ∈ stepsOf names, step.IsOnward := by
  intro step hs
  obtain ⟨name, hn, rfl⟩ := List.mem_map.mp hs
  exact .normal (hnames name hn)

theorem toList_pathText (names : List String) :
    (pathText names).toList = route ((stepsOf names).map Component.text) := by
  rw [pathText, String.toList_intercalate, stepsOf, List.map_map]
  rfl

section Entries

variable (root : String) {names : List String} (hne : names ≠ [])
  (hnames : ∀ name ∈ names, IsName name.toList)

include hnames

theorem leadOf_pathText : leadOf (pathText names).toList = [] := by
  rw [toList_pathText, leadOf_route (onward_stepsOf hnames)]

theorem components_pathText : components (pathText names).toList = stepsOf names := by
  rw [toList_pathText, components_route (onward_stepsOf hnames)]

include hne

theorem toList_pathBelow :
    (pathBelow root names).toList = join root.toList (pathText names).toList := by
  rw [pathBelow, if_neg hne, resolve, isAbsolute_of_lead (leadOf_pathText hnames),
    if_neg Bool.false_ne_true, String.toList_ofList]

omit hne in
/-- **The steps of a path below a directory** are those of the directory and then the names. -/
theorem components_pathBelow :
    components (pathBelow root names).toList = components root.toList ++ stepsOf names := by
  by_cases hne : names = []
  · subst hne
    rw [pathBelow, if_pos rfl, stepsOf, List.map_nil, List.append_nil]
  · rw [toList_pathBelow root hne hnames, components_join (leadOf_pathText hnames),
      components_pathText hnames]

/-- **Entries keep the names that lead to a file** from the root of the project. -/
theorem entryPath_pathBelow : entryPath (pathBelow root names) root = pathText names := by
  have habsolute : isAbsolute (pathBelow root names).toList = isAbsolute root.toList := by
    rw [toList_pathBelow root hne hnames,
      isAbsolute_join (isAbsolute_of_lead (leadOf_pathText hnames))]
  have hinside : (stepsOf names).head? ≠ some .parent := by
    obtain ⟨name, rest, rfl⟩ := List.exists_cons_of_ne_nil hne
    simp [stepsOf]
  rw [entryPath_of_inside habsolute (onward_stepsOf hnames)
    (components_pathBelow root hnames) hinside, ← toList_pathText, String.ofList_toList]

omit hnames in
/-- **And these names lead back to it.** -/
theorem resolve_pathText : resolve root (pathText names) = pathBelow root names :=
  (if_neg hne).symm

end Entries

end SymbolIndex.Path
