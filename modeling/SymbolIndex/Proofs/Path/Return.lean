import SymbolIndex.Proofs.Path.Below

/-!
# The way back to a file

An entry keeps a path as it is unless it is inside of the root of the project, and then only the
steps from there on. Either way the root and what is kept lead back to where the path leads, through
the same steps, so that no two files are mistaken for each other.

* `exists_onward`: the steps of an absolute path;
* `differenceFrom_cases`: the way from one path to another goes on from it or out of it;
* `entryPath_of_outside`: what entries keep of a path outside of the root;
* `leadsBack`: what entries keep leads back.
-/

namespace SymbolIndex.Path

open Text

theorem exists_onward {path : List Char} (h : isAbsolute path = true) :
    ∃ steps, components path = .root :: steps ∧ ∀ step ∈ steps, step.IsOnward := by
  refine ⟨_, by rw [components_eq, leadOf, if_pos h, List.singleton_append], fun step hs => ?_⟩
  obtain ⟨piece, hpiece, hstep⟩ := List.mem_filterMap.mp hs
  have hslash : '/' ∉ piece := fun hmem => by
    have huncut := uncut_of_mem_splitAt hpiece _ hmem
    simp at huncut
  exact isOnward_of_step? hslash hstep

/-! ## The way from one path to another -/

theorem differenceFrom_nil (base : List Component) :
    differenceFrom true [] base = some (base.map fun _ => .parent) := by
  induction base with
  | nil => rfl
  | cons step base ih => rw [differenceFrom, ih, Option.map_some, List.map_cons]

/-- **The way from one path to another** goes on from it where it is inside, and begins by leaving
its last directory anywhere else. -/
theorem differenceFrom_cases {steps base way : List Component}
    (hsteps : ∀ step ∈ steps, step.IsOnward) (hbase : ∀ step ∈ base, step.IsOnward)
    (h : differenceFrom false steps base = some way) :
    steps = base ++ way ∨ ∃ rest, way = .parent :: rest ∧ ∀ step ∈ rest, step.IsOnward := by
  have hparents : ∀ base : List Component,
      ∀ step ∈ base.map fun _ => Component.parent, step.IsOnward := by
    intro base step hs
    obtain ⟨_, -, rfl⟩ := List.mem_map.mp hs
    exact .parent
  induction base generalizing steps with
  | nil =>
    left
    cases steps <;> simpa [differenceFrom] using h
  | cons other base ih =>
    cases steps with
    | nil =>
      rw [differenceFrom, differenceFrom_nil, Option.map_some] at h
      exact .inr ⟨_, (Option.some.inj h).symm, hparents base⟩
    | cons step steps =>
      rw [differenceFrom] at h
      split_ifs at h with hsame hcurrent hparent
      · -- the step is common to both
        obtain rfl := hsame.2
        rcases ih (fun s hs => hsteps s (List.mem_cons_of_mem _ hs))
          (fun s hs => hbase s (List.mem_cons_of_mem _ hs)) h with hgo | hleave
        · exact .inl (by rw [hgo, List.cons_append])
        · exact .inr hleave
      · subst hcurrent
        cases hbase _ List.mem_cons_self
      · refine .inr ⟨_, (Option.some.inj h).symm, fun s hs => ?_⟩
        rcases List.mem_append.mp hs with hs | hs
        · exact hparents base s hs
        · exact hsteps s hs

theorem entryPath_of_outside {path root : String} (hpath : isAbsolute path.toList = true)
    (hroot : isAbsolute root.toList = true)
    (h : ∀ steps, components path.toList = components root.toList ++ steps →
      steps.head? = some .parent) : entryPath path root = path := by
  obtain ⟨steps, hcpath, hsteps⟩ := exists_onward hpath
  obtain ⟨base, hcroot, hbase⟩ := exists_onward hroot
  have hdifference : difference? path.toList root.toList =
      (differenceFrom false steps base).map ofComponents := by
    rw [difference?, hpath, hroot, if_pos rfl, hcpath, hcroot, differenceFrom, if_pos ⟨rfl, rfl⟩]
  rw [entryPath, hdifference]
  cases hway : differenceFrom false steps base with
  | none => rfl
  | some way =>
    have hleaves : leavesUpward (ofComponents way) = true := by
      have honward : way.head? = some .parent ∧ ∀ step ∈ way, step.IsOnward := by
        rcases differenceFrom_cases hsteps hbase hway with hgo | ⟨rest, rfl, hrest⟩
        · have hhead := h way (by rw [hcpath, hcroot, hgo, List.cons_append])
          exact ⟨hhead, fun step hs => hsteps step (hgo ▸ List.mem_append_right _ hs)⟩
        · refine ⟨rfl, fun step hs => ?_⟩
          rcases List.mem_cons.mp hs with rfl | hs
          · exact .parent
          · exact hrest step hs
      rw [ofComponents_onward honward.2, leavesUpward, components_route honward.2, honward.1]
      rfl
    rw [Option.map_some]
    dsimp only
    rw [if_pos hleaves]

/-! ## And back -/

/-- What is kept of a path leads through the same steps as the path. -/
theorem components_resolve_entryPath {root path : String} (hroot : isAbsolute root.toList = true)
    (hpath : isAbsolute path.toList = true) :
    components (resolve root (entryPath path root)).toList = components path.toList := by
  by_cases hinside : ∃ steps, components path.toList = components root.toList ++ steps ∧
      steps.head? ≠ some .parent
  · obtain ⟨steps, hcomponents, hhead⟩ := hinside
    obtain ⟨all, hcpath, hall⟩ := exists_onward hpath
    obtain ⟨base, hcroot, -⟩ := exists_onward hroot
    have hsteps : ∀ step ∈ steps, step.IsOnward := by
      rw [hcpath, hcroot, List.cons_append] at hcomponents
      obtain rfl := List.tail_eq_of_cons_eq hcomponents
      exact fun step hs => hall step (List.mem_append_right _ hs)
    have hlead := leadOf_route hsteps
    rw [entryPath_of_inside (hpath.trans hroot.symm) hsteps hcomponents hhead, resolve,
      String.toList_ofList, isAbsolute_of_lead hlead, if_neg Bool.false_ne_true,
      String.toList_ofList, components_join hlead, components_route hsteps, hcomponents]
  · have houtside : ∀ steps, components path.toList = components root.toList ++ steps →
        steps.head? = some .parent :=
      fun steps h => by_contra fun hhead => hinside ⟨steps, h, hhead⟩
    rw [entryPath_of_outside hpath hroot houtside, resolve, if_pos hpath]

/-- **What entries keep of a path leads back to it** from the root of the project, through the same
steps, wherever the path leads; and so paths of different steps are kept apart. -/
theorem leadsBack {root : String} (hroot : isAbsolute root.toList = true) :
    (∀ path : String, isAbsolute path.toList = true →
      components (resolve root (entryPath path root)).toList = components path.toList) ∧
    ∀ path other : String, isAbsolute path.toList = true → isAbsolute other.toList = true →
      components path.toList ≠ components other.toList →
        entryPath path root ≠ entryPath other root := by
  refine ⟨fun path hpath => components_resolve_entryPath hroot hpath, ?_⟩
  intro path other hpath hother hne hsame
  apply hne
  rw [← components_resolve_entryPath hroot hpath, hsame, components_resolve_entryPath hroot hother]

/-- Of two files of one name, the first is inside of the root and the second beside it. -/
theorem leadsBack_sameName :
    isAbsolute "/work/project/".toList = true ∧
    isAbsolute "/work/./project/src/../a.h".toList = true ∧
    isAbsolute "/work/project/../a.h".toList = true ∧
    components (resolve "/work/project/"
        (entryPath "/work/./project/src/../a.h" "/work/project/")).toList =
      components "/work/./project/src/../a.h".toList ∧
    components "/work/./project/src/../a.h".toList ≠ components "/work/project/../a.h".toList ∧
    entryPath "/work/./project/src/../a.h" "/work/project/" ≠
      entryPath "/work/project/../a.h" "/work/project/" := by
  have hroot : isAbsolute "/work/project/".toList = true := by decide
  have hinside : isAbsolute "/work/./project/src/../a.h".toList = true := by decide
  have hbeside : isAbsolute "/work/project/../a.h".toList = true := by decide
  have hne : components "/work/./project/src/../a.h".toList ≠
      components "/work/project/../a.h".toList := by decide
  exact ⟨hroot, hinside, hbeside, (leadsBack hroot).1 _ hinside, hne,
    (leadsBack hroot).2 _ _ hinside hbeside hne⟩

end SymbolIndex.Path
