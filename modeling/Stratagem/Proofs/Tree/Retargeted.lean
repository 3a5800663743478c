import Stratagem.Proofs.Session.Removal
import Stratagem.Proofs.Tree.Walk

/-!
# Uses move with an edited indicator

A tree is retargeted reference by reference, so a walk over it finds at each place what the change makes of the
reference that stood there. The places where the new indicator is used afterwards are those where the old or the new
one was used before.
-/

namespace Stratagem

/-! ## Walks over changed references -/

section Walks

variable {f : ValueRef → ValueRef}

theorem Condition.positions_mapRefs (f : ValueRef → ValueRef) (c : Condition) :
    (c.mapRefs f).positions = c.positions.map fun entry => (entry.1, entry.2.mapRef f) := by
  rw [positions, positions, operands_mapRefs, List.zip_map_right]
  rfl

theorem Operand.series?_mapRef (hf : ∀ r, (f r).isLiteral = r.isLiteral) (o : Operand) :
    (o.mapRef f).series? = o.series?.map f := by
  cases o with
  | number x => rfl
  | ref r =>
      rw [mapRef, series?, series?, hf]
      split <;> rfl

namespace Tree

/-- The places of the conditions stay. -/
theorem conditions_mapRefs (f : ValueRef → ValueRef) (t : Tree) :
    (t.mapRefs f).conditions false = (t.conditions false).map fun entry => (entry.1, entry.2.mapRefs f) := by
  have hbranch : ∀ slot (b : Branch), branchConditions false slot (b.mapRefs f) =
      (branchConditions false slot b).map fun entry => (entry.1, entry.2.mapRefs f) := by
    intro slot b
    simp [branchConditions, visited, Branch.mapRefs, Container.mapRefs, Group.mapRefs, List.flatMap_map,
      List.map_flatMap, Function.comp_def, Condition.mapRefs]
  rw [conditions, conditions, mapRefs, PerSlot.toList_map, List.flatMap_map, List.map_flatMap]
  exact List.flatMap_congr fun entry _ => hbranch entry.1 entry.2

theorem conditionSeries_mapRefs (hf : ∀ r, (f r).isLiteral = r.isLiteral) (path : Path) (c : Condition) :
    conditionSeries (path, c.mapRefs f) = (conditionSeries (path, c)).map fun use => (use.1, f use.2) := by
  rw [conditionSeries, conditionSeries, Condition.positions_mapRefs, List.filterMap_map, List.map_filterMap]
  refine List.filterMap_congr fun entry _ => ?_
  simp [Operand.series?_mapRef hf, Function.comp_def]

/-- If literals stay literals, every other operand is found where it was. -/
theorem series_mapRefs (hf : ∀ r, (f r).isLiteral = r.isLiteral) (t : Tree) :
    (t.mapRefs f).series false = (t.series false).map fun use => (use.1, f use.2) := by
  rw [series, series, conditions_mapRefs, List.flatMap_map, List.map_flatMap]
  exact List.flatMap_congr fun entry _ => conditionSeries_mapRefs hf entry.1 entry.2

end Tree

end Walks

/-! ## Uses -/

namespace Edit

variable {old new : Indicator} {r q : ValueRef}

theorem Addresses.isLiteral {i : Indicator} (h : Addresses r i) : r.isLiteral = false := by
  rw [ValueRef.isLiteral, h.1]
  rfl

theorem Addresses.key_unique {i j : Indicator} (hi : Addresses r i) (hj : Addresses r j) : i.key = j.key :=
  hi.2.trans hj.2.symm

/-- **The uses of an edited indicator move with it.** Retargeting changes the references to the old indicator and
nothing else of a tree. The operands that use the new one afterwards are those that used one of the two before, and
where their keys differ none uses the old one. A reference that is changed reads an output of the new indicator. It
takes the window of the new one if it has that of the old one, and keeps its own otherwise. So it is with the
calculation mode, as it is written at the old one: a blank one is not that of any reference. -/
theorem retargetTree_usages (hold : old.Referable) (hnew : new.Referable) (t : Tree) :
    ∃ f t' ofOld ofNew moved, retargetTree old new t = .ok t' ∧ t' = t.mapRefs f ∧
      (∀ r, ¬ Addresses r old → f r = r) ∧ (∀ r, Addresses r old → Redirected old new r (f r)) ∧
      t.usages old = .ok ofOld ∧ t.usages new = .ok ofNew ∧ t'.usages new = .ok moved ∧
      (∀ path, path ∈ moved.map (·.path) ↔ path ∈ ofOld.map (·.path) ∨ path ∈ ofNew.map (·.path)) ∧
      (old.key ≠ new.key → t'.usages old = .ok []) := by
  choose f hf hother hredirected using retargetRef_exists hold hnew
  have hliteral : ∀ r, (f r).isLiteral = r.isLiteral := by
    intro r
    by_cases hr : Addresses r old
    · rw [hr.isLiteral, (hredirected r hr).addresses.isLiteral]
    · rw [hother r hr]
  have huses : ∀ r, Addresses (f r) new ↔ Addresses r old ∨ Addresses r new := by
    intro r
    by_cases hr : Addresses r old
    · exact iff_of_true (hredirected r hr).addresses (Or.inl hr)
    · rw [hother r hr, or_iff_right hr]
  refine ⟨f, t.mapRefs f, _, _, _, retargetTree_eq hf t, rfl, hother, hredirected, Tree.usages_eq_ok hold t,
    Tree.usages_eq_ok hnew t, Tree.usages_eq_ok hnew _, fun path => ?_, fun hkeys => ?_⟩
  · rw [Tree.mem_usages_path hnew (Tree.usages_eq_ok hnew _), Tree.mem_usages_path hold (Tree.usages_eq_ok hold t),
      Tree.mem_usages_path hnew (Tree.usages_eq_ok hnew t), Tree.series_mapRefs hliteral]
    constructor
    · rintro ⟨q, hq, haddresses⟩
      obtain ⟨⟨path', r⟩, hr, heq⟩ := List.mem_map.mp hq
      cases heq
      rcases (huses r).mp haddresses with h | h
      · exact Or.inl ⟨r, hr, h⟩
      · exact Or.inr ⟨r, hr, h⟩
    · rintro (⟨r, hr, h⟩ | ⟨r, hr, h⟩)
      · exact ⟨f r, List.mem_map.mpr ⟨_, hr, rfl⟩, (huses r).mpr (Or.inl h)⟩
      · exact ⟨f r, List.mem_map.mpr ⟨_, hr, rfl⟩, (huses r).mpr (Or.inr h)⟩
  · have hnone : ∀ r, ¬ Addresses (f r) old := by
      intro r haddresses
      by_cases hr : Addresses r old
      · exact hkeys (haddresses.key_unique (hredirected r hr).addresses)
      · rw [hother r hr] at haddresses
        exact hr haddresses
    rw [Tree.usages_eq_ok hold, Tree.series_mapRefs hliteral]
    have hempty : ((t.series false).map fun use => (use.1, f use.2)).filter (fun use => Addresses use.2 old) = [] := by
      refine List.filter_eq_nil_iff.mpr fun use huse => ?_
      obtain ⟨⟨path, r⟩, -, rfl⟩ := List.mem_map.mp huse
      simpa using hnone r
    rw [hempty]
    rfl

/-- What an indicator without a calculation mode refers to. -/
def unmoded : ValueRef := { Session.level with calcMode := ValueRef.defaultCalcMode }

/-- The reference takes the parameters of the edited indicator, but stays in the mode that it got in place of none. -/
theorem retargetTree_usages_unmoded :
    let old := Selection.strength "level" ""
    let new := { Selection.strength "level" "OnTick" with params := [21] }
    let t := Session.watching.tree.mapRefs fun r => { r with calcMode := ValueRef.defaultCalcMode }
    old.ref .null = .ok unmoded ∧ ∃ f moved, retargetTree old new t = .ok (t.mapRefs f) ∧
      (t.mapRefs f).usages new = .ok moved ∧ moved.map (·.path.operand) = ["right"] ∧
      (t.mapRefs f).usages old = .ok [] ∧ Addresses (f unmoded) new ∧
      new.mode = "OnTick" ∧ (f unmoded).calcMode = "OnBarClose" := by
  intro old new t
  have hold : old.Referable := ⟨⟨_, rfl⟩, List.forall_mem_singleton.mpr rfl⟩
  have hnew : new.Referable := ⟨⟨_, rfl⟩, List.forall_mem_singleton.mpr rfl⟩
  have hkeys : old.key ≠ new.key := fun h => absurd (congrArg Except.toOption h) (by decide +kernel)
  have hused : Addresses unmoded old := by decide +kernel
  obtain ⟨f, t', -, -, moved, ht', rfl, -, hredirected, -, -, hmoved, -, hnone⟩ := retargetTree_usages hold hnew t
  have hrun : (do
      let t' ← retargetTree old new t
      let moved ← t'.usages new
      return moved.map fun use : Usage => use.path.operand).toOption = some ["right"] := by
    decide +kernel
  have hplaces := eq_ok_of_toOption hrun
  rw [ht', ok_bind, hmoved, ok_bind] at hplaces
  have hmode : (f unmoded).calcMode = "OnBarClose" := by
    rw [(hredirected unmoded hused).mode]
    decide +kernel
  exact ⟨rfl, f, moved, ht', hmoved, Except.ok.inj hplaces, hnone hkeys, (hredirected unmoded hused).addresses, rfl,
    hmode⟩

end Edit

end Stratagem
