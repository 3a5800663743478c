import Stratagem.Proofs.Tree.Apart

/-!
# Insertions are undone by removals

A node that is put in has an id that none of its siblings has, so a removal by that id takes out this node and no
other. Wherever the node was put, at the end or at the top, the others are left in their order: the tree is the one
from before.
-/

namespace Stratagem.Edit

/-! ## Siblings -/

section Siblings

variable {α : Type} [Named α] {items items' pre post : List α} {a : α} {n : Nat}
  {id type type' parent parent' : String} {f g : α → Except Failure α}

/-- The node that is removed is the only one of its id. -/
theorem erase_inserted (hpre : Named.id a ∉ pre.map Named.id) (hpost : Named.id a ∉ post.map Named.id) :
    erase type parent (pre ++ a :: post) (Named.id a) = .ok (pre ++ post) := by
  have hkeep : ∀ xs : List α, Named.id a ∉ xs.map Named.id → xs.filter (Named.id · != Named.id a) = xs := by
    intro xs hxs
    refine List.filter_eq_self.mpr fun b hb => ?_
    have hne : Named.id b ≠ Named.id a := fun heq => hxs (List.mem_map.mpr ⟨b, hb, heq⟩)
    simpa using hne
  rw [erase, locate]
  cases hindex : indexOf? (pre ++ a :: post) (Named.id a) with
  | none => exact absurd rfl (indexOf?_eq_none.mp hindex a (by simp))
  | some n => simp [hkeep pre hpre, hkeep post hpost]

theorem erase_head (h : Named.id a ∉ items.map Named.id) :
    erase type parent (a :: items) (Named.id a) = .ok items := by
  have herase : erase type parent ([] ++ a :: items) (Named.id a) = .ok ([] ++ items) :=
    erase_inserted List.not_mem_nil h
  exact herase

theorem erase_last (h : Named.id a ∉ items.map Named.id) :
    erase type parent (items ++ [a]) (Named.id a) = .ok items := by
  have herase : erase type parent (items ++ [a]) (Named.id a) = .ok (items ++ []) :=
    erase_inserted h List.not_mem_nil
  rwa [List.append_nil] at herase

/-- A change of one node is undone where the node is. -/
theorem update_undone (hf : KeepsId f) (h : update type parent items id f = .ok items')
    (hg : ∀ a b, items.find? (Named.id · == id) = some a → f a = .ok b → g b = .ok a) :
    update type' parent' items' id g = .ok items := by
  obtain ⟨n, a, b, hn, ha, hb, rfl⟩ := update_eq_ok.mp h
  obtain ⟨pre, post, hat, -⟩ := at_of_getElem? hn ha
  have hback : g b = .ok a := hg a b hat.find? hb
  obtain ⟨hlt, rfl⟩ := List.getElem?_eq_some_iff.mp ha
  refine update_eq_ok.mpr ⟨n, b, items[n], (indexOf?_set ha (hf _ b hb) id).trans hn, ?_, hback, ?_⟩
  · simp [hlt]
  · simp

/-- A node that was changed is found where it was found before. -/
theorem find?_update (hf : KeepsId f) (h : update type parent items id f = .ok items') :
    ∃ a b, items.find? (Named.id · == id) = some a ∧ f a = .ok b ∧ items'.find? (Named.id · == id) = some b := by
  obtain ⟨pre, a, post, b, hat, hb, rfl⟩ := at_of_update h
  have hat' : At (pre ++ b :: post) id pre b post := ⟨rfl, (hf a b hb).trans hat.named, hat.first⟩
  exact ⟨a, b, hat.find?, hb, hat'.find?⟩

end Siblings

/-! ## Addresses -/

section Addresses

variable {t t' : Tree} {slot container group : String}

theorem onBranch_undone {f g : Slot → Branch → Except Failure Branch} (h : onBranch t slot f = .ok t')
    (hg : ∀ s b, Slot.ofText slot = .ok s → f s (t.get s) = .ok b → g s b = .ok (t.get s)) :
    onBranch t' slot g = .ok t := by
  obtain ⟨s, b, hs, hb, rfl⟩ := onBranch_eq_ok.mp h
  refine onBranch_eq_ok.mpr ⟨s, t.get s, hs, ?_, ?_⟩
  · rw [PerSlot.get_set_self]
    exact hg s b hs hb
  · simp

theorem onContainer_undone {f g : Container → Except Failure Container} (hf : KeepsId f)
    (h : onContainer t slot container f = .ok t')
    (hg : ∀ c c', (containersAt t slot).find? (·.id == container) = some c → f c = .ok c' → g c' = .ok c) :
    onContainer t' slot container g = .ok t := by
  refine onBranch_undone h fun s b hs hb => ?_
  obtain ⟨containers, hupdate, hb⟩ := bind_eq_ok.mp hb
  cases hb
  rw [containersAt_eq hs] at hg
  exact bind_eq_ok.mpr ⟨(t.get s).containers, update_undone hf hupdate hg, rfl⟩

theorem onGroup_undone {f g : Group → Except Failure Group} (hf : KeepsId f)
    (h : onGroup t slot container group f = .ok t')
    (hg : ∀ k k', (groupsAt t slot container).find? (·.id == group) = some k → f k = .ok k' → g k' = .ok k) :
    onGroup t' slot container group g = .ok t := by
  refine onContainer_undone (keepsId_groups _) h fun c c' hfind hc => ?_
  obtain ⟨groups, hupdate, hc⟩ := bind_eq_ok.mp hc
  cases hc
  rw [groupsAt, hfind] at hg
  exact bind_eq_ok.mpr ⟨c.groups, update_undone hf hupdate hg, rfl⟩

/-- A container that was changed, before and after. -/
theorem groupsAt_onContainer {f : Container → Except Failure Container} (hf : KeepsId f)
    (h : onContainer t slot container f = .ok t') :
    ∃ c c', (containersAt t slot).find? (·.id == container) = some c ∧ f c = .ok c' ∧
      groupsAt t slot container = c.groups ∧ groupsAt t' slot container = c'.groups := by
  obtain ⟨s, b, hs, hb, rfl⟩ := onBranch_eq_ok.mp h
  obtain ⟨containers, hupdate, hb⟩ := bind_eq_ok.mp hb
  cases hb
  obtain ⟨c, c', hfind, hc, hfind'⟩ := find?_update hf hupdate
  have hbefore : (t.get s).containers.find? (·.id == container) = some c := hfind
  have hafter : containers.find? (·.id == container) = some c' := hfind'
  refine ⟨c, c', ?_, hc, ?_, ?_⟩
  · rw [containersAt_eq hs, hbefore]
  · rw [groupsAt, containersAt_eq hs, hbefore]
    rfl
  · rw [groupsAt, containersAt_eq hs, PerSlot.get_set_self, hafter]
    rfl

end Addresses

/-! ## Insertions -/

variable {limits limits' : Limits} {t t' : Tree} {slot container group : String}

theorem addContainer_undone {id title : String} (h : (addContainer slot id title).apply limits t = .ok t') :
    ∃ k, k ∉ (containersAt t slot).map (·.id) ∧
      (containersAt t' slot).map (·.id) = (containersAt t slot).map (·.id) ++ [k] ∧
      (removeContainer slot k).apply limits' t' = .ok t := by
  rw [apply] at h
  obtain ⟨s, b, hs, hb, ht'⟩ := onBranch_eq_ok.mp h
  obtain ⟨k, title', -, hnew, hadded⟩ := addContainerTo_eq_ok hb
  refine ⟨k, ?_, ?_, ?_⟩
  · rwa [containersAt_eq hs]
  · rw [containersAt_eq hs, containersAt_eq hs, ← ht', PerSlot.get_set_self, hadded]
    simp [Container.fresh]
  · rw [apply]
    refine onBranch_undone h fun s' b' hs' hb' => ?_
    rw [hs] at hs'
    cases hs'
    rw [hb] at hb'
    cases hb'
    rw [hadded]
    exact bind_eq_ok.mpr ⟨_, erase_last (a := Container.fresh k title') hnew, rfl⟩

theorem addGroup_undone {id name : String} (h : (addGroup slot container id name).apply limits t = .ok t') :
    ∃ k, k ∉ (groupsAt t slot container).map (·.id) ∧
      (groupsAt t' slot container).map (·.id) = (groupsAt t slot container).map (·.id) ++ [k] ∧
      (removeGroup slot container k).apply limits' t' = .ok t := by
  rw [apply] at h
  have hid : KeepsId (addGroupTo limits id name) := keepsId_addGroupTo limits id name
  obtain ⟨c, c', hfind, hc, hbefore, hafter⟩ := groupsAt_onContainer hid h
  obtain ⟨k, name', -, hnew, -, hadded⟩ := addGroupTo_eq_ok hc
  refine ⟨k, ?_, ?_, ?_⟩
  · rwa [hbefore]
  · rw [hbefore, hafter, hadded]
    simp [freshGroup]
  · rw [apply]
    refine onContainer_undone hid h fun d d' hfind' hd => ?_
    rw [hfind] at hfind'
    cases hfind'
    rw [hc] at hd
    cases hd
    rw [hadded]
    exact bind_eq_ok.mpr ⟨_, erase_last (a := freshGroup k name') hnew, rfl⟩

theorem saveCondition_undone {c : Condition} (h : (saveCondition slot container group c).apply limits t = .ok t')
    (hnew : c.id ∉ (conditionsAt t slot container group).map (·.id)) :
    (removeCondition slot container group c.id).apply limits' t' = .ok t := by
  rw [apply] at h
  obtain ⟨u, -, h⟩ := bind_eq_ok.mp h
  rw [apply]
  refine onGroup_undone (keepsId_saveConditionIn limits c) h fun g g' hfind hg => ?_
  rw [conditionsAt, hfind] at hnew
  obtain ⟨pre, post, rfl, ⟨k, hat⟩ | ⟨-, -, rfl, rfl⟩⟩ := saveConditionIn_eq_ok hg
  · -- a condition of this id would be replaced, but there is none
    have hk : k ∈ g.conditions := by simp [hat.split]
    exact absurd (List.mem_map.mpr ⟨k, hk, hat.named⟩) hnew
  · refine bind_eq_ok.mpr ⟨g.conditions, ?_, rfl⟩
    dsimp only
    split
    · rw [List.append_nil]
      exact erase_head hnew
    · exact erase_last hnew

/-- **Removing what was put in restores the tree.** A container or a group that is added gets an id that is new among
its siblings, and removing the node of that id leads back; so does removing a condition that was saved under a new
id, required or not. -/
theorem removal_restores (limits limits' : Limits) (t : Tree) :
    (∀ slot id title t', (addContainer slot id title).apply limits t = .ok t' →
      ∃ k, k ∉ (containersAt t slot).map (·.id) ∧
        (containersAt t' slot).map (·.id) = (containersAt t slot).map (·.id) ++ [k] ∧
        (removeContainer slot k).apply limits' t' = .ok t) ∧
    (∀ slot container id name t', (addGroup slot container id name).apply limits t = .ok t' →
      ∃ k, k ∉ (groupsAt t slot container).map (·.id) ∧
        (groupsAt t' slot container).map (·.id) = (groupsAt t slot container).map (·.id) ++ [k] ∧
        (removeGroup slot container k).apply limits' t' = .ok t) ∧
    (∀ slot container group c t', (saveCondition slot container group c).apply limits t = .ok t' →
      c.id ∉ (conditionsAt t slot container group).map (·.id) →
        (removeCondition slot container group c.id).apply limits' t' = .ok t) := by
  refine ⟨?_, ?_, ?_⟩
  · intro slot id title t' h
    exact addContainer_undone h
  · intro slot container id name t' h
    exact addGroup_undone h
  · intro slot container group c t' h hnew
    exact saveCondition_undone h hnew

/-- A container, a group and a condition of made-up ids, and what is left of them. -/
theorem removal_restores_paired :
    (∃ t k, (addContainer "entry-long" "" "More").apply .default paired = .ok t ∧
      (containersAt t "entry.long").map (·.id) = ["open-long", k] ∧
      (removeContainer "entry-long" k).apply .default t = .ok paired) ∧
    (∃ t k, (addGroup "entry.long" "open-long" "" "Late").apply .default paired = .ok t ∧
      (groupsAt t "entry.long" "open-long").map (·.id) = ["open-long-group-1", "open-long-group-2", k] ∧
      (removeGroup "entry.long" "open-long" k).apply .default t = .ok paired) ∧
    ∃ t, (saveCondition "entry.long" "open-long" "open-long-group-1" (bounded "dip" true)).apply .default paired
        = .ok t ∧
      (conditionsAt t "entry.long" "open-long" "open-long-group-1").map (·.id) = ["dip", "low"] ∧
      (removeCondition "entry.long" "open-long" "open-long-group-1" "dip").apply .default t = .ok paired := by
  have hrun : (do
      let t₁ ← (addContainer "entry-long" "" "More").apply .default paired
      let t₂ ← (addGroup "entry.long" "open-long" "" "Late").apply .default paired
      let t₃ ← (saveCondition "entry.long" "open-long" "open-long-group-1" (bounded "dip" true)).apply .default paired
      return (conditionsAt t₃ "entry.long" "open-long" "open-long-group-1").map Condition.id).toOption
        = some ["dip", "low"] := by
    decide +kernel
  obtain ⟨t₁, h₁, hrun⟩ := bind_eq_ok.mp (eq_ok_of_toOption hrun)
  obtain ⟨t₂, h₂, hrun⟩ := bind_eq_ok.mp hrun
  obtain ⟨t₃, h₃, hrun⟩ := bind_eq_ok.mp hrun
  obtain ⟨hcontainers, hgroups, hconditions⟩ := removal_restores .default .default paired
  obtain ⟨k₁, -, hids₁, hback₁⟩ := hcontainers _ _ _ _ h₁
  obtain ⟨k₂, -, hids₂, hback₂⟩ := hgroups _ _ _ _ _ h₂
  have hback₃ := hconditions _ _ _ _ _ h₃ (by decide +kernel)
  exact ⟨⟨t₁, k₁, h₁, hids₁, hback₁⟩, ⟨t₂, k₂, h₂, hids₂, hback₂⟩, t₃, h₃, Except.ok.inj hrun, hback₃⟩

end Stratagem.Edit
