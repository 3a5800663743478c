import Stratagem.Proofs.Tree.Valid

/-!
# Edits at different places commute

Most edits work inside one container, and some inside one of its groups: that is the `site` of the edit. Such an
edit is a change of the node at its site and keeps the id of that node, so an edit elsewhere finds what it would
have found before. Two edits at sites that are apart may be made in either order.
-/

namespace Stratagem.Edit

/-! ## Sites -/

/-- A place in a tree that an edit keeps to: a container, or one group in it. -/
structure Site where
  slot : String
  container : String
  /-- The group, if the edit leaves the rest of the container alone. -/
  group? : Option String

/-- The place that the edit keeps to, if that is inside one container. -/
def site? : Edit → Option Site
  | addGroup slot container _ _ | removeGroup slot container _ | toggleGroup slot container _ _ =>
    some ⟨slot, container, none⟩
  | setMinPass slot _ (some container) group? => some ⟨slot, container, group?⟩
  | saveCondition slot container group _ | removeCondition slot container group _
  | toggleCondition slot container group _ _ => some ⟨slot, container, some group⟩
  | _ => none

/-- Sites in different slots, in different containers, or in different groups. -/
def Site.Apart (p q : Site) : Prop :=
  Slot.ofText p.slot ≠ Slot.ofText q.slot ∨ p.container ≠ q.container ∨
    ∃ g ∈ p.group?, ∃ g' ∈ q.group?, g ≠ g'

/-! ## Changes that commute -/

section Changes

variable {α : Type}

/-- Where each of two changes can be made, they can be made one after the other, and it does not matter which is
made first. -/
def Interchange (f g : α → Except Failure α) : Prop :=
  ∀ a b c, f a = .ok b → g a = .ok c → ∃ d, g b = .ok d ∧ f c = .ok d

def KeepsId [Named α] (f : α → Except Failure α) : Prop :=
  ∀ a b, f a = .ok b → Named.id b = Named.id a

/-- Siblings of different ids are changed in either order, and so is one sibling by changes of which that is true. -/
theorem update_interchange [Named α] {id id' type type' parent parent' : String} {f g : α → Except Failure α}
    (hf : KeepsId f) (hg : KeepsId g) (h : id ≠ id' ∨ Interchange f g) :
    Interchange (update type parent · id f) (update type' parent' · id' g) := by
  intro items items₁ items₂ h₁ h₂
  obtain ⟨n, a, b, hn, ha, hb, rfl⟩ := update_eq_ok.mp h₁
  obtain ⟨m, a', b', hm, ha', hb', rfl⟩ := update_eq_ok.mp h₂
  have hn' := (indexOf?_set ha' (hg a' b' hb') id).trans hn
  have hm' := (indexOf?_set ha (hf a b hb) id').trans hm
  by_cases hnm : n = m
  · -- one place, hence one id
    subst hnm
    rw [ha] at ha'
    cases ha'
    obtain ⟨_, _, hat, -⟩ := at_of_getElem? hn ha
    obtain ⟨_, _, hat', -⟩ := at_of_getElem? hm ha
    have hid : id = id' := hat.named.symm.trans hat'.named
    obtain ⟨d, hd, hd'⟩ := h.resolve_left (fun hne => hne hid) a b b' hb hb'
    have hlt := (List.getElem?_eq_some_iff.mp ha).1
    refine ⟨items.set n d, update_eq_ok.mpr ⟨n, b, d, hm', ?_, hd, ?_⟩,
      update_eq_ok.mpr ⟨n, b', d, hn', ?_, hd', ?_⟩⟩ <;> simp [hlt]
  · refine ⟨(items.set n b).set m b', update_eq_ok.mpr ⟨m, a', b', hm', ?_, hb', rfl⟩,
      update_eq_ok.mpr ⟨n, a, b, hn', ?_, hb, ?_⟩⟩
    · rw [List.getElem?_set_ne hnm, ha']
    · rw [List.getElem?_set_ne (Ne.symm hnm), ha]
    · exact List.set_comm b b' hnm

theorem onBranch_interchange {slot slot' : String} {f g : Slot → Branch → Except Failure Branch}
    (h : Slot.ofText slot ≠ Slot.ofText slot' ∨ ∀ s, Interchange (f s) (g s)) :
    Interchange (onBranch · slot f) (onBranch · slot' g) := by
  intro t t₁ t₂ h₁ h₂
  obtain ⟨s, b, hs, hb, rfl⟩ := onBranch_eq_ok.mp h₁
  obtain ⟨s', b', hs', hb', rfl⟩ := onBranch_eq_ok.mp h₂
  by_cases hss : s = s'
  · subst hss
    have hslots : Slot.ofText slot = Slot.ofText slot' := hs.trans hs'.symm
    obtain ⟨d, hd, hd'⟩ := h.resolve_left (fun hne => hne hslots) s _ b b' hb hb'
    refine ⟨t.set s d, onBranch_eq_ok.mpr ⟨s, d, hs', ?_, ?_⟩, onBranch_eq_ok.mpr ⟨s, d, hs, ?_, ?_⟩⟩ <;>
      simp [hd, hd']
  · refine ⟨(t.set s b).set s' b', onBranch_eq_ok.mpr ⟨s', b', hs', ?_, rfl⟩,
      onBranch_eq_ok.mpr ⟨s, b, hs, ?_, ?_⟩⟩
    · rw [PerSlot.get_set, if_neg (Ne.symm hss), hb']
    · rw [PerSlot.get_set, if_neg hss, hb]
    · exact (t.set_comm hss b b').symm

/-- Changes at two containers commute, and changes of one container if they commute there. -/
theorem onContainer_interchange {slot slot' id id' : String} {f g : Container → Except Failure Container}
    (hf : KeepsId f) (hg : KeepsId g)
    (h : Slot.ofText slot ≠ Slot.ofText slot' ∨ id ≠ id' ∨ Interchange f g) :
    Interchange (onContainer · slot id f) (onContainer · slot' id' g) := by
  refine onBranch_interchange (h.imp_right fun h s b b₁ b₂ h₁ h₂ => ?_)
  obtain ⟨containers₁, hc₁, h₁⟩ := bind_eq_ok.mp h₁
  obtain ⟨containers₂, hc₂, h₂⟩ := bind_eq_ok.mp h₂
  cases h₁
  cases h₂
  obtain ⟨containers, hc, hc'⟩ := update_interchange hf hg h b.containers containers₁ containers₂ hc₁ hc₂
  exact ⟨{ b with containers }, bind_eq_ok.mpr ⟨containers, hc, rfl⟩, bind_eq_ok.mpr ⟨containers, hc', rfl⟩⟩

/-- A change of one group, as a change of its container. -/
def inGroup (id : String) (change : Group → Except Failure Group) (c : Container) : Except Failure Container := do
  return { c with groups := ← update "group" c.id c.groups id change }

theorem inGroup_interchange {id id' : String} {f g : Group → Except Failure Group} (hf : KeepsId f)
    (hg : KeepsId g) (h : id ≠ id') : Interchange (inGroup id f) (inGroup id' g) := by
  intro c c₁ c₂ h₁ h₂
  obtain ⟨groups₁, hg₁, h₁⟩ := bind_eq_ok.mp h₁
  obtain ⟨groups₂, hg₂, h₂⟩ := bind_eq_ok.mp h₂
  cases h₁
  cases h₂
  obtain ⟨groups, hg, hg'⟩ := update_interchange hf hg (Or.inl h) c.groups groups₁ groups₂ hg₁ hg₂
  exact ⟨{ c with groups }, bind_eq_ok.mpr ⟨groups, hg, rfl⟩, bind_eq_ok.mpr ⟨groups, hg', rfl⟩⟩

end Changes

/-! ## Edits at a site -/

theorem keepsId_groups (f : Container → Except Failure (List Group)) :
    KeepsId fun c => do return { c with groups := ← f c } := by
  intro c c' h
  obtain ⟨groups, -, h⟩ := bind_eq_ok.mp h
  cases h
  rfl

theorem keepsId_conditions (f : Group → Except Failure (List Condition)) :
    KeepsId fun g => do return { g with conditions := ← f g } := by
  intro g g' h
  obtain ⟨conditions, -, h⟩ := bind_eq_ok.mp h
  cases h
  rfl

theorem keepsId_addGroupTo (limits : Limits) (id name : String) : KeepsId (addGroupTo limits id name) := by
  intro c c' h
  obtain ⟨id, name, -, -, -, rfl⟩ := addGroupTo_eq_ok h
  rfl

theorem keepsId_saveConditionIn (limits : Limits) (c : Condition) : KeepsId (saveConditionIn limits c) := by
  intro g g' h
  obtain ⟨pre, post, rfl, -⟩ := saveConditionIn_eq_ok h
  rfl

/-- What is run is a change of the container at the site, and of the group there if the site has one. -/
structure ActsAt (run : Tree → Except Failure Tree) (p : Site) (change : Container → Except Failure Container) :
    Prop where
  keepsId : KeepsId change
  run_eq : ∀ t, run t = onContainer t p.slot p.container change
  group : ∀ g ∈ p.group?, ∃ inner, KeepsId inner ∧ change = inGroup g inner

variable {limits limits' : Limits} {t t' t₁ t₂ : Tree} {slot container group : String}

theorem actsAt_container {change : Container → Except Failure Container} (h : KeepsId change) :
    ActsAt (onContainer · slot container change) ⟨slot, container, none⟩ change :=
  ⟨h, fun _ => rfl, nofun⟩

theorem actsAt_group {change : Group → Except Failure Group} (h : KeepsId change) :
    ActsAt (onGroup · slot container group change) ⟨slot, container, some group⟩ (inGroup group change) := by
  refine ⟨keepsId_groups _, fun _ => rfl, ?_⟩
  rintro g ⟨⟩
  exact ⟨change, h, rfl⟩

/-- An edit that can be made at all acts at its site, whatever the tree. -/
theorem apply_actsAt {e : Edit} {p : Site} (hp : e.site? = some p) (h : e.apply limits t = .ok t') :
    ∃ change, ActsAt (e.apply limits) p change := by
  cases e with
  | addGroup slot container id name =>
      cases hp
      exact ⟨_, actsAt_container (keepsId_addGroupTo limits id name)⟩
  | removeGroup slot container id =>
      cases hp
      exact ⟨_, actsAt_container (keepsId_groups fun c => erase "group" c.id c.groups id)⟩
  | toggleGroup slot container id flag =>
      cases hp
      exact ⟨_, actsAt_container (keepsId_groups fun c => toggle "group" c.id c.groups id flag)⟩
  | setMinPass slot value container? group? =>
      -- the value was accepted, so it is accepted on every tree
      have hvalue : ¬ value < 0 := by
        intro hneg
        rw [apply, if_pos hneg] at h
        exact absurd h bind_throw_ne_ok
      have hrun : (setMinPass slot value container? group?).apply limits =
          (setMinPassOf · slot value container? group?) := by
        funext u
        rw [apply, if_neg hvalue]
      rw [hrun]
      cases container? with
      | none => cases hp
      | some container =>
          cases hp
          cases group? with
          | none => exact ⟨_, actsAt_container fun c c' hc => by cases hc; rfl⟩
          | some group => exact ⟨_, actsAt_group fun g g' hg => by cases hg; rfl⟩
  | saveCondition slot container group condition =>
      cases hp
      obtain ⟨u, hcheck, -⟩ := bind_eq_ok.mp h
      have hrun : (saveCondition slot container group condition).apply limits =
          (onGroup · slot container group (saveConditionIn limits condition)) := by
        funext u
        rw [apply, hcheck, ok_bind]
      rw [hrun]
      exact ⟨_, actsAt_group (keepsId_saveConditionIn limits condition)⟩
  | removeCondition slot container group id =>
      cases hp
      exact ⟨_, actsAt_group (keepsId_conditions fun g => erase "condition" g.id g.conditions id)⟩
  | toggleCondition slot container group id flag =>
      cases hp
      exact ⟨_, actsAt_group (keepsId_conditions fun g => toggle "condition" g.id g.conditions id flag)⟩
  | setBranchEnabled | addContainer | removeContainer | toggleContainer | retarget => cases hp

/-- **Edits at different places commute.** If each of two edits can be made, and they keep to different containers or
to different groups, then either can be made after the other, and both orders lead to one tree. -/
theorem edits_commute {e e' : Edit} {p q : Site} (hp : e.site? = some p) (hq : e'.site? = some q)
    (hapart : p.Apart q) (h₁ : e.apply limits t = .ok t₁) (h₂ : e'.apply limits' t = .ok t₂) :
    ∃ t', e'.apply limits' t₁ = .ok t' ∧ e.apply limits t₂ = .ok t' := by
  obtain ⟨f, hf⟩ := apply_actsAt hp h₁
  obtain ⟨g, hg⟩ := apply_actsAt hq h₂
  have hcommute : Slot.ofText p.slot ≠ Slot.ofText q.slot ∨ p.container ≠ q.container ∨ Interchange f g := by
    rcases hapart with hslot | hcontainer | ⟨x, hx, y, hy, hne⟩
    · exact Or.inl hslot
    · exact Or.inr (Or.inl hcontainer)
    · obtain ⟨inner, hinner, rfl⟩ := hf.group x hx
      obtain ⟨inner', hinner', rfl⟩ := hg.group y hy
      exact Or.inr (Or.inr (inGroup_interchange hinner hinner' hne))
  simp only [hf.run_eq, hg.run_eq] at h₁ h₂ ⊢
  exact onContainer_interchange hf.keepsId hg.keepsId hcommute t t₁ t₂ h₁ h₂

def bounded (id : String) (required : Bool) : Condition :=
  ⟨id, "LessThan", .hourlyClose, .number 30, none, true, required⟩

def paired : Tree :=
  run .default Tree.empty [.addGroup "entry.long" "open-long" "" "", .addGroup "entry.long" "open-long" "" "",
    .saveCondition "entry.long" "open-long" "open-long-group-1" (bounded "low" false),
    .saveCondition "entry.long" "open-long" "open-long-group-2" (bounded "late" false)]

/-- In one group a condition is saved and moves to the top, while in the other one is removed. -/
theorem edits_commute_paired :
    let save : Edit := .saveCondition "entry.long" "open-long" "open-long-group-1" (bounded "dip" true)
    let remove : Edit := .removeCondition "open-long" "open-long" "open-long-group-2" "late"
    ∃ t₁ t₂ t', save.apply .default paired = .ok t₁ ∧ remove.apply .default paired = .ok t₂ ∧
      remove.apply .default t₁ = .ok t' ∧ save.apply .default t₂ = .ok t' := by
  intro save remove
  have hrun : (do
      let _ ← save.apply .default paired
      let _ ← remove.apply .default paired).toOption = some () := by
    decide +kernel
  obtain ⟨t₁, h₁, hrun⟩ := bind_eq_ok.mp (eq_ok_of_toOption hrun)
  obtain ⟨t₂, h₂, -⟩ := bind_eq_ok.mp hrun
  have hapart : Site.Apart ⟨"entry.long", "open-long", some "open-long-group-1"⟩
      ⟨"open-long", "open-long", some "open-long-group-2"⟩ :=
    Or.inr (Or.inr ⟨_, rfl, _, rfl, by decide⟩)
  obtain ⟨t', h, h'⟩ := edits_commute rfl rfl hapart h₁ h₂
  exact ⟨t₁, t₂, t', h₁, h₂, h, h'⟩

end Stratagem.Edit
