import Mathlib.Logic.Relation
import Stratagem.Proofs.Quorum
import Stratagem.Proofs.Tree.Edit
import Stratagem.Tree.Walk

/-!
# What every condition of an edited tree keeps

Edits move conditions, turn their flags over, point their references elsewhere and put in new ones. What is `Stable`
under the first three, and holds of each condition that is put in, holds of every condition after any number of edits.
-/

namespace Stratagem

/-! ## Every condition -/

section

variable (p : Condition → Prop)

def Group.Each (g : Group) : Prop := ∀ k ∈ g.conditions, p k

def Container.Each (c : Container) : Prop := ∀ g ∈ c.groups, g.Each p

def Branch.Each (b : Branch) : Prop := ∀ c ∈ b.containers, c.Each p

def Tree.Each (t : Tree) : Prop := ∀ slot, (t.get slot).Each p

end

namespace Tree

theorem mem_of_visited {α : Type} [Flagged α] {enabledOnly : Bool} {xs : List α} {x : α}
    (h : x ∈ visited enabledOnly xs) : x ∈ xs := by
  rw [visited] at h
  split at h
  · exact (Quorum.mem_live.mp h).1
  · exact h

/-- What holds of every condition holds of those that are visited. -/
theorem Each.condition {p : Condition → Prop} {t : Tree} (h : t.Each p) {enabledOnly : Bool} :
    ∀ entry ∈ t.conditions enabledOnly, p entry.2 := by
  intro entry hentry
  obtain ⟨⟨slot, b⟩, hb, hentry⟩ := List.mem_flatMap.mp hentry
  rw [PerSlot.toList] at hb
  obtain ⟨slot', -, heq⟩ := List.mem_map.mp hb
  cases heq
  dsimp only at hentry
  rw [branchConditions] at hentry
  split at hentry
  · cases hentry
  · obtain ⟨c, hc, hentry⟩ := List.mem_flatMap.mp hentry
    obtain ⟨g, hg, hentry⟩ := List.mem_flatMap.mp hentry
    obtain ⟨k, hk, rfl⟩ := List.mem_map.mp hentry
    exact h slot c (mem_of_visited hc) g (mem_of_visited hg) k (mem_of_visited hk)

theorem each_iff_conditions {p : Condition → Prop} {t : Tree} : t.Each p ↔ ∀ entry ∈ t.conditions false, p entry.2 := by
  rw [conditions, List.forall_mem_flatMap, PerSlot.forall_mem_toList]
  refine forall_congr' fun slot => ?_
  simp only [branchConditions, visited, Bool.false_and, Bool.false_eq_true, if_false, List.forall_mem_flatMap,
    List.forall_mem_map]
  rfl

end Tree

/-- The property looks at no flag, and outlasts it that references are pointed elsewhere. -/
structure Condition.Stable (p : Condition → Prop) : Prop where
  flipped : ∀ flag c, p c → p (Edit.flipped flag c)
  retarget : ∀ old new c c', Edit.retargetCondition old new c = .ok c' → p c → p c'

/-! ## Siblings -/

namespace Edit

section Siblings

variable {α : Type} {q : α → Prop} {items items' pre post : List α} {a b : α} {id type parent key : String}

theorem At.forall_exchange [Named α] (hat : At items id pre a post) (hall : ∀ x ∈ items, q x) (hb : q b) :
    ∀ x ∈ pre ++ b :: post, q x := by
  rw [hat.split, List.forall_mem_append, List.forall_mem_cons] at hall
  rw [List.forall_mem_append, List.forall_mem_cons]
  exact ⟨hall.1, hb, hall.2.2⟩

theorem forall_promoted (top : Bool) (h : ∀ x ∈ pre ++ a :: post, q x) :
    ∀ x ∈ if top then a :: (pre ++ post) else pre ++ a :: post, q x := by
  cases top with
  | true =>
      intro x hx
      exact h x (List.perm_middle.mem_iff.mpr hx)
  | false => exact h

theorem forall_update [Named α] {change : α → Except Failure α} (hall : ∀ x ∈ items, q x)
    (hchange : ∀ x y, q x → change x = .ok y → q y) (h : update type parent items id change = .ok items') :
    ∀ x ∈ items', q x := by
  obtain ⟨pre, a, post, b, hat, hb, rfl⟩ := at_of_update h
  have ha : q a := hall a (by simp [hat.split])
  exact hat.forall_exchange hall (hchange a b ha hb)

theorem forall_erase [Named α] (hall : ∀ x ∈ items, q x) (h : erase type parent items id = .ok items') :
    ∀ x ∈ items', q x := by
  rw [eq_filter_of_erase h]
  exact fun x hx => hall x (List.mem_of_mem_filter hx)

theorem forall_toggle [Switchable α] (hall : ∀ x ∈ items, q x) (hflipped : ∀ flag x, q x → q (flipped flag x))
    (h : toggle type parent items id key = .ok items') : ∀ x ∈ items', q x := by
  obtain ⟨flag, pre, a, post, -, hat, rfl⟩ := at_of_toggle h
  have ha : q a := hall a (by simp [hat.split])
  exact forall_promoted _ (hat.forall_exchange hall (hflipped flag a ha))

end Siblings

end Edit

/-! ## Addresses -/

namespace Tree.Each

variable {p : Condition → Prop} {t t' : Tree} {slot container group : String}

theorem onBranch (ht : t.Each p) {change : Slot → Branch → Except Failure Branch}
    (h : Edit.onBranch t slot change = .ok t')
    (hchange : ∀ s b b', b.Each p → change s b = .ok b' → b'.Each p) : t'.Each p :=
  Edit.forall_onBranch ht h hchange

theorem onContainer (ht : t.Each p) {change : Container → Except Failure Container}
    (h : Edit.onContainer t slot container change = .ok t')
    (hchange : ∀ c c', c.Each p → change c = .ok c' → c'.Each p) : t'.Each p := by
  refine ht.onBranch h fun s b b' hb hrun => ?_
  obtain ⟨containers, hupdate, hrun⟩ := bind_eq_ok.mp hrun
  cases hrun
  exact Edit.forall_update hb hchange hupdate

theorem onGroup (ht : t.Each p) {change : Group → Except Failure Group}
    (h : Edit.onGroup t slot container group change = .ok t')
    (hchange : ∀ g g', g.Each p → change g = .ok g' → g'.Each p) : t'.Each p := by
  refine ht.onContainer h fun c c' hc hrun => ?_
  obtain ⟨groups, hupdate, hrun⟩ := bind_eq_ok.mp hrun
  cases hrun
  exact Edit.forall_update hc hchange hupdate

end Tree.Each

/-! ## One edit -/

section Retarget

variable {p : Condition → Prop} {old new : Indicator}

theorem Group.Each.retarget (hp : Condition.Stable p) {g g' : Group} (hg : g.Each p)
    (h : Edit.retargetGroup old new g = .ok g') : g'.Each p := by
  obtain ⟨conditions, rfl, hconditions⟩ := Edit.retargetGroup_eq_ok h
  exact forall_carried hg hconditions fun c c' hc hcc => hp.retarget old new c c' hcc hc

theorem Container.Each.retarget (hp : Condition.Stable p) {c c' : Container} (hc : c.Each p)
    (h : Edit.retargetContainer old new c = .ok c') : c'.Each p := by
  obtain ⟨groups, rfl, hgroups⟩ := Edit.retargetContainer_eq_ok h
  exact forall_carried hc hgroups fun g g' hg hgg => Group.Each.retarget hp hg hgg

theorem Branch.Each.retarget (hp : Condition.Stable p) {b b' : Branch} (hb : b.Each p)
    (h : Edit.retargetBranch old new b = .ok b') : b'.Each p := by
  obtain ⟨containers, rfl, hcontainers⟩ := Edit.retargetBranch_eq_ok h
  exact forall_carried hb hcontainers fun c c' hc hcc => Container.Each.retarget hp hc hcc

end Retarget

namespace Edit

variable {p : Condition → Prop} {limits : Limits} {t t' : Tree}

/-- The property holds of the condition that the edit puts in, if it is accepted. -/
def PutsIn (p : Condition → Prop) : Edit → Prop
  | saveCondition _ _ _ c => ∀ u, checkCondition c = .ok u → p c
  | _ => True

theorem setMinPassOf_each {slot : String} {value : Int} {container? group? : Option String} (ht : t.Each p)
    (h : setMinPassOf t slot value container? group? = .ok t') : t'.Each p := by
  rcases setMinPassOf_eq_ok h with h | ⟨container, h⟩ | ⟨container, group, h⟩
  · refine ht.onBranch h fun s b b' hb hrun => ?_
    cases hrun
    exact hb
  · refine ht.onContainer h fun c c' hc hrun => ?_
    cases hrun
    exact hc
  · refine ht.onGroup h fun g g' hg hrun => ?_
    cases hrun
    exact hg

theorem saveConditionIn_each {c : Condition} {g g' : Group} (hg : g.Each p) (hc : p c)
    (h : saveConditionIn limits c g = .ok g') : g'.Each p := by
  obtain ⟨pre, post, rfl, hplace⟩ := saveConditionIn_eq_ok h
  refine forall_promoted _ ?_
  rcases hplace with ⟨k, hat⟩ | ⟨-, -, rfl, rfl⟩
  · exact hat.forall_exchange hg hc
  · exact List.forall_mem_append.mpr ⟨hg, List.forall_mem_singleton.mpr hc⟩

/-- An edit keeps what holds of every condition. -/
theorem apply_each (hp : Condition.Stable p) {e : Edit} (he : e.PutsIn p) (ht : t.Each p)
    (h : e.apply limits t = .ok t') : t'.Each p := by
  cases e with
  | setBranchEnabled slot enabled =>
      rw [apply] at h
      refine ht.onBranch h fun s b b' hb hrun => ?_
      cases hrun
      exact hb
  | addContainer slot id title =>
      rw [apply] at h
      refine ht.onBranch h fun s b b' hb hrun => ?_
      obtain ⟨id, title, -, -, rfl⟩ := addContainerTo_eq_ok hrun
      exact List.forall_mem_append.mpr ⟨hb, List.forall_mem_singleton.mpr nofun⟩
  | removeContainer slot id =>
      rw [apply] at h
      refine ht.onBranch h fun s b b' hb hrun => ?_
      obtain ⟨containers, herase, hrun⟩ := bind_eq_ok.mp hrun
      cases hrun
      exact forall_erase hb herase
  | toggleContainer slot id flag =>
      rw [apply] at h
      refine ht.onBranch h fun s b b' hb hrun => ?_
      obtain ⟨containers, htoggle, hrun⟩ := bind_eq_ok.mp hrun
      cases hrun
      exact forall_toggle hb (fun flag c hc => by cases flag <;> exact hc) htoggle
  | addGroup slot container id name =>
      rw [apply] at h
      refine ht.onContainer h fun c c' hc hrun => ?_
      obtain ⟨id, name, -, -, -, rfl⟩ := addGroupTo_eq_ok hrun
      exact List.forall_mem_append.mpr ⟨hc, List.forall_mem_singleton.mpr nofun⟩
  | removeGroup slot container id =>
      rw [apply] at h
      refine ht.onContainer h fun c c' hc hrun => ?_
      obtain ⟨groups, herase, hrun⟩ := bind_eq_ok.mp hrun
      cases hrun
      exact forall_erase hc herase
  | toggleGroup slot container id flag =>
      rw [apply] at h
      refine ht.onContainer h fun c c' hc hrun => ?_
      obtain ⟨groups, htoggle, hrun⟩ := bind_eq_ok.mp hrun
      cases hrun
      exact forall_toggle hc (fun flag g hg => by cases flag <;> exact hg) htoggle
  | setMinPass slot value container? group? =>
      rw [apply] at h
      split at h
      · exact absurd h bind_throw_ne_ok
      · exact setMinPassOf_each ht h
  | saveCondition slot container group condition =>
      obtain ⟨u, hcheck, h⟩ := bind_eq_ok.mp h
      exact ht.onGroup h fun g g' hg hrun => saveConditionIn_each hg (he u hcheck) hrun
  | removeCondition slot container group id =>
      rw [apply] at h
      refine ht.onGroup h fun g g' hg hrun => ?_
      obtain ⟨conditions, herase, hrun⟩ := bind_eq_ok.mp hrun
      cases hrun
      exact forall_erase hg herase
  | toggleCondition slot container group id flag =>
      rw [apply] at h
      refine ht.onGroup h fun g g' hg hrun => ?_
      obtain ⟨conditions, htoggle, hrun⟩ := bind_eq_ok.mp hrun
      cases hrun
      exact forall_toggle hg hp.flipped htoggle
  | retarget old new =>
      rw [apply, retargetTree] at h
      have hbranches := PerSlot.ofFnM_eq_ok.mp h
      exact fun slot => Branch.Each.retarget hp (ht slot) (hbranches slot)

/-! ## A run -/

/-- One tree becomes another by an edit, under whatever limits, and `p` holds of the condition it puts in. -/
def MadeWith (p : Condition → Prop) (t t' : Tree) : Prop :=
  ∃ (limits : Limits) (e : Edit), e.PutsIn p ∧ e.apply limits t = .ok t'

/-- Whatever the editor makes of the empty tree, `p` holds of every condition in it. -/
theorem each_of_made (hp : Condition.Stable p) (h : Relation.ReflTransGen (MadeWith p) Tree.empty t) : t.Each p := by
  induction h with
  | refl =>
      intro slot
      rw [Tree.empty, PerSlot.get_ofFn]
      exact List.forall_mem_singleton.mpr nofun
  | tail _ hstep ih =>
      obtain ⟨limits, e, he, hrun⟩ := hstep
      exact apply_each hp he ih hrun

end Edit

end Stratagem
