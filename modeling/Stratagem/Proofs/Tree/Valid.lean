import Mathlib.Data.List.Nodup
import Stratagem.Proofs.Tree.Edit
import Stratagem.Proofs.Tree.Refs
import Stratagem.Proofs.Tree.Meaning

/-!
# What the editor builds

Whatever is edited, and in whatever order, the tree stays `Valid`: siblings have different ids and are no more
than the editor allows, no threshold is negative, each condition has a comparator with the operands that it
takes, and each branch is the one of its slot. One edit keeps this, and so a run of edits does.
-/

namespace Stratagem

/-! ## Valid trees -/

/-- Siblings with different ids, none of them empty, and no more of them than the limit if there is one. -/
structure Siblings {α : Type} [Named α] (limit? : Option Int) (p : α → Prop) (items : List α) : Prop where
  ids : Node.WellNamed (items.map Named.id)
  size : ∀ limit ∈ limit?, (items.length : Int) ≤ limit
  each : ∀ a ∈ items, p a

/-- The method is a comparator, and there is a second bound where it is a range. -/
def Condition.Valid (c : Condition) : Prop :=
  ∃ m, Method.comparator c.method = .ok m ∧ c.upper.isSome = m.isRange

structure Group.Valid (limits : Limits) (g : Group) : Prop where
  minPass : 0 ≤ g.minPass
  conditions : Siblings (some limits.conditionsPerGroup) Condition.Valid g.conditions

structure Container.Valid (limits : Limits) (c : Container) : Prop where
  minPass : 0 ≤ c.minPass
  groups : Siblings (some limits.groupsPerContainer) (Group.Valid limits) c.groups

/-- A branch belongs to a slot by the trade that it makes. -/
structure Branch.Valid (limits : Limits) (slot : Slot) (b : Branch) : Prop where
  onPass : b.onPass = .makeTrade slot.action
  minPass : 0 ≤ b.minPass
  containers : Siblings none (Container.Valid limits) b.containers

def Tree.Valid (limits : Limits) (t : Tree) : Prop := ∀ slot, (t.get slot).Valid limits slot

/-! ## Siblings -/

namespace Node.WellNamed

variable {ids ids' : List String}

theorem perm (h : WellNamed ids) (hperm : ids'.Perm ids) : WellNamed ids' := by
  constructor
  · exact hperm.nodup_iff.mpr h.1
  · intro hmem
    exact h.2 (hperm.mem_iff.mp hmem)

theorem sublist (h : WellNamed ids) (hsub : ids'.Sublist ids) : WellNamed ids' := by
  constructor
  · exact h.1.sublist hsub
  · intro hmem
    exact h.2 (hsub.subset hmem)

theorem concat (h : WellNamed ids) {id : String} (hid : id ≠ "") (hnew : id ∉ ids) : WellNamed (ids ++ [id]) := by
  have hfront : WellNamed (id :: ids) := by
    constructor
    · exact List.nodup_cons.mpr ⟨hnew, h.1⟩
    · intro hmem
      rcases List.mem_cons.mp hmem with heq | hmem
      · exact hid heq.symm
      · exact h.2 hmem
  exact hfront.perm (List.perm_append_singleton id ids)

end Node.WellNamed

namespace Siblings

variable {α : Type} [Named α] {limit? : Option Int} {p : α → Prop} {items items' : List α}

theorem perm (h : Siblings limit? p items) (hperm : items'.Perm items) : Siblings limit? p items' := by
  constructor
  · exact h.ids.perm (hperm.map _)
  · intro limit hlimit
    rw [hperm.length_eq]
    exact h.size limit hlimit
  · intro a ha
    exact h.each a (hperm.mem_iff.mp ha)

theorem filter (h : Siblings limit? p items) (keep : α → Bool) : Siblings limit? p (items.filter keep) := by
  have hsub : (items.filter keep).Sublist items := List.filter_sublist
  constructor
  · exact h.ids.sublist (hsub.map _)
  · intro limit hlimit
    have hlength := hsub.length_le
    have hsize := h.size limit hlimit
    omega
  · intro a ha
    exact h.each a (hsub.subset ha)

theorem append (h : Siblings limit? p items) {a : α} (hid : Named.id a ≠ "")
    (hnew : Named.id a ∉ items.map Named.id) (hroom : ∀ limit ∈ limit?, (items.length : Int) < limit)
    (ha : p a) : Siblings limit? p (items ++ [a]) := by
  constructor
  · rw [List.map_append, List.map_singleton]
    exact h.ids.concat hid hnew
  · intro limit hlimit
    have hsize := hroom limit hlimit
    rw [List.length_append, List.length_singleton]
    omega
  · exact List.forall_mem_append.mpr ⟨h.each, List.forall_mem_singleton.mpr ha⟩

/-- Siblings may be changed, if they keep their names. -/
theorem mapped (h : Siblings limit? p items)
    (hitems : List.Forall₂ (fun a b => Named.id b = Named.id a ∧ (p a → p b)) items items') :
    Siblings limit? p items' := by
  constructor
  · have hids : items.map Named.id = items'.map Named.id := map_eq_map (fun _ _ hab => hab.1.symm) hitems
    rw [← hids]
    exact h.ids
  · intro limit hlimit
    rw [← hitems.length_eq]
    exact h.size limit hlimit
  · exact forall_carried h.each hitems fun a b ha hab => hab.2 ha

/-- A node may be exchanged for another of its name. -/
theorem exchange {pre post : List α} {a b : α} {id : String} (h : Siblings limit? p items)
    (hat : Edit.At items id pre a post) (hid : Named.id b = Named.id a) (hb : p b) :
    Siblings limit? p (pre ++ b :: post) := by
  rw [hat.split] at h
  refine h.mapped (Edit.forall₂_exchange ?_ ⟨hid, fun _ => hb⟩ pre post)
  exact fun _ => ⟨rfl, fun hp => hp⟩

/-- A node may be moved to the front. -/
theorem promoted {pre post : List α} {a : α} (h : Siblings limit? p (pre ++ a :: post)) (top : Bool) :
    Siblings limit? p (if top then a :: (pre ++ post) else pre ++ a :: post) := by
  cases top with
  | true => exact h.perm List.perm_middle.symm
  | false => exact h

/-- A node whose flag is turned over, wherever that takes it. -/
theorem toggled {α : Type} [Edit.Switchable α] [Edit.LawfulSwitchable α] {limit? : Option Int} {p : α → Prop}
    {items items' : List α} {id type parent key : String} (h : Siblings limit? p items)
    (hrun : Edit.toggle type parent items id key = .ok items') (hp : ∀ flag a, p a → p (Edit.flipped flag a)) :
    Siblings limit? p items' := by
  obtain ⟨flag, pre, a, post, -, hat, rfl⟩ := Edit.at_of_toggle hrun
  have ha : p a := h.each a (by simp [hat.split])
  exact (h.exchange hat (Edit.id_flipped flag a) (hp flag a ha)).promoted _

end Siblings

/-! ## Fresh nodes -/

theorem Limits.make_pos {limits : Limits} {groups conditions : Int}
    (h : Limits.make groups conditions = .ok limits) :
    0 < limits.groupsPerContainer ∧ 0 < limits.conditionsPerGroup := by
  rw [make] at h
  split at h
  · exact absurd h bind_throw_ne_ok
  · split at h
    · exact absurd h bind_throw_ne_ok
    · cases h
      exact ⟨Int.not_lt.mp ‹¬groups < 1›, Int.not_lt.mp ‹¬conditions < 1›⟩

section Fresh

variable {α : Type} [Named α] {limits : Limits} {limit? : Option Int} {p : α → Prop}

theorem Siblings.nil (h : ∀ limit ∈ limit?, 0 < limit) : Siblings limit? p [] :=
  ⟨⟨List.nodup_nil, List.not_mem_nil⟩, fun limit hlimit => Int.le_of_lt (h limit hlimit), nofun⟩

theorem Edit.freshGroup_valid (h : 0 < limits.conditionsPerGroup) (id name : String) :
    (freshGroup id name).Valid limits :=
  ⟨Int.one_nonneg, .nil fun _ hlimit => Option.mem_some.mp hlimit ▸ h⟩

theorem Container.fresh_valid (h : 0 < limits.groupsPerContainer) (id title : String) :
    (fresh id title).Valid limits :=
  ⟨Int.one_nonneg, .nil fun _ hlimit => Option.mem_some.mp hlimit ▸ h⟩

theorem Tree.empty_valid {groups conditions : Int} (h : Limits.make groups conditions = .ok limits) :
    Tree.empty.Valid limits := by
  intro slot
  rw [empty, PerSlot.get_ofFn]
  have hcontainer := Container.fresh_valid (Limits.make_pos h).1 slot.containerId slot.title
  refine ⟨rfl, Int.one_nonneg, ⟨⟨List.nodup_singleton _, ?_⟩, nofun, List.forall_mem_singleton.mpr hcontainer⟩⟩
  cases slot <;> decide

end Fresh

/-! ## One edit -/

theorem Edit.checkCondition_eq_ok {c : Condition} {u : Unit} (h : checkCondition c = .ok u) : c.Valid := by
  obtain ⟨m, hm, h⟩ := bind_eq_ok.mp h
  refine ⟨m, hm, ?_⟩
  cases hrange : m.isRange <;> cases hupper : c.upper <;> simp [hrange, hupper] at h ⊢

namespace Tree.Valid

variable {limits : Limits} {t t' : Tree} {slot container group : String}

theorem onBranch (ht : t.Valid limits) {change : Slot → Branch → Except Failure Branch}
    (h : Edit.onBranch t slot change = .ok t')
    (hchange : ∀ s b b', b.Valid limits s → change s b = .ok b' → b'.Valid limits s) : t'.Valid limits :=
  Edit.forall_onBranch ht h hchange

theorem onContainer (ht : t.Valid limits) {change : Container → Except Failure Container}
    (h : Edit.onContainer t slot container change = .ok t')
    (hchange : ∀ c c', c.Valid limits → change c = .ok c' → c'.Valid limits ∧ c'.id = c.id) :
    t'.Valid limits := by
  refine ht.onBranch h fun s b b' hb hrun => ?_
  obtain ⟨containers, hupdate, hrun⟩ := bind_eq_ok.mp hrun
  cases hrun
  obtain ⟨pre, c, post, c', hat, hc, rfl⟩ := Edit.at_of_update hupdate
  obtain ⟨hvalid, hid⟩ := hchange c c' (hb.containers.each c (by simp [hat.split])) hc
  exact ⟨hb.onPass, hb.minPass, hb.containers.exchange hat hid hvalid⟩

theorem onGroup (ht : t.Valid limits) {change : Group → Except Failure Group}
    (h : Edit.onGroup t slot container group change = .ok t')
    (hchange : ∀ g g', g.Valid limits → change g = .ok g' → g'.Valid limits ∧ g'.id = g.id) :
    t'.Valid limits := by
  refine ht.onContainer h fun c c' hc hrun => ?_
  obtain ⟨groups, hupdate, hrun⟩ := bind_eq_ok.mp hrun
  cases hrun
  obtain ⟨pre, g, post, g', hat, hg, rfl⟩ := Edit.at_of_update hupdate
  obtain ⟨hvalid, hid⟩ := hchange g g' (hc.groups.each g (by simp [hat.split])) hg
  exact ⟨⟨hc.minPass, hc.groups.exchange hat hid hvalid⟩, rfl⟩

end Tree.Valid

/-! A node keeps what it is when one of its flags is turned over. -/

theorem Condition.Valid.flipped {c : Condition} (h : c.Valid) (flag : Edit.Flag) :
    (Edit.flipped flag c).Valid := by
  cases flag <;> exact h

theorem Group.Valid.flipped {limits : Limits} {g : Group} (h : g.Valid limits) (flag : Edit.Flag) :
    (Edit.flipped flag g).Valid limits := by
  cases flag <;> exact ⟨h.minPass, h.conditions⟩

theorem Container.Valid.flipped {limits : Limits} {c : Container} (h : c.Valid limits) (flag : Edit.Flag) :
    (Edit.flipped flag c).Valid limits := by
  cases flag <;> exact ⟨h.minPass, h.groups⟩

section Retarget

variable {limits : Limits} {old new : Indicator}

theorem Condition.Valid.retarget {c c' : Condition} (hc : c.Valid)
    (h : Edit.retargetCondition old new c = .ok c') : c'.Valid := by
  obtain ⟨left, right, upper, rfl, hupper⟩ := Edit.retargetCondition_eq_ok h
  obtain ⟨m, hm, hrange⟩ := hc
  exact ⟨m, hm, hupper.trans hrange⟩

theorem Group.Valid.retarget {g g' : Group} (hg : g.Valid limits)
    (h : Edit.retargetGroup old new g = .ok g') : g'.Valid limits := by
  obtain ⟨conditions, rfl, hconditions⟩ := Edit.retargetGroup_eq_ok h
  refine ⟨hg.minPass, hg.conditions.mapped (hconditions.imp fun c c' hrun => ⟨?_, fun hc => hc.retarget hrun⟩)⟩
  obtain ⟨left, right, upper, rfl, -⟩ := Edit.retargetCondition_eq_ok hrun
  rfl

theorem Container.Valid.retarget {c c' : Container} (hc : c.Valid limits)
    (h : Edit.retargetContainer old new c = .ok c') : c'.Valid limits := by
  obtain ⟨groups, rfl, hgroups⟩ := Edit.retargetContainer_eq_ok h
  refine ⟨hc.minPass, hc.groups.mapped (hgroups.imp fun g g' hrun => ⟨?_, fun hg => hg.retarget hrun⟩)⟩
  obtain ⟨conditions, rfl, -⟩ := Edit.retargetGroup_eq_ok hrun
  rfl

theorem Branch.Valid.retarget {slot : Slot} {b b' : Branch} (hb : b.Valid limits slot)
    (h : Edit.retargetBranch old new b = .ok b') : b'.Valid limits slot := by
  obtain ⟨containers, rfl, hcontainers⟩ := Edit.retargetBranch_eq_ok h
  refine ⟨hb.onPass, hb.minPass,
    hb.containers.mapped (hcontainers.imp fun c c' hrun => ⟨?_, fun hc => hc.retarget hrun⟩)⟩
  obtain ⟨groups, rfl, -⟩ := Edit.retargetContainer_eq_ok hrun
  rfl

end Retarget

/-! ## A run -/

namespace Edit

/-- A condition that is saved has an id and a method, as every condition that is made. -/
def Proper : Edit → Prop
  | saveCondition _ _ _ c => c.checked = .ok c
  | _ => True

/-- Makes the edits one after the other. One that is refused is skipped. -/
def run (limits : Limits) (t : Tree) (edits : List Edit) : Tree :=
  edits.foldl (fun t e => (e.apply limits t).toOption.getD t) t

variable {limits : Limits} {t t' : Tree}

theorem setMinPassOf_valid {slot : String} {value : Int} {container? group? : Option String}
    (ht : t.Valid limits) (hvalue : 0 ≤ value) (h : setMinPassOf t slot value container? group? = .ok t') :
    t'.Valid limits := by
  rcases setMinPassOf_eq_ok h with h | ⟨container, h⟩ | ⟨container, group, h⟩
  · refine ht.onBranch h fun s b b' hb hrun => ?_
    cases hrun
    exact ⟨hb.onPass, hvalue, hb.containers⟩
  · refine ht.onContainer h fun c c' hc hrun => ?_
    cases hrun
    exact ⟨⟨hvalue, hc.groups⟩, rfl⟩
  · refine ht.onGroup h fun g g' hg hrun => ?_
    cases hrun
    exact ⟨⟨hvalue, hg.conditions⟩, rfl⟩

theorem saveConditionIn_valid {c : Condition} {g g' : Group} (hg : g.Valid limits) (hc : c.Valid)
    (hid : c.id ≠ "") (h : saveConditionIn limits c g = .ok g') : g'.Valid limits ∧ g'.id = g.id := by
  obtain ⟨pre, post, rfl, hplace⟩ := saveConditionIn_eq_ok h
  refine ⟨⟨hg.minPass, Siblings.promoted ?_ _⟩, rfl⟩
  rcases hplace with ⟨k, hat⟩ | ⟨hnew, hroom, rfl, rfl⟩
  · exact hg.conditions.exchange hat hat.named.symm hc
  · refine hg.conditions.append hid (fun hmem => ?_) (fun limit hlimit => ?_) hc
    · obtain ⟨k, hk, heq⟩ := List.mem_map.mp hmem
      exact hnew k hk heq
    · cases hlimit
      exact hroom

/-- An edit that is made keeps the tree valid. -/
theorem apply_valid {groups conditions : Int} (hlimits : Limits.make groups conditions = .ok limits)
    {e : Edit} (he : e.Proper) (ht : t.Valid limits) (h : e.apply limits t = .ok t') : t'.Valid limits := by
  obtain ⟨hgroups, hconditions⟩ := Limits.make_pos hlimits
  cases e with
  | setBranchEnabled slot enabled =>
      rw [apply] at h
      refine ht.onBranch h fun s b b' hb hrun => ?_
      cases hrun
      exact ⟨hb.onPass, hb.minPass, hb.containers⟩
  | addContainer slot id title =>
      rw [apply] at h
      refine ht.onBranch h fun s b b' hb hrun => ?_
      obtain ⟨id, title, hid, hnew, rfl⟩ := addContainerTo_eq_ok hrun
      exact ⟨hb.onPass, hb.minPass, hb.containers.append hid hnew nofun (Container.fresh_valid hgroups id title)⟩
  | removeContainer slot id =>
      rw [apply] at h
      refine ht.onBranch h fun s b b' hb hrun => ?_
      obtain ⟨containers, herase, hrun⟩ := bind_eq_ok.mp hrun
      cases hrun
      rw [eq_filter_of_erase herase]
      exact ⟨hb.onPass, hb.minPass, hb.containers.filter _⟩
  | toggleContainer slot id flag =>
      rw [apply] at h
      refine ht.onBranch h fun s b b' hb hrun => ?_
      obtain ⟨containers, htoggle, hrun⟩ := bind_eq_ok.mp hrun
      cases hrun
      exact ⟨hb.onPass, hb.minPass, hb.containers.toggled htoggle fun flag c hc => hc.flipped flag⟩
  | addGroup slot container id name =>
      rw [apply] at h
      refine ht.onContainer h fun c c' hc hrun => ?_
      obtain ⟨id, name, hid, hnew, hroom, rfl⟩ := addGroupTo_eq_ok hrun
      have hfresh := freshGroup_valid hconditions id name
      refine ⟨⟨hc.minPass, hc.groups.append hid hnew (fun limit hlimit => ?_) hfresh⟩, rfl⟩
      cases hlimit
      exact hroom
  | removeGroup slot container id =>
      rw [apply] at h
      refine ht.onContainer h fun c c' hc hrun => ?_
      obtain ⟨groups, herase, hrun⟩ := bind_eq_ok.mp hrun
      cases hrun
      rw [eq_filter_of_erase herase]
      exact ⟨⟨hc.minPass, hc.groups.filter _⟩, rfl⟩
  | toggleGroup slot container id flag =>
      rw [apply] at h
      refine ht.onContainer h fun c c' hc hrun => ?_
      obtain ⟨groups, htoggle, hrun⟩ := bind_eq_ok.mp hrun
      cases hrun
      exact ⟨⟨hc.minPass, hc.groups.toggled htoggle fun flag g hg => hg.flipped flag⟩, rfl⟩
  | setMinPass slot value container? group? =>
      rw [apply] at h
      split at h
      · exact absurd h bind_throw_ne_ok
      · exact setMinPassOf_valid ht (Int.not_lt.mp ‹_›) h
  | saveCondition slot container group condition =>
      rw [apply] at h
      obtain ⟨u, hcheck, h⟩ := bind_eq_ok.mp h
      have hid : condition.id ≠ "" := by simpa using (Condition.checked_eq_ok.mp he).1
      exact ht.onGroup h fun g g' hg hrun =>
        saveConditionIn_valid hg (checkCondition_eq_ok hcheck) hid hrun
  | removeCondition slot container group id =>
      rw [apply] at h
      refine ht.onGroup h fun g g' hg hrun => ?_
      obtain ⟨conditions, herase, hrun⟩ := bind_eq_ok.mp hrun
      cases hrun
      rw [eq_filter_of_erase herase]
      exact ⟨⟨hg.minPass, hg.conditions.filter _⟩, rfl⟩
  | toggleCondition slot container group id flag =>
      rw [apply] at h
      refine ht.onGroup h fun g g' hg hrun => ?_
      obtain ⟨conditions, htoggle, hrun⟩ := bind_eq_ok.mp hrun
      cases hrun
      exact ⟨⟨hg.minPass, hg.conditions.toggled htoggle fun flag c hc => hc.flipped flag⟩, rfl⟩
  | retarget old new =>
      rw [apply] at h
      have hbranches := PerSlot.ofFnM_eq_ok.mp h
      exact fun slot => (ht slot).retarget (hbranches slot)

/-- **Whatever is edited, the tree stays valid.** -/
theorem run_valid {groups conditions : Int} (hlimits : Limits.make groups conditions = .ok limits)
    {edits : List Edit} (hedits : ∀ e ∈ edits, e.Proper) : (run limits Tree.empty edits).Valid limits := by
  suffices h : ∀ t : Tree, t.Valid limits → Tree.Valid limits (run limits t edits) from
    h _ (Tree.empty_valid hlimits)
  induction edits with
  | nil => exact fun t ht => ht
  | cons e edits ih =>
      intro t ht
      obtain ⟨he, hedits⟩ := List.forall_mem_cons.mp hedits
      refine ih hedits _ ?_
      dsimp only
      cases hrun : e.apply limits t with
      | error f => exact ht
      | ok t' => exact apply_valid hlimits he ht hrun

/-- Edits that ask for a second group, a second condition and a negative threshold. -/
def crowding : List Edit :=
  let rise : Condition := ⟨"rise", "between", .hourlyClose, .number 1, some (.number 2), true, true⟩
  let fall : Condition := ⟨"fall", "LessThan", .hourlyClose, .number 1, none, true, false⟩
  [.addGroup "entry.long" "open-long" "" "", .addGroup "open-long" "open-long" "" "",
    .saveCondition "entry.long" "open-long" "open-long-group-1" rise,
    .saveCondition "entry.long" "open-long" "open-long-group-1" fall,
    .setMinPass "entry.long" (-1) none none, .setMinPass "entry.long" 5 (some "open-long") none]

theorem run_valid_crowding : Limits.make 1 1 = .ok ⟨1, 1⟩ ∧ (∀ e ∈ crowding, e.Proper) ∧
    (run ⟨1, 1⟩ Tree.empty crowding).Valid ⟨1, 1⟩ ∧
    (groupsAt (run ⟨1, 1⟩ Tree.empty crowding) "entry.long" "open-long").map (·.conditions.map (·.id)) =
      [["rise"]] := by
  have hlimits : Limits.make 1 1 = .ok ⟨1, 1⟩ := rfl
  have hedits : ∀ e ∈ crowding, e.Proper := by
    simp only [crowding, List.forall_mem_cons, Proper, true_and]
    refine ⟨?_, ?_, List.forall_mem_nil _⟩
    · exact Condition.checked_eq_ok.mpr ⟨by decide, by decide, rfl⟩
    · exact Condition.checked_eq_ok.mpr ⟨by decide, by decide, rfl⟩
  refine ⟨hlimits, hedits, run_valid hlimits hedits, ?_⟩
  decide +kernel

end Edit

end Stratagem
