import Stratagem.Proofs.Sequencing
import Stratagem.Tree.Edit

/-!
# What an edit does

An edit that is made has found the nodes that it names. `At` tells where: the first node with the id, with
what stands in front of it and what stands behind. Each operation on a list of siblings, and each way down to
the nodes of an address, is taken apart here once.
-/

namespace Stratagem.Edit

/-! ## Siblings -/

section Siblings

variable {α : Type} [Named α] {items items' pre post : List α} {a : α} {id type parent key : String}

/-- The first node with the id is `a`, between `pre` and `post`. -/
structure At (items : List α) (id : String) (pre : List α) (a : α) (post : List α) : Prop where
  split : items = pre ++ a :: post
  named : Named.id a = id
  first : ∀ b ∈ pre, Named.id b ≠ id

theorem At.find? (h : At items id pre a post) : items.find? (Named.id · == id) = some a := by
  have hpre : pre.find? (Named.id · == id) = none :=
    List.find?_eq_none.mpr fun b hb => by simpa using h.first b hb
  rw [h.split, List.find?_append, hpre, Option.none_or]
  exact List.find?_cons_of_pos (beq_iff_eq.mpr h.named)

theorem indexOf?_eq_none : indexOf? items id = none ↔ ∀ b ∈ items, Named.id b ≠ id := by
  rw [indexOf?, List.findIdx?_eq_none_iff]
  simp only [beq_eq_false_iff_ne]

theorem at_of_indexOf? {n : Nat} (h : indexOf? items id = some n) :
    ∃ pre a post, At items id pre a post ∧ pre.length = n := by
  rw [indexOf?] at h
  induction items generalizing n with
  | nil => cases h
  | cons b items ih =>
      rw [List.findIdx?_cons] at h
      by_cases hb : (Named.id b == id) = true
      · rw [if_pos hb] at h
        cases h
        exact ⟨[], b, items, ⟨rfl, eq_of_beq hb, nofun⟩, rfl⟩
      · rw [if_neg hb] at h
        obtain ⟨m, hm, rfl⟩ := Option.map_eq_some_iff.mp h
        obtain ⟨pre, a, post, hat, rfl⟩ := ih hm
        refine ⟨b :: pre, a, post, ⟨?_, hat.named, ?_⟩, rfl⟩
        · rw [hat.split, List.cons_append]
        · exact List.forall_mem_cons.mpr ⟨fun heq => hb (beq_iff_eq.mpr heq), hat.first⟩

theorem at_of_locate {n : Nat} (h : locate type parent items id = .ok n) :
    ∃ pre a post, At items id pre a post ∧ pre.length = n := by
  unfold locate at h
  cases hindex : indexOf? items id with
  | none =>
      rw [hindex] at h
      cases h
  | some m =>
      rw [hindex] at h
      cases h
      exact at_of_indexOf? hindex

/-- The node that stands where the id was found. -/
theorem at_of_getElem? {n : Nat} (h : indexOf? items id = some n) (ha : items[n]? = some a) :
    ∃ pre post, At items id pre a post ∧ pre.length = n := by
  obtain ⟨pre, b, post, hat, rfl⟩ := at_of_indexOf? h
  have hb : items[pre.length]? = some b := by simp [hat.split]
  rw [ha] at hb
  cases hb
  exact ⟨pre, post, hat, rfl⟩

/-- The ids tell where a node is. -/
theorem indexOf?_set {n : Nat} {b : α} (ha : items[n]? = some a) (hid : Named.id b = Named.id a) (id : String) :
    indexOf? (items.set n b) id = indexOf? items id := by
  obtain ⟨hn, rfl⟩ := List.getElem?_eq_some_iff.mp ha
  have hids : (items.set n b).map Named.id = items.map Named.id := by
    rw [List.map_set, hid, ← List.map_set, List.set_getElem_self]
  have hmap : ∀ xs : List α, indexOf? xs id = (xs.map Named.id).findIdx? (· == id) := by
    intro xs
    rw [indexOf?, List.findIdx?_map]
    rfl
  rw [hmap, hmap, hids]

omit [Named α] in
/-- Lists that differ in one place only. -/
theorem forall₂_exchange {R : α → α → Prop} (hrefl : ∀ x, R x x) {b : α} (hab : R a b) (pre post : List α) :
    List.Forall₂ R (pre ++ a :: post) (pre ++ b :: post) := by
  have hsame : ∀ xs : List α, List.Forall₂ R xs xs := fun xs => List.forall₂_same.mpr fun x _ => hrefl x
  exact List.rel_append (hsame pre) (.cons hab (hsame post))

/-- The node with the id is exchanged for what it is changed to. -/
theorem update_eq_ok {change : α → Except Failure α} : update type parent items id change = .ok items' ↔
    ∃ n a b, indexOf? items id = some n ∧ items[n]? = some a ∧ change a = .ok b ∧ items' = items.set n b := by
  rw [update, locate]
  constructor
  · intro h
    cases hindex : indexOf? items id with
    | none =>
        rw [hindex] at h
        cases h
    | some n =>
        obtain ⟨pre, a, post, hat, rfl⟩ := at_of_indexOf? hindex
        have hget : items[pre.length]? = some a := by simp [hat.split]
        rw [hindex, ok_bind, hget] at h
        obtain ⟨b, hb, h⟩ := bind_eq_ok.mp h
        cases h
        exact ⟨pre.length, a, b, rfl, hget, hb, rfl⟩
  · rintro ⟨n, a, b, hindex, hget, hb, rfl⟩
    simp [hindex, hget, hb]

theorem at_of_update {change : α → Except Failure α} (h : update type parent items id change = .ok items') :
    ∃ pre a post b, At items id pre a post ∧ change a = .ok b ∧ items' = pre ++ b :: post := by
  obtain ⟨n, a, b, hindex, hget, hb, rfl⟩ := update_eq_ok.mp h
  obtain ⟨pre, post, hat, rfl⟩ := at_of_getElem? hindex hget
  exact ⟨pre, a, post, b, hat, hb, by simp [hat.split]⟩

theorem eq_filter_of_erase (h : erase type parent items id = .ok items') :
    items' = items.filter (Named.id · != id) := by
  obtain ⟨n, -, h⟩ := bind_eq_ok.mp h
  cases h
  rfl

omit [Named α] in
theorem promote_at (pre post : List α) (a : α) : promote (pre ++ a :: post) pre.length = a :: (pre ++ post) := by
  simp [promote, List.eraseIdx_append_of_length_le]

end Siblings

/-! ## Flags -/

/-- A flag that is set is that flag and no other part. -/
class LawfulSwitchable (α : Type) [Switchable α] : Prop where
  id_setEnabled (a : α) (b : Bool) : Named.id (Switchable.setEnabled a b) = Named.id a
  id_setRequired (a : α) (b : Bool) : Named.id (Switchable.setRequired a b) = Named.id a
  required_setEnabled (a : α) (b : Bool) : required (Switchable.setEnabled a b) = required a
  required_setRequired (a : α) (b : Bool) : required (Switchable.setRequired a b) = b

instance : LawfulSwitchable Condition := ⟨fun _ _ => rfl, fun _ _ => rfl, fun _ _ => rfl, fun _ _ => rfl⟩

instance : LawfulSwitchable Group := ⟨fun _ _ => rfl, fun _ _ => rfl, fun _ _ => rfl, fun _ _ => rfl⟩

instance : LawfulSwitchable Container := ⟨fun _ _ => rfl, fun _ _ => rfl, fun _ _ => rfl, fun _ _ => rfl⟩

section Flags

variable {α : Type} [Switchable α]

theorem id_flipped [LawfulSwitchable α] (flag : Flag) (a : α) : Named.id (flipped flag a) = Named.id a := by
  cases flag with
  | enabled => exact LawfulSwitchable.id_setEnabled a _
  | required => exact LawfulSwitchable.id_setRequired a _

theorem required_flipped [LawfulSwitchable α] (flag : Flag) (a : α) :
    required (flipped flag a) = if flag == .required then !required a else required a := by
  cases flag with
  | enabled => exact LawfulSwitchable.required_setEnabled a _
  | required => exact LawfulSwitchable.required_setRequired a _

/-- A node whose flag is turned over moves to the top if that makes it required, and stays where it is if
not. -/
theorem at_of_toggle {items items' : List α} {id type parent key : String}
    (h : toggle type parent items id key = .ok items') :
    ∃ flag pre a post, Flag.ofText key = .ok flag ∧ At items id pre a post ∧
      items' = if flag == .required && !required a then flipped flag a :: (pre ++ post)
        else pre ++ flipped flag a :: post := by
  obtain ⟨flag, hflag, h⟩ := bind_eq_ok.mp h
  obtain ⟨n, hn, h⟩ := bind_eq_ok.mp h
  obtain ⟨pre, a, post, hat, rfl⟩ := at_of_locate hn
  have hget : items[pre.length]? = some a := by simp [hat.split]
  have hset : items.set pre.length (flipped flag a) = pre ++ flipped flag a :: post := by simp [hat.split]
  rw [hget] at h
  dsimp only at h
  rw [hset, promote_at] at h
  cases h
  exact ⟨flag, pre, a, post, hflag, hat, rfl⟩

end Flags

/-! ## Fresh children -/

theorem freshId_ne_empty {stem : String} (h : stem ≠ "") (taken : List String) : freshId stem taken ≠ "" := by
  rw [freshId]
  cases hfind : List.find? _ _ with
  | none => exact h
  | some id =>
      obtain ⟨n, -, rfl⟩ := List.mem_map.mp (List.mem_of_find?_eq_some hfind)
      exact fun hempty => h (String.append_eq_empty_iff.mp hempty).1

theorem orElse_ne_empty {s default : String} (h : default ≠ "") : orElse s default ≠ "" := by
  rw [orElse]
  split
  · exact h
  · exact fun hempty => ‹¬s.isEmpty = true› (String.isEmpty_iff.mpr hempty)

theorem addContainerTo_eq_ok {id title : String} {slot : Slot} {b b' : Branch}
    (h : addContainerTo id title slot b = .ok b') :
    ∃ id title, id ≠ "" ∧ id ∉ b.containers.map (·.id) ∧
      b' = { b with containers := b.containers ++ [.fresh id title] } := by
  have hstem : slot.containerId ++ "-" ≠ "" := by
    intro hempty
    exact absurd (String.append_eq_empty_iff.mp hempty).2 (by decide)
  rw [addContainerTo] at h
  split at h
  · cases h
  · rename_i hnew
    cases h
    exact ⟨_, _, orElse_ne_empty (freshId_ne_empty hstem _), by simpa using hnew, rfl⟩

theorem addGroupTo_eq_ok {limits : Limits} {id name : String} {c c' : Container}
    (h : addGroupTo limits id name c = .ok c') :
    ∃ id name, id ≠ "" ∧ id ∉ c.groups.map (·.id) ∧ (c.groups.length : Int) < limits.groupsPerContainer ∧
      c' = { c with groups := c.groups ++ [freshGroup id name] } := by
  have hstem : c.id ++ "-group-" ≠ "" := by
    intro hempty
    exact absurd (String.append_eq_empty_iff.mp hempty).2 (by decide)
  rw [addGroupTo] at h
  split at h
  · exact absurd h bind_throw_ne_ok
  · rename_i hroom
    split at h
    · cases h
    · rename_i hnew
      cases h
      exact ⟨_, _, orElse_ne_empty (freshId_ne_empty hstem _), by simpa using hnew, by omega, rfl⟩

/-! ## Saving a condition -/

/-- A condition takes the place of the one with its id, or the last place if there is none and there is room;
if it is required it moves to the top from there. -/
theorem saveConditionIn_eq_ok {limits : Limits} {c : Condition} {g g' : Group}
    (h : saveConditionIn limits c g = .ok g') :
    ∃ pre post, g' = { g with conditions := if c.required then c :: (pre ++ post) else pre ++ c :: post } ∧
      ((∃ k, At g.conditions c.id pre k post) ∨
        (∀ k ∈ g.conditions, k.id ≠ c.id) ∧ (g.conditions.length : Int) < limits.conditionsPerGroup ∧
          pre = g.conditions ∧ post = []) := by
  obtain ⟨⟨conditions, n⟩, hplace, h⟩ := bind_eq_ok.mp h
  have hpromote : ∀ pre post : List Condition, conditions = pre ++ c :: post → n = pre.length →
      g' = { g with conditions := if c.required then c :: (pre ++ post) else pre ++ c :: post } := by
    rintro pre post rfl rfl
    dsimp only at h
    rw [promote_at] at h
    cases h
    rfl
  rw [placeCondition] at hplace
  split at hplace
  · cases hplace
    obtain ⟨pre, k, post, hat, rfl⟩ := at_of_indexOf? ‹_›
    exact ⟨pre, post, hpromote pre post (by simp [hat.split]) rfl, Or.inl ⟨k, hat⟩⟩
  · rename_i hnone
    split at hplace
    · exact absurd hplace bind_throw_ne_ok
    · rename_i hroom
      cases hplace
      exact ⟨g.conditions, [], hpromote _ [] rfl rfl,
        Or.inr ⟨indexOf?_eq_none.mp hnone, by omega, rfl, rfl⟩⟩

/-! ## Addresses -/

section Addresses

variable {t t' : Tree} {slot container group : String}

theorem onBranch_eq_ok {change : Slot → Branch → Except Failure Branch} :
    onBranch t slot change = .ok t' ↔
      ∃ s b, Slot.ofText slot = .ok s ∧ change s (t.get s) = .ok b ∧ t.set s b = t' := by
  simp only [onBranch, bind_eq_ok, pure_eq_ok, Except.ok.injEq]
  constructor
  · rintro ⟨s, hs, b, hb, h⟩
    exact ⟨s, b, hs, hb, h⟩
  · rintro ⟨s, b, hs, hb, h⟩
    exact ⟨s, hs, b, hb, h⟩

/-- What holds of every branch still does, if the changed one keeps it. -/
theorem forall_onBranch {q : Slot → Branch → Prop} {change : Slot → Branch → Except Failure Branch}
    (ht : ∀ s, q s (t.get s)) (h : onBranch t slot change = .ok t')
    (hchange : ∀ s b b', q s b → change s b = .ok b' → q s b') : ∀ s, q s (t'.get s) := by
  obtain ⟨s, b, -, hb, rfl⟩ := onBranch_eq_ok.mp h
  intro s'
  rw [PerSlot.get_set]
  split
  · rename_i heq
    rw [heq]
    exact hchange s _ b (ht s) hb
  · exact ht s'

/-- A threshold is that of a branch, of a container or of a group. -/
theorem setMinPassOf_eq_ok {value : Int} {container? group? : Option String}
    (h : setMinPassOf t slot value container? group? = .ok t') :
    (onBranch t slot fun _ b => .ok { b with minPass := value }) = .ok t' ∨
    (∃ container, (onContainer t slot container fun c => .ok { c with minPass := value }) = .ok t') ∨
    ∃ container group, (onGroup t slot container group fun g => .ok { g with minPass := value }) = .ok t' := by
  cases container? with
  | none =>
      cases group? with
      | none => exact Or.inl h
      | some group =>
          rw [setMinPassOf] at h
          cases h
  | some container =>
      cases group? with
      | none => exact Or.inr (Or.inl ⟨container, h⟩)
      | some group => exact Or.inr (Or.inr ⟨container, group, h⟩)

/-- The containers of the slot that a text spells. -/
def containersAt (t : Tree) (slot : String) : List Container :=
  match Slot.ofText slot with
  | .ok s => (t.get s).containers
  | .error _ => []

def groupsAt (t : Tree) (slot container : String) : List Group :=
  ((containersAt t slot).find? (·.id == container)).elim [] (·.groups)

def conditionsAt (t : Tree) (slot container group : String) : List Condition :=
  ((groupsAt t slot container).find? (·.id == group)).elim [] (·.conditions)

theorem containersAt_eq {s : Slot} (h : Slot.ofText slot = .ok s) :
    containersAt t slot = (t.get s).containers := by
  unfold containersAt
  rw [h]

theorem groupsAt_eq {containers pre post : List Container} {c : Container}
    (h : containersAt t slot = containers) (hc : At containers container pre c post) :
    groupsAt t slot container = c.groups := by
  have hfind : containers.find? (·.id == container) = some c := hc.find?
  rw [groupsAt, h, hfind]
  rfl

theorem conditionsAt_eq {groups pre post : List Group} {g : Group} (h : groupsAt t slot container = groups)
    (hg : At groups group pre g post) : conditionsAt t slot container group = g.conditions := by
  have hfind : groups.find? (·.id == group) = some g := hg.find?
  rw [conditionsAt, h, hfind]
  rfl

end Addresses

/-! ## Retargeting -/

section Retarget

variable {old new : Indicator}

/-- Only operands are changed, and a second bound is not lost. -/
theorem retargetCondition_eq_ok {c c' : Condition} (h : retargetCondition old new c = .ok c') :
    ∃ left right upper, c' = { c with left, right, upper } ∧ upper.isSome = c.upper.isSome := by
  obtain ⟨left, -, h⟩ := bind_eq_ok.mp h
  obtain ⟨right, -, h⟩ := bind_eq_ok.mp h
  obtain ⟨upper, hupper, h⟩ := bind_eq_ok.mp h
  cases h
  refine ⟨left, right, upper, rfl, ?_⟩
  have hmapped := mapM_option_ok hupper
  generalize c.upper = o at hmapped
  cases o <;> cases upper <;> cases hmapped <;> rfl

theorem retargetGroup_eq_ok {g g' : Group} (h : retargetGroup old new g = .ok g') :
    ∃ conditions, g' = { g with conditions } ∧
      List.Forall₂ (fun c c' => retargetCondition old new c = .ok c') g.conditions conditions := by
  obtain ⟨conditions, hconditions, h⟩ := bind_eq_ok.mp h
  cases h
  exact ⟨conditions, rfl, mapM_eq_ok.mp hconditions⟩

theorem retargetContainer_eq_ok {c c' : Container} (h : retargetContainer old new c = .ok c') :
    ∃ groups, c' = { c with groups } ∧
      List.Forall₂ (fun g g' => retargetGroup old new g = .ok g') c.groups groups := by
  obtain ⟨groups, hgroups, h⟩ := bind_eq_ok.mp h
  cases h
  exact ⟨groups, rfl, mapM_eq_ok.mp hgroups⟩

theorem retargetBranch_eq_ok {b b' : Branch} (h : retargetBranch old new b = .ok b') :
    ∃ containers, b' = { b with containers } ∧
      List.Forall₂ (fun c c' => retargetContainer old new c = .ok c') b.containers containers := by
  obtain ⟨containers, hcontainers, h⟩ := bind_eq_ok.mp h
  cases h
  exact ⟨containers, rfl, mapM_eq_ok.mp hcontainers⟩

end Retarget

end Stratagem.Edit
