import Stratagem.Proofs.Compiled.Wire
import Stratagem.Proofs.Sequencing
import Stratagem.Tree

/-!
# The ids and the references of a tree

A node is accepted when it has an id and its children have different ones. A change of references is carried
through a tree: everything else of it stays. `EachRef` says something of every reference, whether it stands on the
left or the right or is a second bound.
-/

namespace Stratagem

/-! ## Siblings -/

namespace Node

theorem repeatedId?_of_nodup {ids : List String} (seen : List String) (h : ids.Nodup)
    (hseen : ∀ id ∈ ids, id ∉ seen) : repeatedId? seen ids = none := by
  induction ids generalizing seen with
  | nil => rfl
  | cons id ids ih =>
      obtain ⟨hid, hids⟩ := List.nodup_cons.mp h
      rw [repeatedId?, if_neg (by simpa using hseen id List.mem_cons_self)]
      refine ih _ hids fun i hi hmem => ?_
      rcases List.mem_cons.mp hmem with rfl | hmem
      · exact hid hi
      · exact hseen i (List.mem_cons_of_mem _ hi) hmem

theorem checkIds_eq_ok {owner child : String} {ids : List String} {u : Unit} :
    checkIds owner child ids = .ok u ↔ ids.Nodup := by
  rw [checkIds]
  constructor
  · intro h
    split at h
    · cases h
    · rename_i hnone
      exact (repeatedId?_eq_none hnone).1
  · intro h
    rw [repeatedId?_of_nodup [] h fun _ _ => List.not_mem_nil]

/-- A node with children is accepted if it has an id and they have different ones. -/
theorem checked_eq_ok {α : Type} {a k : α} {id owner child : String} {ids : List String} {f : Failure} :
    (if id.isEmpty then .error f else do checkIds owner child ids; return a) = Except.ok k ↔
      id.isEmpty = false ∧ ids.Nodup ∧ a = k := by
  by_cases hid : id.isEmpty = true
  · simp [hid]
  · rw [if_neg hid, bind_eq_ok, Bool.not_eq_true] at *
    constructor
    · rintro ⟨u, hu, hk⟩
      exact ⟨hid, checkIds_eq_ok.mp hu, Except.ok.inj hk⟩
    · rintro ⟨-, hids, rfl⟩
      exact ⟨(), checkIds_eq_ok.mpr hids, rfl⟩

end Node

/-! ## Checked nodes -/

theorem Condition.checked_eq_ok {c k : Condition} :
    c.checked = .ok k ↔ c.id.isEmpty = false ∧ c.method.isEmpty = false ∧ c = k := by
  rw [checked]
  by_cases hid : c.id.isEmpty = true
  · simp [hid]
  · by_cases hmethod : c.method.isEmpty = true
    · simp [hid, hmethod]
    · rw [if_neg hid, if_neg hmethod, Except.ok.injEq]
      rw [Bool.not_eq_true] at hid hmethod
      exact ⟨fun h => ⟨hid, hmethod, h⟩, fun h => h.2.2⟩

theorem Group.checked_eq_ok {g k : Group} :
    g.checked = .ok k ↔ g.id.isEmpty = false ∧ (g.conditions.map (·.id)).Nodup ∧ g = k :=
  Node.checked_eq_ok

theorem Container.checked_eq_ok {c k : Container} :
    c.checked = .ok k ↔ c.id.isEmpty = false ∧ (c.groups.map (·.id)).Nodup ∧ c = k :=
  Node.checked_eq_ok

theorem Branch.checked_eq_ok {slot : Slot} {b k : Branch} :
    b.checked slot = .ok k ↔ (b.containers.map (·.id)).Nodup ∧ b = k := by
  rw [checked, bind_eq_ok]
  constructor
  · rintro ⟨u, hu, hk⟩
    exact ⟨Node.checkIds_eq_ok.mp hu, Except.ok.inj hk⟩
  · rintro ⟨hids, rfl⟩
    exact ⟨(), Node.checkIds_eq_ok.mpr hids, rfl⟩

/-! ## References -/

section

variable (f : ValueRef → ValueRef)

def Operand.mapRef : Operand → Operand
  | .ref r => .ref (f r)
  | .number x => .number x

def Condition.mapRefs (c : Condition) : Condition :=
  { c with left := f c.left, right := c.right.mapRef f, upper := c.upper.map (Operand.mapRef f) }

def Group.mapRefs (g : Group) : Group := { g with conditions := g.conditions.map (Condition.mapRefs f) }

def Container.mapRefs (c : Container) : Container := { c with groups := c.groups.map (Group.mapRefs f) }

def Branch.mapRefs (b : Branch) : Branch := { b with containers := b.containers.map (Container.mapRefs f) }

def Tree.mapRefs (t : Tree) : Tree := t.map fun _ b => b.mapRefs f

end

/-- The branch without the signs of zeros among the arguments of its actions. -/
def Branch.unsigned (b : Branch) : Branch := { b with onPass := b.onPass.unsigned }

def Tree.unsigned (t : Tree) : Tree := t.map fun _ b => b.unsigned

section

variable (p : ValueRef → Prop)

def Operand.EachRef : Operand → Prop
  | .ref r => p r
  | .number _ => True

def Condition.EachRef (c : Condition) : Prop := ∀ o ∈ c.operands, o.EachRef p

def Group.EachRef (g : Group) : Prop := ∀ c ∈ g.conditions, c.EachRef p

def Container.EachRef (c : Container) : Prop := ∀ g ∈ c.groups, g.EachRef p

def Branch.EachRef (b : Branch) : Prop := ∀ c ∈ b.containers, c.EachRef p

def Tree.EachRef (t : Tree) : Prop := ∀ slot, (t.get slot).EachRef p

end

section

variable {p : ValueRef → Prop} [DecidablePred p]

instance Operand.decidableEachRef (o : Operand) : Decidable (o.EachRef p) :=
  match o with
  | .ref r => inferInstanceAs (Decidable (p r))
  | .number _ => isTrue trivial

instance Condition.decidableEachRef (c : Condition) : Decidable (c.EachRef p) :=
  inferInstanceAs (Decidable (∀ o ∈ c.operands, o.EachRef p))

instance Group.decidableEachRef (g : Group) : Decidable (g.EachRef p) :=
  inferInstanceAs (Decidable (∀ c ∈ g.conditions, c.EachRef p))

instance Container.decidableEachRef (c : Container) : Decidable (c.EachRef p) :=
  inferInstanceAs (Decidable (∀ g ∈ c.groups, g.EachRef p))

instance Branch.decidableEachRef (b : Branch) : Decidable (b.EachRef p) :=
  inferInstanceAs (Decidable (∀ c ∈ b.containers, c.EachRef p))

instance Tree.decidableEachRef (t : Tree) : Decidable (t.EachRef p) :=
  decidable_of_iff (∀ slot ∈ Slot.all, (t.get slot).EachRef p)
    ⟨fun h slot => h slot (by cases slot <;> simp [Slot.all]), fun h slot _ => h slot⟩

end

theorem Condition.operands_mapRefs (f : ValueRef → ValueRef) (c : Condition) :
    (c.mapRefs f).operands = c.operands.map (Operand.mapRef f) := by
  rw [operands, operands, mapRefs]
  cases c.upper <;> rfl

/-! Nothing is changed where no reference is. -/

theorem Operand.mapRef_self (o : Operand) : o.mapRef (fun r => r) = o := by
  cases o <;> rfl

theorem Condition.mapRefs_self (c : Condition) : c.mapRefs (fun r => r) = c := by
  obtain ⟨id, method, left, right, upper, enabled, required⟩ := c
  have hupper : upper.map (Operand.mapRef fun r => r) = upper := by
    cases upper with
    | none => rfl
    | some o => exact congrArg some o.mapRef_self
  rw [mapRefs, Operand.mapRef_self, hupper]

theorem Group.mapRefs_self (g : Group) : g.mapRefs (fun r => r) = g :=
  congrArg (fun conditions => { g with conditions }) (map_self fun c _ => c.mapRefs_self)

theorem Container.mapRefs_self (c : Container) : c.mapRefs (fun r => r) = c :=
  congrArg (fun groups => { c with groups }) (map_self fun g _ => g.mapRefs_self)

theorem Branch.mapRefs_self (b : Branch) : b.mapRefs (fun r => r) = b :=
  congrArg (fun containers => { b with containers }) (map_self fun c _ => c.mapRefs_self)

theorem Tree.EachRef.and {p q : ValueRef → Prop} {t : Tree} (hp : t.EachRef p) (hq : t.EachRef q) :
    t.EachRef fun r => p r ∧ q r := by
  intro slot c hc g hg cond hcond o ho
  have hpo := hp slot c hc g hg cond hcond o ho
  have hqo := hq slot c hc g hg cond hcond o ho
  cases o with
  | ref r => exact ⟨hpo, hqo⟩
  | number x => trivial

theorem Tree.EachRef.imp {p q : ValueRef → Prop} {t : Tree} (h : t.EachRef p) (hpq : ∀ r, p r → q r) :
    t.EachRef q := by
  intro slot c hc g hg cond hcond o ho
  have ho := h slot c hc g hg cond hcond o ho
  cases o with
  | ref r => exact hpq r ho
  | number x => trivial

theorem Branch.unsigned_unsigned (b : Branch) : b.unsigned.unsigned = b.unsigned := by
  rw [unsigned, unsigned, ActionSet.unsigned_unsigned]

theorem Tree.unsigned_unsigned (t : Tree) : t.unsigned.unsigned = t.unsigned := by
  refine PerSlot.ext_get fun slot => ?_
  rw [unsigned, unsigned, PerSlot.get_map, PerSlot.get_map, Branch.unsigned_unsigned]

end Stratagem
