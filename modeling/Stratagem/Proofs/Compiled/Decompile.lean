import Stratagem.Tree.Compile
import Stratagem.Proofs.ValueRef.Wire
import Stratagem.Proofs.Quorum

/-!
# What decompiling keeps

A decompiled node has a new id and the flags, thresholds and children of its source; a condition has the
method, and operands that stand for the first three arguments. `Decompiles` says this at every level, and
says nothing of ids.
-/

namespace Stratagem

/-! ## Numbered siblings -/

section Numbered

variable {α β : Type} {f : Nat → α → Except Failure β} {R : α → β → Prop}

def decompileFrom (f : Nat → α → Except Failure β) : Nat → List α → Except Failure (List β)
  | _, [] => .ok []
  | n, a :: as => do
    let b ← f n a
    return b :: (← decompileFrom f (n + 1) as)

/-- Siblings that were decompiled correspond to each other. -/
theorem decompileFrom_forall₂ (hR : ∀ n a b, f n a = .ok b → R a b) {n : Nat} {as : List α}
    {bs : List β} (h : decompileFrom f n as = .ok bs) : List.Forall₂ R as bs := by
  induction as generalizing n bs with
  | nil =>
      cases h
      exact .nil
  | cons a as ih =>
      obtain ⟨b, hb, h⟩ := bind_eq_ok.mp h
      obtain ⟨bs', hbs, h⟩ := bind_eq_ok.mp h
      cases h
      exact .cons (hR n a b hb) (ih hbs)

/-- Siblings are decompiled if each of them is, whatever its number. -/
theorem decompileFrom_exists {as : List α} (h : ∀ a ∈ as, ∀ n, ∃ b, f n a = .ok b ∧ R a b) (n : Nat) :
    ∃ bs, decompileFrom f n as = .ok bs ∧ List.Forall₂ R as bs := by
  induction as generalizing n with
  | nil => exact ⟨[], rfl, .nil⟩
  | cons a as ih =>
      obtain ⟨b, hb, hab⟩ := h a List.mem_cons_self n
      obtain ⟨bs, hbs, habs⟩ := ih (fun a ha => h a (List.mem_cons_of_mem _ ha)) (n + 1)
      refine ⟨b :: bs, ?_, .cons hab habs⟩
      rw [decompileFrom, hb, ok_bind, hbs]
      rfl

end Numbered

namespace Compiled

theorem decompileConditions_eq (group : String) (n : Nat) (cs : List Call) :
    decompileConditions group n cs =
      decompileFrom (fun n c => c.decompile (group ++ "-condition-" ++ ordinal n)) n cs := by
  induction cs generalizing n with
  | nil => rfl
  | cons c cs ih => rw [decompileConditions, decompileFrom, ih]

theorem decompileGroups_eq (container : String) (n : Nat) (gs : List Group) :
    decompileGroups container n gs =
      decompileFrom (fun n g => g.decompile (container ++ "-group-" ++ ordinal n) n) n gs := by
  induction gs generalizing n with
  | nil => rfl
  | cons g gs ih => rw [decompileGroups, decompileFrom, ih]

theorem decompileContainers_eq (slot : Slot) (n : Nat) (cs : List Container) :
    decompileContainers slot n cs = decompileFrom (Container.decompile slot) n cs := by
  induction cs generalizing n with
  | nil => rfl
  | cons c cs ih => rw [decompileContainers, decompileFrom, ih]

end Compiled

/-! ## Level by level -/

/-- The parts of a condition that a call decides. -/
structure Call.Decompiles (c : Call) (k : Condition) : Prop where
  method : k.method = c.method
  enabled : k.enabled = c.enabled
  required : k.required = c.required
  args : ∃ left rest, c.args = left :: rest ∧ left.toLeft = .ok k.left ∧
    List.Forall₂ (fun a o => a.toOperand = .ok o) (rest.take 2) (k.right :: k.upper.toList)

namespace Compiled

structure Group.Decompiles (g : Group) (g' : Stratagem.Group) : Prop where
  enabled : g'.enabled = g.enabled
  required : g'.required = g.required
  minPass : g'.minPass = g.minPass
  conditions : List.Forall₂ Call.Decompiles g.conditions g'.conditions

structure Container.Decompiles (c : Container) (c' : Stratagem.Container) : Prop where
  enabled : c'.enabled = c.enabled
  required : c'.required = c.required
  minPass : c'.minPass = c.minPass
  groups : List.Forall₂ Group.Decompiles c.groups c'.groups

structure Branch.Decompiles (b : Branch) (b' : Stratagem.Branch) : Prop where
  enabled : b'.enabled = b.enabled
  minPass : b'.minPass = b.minPass
  onPass : b'.onPass = b.onPass
  containers : List.Forall₂ Container.Decompiles b.containers b'.containers

end Compiled

theorem Call.decompiles {id : String} {c : Call} {k : Condition} (h : c.decompile id = .ok k) :
    c.Decompiles k := by
  rw [decompile] at h
  split at h
  · rename_i left right rest hargs
    obtain ⟨l, hl, h⟩ := bind_eq_ok.mp h
    obtain ⟨u, hu, h⟩ := bind_eq_ok.mp h
    obtain ⟨r, hr, h⟩ := bind_eq_ok.mp h
    cases h
    refine ⟨rfl, rfl, rfl, left, right :: rest, hargs, hl, .cons hr ?_⟩
    rw [List.take_one]
    exact mapM_option_ok hu
  · cases h

namespace Compiled

theorem Group.decompiles {id : String} {n : Nat} {g : Group} {g' : Stratagem.Group}
    (h : g.decompile id n = .ok g') : g.Decompiles g' := by
  obtain ⟨ks, hks, h⟩ := bind_eq_ok.mp h
  cases h
  rw [decompileConditions_eq] at hks
  refine ⟨rfl, rfl, rfl, decompileFrom_forall₂ ?_ hks⟩
  exact fun _ _ _ => Call.decompiles

theorem Container.decompiles {slot : Slot} {n : Nat} {c : Container} {c' : Stratagem.Container}
    (h : c.decompile slot n = .ok c') : c.Decompiles c' := by
  obtain ⟨gs, hgs, h⟩ := bind_eq_ok.mp h
  cases h
  rw [decompileGroups_eq] at hgs
  refine ⟨rfl, rfl, rfl, decompileFrom_forall₂ ?_ hgs⟩
  exact fun _ _ _ => Group.decompiles

theorem Branch.decompiles {slot : Slot} {b : Branch} {b' : Stratagem.Branch}
    (h : b.decompile slot = .ok b') : b.Decompiles b' := by
  obtain ⟨cs, hcs, h⟩ := bind_eq_ok.mp h
  cases h
  rw [decompileContainers_eq] at hcs
  refine ⟨rfl, rfl, rfl, decompileFrom_forall₂ ?_ hcs⟩
  exact fun _ _ _ => Container.decompiles

/-- A tree that was decompiled keeps flags, thresholds, actions and order of its source. -/
theorem Logic.decompiles {l : Logic} {t : Tree} (h : l.decompile = .ok t) (slot : Slot) :
    (l.get slot).Decompiles (t.get slot) :=
  Branch.decompiles (PerSlot.ofFnM_eq_ok.mp h slot)

end Compiled

end Stratagem
