import Stratagem.Proofs.Compiled.Decompile
import Stratagem.Proofs.Compiled.Levels
import Stratagem.Proofs.Number.Text
import Stratagem.Proofs.Tree.Refs

/-!
# Trees of compiled strategies

A strategy whose levels are normal and whose calls hold references, as compiled ones do, is decompiled. The
ids of the tree are its own, and whatever its references are exchanged for, the tree compiles to the strategy
with the references exchanged and the literals aligned anew.
-/

namespace Stratagem

open Quorum (live plan)

/-! ## Ids -/

theorem decimal_injective {m n : Nat} (h : Number.decimal m = Number.decimal n) : m = n := by
  have hdigits : Number.digitsOf m = Number.digitsOf n := by
    have hchars := congrArg String.toList h
    rwa [Number.decimal, Number.decimal, String.toList_ofList, String.toList_ofList,
      if_neg (by omega), if_neg (by omega)] at hchars
  rw [← Number.natOfDigits_digitsOf m, hdigits, Number.natOfDigits_digitsOf]

theorem append_decimal_injective (start : String) : Function.Injective fun n : Nat => start ++ Number.decimal n := by
  intro m n h
  have hchars := congrArg String.toList h
  dsimp only at hchars
  rw [String.toList_append, String.toList_append, List.append_cancel_left_eq] at hchars
  exact decimal_injective (String.toList_inj.mp hchars)

theorem append_ordinal_injective (start : String) : Function.Injective fun n => start ++ ordinal n :=
  (append_decimal_injective start).comp Nat.succ_injective

def containerName (slot : Slot) (n : Nat) : String :=
  if n == 0 then slot.containerId else slot.containerId ++ "-" ++ ordinal n

theorem containerName_injective (slot : Slot) : Function.Injective (containerName slot) := by
  -- the first container has no number, so its name is shorter than every other
  have hfirst : ∀ n, slot.containerId ≠ slot.containerId ++ "-" ++ ordinal n := by
    intro n h
    have hlength := congrArg (fun s : String => s.toList.length) h
    simp only [String.toList_append, List.length_append] at hlength
    have hbar : "-".toList.length = 1 := rfl
    omega
  intro m n h
  cases m with
  | zero =>
      cases n with
      | zero => rfl
      | succ n => exact absurd h (hfirst _)
  | succ m =>
      cases n with
      | zero => exact absurd h.symm (hfirst _)
      | succ n => exact append_ordinal_injective _ h

section Numbered

variable {α β γ : Type} {f : Nat → α → Except Failure β} {key : β → γ} {name : Nat → γ}

theorem decompileFrom_map {n : Nat} {as : List α} {bs : List β} (h : decompileFrom f n as = .ok bs)
    (hkey : ∀ n a b, f n a = .ok b → key b = name n) : bs.map key = (List.range' n as.length).map name := by
  induction as generalizing n bs with
  | nil =>
      cases h
      rfl
  | cons a as ih =>
      obtain ⟨b, hb, h⟩ := bind_eq_ok.mp h
      obtain ⟨bs', hbs, h⟩ := bind_eq_ok.mp h
      cases h
      rw [List.map_cons, hkey n a b hb, ih hbs, List.length_cons, List.range'_succ, List.map_cons]

/-- Siblings with numbered names have different ones. -/
theorem decompileFrom_nodup {n : Nat} {as : List α} {bs : List β} (h : decompileFrom f n as = .ok bs)
    (hkey : ∀ n a b, f n a = .ok b → key b = name n) (hname : Function.Injective name) : (bs.map key).Nodup := by
  rw [decompileFrom_map h hkey]
  exact (List.nodup_range' 1).map hname

end Numbered

theorem Call.id_of_decompile {id : String} {c : Call} {k : Condition} (h : c.decompile id = .ok k) :
    k.id = id := by
  rw [decompile] at h
  split at h
  · obtain ⟨l, -, h⟩ := bind_eq_ok.mp h
    obtain ⟨u, -, h⟩ := bind_eq_ok.mp h
    obtain ⟨r, -, h⟩ := bind_eq_ok.mp h
    cases h
    rfl
  · cases h

namespace Compiled

theorem Group.id_of_decompile {id : String} {n : Nat} {g : Group} {g' : Stratagem.Group}
    (h : g.decompile id n = .ok g') : g'.id = id := by
  obtain ⟨ks, -, h⟩ := bind_eq_ok.mp h
  cases h
  rfl

theorem Container.id_of_decompile {slot : Slot} {n : Nat} {c : Container} {c' : Stratagem.Container}
    (h : c.decompile slot n = .ok c') : c'.id = containerName slot n := by
  obtain ⟨gs, -, h⟩ := bind_eq_ok.mp h
  cases h
  rfl

end Compiled

/-! ## Exchanged references -/

/-- The argument beside a left operand, its reference exchanged. A literal is aligned anew. -/
def Argument.recast (f : ValueRef → ValueRef) (left : ValueRef) : Argument → Argument
  | .ref r => .ref (((Operand.ofRef r).mapRef f).toRef (f left))
  | a => a

def Call.recast (f : ValueRef → ValueRef) (c : Call) : Call :=
  match c.args with
  | .ref left :: rest => { c with args := .ref (f left) :: rest.map (Argument.recast f left) }
  | _ => c

/-! ## Level by level -/

/-- No threshold of the tree needs a correction. -/
def Group.Unclamped (g : Group) : Prop := g.plan.minPass = g.minPass

def Container.Unclamped (c : Container) : Prop :=
  c.plan.minPass = c.minPass ∧ ∀ g ∈ c.groups, g.Unclamped

def Branch.Unclamped (b : Branch) : Prop :=
  b.enabled = true → b.plan.minPass = b.minPass ∧ b.onPass.plan.minPass = b.onPass.minPass ∧
    ∀ c ∈ b.containers, c.Unclamped

/-- The condition that a call is decompiled to. -/
structure Call.Restored (c : Call) (k : Condition) : Prop where
  id : k.id.isEmpty = false
  method : k.method = c.method
  enabled : k.enabled = true
  refs : ∀ q : ValueRef → Prop, (∀ r, .ref r ∈ c.args → q r) → k.EachRef q
  compile : ∀ f, (k.mapRefs f).compile = c.recast f

namespace Compiled

structure Group.Restored (g : Group) (g' : Stratagem.Group) : Prop where
  id : g'.id.isEmpty = false
  ids : (g'.conditions.map (·.id)).Nodup
  enabled : g'.enabled = true
  unclamped : g'.Unclamped
  conditions : List.Forall₂ Call.Restored g.conditions g'.conditions
  compile : ∀ f, (g'.mapRefs f).compile = g.mapCalls (Call.recast f)

structure Container.Restored (c : Container) (c' : Stratagem.Container) : Prop where
  id : c'.id.isEmpty = false
  ids : (c'.groups.map (·.id)).Nodup
  enabled : c'.enabled = true
  unclamped : c'.Unclamped
  groups : List.Forall₂ Group.Restored c.groups c'.groups
  compile : ∀ f, (c'.mapRefs f).compile = c.mapCalls (Call.recast f)

structure Branch.Restored (b : Branch) (b' : Stratagem.Branch) : Prop where
  ids : (b'.containers.map (·.id)).Nodup
  onPass : b'.onPass = b.onPass
  unclamped : b'.Unclamped
  containers : List.Forall₂ Container.Restored b.containers b'.containers
  compile : ∀ f, (b'.mapRefs f).compile = b.mapCalls (Call.recast f)

end Compiled

theorem Operand.ofRef_eachRef {q : ValueRef → Prop} {r : ValueRef} (h : q r) : (ofRef r).EachRef q := by
  rw [ofRef]
  split
  · trivial
  · exact h

theorem Call.Shaped.restored {c : Call} (h : c.Shaped) {id : String} (hid : id.isEmpty = false) :
    ∃ k, c.decompile id = .ok k ∧ c.Restored k := by
  obtain ⟨method, args, enabled, required⟩ := c
  obtain ⟨hen, left, right, upper, hargs⟩ := h
  cases hen
  cases hargs
  have hoperands : (Condition.mk id method left (.ofRef right) (upper.map .ofRef) true required).operands =
      .ref left :: (right :: upper.toList).map Operand.ofRef := by
    cases upper <;> rfl
  refine ⟨⟨id, method, left, .ofRef right, upper.map .ofRef, true, required⟩, ?_, hid, rfl, rfl, ?_, ?_⟩
  · cases upper <;> rfl
  · intro q hq o ho
    rw [hoperands] at ho
    rcases List.mem_cons.mp ho with rfl | ho
    · exact hq left List.mem_cons_self
    · obtain ⟨r, hr, rfl⟩ := List.mem_map.mp ho
      exact Operand.ofRef_eachRef (hq r (List.mem_cons_of_mem _ (List.mem_map.mpr ⟨r, hr, rfl⟩)))
  · intro f
    -- on both sides the operands are exchanged, and aligned with the left one as it is then
    rw [Condition.compile, Condition.operands_mapRefs, hoperands, List.map_map, List.map_cons, List.map_map,
      recast]
    refine congrArg (fun args => Call.mk method (.ref (f left) :: args) true required) ?_
    rw [List.map_map]
    rfl

theorem isEmpty_append {s : String} (h : s.isEmpty = false) (t : String) : (s ++ t).isEmpty = false := by
  refine Bool.eq_false_of_not_eq_true fun happend => ?_
  have hchars := congrArg String.toList (String.isEmpty_iff.mp happend)
  rw [String.toList_append] at hchars
  have hs : s = "" := String.toList_inj.mp (List.append_eq_nil_iff.mp hchars).1
  rw [hs] at h
  cases h

/-- A normal level that is decompiled, exchanged child by child and compiled. -/
theorem Quorum.compiled_mapped {α β : Type} [Flagged α] [Flagged β] {h : β → β} {k : α → α} (f : β → α)
    {cs : List α} {ds : List β} {minPass : Int} (hk : ∀ c, Quorum.SameFlags c (k c))
    (hh : ∀ d, Quorum.SameFlags d (h d)) (hf : ∀ d, enabled d = true → Quorum.SameFlags d (f d))
    (hminPass : (plan cs minPass).minPass = minPass)
    (hrel : List.Forall₂ (fun c d => f (h d) = k c ∧ enabled (h d) = true) cs ds) :
    (live (ds.map h)).map f = cs.map k ∧ (plan (ds.map h) minPass).minPass = minPass ∧
      (plan ds minPass).minPass = minPass := by
  have hmapped : List.Forall₂ (fun c d => f d = c ∧ enabled d = true) (cs.map k) (ds.map h) := by
    rw [List.forall₂_map_left_iff, List.forall₂_map_right_iff]
    exact hrel
  obtain ⟨hlive, hplan⟩ := Quorum.compiled_of_forall₂ f minPass hf hmapped
  rw [Quorum.plan_minPass_map hk, hminPass] at hplan
  exact ⟨hlive, hplan, by rw [← Quorum.plan_minPass_map hh, hplan]⟩

theorem Call.sameFlags_recast (f : ValueRef → ValueRef) (c : Call) : Quorum.SameFlags c (c.recast f) := by
  rw [recast]
  split <;> exact ⟨rfl, rfl⟩

namespace Compiled

theorem Group.Normal.restored {g : Group} (h : g.Normal Call.Shaped) {id : String} (hid : id.isEmpty = false)
    (n : Nat) : ∃ g', g.decompile id n = .ok g' ∧ g.Restored g' := by
  have hname : ∀ n, (id ++ "-condition-" ++ ordinal n).isEmpty = false := fun n =>
    isEmpty_append (isEmpty_append hid _) _
  obtain ⟨ks, hks, hforall⟩ := decompileFrom_exists
    (f := fun n c => c.decompile (id ++ "-condition-" ++ ordinal n)) (fun c hc n => (h.conditions c hc).restored (hname n)) 0
  have hids := decompileFrom_nodup hks (fun _ _ _ => Call.id_of_decompile) (append_ordinal_injective _)
  -- for every exchange at once: that of nothing gives the threshold of the tree itself
  have hlevel := fun f => Quorum.compiled_mapped (h := Condition.mapRefs f) (k := Call.recast f) Condition.compile
    (Call.sameFlags_recast f) (fun _ => ⟨rfl, rfl⟩) (fun k hk => ⟨hk, rfl⟩) h.minPass
    (hforall.imp fun c k hck => ⟨hck.compile f, hck.enabled⟩)
  refine ⟨⟨id, "Group " ++ ordinal n, ks, g.enabled, g.required, g.minPass⟩, ?_, hid, hids, h.enabled,
    (hlevel fun r => r).2.2, hforall, fun f => ?_⟩
  · rw [decompile, decompileConditions_eq, hks]
    rfl
  · show Group.mk ((live (ks.map (Condition.mapRefs f))).map Condition.compile) true
      (plan (ks.map (Condition.mapRefs f)) g.minPass).minPass g.required = _
    rw [(hlevel f).1, (hlevel f).2.1, mapCalls, ← h.enabled]

theorem isEmpty_containerName (slot : Slot) (n : Nat) : (containerName slot n).isEmpty = false := by
  have hslot : slot.containerId.isEmpty = false := by cases slot <;> rfl
  rw [containerName]
  split
  · exact hslot
  · exact isEmpty_append (isEmpty_append hslot _) _

theorem Container.Normal.restored {c : Container} (h : c.Normal Call.Shaped) (slot : Slot) (n : Nat) :
    ∃ c', c.decompile slot n = .ok c' ∧ c.Restored c' := by
  have hname : ∀ n', (containerName slot n ++ "-group-" ++ ordinal n').isEmpty = false := fun _ =>
    isEmpty_append (isEmpty_append (isEmpty_containerName slot n) _) _
  obtain ⟨gs, hgs, hforall⟩ := decompileFrom_exists
    (f := fun n' g => g.decompile (containerName slot n ++ "-group-" ++ ordinal n') n')
    (fun g hg n' => (h.groups g hg).restored (hname n') n') 0
  have hids := decompileFrom_nodup hgs (fun _ _ _ => Group.id_of_decompile) (append_ordinal_injective _)
  have hlevel := fun f => Quorum.compiled_mapped (h := Group.mapRefs f) (k := Group.mapCalls (Call.recast f))
    Stratagem.Group.compile (fun _ => ⟨rfl, rfl⟩) (fun _ => ⟨rfl, rfl⟩) (fun g hg => ⟨hg, rfl⟩) h.minPass
    (hforall.imp fun g g' hgg => ⟨hgg.compile f, hgg.enabled⟩)
  refine ⟨⟨containerName slot n, if n == 0 then slot.title else slot.title ++ " " ++ ordinal n, gs, c.enabled,
    c.required, c.minPass⟩, ?_, isEmpty_containerName slot n, hids, h.enabled,
    ⟨(hlevel fun r => r).2.2, forall_right hforall fun _ _ hgg => hgg.unclamped⟩, hforall, fun f => ?_⟩
  · rw [decompile, decompileGroups_eq]
    show (decompileFrom (fun n' g => g.decompile (containerName slot n ++ "-group-" ++ ordinal n') n') 0
      c.groups >>= _) = _
    rw [hgs]
    rfl
  · show Container.mk ((live (gs.map (Group.mapRefs f))).map Stratagem.Group.compile) true
      (plan (gs.map (Group.mapRefs f)) c.minPass).minPass c.required = _
    rw [(hlevel f).1, (hlevel f).2.1, mapCalls, ← h.enabled]

theorem Branch.Normal.restored {b : Branch} (h : b.Normal Call.Shaped) (slot : Slot) :
    ∃ b', b.decompile slot = .ok b' ∧ b.Restored b' := by
  obtain ⟨cs, hcs, hforall⟩ := decompileFrom_exists (f := Container.decompile slot)
    (fun c hc n => (h.containers c hc).restored slot n) 0
  have hids := decompileFrom_nodup hcs (fun _ _ _ => Container.id_of_decompile) (containerName_injective slot)
  have hlevel := fun f (hmin : (plan b.containers b.minPass).minPass = b.minPass) => Quorum.compiled_mapped
    (h := Container.mapRefs f) (k := Container.mapCalls (Call.recast f)) Stratagem.Container.compile
    (fun _ => ⟨rfl, rfl⟩) (fun _ => ⟨rfl, rfl⟩) (fun c hc => ⟨hc, rfl⟩) hmin
    (hforall.imp fun c c' hcc => ⟨hcc.compile f, hcc.enabled⟩)
  refine ⟨⟨cs, b.enabled, b.minPass, b.onPass⟩, ?_, hids, rfl, fun hen => ?_, hforall, fun f => ?_⟩
  · rw [decompile, decompileContainers_eq, hcs]
    rfl
  · exact ⟨(hlevel (fun r => r) (h.minPass hen)).2.2, congrArg ActionSet.minPass h.onPass,
      forall_right hforall fun _ _ hcc => hcc.unclamped⟩
  · by_cases hen : b.enabled = true
    · obtain ⟨hlive, hmin, -⟩ := hlevel f (h.minPass hen)
      rw [Stratagem.Branch.compile, Stratagem.Branch.mapRefs, if_pos hen]
      show Branch.mk true (plan (cs.map (Container.mapRefs f)) b.minPass).minPass
        ((live (cs.map (Container.mapRefs f))).map Stratagem.Container.compile) b.onPass.compile = _
      rw [hlive, hmin, h.onPass, mapCalls, hen]
    · -- a disabled branch compiles to its actions, and a normal one held nothing else
      rw [Stratagem.Branch.compile, Stratagem.Branch.mapRefs, if_neg hen, h.onPass, mapCalls]
      rw [h.disabled (by simpa using hen)]
      rfl

theorem Logic.restored {l : Logic} (h : ∀ slot, (l.get slot).Normal Call.Shaped) :
    ∃ t, l.decompile = .ok t ∧ ∀ slot, (l.get slot).Restored (t.get slot) := by
  choose branch hdecompile hrestored using fun slot => (h slot).restored slot
  refine ⟨.ofFn branch, PerSlot.ofFnM_eq_ok.mpr fun slot => ?_, fun slot => ?_⟩
  · rw [PerSlot.get_ofFn]
    exact hdecompile slot
  · rw [PerSlot.get_ofFn]
    exact hrestored slot

end Compiled

end Stratagem
