import Stratagem.Proofs.Compiled.Wire
import Stratagem.Proofs.Quorum
import Stratagem.Proofs.Tree.Meaning
import Stratagem.Tree.Compile

/-!
# Compiled levels

Compiling leaves nothing disabled and no threshold out of range, whatever its calls are like. What a tree is
compiled to is said of the result alone: at every level the enabled children and no others, in their
order, each enabled and required as it was, under a threshold in range. An empty level has a threshold that it cannot
reach, and a disabled branch is emitted as such and without containers.
-/

namespace Stratagem

open Quorum (live plan SameFlags)

/-! ## Normal levels -/

namespace Compiled

section

variable (p : Call → Prop)

/-- Levels whose calls are as `p` says. -/
structure Group.Normal (g : Group) : Prop where
  enabled : g.enabled = true
  minPass : (plan g.conditions g.minPass).minPass = g.minPass
  conditions : ∀ c ∈ g.conditions, p c

structure Container.Normal (c : Container) : Prop where
  enabled : c.enabled = true
  minPass : (plan c.groups c.minPass).minPass = c.minPass
  groups : ∀ g ∈ c.groups, g.Normal p

/-- A disabled branch holds nothing but its actions. -/
structure Branch.Normal (b : Branch) : Prop where
  onPass : b.onPass.compile = b.onPass
  containers : ∀ c ∈ b.containers, c.Normal p
  minPass : b.enabled = true → (plan b.containers b.minPass).minPass = b.minPass
  disabled : b.enabled = false → b = .disabled b.onPass

end

/-! Calls that are exchanged leave the levels normal. -/

section

variable {p q : Call → Prop} {k : Call → Call}

theorem Group.Normal.exchanged {g : Group} (h : g.Normal p) (hflags : ∀ c, SameFlags c (k c))
    (hk : ∀ c ∈ g.conditions, p c → q (k c)) : (g.mapCalls k).Normal q := by
  refine ⟨h.enabled, ?_, List.forall_mem_map.mpr fun c hc => hk c hc (h.conditions c hc)⟩
  exact (Quorum.plan_minPass_map hflags _ _).trans h.minPass

theorem Container.Normal.exchanged {c : Container} (h : c.Normal p) (hflags : ∀ c, SameFlags c (k c))
    (hk : ∀ g ∈ c.groups, ∀ d ∈ g.conditions, p d → q (k d)) : (c.mapCalls k).Normal q := by
  refine ⟨h.enabled, ?_, List.forall_mem_map.mpr fun g hg => (h.groups g hg).exchanged hflags (hk g hg)⟩
  exact (Quorum.plan_minPass_map (h := Group.mapCalls k) (fun _ => ⟨rfl, rfl⟩) _ _).trans h.minPass

theorem Branch.Normal.exchanged {b : Branch} (h : b.Normal p) (hflags : ∀ c, SameFlags c (k c))
    (hk : ∀ c ∈ b.containers, ∀ g ∈ c.groups, ∀ d ∈ g.conditions, p d → q (k d)) : (b.mapCalls k).Normal q := by
  refine ⟨h.onPass, List.forall_mem_map.mpr fun c hc => (h.containers c hc).exchanged hflags (hk c hc),
    fun hen => ?_, fun hen => ?_⟩
  · exact (Quorum.plan_minPass_map (h := Container.mapCalls k) (fun _ => ⟨rfl, rfl⟩) _ _).trans (h.minPass hen)
  · rw [Branch.mapCalls, h.disabled hen]
    rfl

theorem Branch.Normal.mapCalls_eq {b : Branch} (h : b.Normal fun c => k c = c) : b.mapCalls k = b :=
  Branch.mapCalls_self fun c hc g hg => ((h.containers c hc).groups g hg).conditions

end

end Compiled

/-! ## Compiling gives normal levels -/

/-- The calls that conditions compile to. -/
structure Call.Shaped (c : Call) : Prop where
  enabled : c.enabled = true
  args : ∃ (left right : ValueRef) (upper : Option ValueRef),
    c.args = .ref left :: (right :: upper.toList).map .ref

theorem Condition.compile_eq (k : Condition) : k.compile = {
    method := k.method
    args := .ref k.left :: (k.right :: k.upper.toList).map fun o => .ref (o.toRef k.left)
    enabled := true
    required := k.required } := by
  rw [compile, operands]
  cases k.upper <;> rfl

theorem Condition.compile_shaped (k : Condition) : k.compile.Shaped := by
  refine ⟨rfl, k.left, k.right.toRef k.left, k.upper.map (·.toRef k.left), ?_⟩
  rw [compile_eq]
  cases k.upper <;> rfl

section

variable {p : Call → Prop}

theorem Group.normal {g : Group} (h : ∀ k ∈ g.conditions, p k.compile) : g.compile.Normal p := by
  refine ⟨rfl, Quorum.plan_compiled fun k hk => ⟨(Quorum.mem_live.mp hk).2, rfl⟩, ?_⟩
  intro c hc
  obtain ⟨k, hk, rfl⟩ := List.mem_map.mp hc
  exact h k (Quorum.mem_live.mp hk).1

theorem Container.normal {c : Container} (h : ∀ g ∈ c.groups, ∀ k ∈ g.conditions, p k.compile) :
    c.compile.Normal p := by
  refine ⟨rfl, Quorum.plan_compiled fun g hg => ⟨(Quorum.mem_live.mp hg).2, rfl⟩, ?_⟩
  intro g hg
  obtain ⟨g, hmem, rfl⟩ := List.mem_map.mp hg
  exact Group.normal (h g (Quorum.mem_live.mp hmem).1)

theorem ActionSet.compile_compile (a : ActionSet) : a.compile.compile = a.compile := by
  have hcalls : live (live a.calls) = live a.calls := Quorum.live_live
  have hmin : (Quorum.plan (live a.calls) (Quorum.plan a.calls a.minPass).minPass).minPass =
      (Quorum.plan a.calls a.minPass).minPass := by
    rw [Quorum.plan_minPass_live, Quorum.plan_minPass_idem]
  show ActionSet.mk (live (live a.calls)) a.enabled _ = ActionSet.mk (live a.calls) a.enabled _
  rw [hcalls]
  exact congrArg _ hmin

theorem ActionSet.calls_unsigned (a : ActionSet) : live a.unsigned.calls = (live a.calls).map Call.unsigned := by
  rw [live, live, unsigned, List.filter_map]
  rfl

theorem ActionSet.compile_unsigned (a : ActionSet) : a.unsigned.compile = a.compile.unsigned := by
  have hmin : (Quorum.plan a.unsigned.calls a.minPass).minPass = (Quorum.plan a.calls a.minPass).minPass :=
    Quorum.plan_minPass_map (h := Call.unsigned) (fun _ => ⟨rfl, rfl⟩) _ _
  show ActionSet.mk (live a.unsigned.calls) a.enabled (Quorum.plan a.unsigned.calls a.minPass).minPass = _
  rw [a.calls_unsigned, hmin]
  rfl

theorem Compiled.Branch.Normal.unsigned_onPass {b : Compiled.Branch} (h : b.Normal p) :
    ({ b with onPass := b.onPass.unsigned } : Compiled.Branch).Normal p := by
  refine ⟨?_, h.containers, h.minPass, fun hen => ?_⟩
  · show b.onPass.unsigned.compile = b.onPass.unsigned
    rw [ActionSet.compile_unsigned, h.onPass]
  · rw [h.disabled hen]
    rfl

theorem Branch.normal {b : Branch}
    (h : ∀ c ∈ b.containers, ∀ g ∈ c.groups, ∀ k ∈ g.conditions, p k.compile) : b.compile.Normal p := by
  rw [compile]
  by_cases hb : b.enabled = true
  · rw [if_pos hb]
    refine ⟨b.onPass.compile_compile, ?_, fun _ => ?_, ?_⟩
    · intro c hc
      obtain ⟨c, hmem, rfl⟩ := List.mem_map.mp hc
      exact Container.normal (h c (Quorum.mem_live.mp hmem).1)
    · exact Quorum.plan_compiled fun c hc => ⟨(Quorum.mem_live.mp hc).2, rfl⟩
    · intro hdisabled
      cases hdisabled
  · rw [if_neg hb]
    refine ⟨b.onPass.compile_compile, ?_, ?_, fun _ => rfl⟩
    · intro c hc
      cases hc
    · intro henabled
      cases henabled

end

theorem Tree.compile_normal {p : Call → Prop} {t : Tree} (h : ∀ slot, ∀ c ∈ (t.get slot).containers,
    ∀ g ∈ c.groups, ∀ k ∈ g.conditions, p k.compile) (slot : Slot) : (t.compile.get slot).Normal p := by
  rw [show t.compile.get slot = (t.get slot).compile from PerSlot.get_map _ _ _]
  exact Branch.normal (h slot)

theorem Compiled.Logic.forall_conditions {p : Call → Prop} {l : Logic} (h : ∀ slot, (l.get slot).Normal p) :
    ∀ d ∈ l.conditions, p d := by
  intro d hd
  obtain ⟨slot, c, hc, g, hg, hd⟩ := mem_conditions.mp hd
  exact (((h slot).containers c hc).groups g hg).conditions d hd

/-! ## Emitted levels -/

open Quorum (live plan)

namespace Quorum

variable {α β : Type} [Flagged α] [Flagged β]

def optionalCount (cs : List α) : Nat := cs.countP fun c => !required c

/-- A level emitted for an authored one, where `R` says what is emitted for a child. -/
structure Emitted (R : α → β → Prop) (authored : List α) (minPass : Int) (emitted : List β) (minPass' : Int) :
    Prop where
  /-- The enabled children in their order. -/
  children : List.Forall₂ (fun c d => enabled d = true ∧ required d = required c ∧ R c d)
    (authored.filter enabled) emitted
  inRange : emitted ≠ [] → 0 ≤ minPass' ∧ minPass' ≤ optionalCount emitted
  /-- A threshold in range is the authored one. -/
  kept : emitted ≠ [] → 0 ≤ minPass → minPass ≤ optionalCount emitted → minPass' = minPass
  empty : emitted = [] → minPass' = 1

theorem length_optionalOf_map {f : α → β} {cs : List α} (hf : ∀ c ∈ live cs, required (f c) = required c) :
    (optionalOf cs).length = optionalCount ((live cs).map f) := by
  rw [optionalOf, ← List.countP_eq_length_filter, optionalCount, List.countP_map]
  refine List.countP_congr fun c hc => ?_
  rw [Function.comp_apply, hf c hc]

/-- What the plan of a level is filled with. -/
theorem emitted_plan {R : α → β → Prop} {f : α → β} {cs : List α}
    (hf : ∀ c ∈ live cs, enabled (f c) = true ∧ required (f c) = required c ∧ R c (f c)) (minPass : Int) :
    Emitted R cs minPass ((live cs).map f) (plan cs minPass).minPass := by
  have hcount := length_optionalOf_map fun c hc => (hf c hc).2.1
  have hthreshold : (live cs).map f ≠ [] →
      (plan cs minPass).minPass = clamp minPass (optionalCount ((live cs).map f)) := by
    intro hne
    have hlive : (live cs).isEmpty = false := by simpa using hne
    rw [plan, hlive, hcount]
    rfl
  constructor
  · exact List.forall₂_map_right_iff.mpr (List.forall₂_same.mpr hf)
  · intro hne
    rw [hthreshold hne, clamp]
    omega
  · intro hne hlow hhigh
    rw [hthreshold hne, clamp]
    omega
  · intro hempty
    rw [plan, List.map_eq_nil_iff.mp hempty]
    rfl

end Quorum

/-! ## Trees -/

/-- The call makes the comparison, its numbers written as literals beside the left operand. -/
def Condition.Emits (k : Condition) (c : Call) : Prop :=
  c.method = k.method ∧ c.args = k.operands.map fun o => .ref (o.toRef k.left)

def Group.Emits (g : Group) (e : Compiled.Group) : Prop :=
  Quorum.Emitted Condition.Emits g.conditions g.minPass e.conditions e.minPass

def Container.Emits (c : Container) (e : Compiled.Container) : Prop :=
  Quorum.Emitted Group.Emits c.groups c.minPass e.groups e.minPass

/-- A disabled action set is a level as well. -/
structure ActionSet.Emits (a e : ActionSet) : Prop where
  enabled : e.enabled = a.enabled
  calls : Quorum.Emitted Eq a.calls a.minPass e.calls e.minPass

structure Branch.Emits (b : Branch) (e : Compiled.Branch) : Prop where
  enabled : e.enabled = b.enabled
  onPass : b.onPass.Emits e.onPass
  containers : b.enabled = true → Quorum.Emitted Container.Emits b.containers b.minPass e.containers e.minPass
  disabled : b.enabled = false → e.containers = [] ∧ e.minPass = 1

theorem Condition.emits_compile (k : Condition) : k.Emits k.compile := ⟨rfl, rfl⟩

theorem Group.emits_compile (g : Group) : g.Emits g.compile :=
  Quorum.emitted_plan (f := Condition.compile) (fun k _ => ⟨rfl, rfl, k.emits_compile⟩) g.minPass

theorem Container.emits_compile (c : Container) : c.Emits c.compile :=
  Quorum.emitted_plan (f := Group.compile) (fun g _ => ⟨rfl, rfl, g.emits_compile⟩) c.minPass

/-- The actions that are left are emitted as they are. -/
theorem ActionSet.emits_compile (a : ActionSet) : a.Emits a.compile := by
  refine ⟨rfl, ?_⟩
  have hplan := Quorum.emitted_plan (R := Eq) (f := id)
    (fun c (hc : c ∈ live a.calls) => ⟨(Quorum.mem_live.mp hc).2, rfl, rfl⟩) a.minPass
  rwa [List.map_id] at hplan

theorem Branch.emits_compile (b : Branch) : b.Emits b.compile := by
  refine ⟨b.enabled_compile, ?_, fun hen => ?_, fun hen => ?_⟩
  · rw [b.onPass_compile]
    exact b.onPass.emits_compile
  · rw [compile, if_pos hen]
    exact Quorum.emitted_plan (f := Container.compile) (fun c _ => ⟨rfl, rfl, c.emits_compile⟩) b.minPass
  · rw [compile, hen]
    exact ⟨rfl, rfl⟩

/-- **Compiled strategies are in normal form.** Every level holds its enabled children alone, in their order and with
their marks, under a threshold between zero and the number of those that are not required, action sets included; a
level without children has the threshold 1, and a branch that is disabled is emitted disabled and without containers. -/
theorem Tree.compile_emits (t : Tree) (slot : Slot) : (t.get slot).Emits (t.compile.get slot) := by
  rw [show t.compile.get slot = (t.get slot).compile from PerSlot.get_map _ _ _]
  exact (t.get slot).emits_compile

end Stratagem
