import Stratagem.Proofs.Compiled.Restored
import Stratagem.Proofs.Tree.Levels

/-!
# The normal form of compiled strategies

Compiling a tree that was decompiled gives a strategy in normal form: nothing in it is disabled, its thresholds
are in range, and its literals are written as the left operand beside them wants. Such a strategy comes back
from its tree unchanged, and no threshold of that tree needs a correction.
-/

namespace Stratagem

/-! ## Aligned literals -/

/-- A number, or a reference that is none. -/
def Operand.Reduced : Operand → Prop
  | .ref r => r.literalValue = none
  | .number _ => True

/-- The operands after the left one are reduced. -/
def Condition.Reduced (k : Condition) : Prop := ∀ o ∈ k.right :: k.upper.toList, o.Reduced

/-- Beside the left operand, a reduced operand comes back from the reference it is compiled to. -/
theorem Operand.Reduced.toRef_ofRef {o : Operand} (h : o.Reduced) (left : ValueRef) :
    (ofRef (o.toRef left)).toRef left = o.toRef left := by
  cases o with
  | ref r =>
      have hr : r.literalValue = none := h
      rw [toRef, ofRef, hr]
      rfl
  | number x =>
      obtain ⟨y, hy, hsame⟩ := literalValue_ofNumber x left.timeframe left.calcMode
      rw [toRef, ofRef, hy]
      exact ofNumber_congr hsame _ _

theorem Condition.Reduced.recast {k : Condition} (h : k.Reduced) : k.compile.recast (fun r => r) = k.compile := by
  rw [compile_eq, Call.recast]
  refine congrArg (fun args => Call.mk k.method (.ref k.left :: args) true k.required) ?_
  rw [List.map_map]
  refine List.map_congr_left fun o ho => ?_
  show Argument.ref (((Operand.ofRef (o.toRef k.left)).mapRef fun r => r).toRef k.left) = _
  rw [Operand.mapRef_self, (h o ho).toRef_ofRef]

/-! ## Decompiled trees are reduced -/

theorem Operand.reduced {a : Argument} {o : Operand} (h : a.toOperand = .ok o) : o.Reduced := by
  rcases Argument.toOperand_cases h with ⟨x, -, rfl⟩ | ⟨r, -, hr, rfl⟩
  · trivial
  · exact hr

theorem Call.Decompiles.reduced {c : Call} {k : Condition} (h : c.Decompiles k) :
    k.Reduced := by
  obtain ⟨left, rest, -, -, hrest⟩ := h.args
  exact forall_right hrest fun _ _ => Operand.reduced

namespace Compiled

theorem Branch.Decompiles.normal {b : Branch} {b' : Stratagem.Branch}
    (h : b.Decompiles b') : b'.compile.Normal fun c => c.recast (fun r => r) = c := by
  refine Stratagem.Branch.normal (forall_right h.containers fun c c' hcc => ?_)
  refine forall_right hcc.groups fun g g' hgg => ?_
  exact forall_right hgg.conditions fun k k' hkk => hkk.reduced.recast

end Compiled

/-! ## No corrections -/

theorem Diagnostic.code_eq_iff {d : Diagnostic} : d.code = "THRESHOLD_OUT_OF_RANGE" ↔ d.isClamped = true := by
  cases d <;> simp [code, isClamped]

theorem Container.Unclamped.levels {c : Container} (h : c.Unclamped) (place : String) (on : Bool) :
    ∀ l ∈ Tree.containerLevels place on c, ¬ l.Corrected := by
  refine List.forall_mem_cons.mpr ⟨Level.not_corrected fun _ => h.1, List.forall_mem_map.mpr fun g hg => ?_⟩
  exact Level.not_corrected fun _ => h.2 g hg

theorem Branch.Unclamped.levels {b : Branch} (h : b.Unclamped) (slot : Slot) :
    ∀ l ∈ Tree.branchLevels slot b, ¬ l.Corrected := by
  by_cases hen : b.enabled = true
  · obtain ⟨hbranch, hactions, hcontainers⟩ := h hen
    refine List.forall_mem_cons.mpr ⟨Level.not_corrected fun _ => hactions, ?_⟩
    refine List.forall_mem_cons.mpr ⟨Level.not_corrected fun _ => hbranch, List.forall_mem_flatMap.mpr fun c hc => ?_⟩
    exact (hcontainers c hc).levels slot.name b.enabled
  · exact fun l hl =>
      Level.not_corrected_of_off (Tree.off_of_mem_branchLevels (Bool.eq_false_of_not_eq_true hen) l hl)

theorem Tree.not_corrected_of_unclamped {t : Tree} (h : ∀ slot, (t.get slot).Unclamped) :
    ∀ l ∈ t.levels, ¬ l.Corrected :=
  List.forall_mem_flatMap.mpr (PerSlot.forall_mem_toList.mpr fun slot => (h slot).levels slot)

theorem Tree.tellable_of_unclamped {t : Tree} (h : ∀ slot, (t.get slot).Unclamped) : t.Tellable :=
  fun l hl hc => absurd hc (not_corrected_of_unclamped h l hl)

/-- Where every threshold is in range, the findings can be told and none of them is a correction. -/
theorem Tree.ofLevels_unclamped {t : Tree} (h : ∀ slot, (t.get slot).Unclamped) :
    ∃ ds, Diagnostic.ofLevels t = .ok ds ∧ ∀ d ∈ ds, d.isClamped = false := by
  refine ⟨_, ofLevels_eq_ok.mpr ⟨tellable_of_unclamped h, rfl⟩, fun d hd => ?_⟩
  obtain ⟨l, hl, hfinding⟩ := List.mem_filterMap.mp hd
  exact Bool.eq_false_of_not_eq_true fun hclamped =>
    not_corrected_of_unclamped h l hl (Level.isClamped_of_finding hfinding hclamped)

/-- **One round of editing reaches a fixed point.** What the tree of a compiled strategy compiles to comes
back unchanged from its own tree, and no threshold of that tree, action sets included, is corrected. -/
theorem Compiled.Logic.recompiled_fixed {l : Compiled.Logic} {t : Tree} (h : l.decompile = .ok t) :
    ∃ t', t.compile.decompile = .ok t' ∧ t'.compile = t.compile ∧
      ∃ c, t'.compileWith none = .ok c ∧ c.logic = t.compile ∧
        ∀ d ∈ c.diagnostics, d.code ≠ "THRESHOLD_OUT_OF_RANGE" := by
  obtain ⟨t', ht', hrestored⟩ := Logic.restored (Tree.compile_normal fun _ _ _ _ _ k _ => k.compile_shaped)
  have hcompile : t'.compile = t.compile := PerSlot.ext_get fun slot => by
    have hnormal := (decompiles h slot).normal
    rw [show t'.compile.get slot = (t'.get slot).compile from PerSlot.get_map _ _ _,
      ← (t'.get slot).mapRefs_self, (hrestored slot).compile]
    rw [show t.compile.get slot = (t.get slot).compile from PerSlot.get_map _ _ _, hnormal.mapCalls_eq]
  obtain ⟨ds, hds, hunclamped⟩ := Tree.ofLevels_unclamped fun slot => (hrestored slot).unclamped
  have hrun : t'.compileWith none = .ok ⟨t'.compile, ds ++ []⟩ := by
    rw [Tree.compileWith, hds]
    rfl
  refine ⟨t', ht', hcompile, _, hrun, hcompile, fun d hd => ?_⟩
  rw [List.append_nil] at hd
  rw [ne_eq, Diagnostic.code_eq_iff, hunclamped d hd]
  exact Bool.false_ne_true

/-- A strategy as nobody would compile it: thresholds out of range, numbers bare and as texts, an argument
too many, and an exit that is switched off with everything in it. -/
def Compiled.Logic.unkempt : Compiled.Logic :=
  let near : Call := ⟨"Equal", [.text "1_0", .number 2.50, .text "0.1"], true, false⟩
  let late : Call := ⟨"Between", [.ref (.literal "-0.0" "4h" ""), .ref (.literal "1e2" "1h" ""),
    .number 1e-7, .text "inf"], true, true⟩
  let group : Compiled.Group := ⟨[near, late], true, 9, false⟩
  let branch (enabled : Bool) : Compiled.Branch :=
    ⟨enabled, -3, [⟨[group, { group with enabled := false }], true, 2, false⟩],
      ⟨[⟨"MakeTrade", [.text "Long"], true, false⟩], true, 5⟩⟩
  .ofFn fun slot => branch (slot == .entryLong)

theorem Compiled.Logic.recompiled_fixed_unkempt : ∃ t t',
    Compiled.Logic.unkempt.decompile = .ok t ∧ t.compile.decompile = .ok t' ∧ t'.compile = t.compile := by
  obtain ⟨t, ht⟩ : ∃ t, Compiled.Logic.unkempt.decompile = .ok t := ⟨_, rfl⟩
  obtain ⟨t', ht', hcompile, -⟩ := Compiled.Logic.recompiled_fixed ht
  exact ⟨t, t', ht, ht', hcompile⟩

end Stratagem
