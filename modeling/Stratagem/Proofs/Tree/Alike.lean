import Stratagem.Proofs.Compiled.Levels
import Stratagem.Proofs.Tree.Meaning
import Stratagem.Proofs.Tree.Refs

/-!
# Trees that read alike

Whether a tree passes depends on its references only through what they read. If every reference of a tree is
exchanged for one that reads the same at every bar of a snapshot, the compiled tree answers as before, and is
refused as before.
-/

namespace Stratagem

open Quorum (live plan SameFlags)

/-! ## References that read alike -/

/-- On every snapshot the references read the same. -/
structure ValueRef.ReadsLike (r q : ValueRef) : Prop where
  window : r.window = q.window
  value : ∀ (s : Snapshot) (barsBack : Nat), s.value r barsBack = s.value q barsBack

theorem Operand.toRef_readsLike {f : ValueRef → ValueRef} {o : Operand} (h : o.EachRef fun r => (f r).ReadsLike r)
    (left : ValueRef) : ((o.mapRef f).toRef (f left)).ReadsLike (o.toRef left) := by
  cases o with
  | ref r => exact h
  | number x => exact ⟨rfl, fun _ _ => rfl⟩

section Levels

variable {s : Snapshot}

theorem Snapshot.arguments_congr {as bs : List Argument} {further : Nat}
    (h : List.Forall₂ (fun a b => s.argument further a = s.argument further b) as bs) :
    s.arguments further as = s.arguments further bs := by
  induction h with
  | nil => rfl
  | cons hab _ ih => rw [arguments, arguments, hab, ih]

theorem Call.evaluate_congr {c d : Call} (hmethod : c.method = d.method)
    (h : List.Forall₂ (fun a b => ∀ further, s.argument further a = s.argument further b) c.args d.args) :
    c.evaluate s = d.evaluate s := by
  have hoperands : ∀ further n, s.operands further (c.args.take n) = s.operands further (d.args.take n) := by
    intro further n
    rw [Snapshot.operands, Snapshot.operands,
      Snapshot.arguments_congr ((List.forall₂_take n h).imp fun a b hab => hab further)]
  rw [evaluate, evaluate, hmethod]
  -- the arity and the shifted bars depend on how many operands there are, not on what they are
  cases Method.comparator? d.method with
  | none => rw [unknownMethod, unknownMethod, hmethod]
  | some m =>
      dsimp only
      rw [badArity, badArity, h.length_eq, evaluateWith, evaluateWith, hoperands, hoperands]

variable {f : ValueRef → ValueRef}

theorem Condition.holds_mapRefs {c : Condition} (h : c.EachRef fun r => (f r).ReadsLike r) :
    (c.mapRefs f).compile.holds s = c.compile.holds s := by
  rw [Call.holds, Call.holds]
  refine congrArg (· >>= _) (Call.evaluate_congr rfl ?_)
  show List.Forall₂ _ ((c.mapRefs f).operands.map fun o => Argument.ref (o.toRef (f c.left)))
    (c.operands.map fun o => Argument.ref (o.toRef c.left))
  rw [operands_mapRefs, List.map_map, List.forall₂_map_left_iff, List.forall₂_map_right_iff, List.forall₂_same]
  intro o ho further
  obtain ⟨hwindow, hvalue⟩ := Operand.toRef_readsLike (h o ho) c.left
  show s.value _ (_ + further) = s.value _ (_ + further)
  rw [hwindow]
  exact hvalue s _

end Levels

/-! ## Compiled levels -/

/-- The outcome without the signs of zeros among the arguments of its actions. -/
def BranchOutcome.unsigned (o : BranchOutcome) : BranchOutcome := { o with actions := o.actions.map Call.unsigned }

namespace Compiled

variable {s : Snapshot}

theorem Group.evaluate_congr {g h : Group} (hminPass : g.minPass = h.minPass)
    (hconditions : List.Forall₂ (fun c d => SameFlags c d ∧ c.holds s = d.holds s) g.conditions h.conditions) :
    g.evaluate s = h.evaluate s := by
  rw [evaluate, evaluate, hminPass]
  exact Quorum.judge_congr _ hconditions

theorem Container.evaluate_congr {c d : Container} (hminPass : c.minPass = d.minPass)
    (hgroups : List.Forall₂ (fun g h => SameFlags g h ∧ g.evaluate s = h.evaluate s) c.groups d.groups) :
    c.evaluate s = d.evaluate s := by
  rw [evaluate, evaluate, hminPass]
  refine Quorum.judge_congr _ (hgroups.imp fun g h hgh => ⟨hgh.1, ?_⟩)
  rw [Group.passes, Group.passes, hgh.2]

theorem Branch.evaluate_congr {b d : Branch} (slot : Slot) (henabled : b.enabled = d.enabled)
    (hminPass : b.minPass = d.minPass)
    (hcontainers : List.Forall₂ (fun c e => SameFlags c e ∧ c.evaluate s = e.evaluate s) b.containers d.containers)
    (hactions : b.actions = d.actions.map Call.unsigned) :
    b.evaluate s slot = BranchOutcome.unsigned <$> d.evaluate s slot := by
  have hjudge : Quorum.judge b.containers b.minPass (Container.passes s) =
      Quorum.judge d.containers d.minPass (Container.passes s) := by
    rw [hminPass]
    refine Quorum.judge_congr _ (hcontainers.imp fun c e hce => ⟨hce.1, ?_⟩)
    rw [Container.passes, Container.passes, hce.2]
  have hlive := mapM_congr ((Quorum.live_alike (fun c e hce => hce.1) hcontainers).imp fun c e hce => hce.2)
  rw [evaluate, evaluate, henabled, hjudge, hlive, hactions]
  by_cases hen : d.enabled = true
  · rw [if_pos hen, if_pos hen]
    cases Quorum.judge d.containers d.minPass (Container.passes s) with
    | error f => rfl
    | ok v =>
        rw [ok_bind, ok_bind]
        cases (live d.containers).mapM (Container.evaluate s) with
        | error f => rfl
        | ok vs =>
            cases v.passed <;> rfl
  · rw [if_neg hen, if_neg hen]
    rfl

end Compiled

/-! ## Exchanged references -/

section Exchanged

variable {s : Snapshot} {f : ValueRef → ValueRef}

theorem Group.evaluate_mapRefs {g : Group} (h : g.EachRef fun r => (f r).ReadsLike r) :
    (g.mapRefs f).compile.evaluate s = g.compile.evaluate s :=
  Compiled.Group.evaluate_congr (Quorum.plan_minPass_map (h := Condition.mapRefs f) (fun _ => ⟨rfl, rfl⟩) _ _)
    (Quorum.compiled_alike (h := Condition.mapRefs f) (f := Condition.compile) (fun _ => ⟨rfl, rfl⟩)
      (fun _ => ⟨rfl, rfl⟩) fun c hc => Condition.holds_mapRefs (h c hc))

theorem Container.evaluate_mapRefs {c : Container} (h : c.EachRef fun r => (f r).ReadsLike r) :
    (c.mapRefs f).compile.evaluate s = c.compile.evaluate s :=
  Compiled.Container.evaluate_congr (Quorum.plan_minPass_map (h := Group.mapRefs f) (fun _ => ⟨rfl, rfl⟩) _ _)
    (Quorum.compiled_alike (h := Group.mapRefs f) (f := Group.compile) (fun _ => ⟨rfl, rfl⟩)
      (fun _ => ⟨rfl, rfl⟩) fun g hg => Group.evaluate_mapRefs (h g hg))

theorem Branch.actions_unsigned (b : Branch) : b.unsigned.actions = b.actions.map Call.unsigned := by
  rw [actions, actions]
  show (if b.onPass.enabled then live b.onPass.unsigned.calls else []) = _
  rw [b.onPass.calls_unsigned]
  split <;> rfl

theorem Branch.compile_of_enabled {b : Branch} (h : b.enabled = true) : b.compile = {
    enabled := true
    minPass := (Quorum.plan b.containers b.minPass).minPass
    containers := (live b.containers).map Container.compile
    onPass := b.onPass.compile } :=
  if_pos h

theorem Branch.evaluate_mapRefs {b : Branch} (slot : Slot) (h : b.EachRef fun r => (f r).ReadsLike r) :
    (b.mapRefs f).unsigned.compile.evaluate s slot = BranchOutcome.unsigned <$> b.compile.evaluate s slot := by
  have hactions : (b.mapRefs f).unsigned.compile.actions = b.compile.actions.map Call.unsigned := by
    rw [actions_compile, actions_compile, actions_unsigned]
    rfl
  by_cases hen : b.enabled = true
  · have hen' : (b.mapRefs f).unsigned.enabled = true := hen
    refine Compiled.Branch.evaluate_congr slot ?_ ?_ ?_ hactions
    · rw [enabled_compile, enabled_compile, hen, hen']
    · rw [compile_of_enabled hen, compile_of_enabled hen']
      exact Quorum.plan_minPass_map (h := Container.mapRefs f) (fun _ => ⟨rfl, rfl⟩) _ _
    · rw [compile_of_enabled hen, compile_of_enabled hen']
      exact Quorum.compiled_alike (h := Container.mapRefs f) (f := Container.compile) (fun _ => ⟨rfl, rfl⟩)
        (fun _ => ⟨rfl, rfl⟩) fun c hc => Container.evaluate_mapRefs (h c hc)
  · rw [Compiled.Branch.evaluate, Compiled.Branch.evaluate, enabled_compile, enabled_compile, if_neg hen]
    exact if_neg hen

/-- **Trees whose references read alike answer alike**, and are refused alike. -/
theorem Tree.evaluate_mapRefs {t : Tree} (h : t.EachRef fun r => (f r).ReadsLike r) :
    (t.mapRefs f).unsigned.compile.evaluate s =
      (PerSlot.map fun _ => BranchOutcome.unsigned) <$> t.compile.evaluate s := by
  have hslots : ∀ slot, (((t.mapRefs f).unsigned.compile).get slot).evaluate s slot =
      BranchOutcome.unsigned <$> (t.compile.get slot).evaluate s slot := by
    intro slot
    simp only [Tree.compile, Tree.unsigned, Tree.mapRefs, PerSlot.get_map]
    exact Branch.evaluate_mapRefs slot (h slot)
  rw [Compiled.Logic.evaluate, funext hslots, PerSlot.ofFnM_map]
  rfl

end Exchanged

end Stratagem
