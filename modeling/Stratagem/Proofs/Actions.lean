import Mathlib.Data.List.Basic
import Stratagem.Evaluate
import Stratagem.Proofs.Quorum
import Stratagem.Tree.Compile

/-!
# Actions are run once

A level asks its enabled children one after another, the required ones first, and judges when it has all answers. So no
answer has a say in what is asked next. `recorded` keeps what was asked beside whatever else asking does, and lets the
answer depend on it.
-/

namespace Stratagem

namespace Quorum

/-! ## Asking in turn -/

section Asking

variable {m : Type → Type} [Monad m] {α : Type}

/-- The answers of things that are asked one after another, each in the light of what was asked before it. -/
def inTurn (ask : List α → α → m Bool) (before : List α) : List α → m (List Bool)
  | [] => pure []
  | c :: cs => do
    let answer ← ask before c
    let rest ← inTurn ask (before ++ [c]) cs
    pure (answer :: rest)

def recorded (ask : List α → α → m Bool) (c : α) : StateT (List α) m Bool := fun before => do
  let answer ← ask before c
  pure (answer, before ++ [c])

theorem run_recorded (ask : List α → α → m Bool) (c : α) (before : List α) :
    (recorded ask c).run before = ask before c >>= fun answer => pure (answer, before ++ [c]) :=
  rfl

variable [LawfulMonad m]

/-- Counting who passes asks each once, in order. -/
theorem countPassing_eq_mapM (passes : α → m Bool) (cs : List α) :
    countPassing passes cs = List.count true <$> cs.mapM passes := by
  induction cs with
  | nil => simp [countPassing]
  | cons c cs ih =>
      rw [countPassing, List.mapM_cons, ih]
      simp only [map_eq_pure_bind, bind_assoc, pure_bind]
      refine bind_congr fun passed => bind_congr fun answers => ?_
      cases passed <;> simp

/-- Whatever is answered, what is asked in turn is recorded in turn. -/
theorem run_mapM_recorded (ask : List α → α → m Bool) (before cs : List α) :
    (cs.mapM (recorded ask)).run before = (fun answers => (answers, before ++ cs)) <$> inTurn ask before cs := by
  -- each step adds to the record, so the induction is over every record
  induction cs generalizing before with
  | nil => simp [inTurn]
  | cons c cs ih =>
      rw [List.mapM_cons, inTurn, StateT.run_bind, run_recorded]
      simp [ih]

theorem run_countPassing_recorded (ask : List α → α → m Bool) (before cs : List α) :
    (countPassing (recorded ask) cs).run before =
      (fun answers => (answers.count true, before ++ cs)) <$> inTurn ask before cs := by
  rw [countPassing_eq_mapM, StateT.run_map, run_mapM_recorded, Functor.map_map]

end Asking

/-! ## Judging by the answers -/

section Judging

variable {α : Type} [Flagged α] {children : List α} {minPass : Int}

/-- Who is asked: the required children, then the optional ones. -/
def asked (children : List α) : List α := children.filter isDemanded ++ children.filter isOptional

theorem requiredOf_eq (children : List α) : requiredOf children = children.filter isDemanded := by
  rw [requiredOf, live, List.filter_filter]
  exact List.filter_congr fun c _ => Bool.and_comm _ _

theorem optionalOf_eq (children : List α) : optionalOf children = children.filter isOptional := by
  rw [optionalOf, live, List.filter_filter]
  exact List.filter_congr fun c _ => Bool.and_comm _ _

theorem asked_live (children : List α) : asked (live children) = asked children := by
  rw [asked, filter_live fun _ => isDemanded_enabled, filter_live fun _ => isOptional_enabled, asked]

/-- Each enabled child is asked once. -/
theorem asked_perm (children : List α) : (asked children).Perm (live children) := by
  rw [asked, ← requiredOf_eq, ← optionalOf_eq]
  exact List.filter_append_perm _ _

def settled (children : List α) (minPass : Int) (required optional : List Bool) : Verdict :=
  if (live children).isEmpty then .ofEmpty minPass
  else .ofCounts minPass (requiredOf children).length (required.count true)
    (optionalOf children).length (optional.count true)

/-- **A level asks its required children, then its optional ones**, each once and whatever the answers are, and settles
by what they answered. -/
theorem run_judge_recorded {m : Type → Type} [Monad m] [LawfulMonad m] (ask : List α → α → m Bool)
    (children : List α) (minPass : Int) (before : List α) :
    (judge children minPass (recorded ask)).run before =
      inTurn ask before (children.filter isDemanded) >>= fun required =>
        (fun optional => (settled children minPass required optional, before ++ asked children)) <$>
          inTurn ask (before ++ children.filter isDemanded) (children.filter isOptional) := by
  rw [judge, asked]
  by_cases hempty : live children = []
  · -- such a level is settled without asking, and there is no one to ask
    have hrequired : children.filter isDemanded = [] := by rw [← requiredOf_eq, requiredOf, hempty, List.filter_nil]
    have hoptional : children.filter isOptional = [] := by rw [← optionalOf_eq, optionalOf, hempty, List.filter_nil]
    rw [hrequired, hoptional]
    simp [inTurn, settled, hempty]
  · have hne : ¬ (live children).isEmpty = true := by simpa using hempty
    rw [if_neg hne, StateT.run_bind, requiredOf_eq, run_countPassing_recorded, bind_map_left]
    refine bind_congr fun required => ?_
    rw [StateT.run_bind, optionalOf_eq, run_countPassing_recorded, bind_map_left, map_eq_pure_bind]
    refine bind_congr fun optional => ?_
    rw [StateT.run_pure, settled, if_neg hne, requiredOf_eq, optionalOf_eq, List.append_assoc]

/-- Dropping the disabled children and clamping the threshold leaves the outcome, where the threshold is in range or
nothing is optional. -/
theorem settled_plan_passed {required optional : List Bool} (hlive : live children ≠ [])
    (hrange : 0 ≤ minPass ∧ minPass ≤ children.countP isOptional ∨ children.countP isOptional = 0) :
    (settled (live children) (plan children minPass).minPass required optional).passed =
      (settled children minPass required optional).passed := by
  have hne : ¬ (live children).isEmpty = true := by simpa using hlive
  rw [settled, settled, live_live, if_neg hne, if_neg hne, requiredOf, live_live, ← requiredOf, optionalOf, live_live,
    ← optionalOf, Verdict.ofCounts, Verdict.ofCounts, length_optionalOf]
  rcases hrange with hin | hnone
  · have hkept : (plan children minPass).minPass = minPass := by
      simp only [plan, if_neg hne, clamp, length_optionalOf]
      omega
    rw [hkept]
  · rw [hnone]
    rfl

end Judging

end Quorum

namespace ActionSet

open Quorum (asked inTurn isDemanded isOptional live recorded run_judge_recorded settled)

variable {m : Type → Type} [Monad m] [LawfulMonad m] {a : ActionSet} {perform : List Call → Call → m Bool}
  {before : List Call}

/-- What a run leaves in view: whether it passed, and what was performed. -/
def seen (result : Quorum.Verdict × List Call) : Bool × List Call := (result.1.passed, result.2)

omit [LawfulMonad m] in
theorem run_disabled (h : a.enabled = false) :
    (a.run (recorded perform)).run before = pure (⟨false, a.minPass, 0, 0, 0, 0⟩, before) := by
  rw [ActionSet.run, h]
  rfl

theorem run_enabled (h : a.enabled = true) :
    (a.run (recorded perform)).run before =
      inTurn perform before (a.calls.filter isDemanded) >>= fun required =>
        (fun optional => (settled a.calls a.minPass required optional, before ++ asked a.calls)) <$>
          inTurn perform (before ++ a.calls.filter isDemanded) (a.calls.filter isOptional) := by
  rw [ActionSet.run, h, if_pos rfl, run_judge_recorded]

/-- A compiled action set performs the same actions in the same order, and its run passes just if the run of the
authored one does. -/
theorem run_compile (hlive : live a.calls ≠ [])
    (hrange : 0 ≤ a.minPass ∧ a.minPass ≤ a.calls.countP isOptional ∨ a.calls.countP isOptional = 0) :
    seen <$> (a.compile.run (recorded perform)).run before = seen <$> (a.run (recorded perform)).run before := by
  cases henabled : a.enabled with
  | false =>
      have hcompiled : a.compile.enabled = false := henabled
      rw [run_disabled henabled, run_disabled hcompiled, map_pure, map_pure]
      rfl
  | true =>
      have hcompiled : a.compile.enabled = true := henabled
      have hcalls : a.compile.calls = live a.calls := rfl
      rw [run_enabled henabled, run_enabled hcompiled, hcalls,
        Quorum.filter_live fun _ => Quorum.isDemanded_enabled, Quorum.filter_live fun _ => Quorum.isOptional_enabled,
        Quorum.asked_live, map_bind, map_bind]
      refine bind_congr fun required => ?_
      rw [Functor.map_map, Functor.map_map]
      congr 1
      funext optional
      exact congrArg (·, before ++ asked a.calls) (Quorum.settled_plan_passed hlive hrange)

/-- **Each enabled action is performed once.** A run of a disabled set performs nothing. Any other one performs the
required actions and then the optional ones, whatever their outcomes, and passes as they settle it. Neither the order
nor the pass changes when the set is compiled, unless no action is enabled or its threshold is out of range. -/
theorem run_performs_once (a : ActionSet) (perform : List Call → Call → m Bool) (before : List Call) :
    (a.run (recorded perform)).run before =
        (if a.enabled then
          inTurn perform before (a.calls.filter isDemanded) >>= fun required =>
            (fun optional => (settled a.calls a.minPass required optional, before ++ asked a.calls)) <$>
              inTurn perform (before ++ a.calls.filter isDemanded) (a.calls.filter isOptional)
        else pure (⟨false, a.minPass, 0, 0, 0, 0⟩, before)) ∧
      (asked a.calls).Perm (live a.calls) ∧
      (live a.calls ≠ [] →
        (0 ≤ a.minPass ∧ a.minPass ≤ a.calls.countP isOptional ∨ a.calls.countP isOptional = 0) →
        seen <$> (a.compile.run (recorded perform)).run before = seen <$> (a.run (recorded perform)).run before) := by
  refine ⟨?_, Quorum.asked_perm a.calls, run_compile⟩
  cases henabled : a.enabled with
  | false => rw [run_disabled henabled, if_neg Bool.false_ne_true]
  | true => rw [run_enabled henabled, if_pos rfl]

/-- Two actions with one that is switched off between them. Only the last is required. -/
def scaledOut : ActionSet where
  calls := [⟨"Reduce", [], true, false⟩, ⟨"Notify", [], false, false⟩, ⟨"Cancel", [], true, true⟩]
  enabled := true
  minPass := 1

def succeedsFirst (before : List Call) (_ : Call) : Id Bool := pure before.isEmpty

theorem run_performs_once_scaledOut :
    live scaledOut.calls ≠ [] ∧ 0 ≤ scaledOut.minPass ∧ scaledOut.minPass ≤ scaledOut.calls.countP isOptional ∧
      ((scaledOut.run (recorded succeedsFirst)).run []).2.map Call.method = ["Cancel", "Reduce"] ∧
      seen ((scaledOut.compile.run (recorded succeedsFirst)).run []) =
        (false, [⟨"Cancel", [], true, true⟩, ⟨"Reduce", [], true, false⟩]) := by
  have hlive : live scaledOut.calls ≠ [] := List.cons_ne_nil _ _
  have hrange : 0 ≤ scaledOut.minPass ∧ scaledOut.minPass ≤ scaledOut.calls.countP isOptional :=
    ⟨Int.one_nonneg, Int.le_refl 1⟩
  obtain ⟨hrun, -, hcompiled⟩ := run_performs_once scaledOut succeedsFirst []
  refine ⟨hlive, hrange.1, hrange.2, ?_, ?_⟩
  · rw [hrun]
    rfl
  · have hseen : seen ((scaledOut.compile.run (recorded succeedsFirst)).run []) =
        seen ((scaledOut.run (recorded succeedsFirst)).run []) := hcompiled hlive (.inl hrange)
    rw [hseen, hrun]
    rfl

end ActionSet

end Stratagem
