import Mathlib.Data.Bool.Basic
import Stratagem.Proofs.Quorum
import Stratagem.Proofs.Writable
import Stratagem.Tree.Compile

/-!
# Findings on levels

A tree has a list of levels, also of those that are switched off, and what is found on the levels is read off that
list: each live one is empty, or has a threshold out of range, or is in order. A threshold is corrected in words, so
the findings are there exactly if no threshold that has to be corrected is too long to be written. The compiler comes
to them on four nested walks.
-/

namespace Stratagem

open Quorum (live plan)

/-- The children of a branch, an action set, a container or a group. -/
structure Level where
  path : String
  name : String
  /-- Whether it is enabled together with everything it is in. -/
  on : Bool
  /-- How many children are enabled. -/
  live : Nat
  /-- How many of these are not required. -/
  optional : Nat
  minPass : Int

namespace Level

def of {α : Type} [Flagged α] (path name : String) (on : Bool) (children : List α) (minPass : Int) : Level :=
  ⟨path, name, on, children.countP enabled, children.countP Quorum.isOptional, minPass⟩

def inRange (l : Level) : Int := max 0 (min l.minPass l.optional)

/-- A live level that is not empty has a threshold out of range. -/
def Corrected (l : Level) : Prop := l.on = true ∧ l.live ≠ 0 ∧ l.inRange ≠ l.minPass

instance (l : Level) : Decidable l.Corrected := by unfold Corrected; infer_instance

def correction (l : Level) : String :=
  l.name ++ " threshold " ++ Number.decimal l.minPass ++ " corrected to " ++ Number.decimal l.inRange ++ " (" ++
    Number.decimal l.optional ++ " optional of " ++ Number.decimal l.live ++ " enabled)"

def finding (l : Level) : Option Diagnostic :=
  if !l.on then none
  else if l.live = 0 then some (.emptyLevel l.path l.name)
  else if l.Corrected then some (.clamped l.path l.name l.minPass l.inRange l.optional l.correction)
  else none

/-- What is to be said of a level can be said: a threshold that is corrected is not too long for that. -/
def Tellable (l : Level) : Prop := l.Corrected → Number.isTooLong l.minPass = false

instance (l : Level) : Decidable l.Tellable := by unfold Tellable; infer_instance

theorem not_corrected_of_off {l : Level} (h : l.on = false) : ¬ l.Corrected :=
  fun hc => Bool.false_ne_true (h.symm.trans hc.1)

theorem finding_of_off {l : Level} (h : l.on = false) : l.finding = none := by
  rw [finding, h]
  rfl

theorem tellable_of_off {l : Level} (h : l.on = false) : l.Tellable :=
  fun hc => absurd hc (not_corrected_of_off h)

/-- Only what is corrected is found to be so. -/
theorem isClamped_of_finding {l : Level} {d : Diagnostic} (h : l.finding = some d) (hd : d.isClamped = true) :
    l.Corrected := by
  unfold finding at h
  split at h
  · cases h
  · split at h
    · cases h
      exact absurd hd Bool.false_ne_true
    · split at h
      · assumption
      · cases h

/-- A threshold in range is no longer than the one that the user wrote. -/
theorem intText_inRange {l : Level} (h : Number.isTooLong l.minPass = false) :
    Number.intText l.inRange = .ok (Number.decimal l.inRange) := by
  have hle : l.inRange.natAbs ≤ l.minPass.natAbs := by
    rw [inRange]
    omega
  have hshort : Number.isTooLong l.inRange = false :=
    Number.isTooLong_eq_false_iff.mpr (Nat.lt_of_le_of_lt hle (Number.isTooLong_eq_false_iff.mp h))
  rw [Number.intText, if_neg (Bool.eq_false_iff.mp hshort)]

section Of

variable {α : Type} [Flagged α] {path name : String} {on : Bool} {children : List α} {minPass : Int}

theorem length_live : (Quorum.live children).length = (of path name on children minPass).live :=
  List.countP_eq_length_filter.symm

theorem length_optionalOf : (Quorum.optionalOf children).length = (of path name on children minPass).optional :=
  Quorum.length_optionalOf children

/-- The plan of a level that is not empty brings its threshold into range. -/
theorem plan_minPass (h : (of path name on children minPass).live ≠ 0) :
    (plan children minPass).minPass = (of path name on children minPass).inRange := by
  have hplan : ¬ (plan children minPass).isEmpty = true := fun hempty =>
    h (length_live.symm.trans (congrArg List.length (List.isEmpty_iff.mp hempty)))
  rw [inRange, ← length_optionalOf]
  exact if_neg hplan

theorem not_corrected (h : on = true → (plan children minPass).minPass = minPass) :
    ¬ (of path name on children minPass).Corrected :=
  fun ⟨hon, hlive, hrange⟩ => hrange ((plan_minPass hlive).symm.trans (h hon))

end Of

end Level

/-! ## Told findings -/

namespace Diagnostic

def told (ls : List Level) : Except Failure (List Diagnostic) :=
  if ∀ l ∈ ls, l.Tellable then .ok (ls.filterMap Level.finding) else .error (.coercion .tooLongToWrite)

theorem told_singleton (l : Level) :
    told [l] = if l.Tellable then .ok l.finding.toList else .error (.coercion .tooLongToWrite) := by
  rw [told, List.filterMap_cons]
  simp only [List.forall_mem_singleton]
  cases l.finding <;> rfl

theorem told_append (xs ys : List Level) :
    told (xs ++ ys) = told xs >>= fun a => told ys >>= fun b => pure (a ++ b) := by
  simp only [told, List.forall_mem_append, List.filterMap_append]
  by_cases hx : ∀ l ∈ xs, l.Tellable
  · by_cases hy : ∀ l ∈ ys, l.Tellable
    · rw [if_pos ⟨hx, hy⟩, if_pos hx, if_pos hy]
      rfl
    · rw [if_neg fun h => hy h.2, if_pos hx, if_neg hy]
      rfl
  · rw [if_neg fun h => hx h.1, if_neg hx]
    rfl

theorem told_cons (l : Level) (ls : List Level) :
    told (l :: ls) = told [l] >>= fun a => told ls >>= fun b => pure (a ++ b) :=
  told_append [l] ls

theorem told_of_off {ls : List Level} (h : ∀ l ∈ ls, l.on = false) : told ls = .ok [] := by
  rw [told, if_pos fun l hl => Level.tellable_of_off (h l hl)]
  exact congrArg _ (List.filterMap_eq_nil_iff.mpr fun l hl => Level.finding_of_off (h l hl))

theorem told_eq_ok {ls : List Level} {ds : List Diagnostic} :
    told ls = .ok ds ↔ (∀ l ∈ ls, l.Tellable) ∧ ds = ls.filterMap Level.finding := by
  rw [told]
  split
  · rename_i h
    rw [Except.ok.injEq, eq_comm]
    exact (and_iff_right h).symm
  · rename_i h
    exact iff_of_false (by rintro ⟨⟩) fun hds => h hds.1

/-- The members of a list are told one after the other. -/
theorem told_flatMap {α : Type} (f : α → List Level) (xs : List α) :
    List.flatten <$> xs.mapM (fun x => told (f x)) = told (xs.flatMap f) := by
  induction xs with
  | nil => exact (if_pos (List.forall_mem_nil _)).symm
  | cons x xs ih =>
      rw [List.mapM_cons, List.flatMap_cons, told_append, ← ih]
      cases told (f x) with
      | error e => rfl
      | ok ds =>
          rw [ok_bind, ok_bind]
          cases xs.mapM (fun x => told (f x)) <;> rfl

theorem told_flatMap_live {α : Type} [Flagged α] {g : α → List Level}
    (hoff : ∀ x, enabled x = false → ∀ l ∈ g x, l.on = false) (xs : List α) :
    told ((live xs).flatMap g) = told (xs.flatMap g) := by
  induction xs with
  | nil => rfl
  | cons x xs ih =>
      rw [List.flatMap_cons, told_append, ← ih]
      by_cases hx : enabled x = true
      · rw [← told_append, ← List.flatMap_cons]
        exact congrArg (fun kept => told (kept.flatMap g)) (List.filter_cons_of_pos hx)
      · have hdropped : live (x :: xs) = live xs := List.filter_cons_of_neg hx
        rw [hdropped, told_of_off (hoff x (Bool.eq_false_of_not_eq_true hx)), ok_bind]
        exact (bind_pure _).symm

/-- What is enabled is looked through, and nothing is said of what is switched off. -/
theorem told_live {α : Type} [Flagged α] {f : α → Except Failure (List Diagnostic)} {g : α → List Level}
    (hon : ∀ x, enabled x = true → f x = told (g x)) (hoff : ∀ x, enabled x = false → ∀ l ∈ g x, l.on = false)
    (xs : List α) : List.flatten <$> (live xs).mapM f = told (xs.flatMap g) := by
  have hlive : (live xs).mapM f = (live xs).mapM fun x => told (g x) :=
    mapM_congr (List.forall₂_same.mpr fun x hx => hon x (Quorum.mem_live.mp hx).2)
  rw [hlive, told_flatMap, told_flatMap_live hoff]

/-- Lists may be put together first, and then be used, or at the end. -/
theorem bind_flatten {α β ε : Type} (run : Except ε (List (List α))) (f : List α → β) :
    (run >>= fun rest => pure (f rest.flatten)) = List.flatten <$> run >>= fun rest => pure (f rest) := by
  cases run <;> rfl

/-- Only the threshold that the user wrote can be too long to be told. -/
theorem clampedMessage_eq {α : Type} {p : Quorum.Plan α} {l : Level} (hauthored : p.authored = l.minPass)
    (hmin : p.minPass = l.inRange) (hlive : p.live.length = l.live) (hoptional : p.optional.length = l.optional) :
    clampedMessage l.name p =
      if Number.isTooLong l.minPass = true then .error (.coercion .tooLongToWrite) else .ok l.correction := by
  rw [clampedMessage, hauthored, hmin, hlive, hoptional]
  by_cases hlong : Number.isTooLong l.minPass = true
  · rw [if_pos hlong, Number.intText, if_pos hlong]
    rfl
  · have hrange := Level.intText_inRange (Bool.eq_false_of_not_eq_true hlong)
    rw [if_neg hlong, Number.intText, if_neg hlong, ok_bind, hrange]
    rfl

/-- The plan of a level says of it what there is to say. -/
theorem ofPlan_eq {α : Type} [Flagged α] (path name : String) (children : List α) (minPass : Int) :
    ofPlan path name (plan children minPass) = told [Level.of path name true children minPass] := by
  let l := Level.of path name true children minPass
  have hlive : (live children).length = l.live := Level.length_live
  have hoptional : (Quorum.optionalOf children).length = l.optional := Level.length_optionalOf
  have hon : ¬ (!l.on) = true := Bool.false_ne_true
  show ofPlan path name (plan children minPass) = told [l]
  rw [ofPlan, told_singleton, Level.finding, if_neg hon]
  by_cases hempty : live children = []
  · have hplan : (plan children minPass).isEmpty = true := List.isEmpty_iff.mpr hempty
    have hnone : l.live = 0 := by rw [← hlive, hempty, List.length_nil]
    have htell : l.Tellable := fun h => absurd hnone h.2.1
    rw [if_pos hplan, if_pos htell, if_pos hnone]
    rfl
  · have hplan : ¬ (plan children minPass).isEmpty = true := fun h => hempty (List.isEmpty_iff.mp h)
    have hsome : ¬ l.live = 0 := by
      rw [← hlive]
      simpa using hempty
    have hmin : (plan children minPass).minPass = l.inRange := Level.plan_minPass hsome
    have hclamped : (plan children minPass).wasClamped = true ↔ l.Corrected := by
      rw [Quorum.Plan.wasClamped, hmin, Bool.eq_false_of_not_eq_true hplan, Bool.not_false, Bool.true_and, bne_iff_ne]
      exact ⟨fun h => ⟨rfl, hsome, h⟩, fun h => h.2.2⟩
    rw [if_neg hplan, if_neg hsome]
    by_cases hrange : l.Corrected
    · have hmessage : clampedMessage name (plan children minPass) = _ :=
        clampedMessage_eq (l := l) rfl hmin hlive hoptional
      rw [if_pos (hclamped.mpr hrange), if_pos hrange, hmessage, hmin]
      by_cases hlong : Number.isTooLong l.minPass = true
      · have htell : ¬ l.Tellable := fun h => Bool.false_ne_true ((h hrange).symm.trans hlong)
        rw [if_pos hlong, if_neg htell]
        rfl
      · have htell : l.Tellable := fun _ => Bool.eq_false_of_not_eq_true hlong
        rw [if_neg hlong, if_pos htell]
        exact congrArg (fun n => Except.ok [clamped path name minPass l.inRange n l.correction]) hoptional
    · have htell : l.Tellable := fun h => absurd h hrange
      rw [if_neg (mt hclamped.mp hrange), if_neg hrange, if_pos htell]
      rfl

end Diagnostic

/-! ## The levels of a tree -/

namespace Tree

open Diagnostic (told told_append told_cons told_live told_of_off)

def groupLevel (place : String) (on : Bool) (g : Group) : Level :=
  .of (place ++ "/" ++ g.id) "group" (on && g.enabled) g.conditions g.minPass

def containerLevels (place : String) (on : Bool) (c : Container) : List Level :=
  .of (place ++ "/" ++ c.id) "container" (on && c.enabled) c.groups c.minPass ::
    c.groups.map (groupLevel (place ++ "/" ++ c.id) (on && c.enabled))

def branchLevels (slot : Slot) (b : Branch) : List Level :=
  .of (slot.name ++ "/onPass") "action set" (b.enabled && b.onPass.enabled) b.onPass.calls b.onPass.minPass ::
    .of slot.name "branch" b.enabled b.containers b.minPass ::
    b.containers.flatMap (containerLevels slot.name b.enabled)

/-- Every level of a tree in order, the action set of a branch in front of it. -/
def levels (t : Tree) : List Level :=
  t.toList.flatMap fun (slot, b) => branchLevels slot b

/-- What has to be said of the levels can be said. -/
def Tellable (t : Tree) : Prop := ∀ l ∈ t.levels, l.Tellable

instance (t : Tree) : Decidable t.Tellable := by unfold Tellable; infer_instance

theorem off_of_mem_containerLevels {place : String} {on : Bool} {c : Container} (hoff : (on && c.enabled) = false) :
    ∀ l ∈ containerLevels place on c, l.on = false := by
  intro l hl
  rw [containerLevels, hoff] at hl
  rcases List.mem_cons.mp hl with rfl | hl
  · rfl
  · obtain ⟨g, -, rfl⟩ := List.mem_map.mp hl
    rfl

theorem off_of_mem_branchLevels {slot : Slot} {b : Branch} (hoff : b.enabled = false) :
    ∀ l ∈ branchLevels slot b, l.on = false := by
  intro l hl
  rw [branchLevels, hoff] at hl
  rcases List.mem_cons.mp hl with rfl | hl
  · rfl
  · rcases List.mem_cons.mp hl with rfl | hl
    · rfl
    · obtain ⟨c, -, hl⟩ := List.mem_flatMap.mp hl
      exact off_of_mem_containerLevels rfl l hl

theorem ofGroup_eq (place : String) {g : Group} (hg : g.enabled = true) :
    Diagnostic.ofGroup place g = told [groupLevel place true g] := by
  rw [Diagnostic.ofGroup, groupLevel, hg]
  exact Diagnostic.ofPlan_eq _ _ _ _

theorem ofContainer_eq (place : String) {c : Container} (hc : c.enabled = true) :
    Diagnostic.ofContainer place c = told (containerLevels place true c) := by
  have hgroups : List.flatten <$> c.plan.live.mapM (Diagnostic.ofGroup (place ++ "/" ++ c.id)) =
      told (c.groups.map (groupLevel (place ++ "/" ++ c.id) true)) := by
    rw [List.map_eq_flatMap]
    exact told_live (fun g hg => ofGroup_eq _ hg) (fun g hg => List.forall_mem_singleton.mpr hg) c.groups
  rw [containerLevels, hc, told_cons, Bool.and_self, ← hgroups, Diagnostic.ofContainer, Container.plan,
    Diagnostic.ofPlan_eq]
  exact bind_congr fun own => Diagnostic.bind_flatten _ _

theorem ofActionSet_eq (place : String) (a : ActionSet) : Diagnostic.ofActionSet place a =
    told [.of (place ++ "/onPass") "action set" a.enabled a.calls a.minPass] := by
  rw [Diagnostic.ofActionSet]
  by_cases hon : a.enabled = true
  · rw [if_pos hon, hon]
    exact Diagnostic.ofPlan_eq _ _ _ _
  · rw [if_neg hon, told_of_off (List.forall_mem_singleton.mpr (Bool.eq_false_of_not_eq_true hon))]

theorem ofBranch_eq (slot : Slot) (b : Branch) : Diagnostic.ofBranch slot b = told (branchLevels slot b) := by
  rw [Diagnostic.ofBranch]
  by_cases hen : b.enabled = true
  · have hcontainers : List.flatten <$> b.plan.live.mapM (Diagnostic.ofContainer slot.name) =
        told (b.containers.flatMap (containerLevels slot.name true)) :=
      told_live (fun c hc => ofContainer_eq _ hc) (fun c hc => off_of_mem_containerLevels hc) b.containers
    rw [if_pos hen, branchLevels, hen, Bool.true_and, told_cons, told_cons (.of slot.name _ _ _ _), ofActionSet_eq,
      ← hcontainers, Branch.plan, Diagnostic.ofPlan_eq]
    refine bind_congr fun actions => ?_
    simp only [bind_assoc, pure_bind, List.append_assoc]
    exact bind_congr fun own => Diagnostic.bind_flatten _ fun rest => actions ++ (own ++ rest)
  · rw [if_neg hen, told_of_off (off_of_mem_branchLevels (Bool.eq_false_of_not_eq_true hen))]

/-- **The findings on the levels of a tree are told** exactly if each of them can be. -/
theorem ofLevels_eq (t : Tree) : Diagnostic.ofLevels t = told t.levels := by
  rw [levels, ← Diagnostic.told_flatMap]
  have hbranch (entry : Slot × Branch) : Diagnostic.ofBranch entry.1 entry.2 = told (branchLevels entry.1 entry.2) :=
    ofBranch_eq _ _
  simp only [Diagnostic.ofLevels, hbranch]
  exact bind_pure_comp _ _

theorem ofLevels_eq_ok {t : Tree} {ds : List Diagnostic} :
    Diagnostic.ofLevels t = .ok ds ↔ t.Tellable ∧ ds = t.levels.filterMap Level.finding := by
  rw [ofLevels_eq, Diagnostic.told_eq_ok, Tellable]

end Tree

end Stratagem
