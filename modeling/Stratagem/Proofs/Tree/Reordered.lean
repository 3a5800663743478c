import Mathlib.Data.List.Perm.Basic
import Stratagem.Proofs.Compiled.Monotone
import Stratagem.Proofs.Tree.Edit

/-!
# The order of nodes

A level counts the children that pass, so it does not matter in which order they stand. Trees that differ in the order
of their nodes are compiled to strategies that do, and these answer on the same snapshots and decide the same; only
the outcomes of the containers are listed in the order of the containers.
-/

namespace Stratagem

open Quorum (live plan tally SameFlags)

/-! ## Lists -/

/-- A permutation of the list, each member exchanged for one that it is related to. -/
def Rearranged {α β : Type} (R : α → β → Prop) (xs : List α) (ys : List β) : Prop :=
  ∃ zs, xs.Perm zs ∧ List.Forall₂ R zs ys

namespace Rearranged

variable {α β γ δ : Type} {R : α → β → Prop} {xs : List α} {ys : List β}

theorem imp {S : α → β → Prop} (hS : ∀ x y, R x y → S x y) (h : Rearranged R xs ys) : Rearranged S xs ys := by
  obtain ⟨zs, hperm, hzs⟩ := h
  exact ⟨zs, hperm, hzs.imp hS⟩

theorem filter {f : α → Bool} {g : β → Bool} (hfg : ∀ x y, R x y → f x = g y) (h : Rearranged R xs ys) :
    Rearranged R (xs.filter f) (ys.filter g) := by
  obtain ⟨zs, hperm, hzs⟩ := h
  exact ⟨zs.filter f, hperm.filter f, Quorum.filter_alike hfg hzs⟩

theorem map {S : γ → δ → Prop} {f : α → γ} {g : β → δ} (hfg : ∀ x y, R x y → S (f x) (g y))
    (h : Rearranged R xs ys) : Rearranged S (xs.map f) (ys.map g) := by
  obtain ⟨zs, hperm, hzs⟩ := h
  refine ⟨zs.map f, hperm.map f, ?_⟩
  rw [List.forall₂_map_left_iff, List.forall₂_map_right_iff]
  exact hzs.imp hfg

/-- What is the same for related members is listed in another order only. -/
theorem map_perm {f : α → γ} {g : β → γ} (hfg : ∀ x y, R x y → f x = g y) (h : Rearranged R xs ys) :
    (xs.map f).Perm (ys.map g) := by
  obtain ⟨zs, hperm, hzs⟩ := h
  rw [← map_eq_map hfg hzs]
  exact hperm.map f

theorem forall_iff {p : α → Prop} {q : β → Prop} (hpq : ∀ x y, R x y → (p x ↔ q y)) (h : Rearranged R xs ys) :
    (∀ x ∈ xs, p x) ↔ ∀ y ∈ ys, q y := by
  obtain ⟨zs, hperm, hzs⟩ := h
  simp only [hperm.mem_iff]
  constructor
  · exact fun hall => forall_carried hall hzs fun x y hx hxy => (hpq x y hxy).mp hx
  · exact fun hall => forall_carried hall hzs.flip fun y x hy hxy => (hpq x y hxy).mpr hy

end Rearranged

/-! ## Levels -/

namespace Quorum

variable {α β : Type} [Flagged α] [Flagged β] {p : α → Bool} {q : β → Bool} {cs cs' : List α} {ds : List β}
  {minPass : Int}

theorem tally_perm (h : cs.Perm cs') : tally cs minPass p = tally cs' minPass p := by
  have hlive : (live cs).Perm (live cs') := h.filter _
  have hrequired : (requiredOf cs).Perm (requiredOf cs') := hlive.filter _
  have hoptional : (optionalOf cs).Perm (optionalOf cs') := hlive.filter _
  rw [tally, tally, hlive.isEmpty_eq, hrequired.length_eq, hrequired.countP_eq, hoptional.length_eq,
    hoptional.countP_eq]

theorem plan_minPass_perm (h : cs.Perm cs') : (plan cs minPass).minPass = (plan cs' minPass).minPass := by
  have hlive : (live cs).Perm (live cs') := h.filter _
  have hoptional : (optionalOf cs).Perm (optionalOf cs') := hlive.filter _
  simp only [plan, hlive.isEmpty_eq, hoptional.length_eq]

/-- Children that have the same flags and pass alike. -/
theorem tally_alike (h : List.Forall₂ (fun c d => SameFlags c d ∧ p c = q d) cs ds) :
    tally cs minPass p = tally ds minPass q := by
  -- children that always answer are judged by what they answer
  have hjudge := judge_congr (p := fun c => (.ok (p c) : Except Unit Bool)) (q := fun d => .ok (q d)) minPass
    (h.imp fun c d hcd => ⟨hcd.1, congrArg _ hcd.2⟩)
  rw [judge_ok fun _ _ => rfl, judge_ok fun _ _ => rfl] at hjudge
  exact Except.ok.inj hjudge

theorem tally_rearranged (h : Rearranged (fun c d => SameFlags c d ∧ p c = q d) cs ds) :
    tally cs minPass p = tally ds minPass q := by
  obtain ⟨zs, hperm, hzs⟩ := h
  rw [tally_perm hperm, tally_alike hzs]

theorem plan_minPass_rearranged (h : Rearranged SameFlags cs ds) :
    (plan cs minPass).minPass = (plan ds minPass).minPass := by
  obtain ⟨zs, hperm, hzs⟩ := h
  rw [plan_minPass_perm hperm, plan_minPass_congr hzs]

theorem live_rearranged {R : α → β → Prop} (hR : ∀ c d, R c d → SameFlags c d) (h : Rearranged R cs ds) :
    Rearranged R (live cs) (live ds) :=
  h.filter fun c d hcd => (hR c d hcd).1

end Quorum

/-! ## Compiled strategies -/

namespace Compiled

variable {s : Snapshot}

def Group.Reordered (g g' : Group) : Prop :=
  ∃ cs, g.conditions.Perm cs ∧ g' = { g with conditions := cs }

def Container.Reordered (c c' : Container) : Prop :=
  ∃ gs, Rearranged Group.Reordered c.groups gs ∧ c' = { c with groups := gs }

def Branch.Reordered (b b' : Branch) : Prop :=
  ∃ cs, Rearranged Container.Reordered b.containers cs ∧ b' = { b with containers := cs }

theorem Group.Reordered.flags {g g' : Group} (h : g.Reordered g') : SameFlags g g' := by
  obtain ⟨cs, -, rfl⟩ := h
  exact ⟨rfl, rfl⟩

theorem Container.Reordered.flags {c c' : Container} (h : c.Reordered c') : SameFlags c c' := by
  obtain ⟨gs, -, rfl⟩ := h
  exact ⟨rfl, rfl⟩

/-! What is decided, if a run answers. -/

def Container.outcome (s : Snapshot) (c : Container) : Quorum.Verdict :=
  tally c.groups c.minPass (Group.verdict s)

def Branch.outcome (s : Snapshot) (b : Branch) : Quorum.Verdict :=
  tally b.containers b.minPass (Container.verdict s)

theorem Container.eq_outcome {c : Container} {v : Quorum.Verdict} (h : c.evaluate s = .ok v) : v = c.outcome s :=
  Quorum.judge_eq_tally h fun _ _ _ => Group.eq_verdict

/-- What is reported of the counts of a branch. -/
theorem Branch.outcome_reported {b : Branch} {slot : Slot} {out : BranchOutcome} (h : b.evaluate s slot = .ok out) :
    out.quorum = (if b.enabled then some (b.outcome s) else none) ∧
      out.containers = if b.enabled then (live b.containers).map (Container.outcome s) else [] := by
  rw [evaluate] at h
  by_cases hen : b.enabled = true
  · rw [if_pos hen] at h ⊢
    obtain ⟨v, hv, h⟩ := bind_eq_ok.mp h
    obtain ⟨vs, hvs, h⟩ := bind_eq_ok.mp h
    cases h
    have heach : List.Forall₂ (fun c v => Container.outcome s c = v) (live b.containers) vs :=
      (mapM_eq_ok.mp hvs).imp fun c v hv => (Container.eq_outcome hv).symm
    rw [← List.forall₂_map_left_iff, List.forall₂_eq_eq_eq] at heach
    rw [if_pos hen]
    exact ⟨congrArg some (Quorum.judge_eq_tally hv fun _ _ _ => Container.eq_verdict), heach.symm⟩
  · rw [if_neg hen] at h ⊢
    cases h
    rw [if_neg hen]
    exact ⟨rfl, rfl⟩

/-! None of this depends on the order. -/

theorem Group.Reordered.verdict {g g' : Group} (h : g.Reordered g') : g.verdict s = g'.verdict s := by
  obtain ⟨cs, hperm, rfl⟩ := h
  exact congrArg Quorum.Verdict.passed (Quorum.tally_perm hperm)

theorem Container.Reordered.outcome {c c' : Container} (h : c.Reordered c') : c.outcome s = c'.outcome s := by
  obtain ⟨gs, hgs, rfl⟩ := h
  exact Quorum.tally_rearranged (hgs.imp fun _ _ hg => ⟨hg.flags, hg.verdict⟩)

theorem Branch.Reordered.outcome {b b' : Branch} (h : b.Reordered b') : b.outcome s = b'.outcome s := by
  obtain ⟨cs, hcs, rfl⟩ := h
  exact Quorum.tally_rearranged (hcs.imp fun _ _ hc => ⟨hc.flags, congrArg Quorum.Verdict.passed hc.outcome⟩)

theorem Branch.Reordered.actions {b b' : Branch} (h : b.Reordered b') : b.actions = b'.actions := by
  obtain ⟨cs, -, rfl⟩ := h
  rfl

theorem Branch.Reordered.enabled {b b' : Branch} (h : b.Reordered b') : b.enabled = b'.enabled := by
  obtain ⟨cs, -, rfl⟩ := h
  rfl

theorem Branch.Reordered.outcomes {b b' : Branch} (h : b.Reordered b') :
    ((live b.containers).map (Container.outcome s)).Perm ((live b'.containers).map (Container.outcome s)) := by
  obtain ⟨cs, hcs, rfl⟩ := h
  exact (Quorum.live_rearranged (fun _ _ => Container.Reordered.flags) hcs).map_perm fun _ _ hc => hc.outcome

/-! The same conditions are asked. -/

section Asked

variable {p : Call → Prop}

theorem Group.Reordered.live_iff {g g' : Group} (h : g.Reordered g') :
    (∀ k ∈ live g.conditions, p k) ↔ ∀ k ∈ live g'.conditions, p k := by
  obtain ⟨cs, hperm, rfl⟩ := h
  have hlive : (live g.conditions).Perm (live cs) := hperm.filter _
  simp only [hlive.mem_iff]

theorem Container.Reordered.live_iff {c c' : Container} (h : c.Reordered c') :
    (∀ k ∈ c.liveConditions, p k) ↔ ∀ k ∈ c'.liveConditions, p k := by
  obtain ⟨gs, hgs, rfl⟩ := h
  rw [liveConditions, liveConditions, List.forall_mem_flatMap, List.forall_mem_flatMap]
  exact (Quorum.live_rearranged (fun _ _ => Group.Reordered.flags) hgs).forall_iff fun _ _ hg => hg.live_iff

theorem Branch.Reordered.live_iff {b b' : Branch} (h : b.Reordered b') :
    (∀ k ∈ b.liveConditions, p k) ↔ ∀ k ∈ b'.liveConditions, p k := by
  obtain ⟨cs, hcs, rfl⟩ := h
  rw [liveConditions, liveConditions]
  by_cases hen : b.enabled = true
  · rw [if_pos hen, if_pos hen, List.forall_mem_flatMap, List.forall_mem_flatMap]
    exact (Quorum.live_rearranged (fun _ _ => Container.Reordered.flags) hcs).forall_iff fun _ _ hc => hc.live_iff
  · rw [if_neg hen, if_neg hen]

end Asked

end Compiled

/-! ## Trees -/

/-- The group with its conditions in another order. -/
def Group.Reordered (g g' : Group) : Prop :=
  ∃ cs, g.conditions.Perm cs ∧ g' = { g with conditions := cs }

/-- The container with its groups in another order, and the conditions in them. -/
def Container.Reordered (c c' : Container) : Prop :=
  ∃ gs, Rearranged Group.Reordered c.groups gs ∧ c' = { c with groups := gs }

/-- The branch with its containers in another order, and what is in them. -/
def Branch.Reordered (b b' : Branch) : Prop :=
  ∃ cs, Rearranged Container.Reordered b.containers cs ∧ b' = { b with containers := cs }

def Tree.Reordered (t t' : Tree) : Prop := ∀ slot, (t.get slot).Reordered (t'.get slot)

theorem Group.Reordered.flags {g g' : Group} (h : g.Reordered g') : SameFlags g g' := by
  obtain ⟨cs, -, rfl⟩ := h
  exact ⟨rfl, rfl⟩

theorem Container.Reordered.flags {c c' : Container} (h : c.Reordered c') : SameFlags c c' := by
  obtain ⟨gs, -, rfl⟩ := h
  exact ⟨rfl, rfl⟩

/-! Compiling leaves the order to the tree. -/

theorem Group.Reordered.compile {g g' : Group} (h : g.Reordered g') : g.compile.Reordered g'.compile := by
  obtain ⟨cs, hperm, rfl⟩ := h
  refine ⟨(live cs).map Condition.compile, (hperm.filter _).map _, ?_⟩
  rw [Group.compile, Group.compile]
  congr 1
  exact (Quorum.plan_minPass_perm hperm).symm

theorem Container.Reordered.compile {c c' : Container} (h : c.Reordered c') : c.compile.Reordered c'.compile := by
  obtain ⟨gs, hgs, rfl⟩ := h
  have hlive := Quorum.live_rearranged (fun _ _ => Group.Reordered.flags) hgs
  refine ⟨(live gs).map Group.compile, hlive.map fun _ _ hg => hg.compile, ?_⟩
  rw [Container.compile, Container.compile]
  congr 1
  exact (Quorum.plan_minPass_rearranged (hgs.imp fun _ _ hg => hg.flags)).symm

theorem Branch.Reordered.compile {b b' : Branch} (h : b.Reordered b') : b.compile.Reordered b'.compile := by
  obtain ⟨cs, hcs, rfl⟩ := h
  rw [Branch.compile, Branch.compile]
  by_cases hen : b.enabled = true
  · rw [if_pos hen, if_pos hen]
    have hlive := Quorum.live_rearranged (fun _ _ => Container.Reordered.flags) hcs
    refine ⟨(live cs).map Container.compile, hlive.map fun _ _ hc => hc.compile, ?_⟩
    congr 1
    exact (Quorum.plan_minPass_rearranged (hcs.imp fun _ _ hc => hc.flags)).symm
  · rw [if_neg hen, if_neg hen]
    exact ⟨[], ⟨[], .refl _, .nil⟩, rfl⟩

structure Branch.SameOutcome (b b' : Branch) (out out' : BranchOutcome) : Prop where
  evaluated : out'.evaluated = out.evaluated
  passed : out'.passed = out.passed
  quorum : out'.quorum = out.quorum
  actions : out'.actions = out.actions
  containers : out.containers.Perm out'.containers
  /-- A container has its outcome wherever it stands. -/
  placed : b.enabled = true → ∃ outcome : Container → Quorum.Verdict,
    (∀ c c', c.Reordered c' → outcome c = outcome c') ∧
      out.containers = (live b.containers).map outcome ∧ out'.containers = (live b'.containers).map outcome

theorem Branch.live_containers_compile {b : Branch} (hen : b.enabled = true) :
    live b.compile.containers = (live b.containers).map Container.compile := by
  rw [compile, if_pos hen]
  refine List.filter_eq_self.mpr fun e he => ?_
  obtain ⟨c, -, rfl⟩ := List.mem_map.mp he
  rfl

theorem Branch.Reordered.enabled {b b' : Branch} (h : b.Reordered b') : b.enabled = b'.enabled := by
  obtain ⟨cs, -, rfl⟩ := h
  rfl

theorem Branch.Reordered.sameOutcome {s : Snapshot} {slot : Slot} {b b' : Branch} {out out' : BranchOutcome}
    (h : b.Reordered b') (hout : b.compile.evaluate s slot = .ok out)
    (hout' : b'.compile.evaluate s slot = .ok out') : b.SameOutcome b' out out' := by
  have hrep := Compiled.Branch.reported hout
  have hrep' := Compiled.Branch.reported hout'
  obtain ⟨hquorum, hlist⟩ := Compiled.Branch.outcome_reported hout
  obtain ⟨hquorum', hlist'⟩ := Compiled.Branch.outcome_reported hout'
  have henabled := h.compile.enabled
  have hverdict : b.compile.verdict s = b'.compile.verdict s :=
    congrArg Quorum.Verdict.passed h.compile.outcome
  constructor
  · rw [hrep.evaluated, hrep'.evaluated, henabled]
  · rw [hrep.passed, hrep'.passed, henabled, hverdict]
  · rw [hquorum, hquorum', henabled, h.compile.outcome]
  · rw [hrep.actions, hrep'.actions, henabled, hverdict, h.compile.actions]
  · rw [hlist, hlist', henabled]
    split
    · exact h.compile.outcomes
    · exact .refl _
  · intro hen
    have hen' : b'.enabled = true := h.enabled ▸ hen
    -- the outcome of a container, which is what the list of a branch is made of
    refine ⟨fun c => c.compile.outcome s, fun c c' hc => hc.compile.outcome, ?_, ?_⟩
    · rw [hlist, if_pos (b.enabled_compile.trans hen), live_containers_compile hen, List.map_map]
      rfl
    · rw [hlist', if_pos (b'.enabled_compile.trans hen'), live_containers_compile hen', List.map_map]
      rfl

/-- **The order of nodes does not matter.** Two trees that differ in it alone are compiled to strategies that answer on
the same snapshots. For every slot they evaluate the branch or not, pass it or not, for the same counts and with the
same actions, and report the outcome of each container at the place where it stands. -/
theorem Tree.evaluate_reordered {t t' : Tree} (h : t.Reordered t') (s : Snapshot) :
    ((∃ out, t.compile.evaluate s = .ok out) ↔ ∃ out', t'.compile.evaluate s = .ok out') ∧
    ∀ out out', t.compile.evaluate s = .ok out → t'.compile.evaluate s = .ok out' →
      ∀ slot, (t.get slot).SameOutcome (t'.get slot) (out.get slot) (out'.get slot) := by
  have hget (t : Tree) (slot : Slot) : t.compile.get slot = (t.get slot).compile := PerSlot.get_map _ _ _
  constructor
  · simp only [Compiled.Logic.evaluate, PerSlot.ofFnM_exists_iff, hget]
    refine forall_congr' fun slot => ?_
    rw [Compiled.Branch.evaluate_exists_iff, Compiled.Branch.evaluate_exists_iff]
    exact (h slot).compile.live_iff
  · intro out out' hout hout' slot
    have hbranch := PerSlot.ofFnM_eq_ok.mp hout slot
    have hbranch' := PerSlot.ofFnM_eq_ok.mp hout' slot
    rw [hget] at hbranch hbranch'
    exact (h slot).sameOutcome hbranch hbranch'

/-! ## Promotions -/

/-- A node that is promoted changes the order of its siblings alone. -/
theorem Edit.promote_perm {α : Type} (items : List α) (n : Nat) : items.Perm (promote items n) := by
  rw [promote]
  cases hget : items[n]? with
  | none => exact .refl _
  | some a =>
      obtain ⟨hn, rfl⟩ := List.getElem?_eq_some_iff.mp hget
      exact (List.getElem_cons_eraseIdx_perm hn).symm

theorem Rearranged.promote {α : Type} {R : α → α → Prop} {f : α → α} (hf : ∀ x, R x (f x)) (xs : List α) (n : Nat) :
    Rearranged R xs ((Edit.promote xs n).map f) :=
  ⟨Edit.promote xs n, Edit.promote_perm xs n, List.forall₂_map_right_iff.mpr (List.forall₂_same.mpr fun x _ => hf x)⟩

/-- The tree with the child at the index promoted wherever there is one, at every level. -/
def Tree.promoted (n : Nat) (t : Tree) : Tree :=
  t.map fun _ b => { b with containers := (Edit.promote b.containers n).map fun c =>
    { c with groups := (Edit.promote c.groups n).map fun g => { g with conditions := Edit.promote g.conditions n } } }

theorem Tree.reordered_promoted (n : Nat) (t : Tree) : t.Reordered (t.promoted n) := by
  intro slot
  rw [promoted, PerSlot.get_map]
  refine ⟨_, .promote (fun c => ⟨_, .promote (fun g => ⟨_, ?_, rfl⟩) c.groups n, rfl⟩) (t.get slot).containers n, rfl⟩
  exact Edit.promote_perm g.conditions n

/-- Two containers under an optional threshold, of which the second has a required group. -/
def Tree.twofold : Tree :=
  let above (id : String) (x : Float) (enabled required : Bool) : Condition :=
    ⟨id, "GreaterThan", .hourlyClose, .number x, none, enabled, required⟩
  let low : Group := ⟨"low", "Low", [above "a" 50 true false, above "b" 90 true true], true, false, 1⟩
  let high : Group := ⟨"high", "High", [above "c" 150 true false, above "d" 0 false true], true, true, 1⟩
  Tree.empty.set .entryLong {
    containers := [⟨"first", "First", [low, high], true, false, 1⟩, ⟨"second", "Second", [low, low], true, false, 5⟩]
    enabled := true
    minPass := 1
    onPass := .makeTrade "Long" }

/-- The second container passes and the first one does not; promoted, it is listed first. -/
theorem Tree.evaluate_reordered_twofold : Tree.twofold.Reordered (Tree.twofold.promoted 1) ∧ ∃ out out',
    Tree.twofold.compile.evaluate (.closing 100) = .ok out ∧
    (Tree.twofold.promoted 1).compile.evaluate (.closing 100) = .ok out' ∧
    (out.get .entryLong).passed = true ∧ (out'.get .entryLong).passed = true ∧
    (out.get .entryLong).containers.map (·.passed) = [false, true] ∧
    (out'.get .entryLong).containers.map (·.passed) = [true, false] := by
  have hreordered := Tree.twofold.reordered_promoted 1
  obtain ⟨hanswers, hsame⟩ := evaluate_reordered hreordered (.closing 100)
  have hs : (Snapshot.closing 100).Numeric := by decide
  obtain ⟨out, hout⟩ := Tree.twofold.compile.evaluate_answers hs
  obtain ⟨out', hout'⟩ := hanswers.mp ⟨out, hout⟩
  have hpassed : (out.get .entryLong).passed = true := by
    rw [(Compiled.Logic.reported hout .entryLong).passed]
    decide +kernel
  have hpassed' : (out'.get .entryLong).passed = true :=
    (hsame out out' hout hout' .entryLong).passed.trans hpassed
  obtain ⟨-, hlist⟩ := Compiled.Branch.outcome_reported (PerSlot.ofFnM_eq_ok.mp hout .entryLong)
  obtain ⟨-, hlist'⟩ := Compiled.Branch.outcome_reported (PerSlot.ofFnM_eq_ok.mp hout' .entryLong)
  refine ⟨hreordered, out, out', hout, hout', hpassed, hpassed', ?_, ?_⟩
  · rw [hlist]
    decide +kernel
  · rw [hlist']
    decide +kernel

end Stratagem
