import Stratagem.Proofs.Evaluate
import Stratagem.Proofs.ValueRef.Wire
import Stratagem.Tree.Compile
import Stratagem.Tree.Walk

/-!
# What a tree means

A tree says by itself when it passes: a condition compares what its operands read, and every level asks for
what it was authored to ask for. Compiling drops what is disabled, clamps thresholds and writes numbers as
literals; the compiled strategy still decides what the tree means.

A level without enabled children never passes, but a threshold of zero above it asks for none of its
optional children. An `idle` branch has so low thresholds that it passes whatever its conditions say.
Apart from these, no branch passes without a live condition.
-/

namespace Stratagem

open Quorum (live meets plan tally SameVote)

/-! ## The authored tree -/

/-- What an operand reads. A number stands for itself. -/
def Snapshot.operand? (s : Snapshot) (further : Nat) : Operand → Option Float
  | .ref r => s.reading further r
  | .number x => some x

/-- The method is a comparator, has enough operands, none of them missing, and holds. -/
def Condition.passes (s : Snapshot) (c : Condition) : Bool :=
  Method.holdsOn c.method (c.operands.map (s.operand? 0)) (c.operands.map (s.operand? 1))

def Group.passes (s : Snapshot) (g : Group) : Bool :=
  meets g.conditions g.minPass (Condition.passes s)

def Container.passes (s : Snapshot) (c : Container) : Bool :=
  meets c.groups c.minPass (Group.passes s)

def Branch.passes (s : Snapshot) (b : Branch) : Bool :=
  meets b.containers b.minPass (Container.passes s)

def Branch.actions (b : Branch) : List Call :=
  if b.onPass.enabled then b.onPass.calls.filter (·.enabled) else []

/-! ## Numbers as literals -/

theorem sameReading_refl (o : Option Float) : Method.SameReading o o := by
  cases o with
  | none => exact .none
  | some x => exact .some (Number.Same.refl x)

theorem reading_literal (s : Snapshot) (further : Nat) {r : ValueRef} (h : r.isLiteral = true) :
    s.reading further r = r.literalValue := by
  rw [Snapshot.reading, if_pos h]

/-- The literal of a number reads as the number. -/
theorem reading_ofNumber (s : Snapshot) (further : Nat) (x : Float) (timeframe calcMode : String) :
    Method.SameReading (some x) (s.reading further (.ofNumber x timeframe calcMode)) := by
  obtain ⟨y, hy, hsame⟩ := literalValue_ofNumber x timeframe calcMode
  rw [reading_literal s further rfl, hy]
  exact .some hsame.symm

theorem reading_toRef (s : Snapshot) (further : Nat) (o : Operand) (left : ValueRef) :
    Method.SameReading (s.operand? further o) (s.reading further (o.toRef left)) := by
  cases o with
  | ref r => exact sameReading_refl _
  | number x => exact reading_ofNumber s further x _ _

/-! ## Level by level -/

section Levels

variable {s : Snapshot}

theorem Condition.readings_compile (c : Condition) (further : Nat) :
    List.Forall₂ Method.SameReading (c.operands.map (s.operand? further))
      (c.compile.args.map (s.argument? further)) := by
  rw [compile, List.map_map, List.forall₂_map_left_iff, List.forall₂_map_right_iff, List.forall₂_same]
  exact fun o _ => reading_toRef s further o c.left

theorem Condition.verdict_compile (hs : s.Numeric) (c : Condition) :
    c.compile.verdict s = c.passes s := by
  rw [Call.verdict_eq hs]
  exact (Method.holdsOn_congr (readings_compile c 0) (readings_compile c 1)).symm

/-- A compiled group asks for what its source asks for. -/
theorem Group.verdict_compile (g : Group) :
    g.compile.verdict s = meets g.conditions g.minPass fun c => c.compile.verdict s :=
  Quorum.tally_compiled fun _ hc => ⟨⟨(Quorum.mem_live.mp hc).2, rfl⟩, fun _ => rfl⟩

theorem Container.verdict_compile (c : Container) :
    c.compile.verdict s = meets c.groups c.minPass fun g => g.compile.verdict s :=
  Quorum.tally_compiled fun _ hg => ⟨⟨(Quorum.mem_live.mp hg).2, rfl⟩, fun _ => rfl⟩

theorem Branch.verdict_compile {b : Branch} (hb : b.enabled = true) :
    b.compile.verdict s = meets b.containers b.minPass fun c => c.compile.verdict s := by
  rw [compile, if_pos hb]
  exact Quorum.tally_compiled fun _ hc => ⟨⟨(Quorum.mem_live.mp hc).2, rfl⟩, fun _ => rfl⟩

theorem Branch.verdict_eq_passes (hs : s.Numeric) {b : Branch} (hb : b.enabled = true) :
    b.compile.verdict s = b.passes s := by
  rw [verdict_compile hb, passes]
  refine Quorum.meets_congr_live fun c _ => ?_
  rw [Container.verdict_compile, Container.passes]
  refine Quorum.meets_congr_live fun g _ => ?_
  rw [Group.verdict_compile, Group.passes]
  exact Quorum.meets_congr_live fun k _ => Condition.verdict_compile hs k

theorem Branch.enabled_compile (b : Branch) : b.compile.enabled = b.enabled := by
  rw [compile]
  by_cases hb : b.enabled = true
  · rw [if_pos hb, hb]
  · rw [if_neg hb, Bool.not_eq_true] at *
    rw [hb]
    rfl

theorem Branch.onPass_compile (b : Branch) : b.compile.onPass = b.onPass.compile := by
  rw [compile]
  split <;> rfl

theorem Branch.actions_compile (b : Branch) : b.compile.actions = b.actions := by
  rw [Compiled.Branch.actions, onPass_compile, actions]
  show (if b.onPass.enabled then live (live b.onPass.calls) else []) = _
  rw [Quorum.live_live]
  rfl

/-- What is reported of a compiled branch. -/
theorem Tree.reported {t : Tree} {out : PerSlot BranchOutcome} (h : t.compile.evaluate s = .ok out)
    (slot : Slot) :
    (out.get slot).evaluated = (t.get slot).enabled ∧
      (out.get slot).passed = ((t.get slot).enabled && (t.get slot).compile.verdict s) ∧
      (out.get slot).actions = if (out.get slot).passed then (t.get slot).actions else [] := by
  have hrep := Compiled.Logic.reported h slot
  have hget : t.compile.get slot = (t.get slot).compile := PerSlot.get_map _ _ _
  rw [hget] at hrep
  obtain ⟨heval, hpassed, hactions⟩ := hrep
  rw [Branch.enabled_compile] at heval hpassed hactions
  rw [Branch.actions_compile, ← hpassed] at hactions
  exact ⟨heval, hpassed, hactions⟩

end Levels

/-- **The compiled strategy decides what the tree means.** On doubles and missing values it answers for
every slot: a branch is evaluated if it is enabled, passes if it is enabled and passes as authored, and then
runs its enabled actions in their order. -/
theorem Tree.evaluate_compile {t : Tree} {s : Snapshot} (hs : s.Numeric) :
    ∃ out, t.compile.evaluate s = .ok out ∧ ∀ slot,
      (out.get slot).evaluated = (t.get slot).enabled ∧
      (out.get slot).passed = ((t.get slot).enabled && (t.get slot).passes s) ∧
      (out.get slot).actions = if (out.get slot).passed then (t.get slot).actions else [] := by
  obtain ⟨out, hout⟩ := t.compile.evaluate_answers hs
  refine ⟨out, hout, fun slot => ?_⟩
  obtain ⟨heval, hpassed, hactions⟩ := reported hout slot
  refine ⟨heval, ?_, hactions⟩
  rw [hpassed]
  by_cases hb : (t.get slot).enabled = true
  · rw [Branch.verdict_eq_passes hs hb]
  · rw [Bool.not_eq_true] at hb
    rw [hb, Bool.false_and, Bool.false_and]

def ValueRef.hourlyClose : ValueRef where
  kind := .field
  indicator := ""
  timeframe := "1h"
  input := "Close"
  params := []
  output := .text defaultOutput
  window := .current
  calcMode := defaultCalcMode

/-- A rise of the close over 100 opens a long trade. The threshold of the container is out of range, and one
condition is switched off. -/
def Tree.breakout : Tree :=
  let rise : Condition := ⟨"rise", "CrossUp", .hourlyClose, .number 100, none, true, true⟩
  let off : Condition := ⟨"off", "LessThan", .hourlyClose, .number 0, none, false, true⟩
  let group : Group := ⟨"group", "Group", [rise, off], true, false, 7⟩
  Tree.empty.set .entryLong {
    containers := [⟨"open-long", "Open long", [group], true, false, 3⟩]
    enabled := true
    minPass := 1
    onPass := .makeTrade "Long" }

def Snapshot.breakout : Snapshot := ⟨[("field|1h|Close", .list [.real 100.5, .real 99.5, .null])]⟩

theorem Tree.evaluate_compile_breakout :
    Snapshot.breakout.Numeric ∧
      ∃ out, Tree.breakout.compile.evaluate Snapshot.breakout = .ok out ∧
        (out.get .entryLong).passed = true ∧
        (out.get .entryLong).actions = (ActionSet.makeTrade "Long").calls := by
  have hs : Snapshot.breakout.Numeric := by decide
  obtain ⟨out, hout, hslots⟩ := Tree.evaluate_compile (t := .breakout) hs
  obtain ⟨-, hpassed, hactions⟩ := hslots .entryLong
  have hpass : (out.get .entryLong).passed = true := by
    rw [hpassed]
    decide +kernel
  refine ⟨hs, out, hout, hpass, ?_⟩
  rw [hactions, hpass]
  decide +kernel

/-! ## Passing on nothing -/

open Quorum (live meets isDemanded)

/-- The container passes although none of its groups does: it has enabled groups, none of them is required,
and the threshold asks for none. -/
def Container.idle (c : Container) : Bool :=
  c.groups.any (·.enabled) && !c.groups.any isDemanded && decide (c.minPass ≤ 0)

/-- The branch passes by its idle containers alone. -/
def Branch.idle (b : Branch) : Bool :=
  b.enabled && meets b.containers b.minPass Container.idle

section Idle

variable {s : Snapshot}

theorem Container.idle_eq_meets (c : Container) :
    c.idle = meets c.groups c.minPass fun _ => false := Quorum.meets_none.symm

theorem Container.verdict_of_idle {c : Container} (h : c.idle = true) : c.compile.verdict s = true := by
  rw [idle_eq_meets] at h
  rw [verdict_compile]
  refine Quorum.meets_mono ?_ h
  intro _ _ hfalse
  cases hfalse

/-- An idle branch passes on every snapshot. -/
theorem Branch.verdict_of_idle {b : Branch} (h : b.idle = true) :
    b.enabled = true ∧ b.compile.verdict s = true := by
  obtain ⟨hb, h⟩ := Bool.and_eq_true_iff.mp h
  refine ⟨hb, ?_⟩
  rw [verdict_compile hb]
  exact Quorum.meets_mono (fun _ _ => Container.verdict_of_idle) h

/-! ## Nothing live -/

theorem Group.verdict_of_empty {g : Group} (h : live g.conditions = []) :
    g.compile.verdict s = false := by
  rw [verdict_compile, meets, Quorum.any_enabled, h]
  rfl

/-- Without live conditions a container passes only if it is idle. -/
theorem Container.verdict_of_empty {c : Container}
    (h : ∀ g ∈ live c.groups, live g.conditions = []) : c.compile.verdict s = c.idle := by
  rw [verdict_compile, idle_eq_meets]
  exact Quorum.meets_congr_live fun g hg => Group.verdict_of_empty (h g hg)

/-- Without live conditions a branch passes only if it is idle. -/
theorem Branch.verdict_of_empty {b : Branch} (hb : b.enabled = true)
    (h : ∀ c ∈ live b.containers, ∀ g ∈ live c.groups, live g.conditions = []) :
    b.compile.verdict s = b.idle := by
  rw [verdict_compile hb, idle, hb, Bool.true_and]
  exact Quorum.meets_congr_live fun c hc => Container.verdict_of_empty (h c hc)

theorem Tree.mem_branchConditions {slot : Slot} {b : Branch} (hb : b.enabled = true) {c : Container}
    (hc : c ∈ live b.containers) {g : Group} (hg : g ∈ live c.groups) {k : Condition}
    (hk : k ∈ live g.conditions) :
    (⟨slot, c.id, g.id, k.id, ""⟩, k) ∈ branchConditions true slot b := by
  rw [branchConditions, hb]
  refine List.mem_flatMap.mpr ⟨c, hc, List.mem_flatMap.mpr ⟨g, hg, ?_⟩⟩
  exact List.mem_map.mpr ⟨k, hk, rfl⟩

/-- The conditions that are enabled together with everything above them. -/
theorem Branch.live_eq_nil {slot : Slot} {b : Branch} (hb : b.enabled = true)
    (h : Tree.branchConditions true slot b = []) :
    ∀ c ∈ live b.containers, ∀ g ∈ live c.groups, live g.conditions = [] := by
  intro c hc g hg
  rw [List.eq_nil_iff_forall_not_mem]
  intro k hk
  have hmem : (_, k) ∈ Tree.branchConditions true slot b := Tree.mem_branchConditions hb hc hg hk
  rw [h] at hmem
  cases hmem

end Idle

/-- **Nothing is traded on nothing.** Whatever the snapshot holds, a branch that passes has a live condition
or is idle; and an idle one always passes. -/
theorem Tree.live_or_idle_of_passed {t : Tree} {s : Snapshot} {out : PerSlot BranchOutcome}
    (h : t.compile.evaluate s = .ok out) (slot : Slot) :
    ((out.get slot).passed = true →
      Tree.branchConditions true slot (t.get slot) ≠ [] ∨ (t.get slot).idle = true) ∧
    ((t.get slot).idle = true → (out.get slot).passed = true) := by
  obtain ⟨-, hpassed, -⟩ := reported h slot
  rw [hpassed]
  constructor
  · intro hpass
    obtain ⟨hb, hverdict⟩ := Bool.and_eq_true_iff.mp hpass
    by_cases hlive : Tree.branchConditions true slot (t.get slot) = []
    · rw [Branch.verdict_of_empty hb (Branch.live_eq_nil hb hlive)] at hverdict
      exact Or.inr hverdict
    · exact Or.inl hlive
  · intro hidle
    obtain ⟨hb, hverdict⟩ := Branch.verdict_of_idle hidle
    rw [hb, hverdict, Bool.and_self]

/-- A new strategy with the threshold of its first branch set to zero. -/
def Tree.unguarded : Tree :=
  Tree.empty.set .entryLong { Tree.empty.get .entryLong with minPass := 0 }

theorem Tree.idle_unguarded : ∃ out, Tree.unguarded.compile.evaluate ⟨[]⟩ = .ok out ∧
    (Tree.unguarded.get .entryLong).idle = true ∧ (out.get .entryLong).passed = true := by
  obtain ⟨out, hout⟩ := Tree.unguarded.compile.evaluate_answers (s := ⟨[]⟩) (by decide)
  have hidle : (Tree.unguarded.get .entryLong).idle = true := by decide
  exact ⟨out, hout, hidle, (Tree.live_or_idle_of_passed hout .entryLong).2 hidle⟩

/-- It opens a position without a single condition. -/
theorem Tree.unguarded_trades : ∃ out, Tree.unguarded.compile.evaluate ⟨[]⟩ = .ok out ∧
    (out.get .entryLong).passed = true ∧
    (out.get .entryLong).actions = (ActionSet.makeTrade "Long").calls ∧
    Tree.branchConditions true .entryLong (Tree.unguarded.get .entryLong) = [] := by
  refine ⟨_, rfl, ?_, ?_, ?_⟩
  · decide
  · decide
  · decide

end Stratagem
