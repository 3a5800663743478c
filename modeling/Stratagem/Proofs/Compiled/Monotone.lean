import Stratagem.Proofs.Overflow

/-!
# Passing is monotone

A comparison that comes to hold never makes a branch fail. No flag and no threshold matters for this, whether it is
in range or not: a level asks for children that pass, and never for one that fails.
-/

namespace Stratagem

open Quorum (live)

variable {s s' : Snapshot}

theorem Call.verdict_iff_holds {c : Call} : c.verdict s = true ↔ c.holds s = .ok true := by
  rw [verdict]
  cases c.holds s with
  | error f => simp [Quorum.saysYes]
  | ok b => cases b <;> simp [Quorum.saysYes]

namespace Compiled

/-! Each level hands on what holds of the one below. -/

theorem Group.verdict_mono {g : Group} (h : ∀ c ∈ live g.conditions, c.verdict s = true → c.verdict s' = true)
    (hg : g.verdict s = true) : g.verdict s' = true :=
  Quorum.tally_mono h hg

theorem Container.verdict_mono {c : Container} (h : ∀ k ∈ c.liveConditions, k.verdict s = true → k.verdict s' = true)
    (hc : c.verdict s = true) : c.verdict s' = true := by
  refine Quorum.tally_mono (fun g hg => Group.verdict_mono fun k hk => ?_) hc
  exact h k (List.mem_flatMap.mpr ⟨g, hg, hk⟩)

theorem Branch.verdict_mono {b : Branch} (hen : b.enabled = true)
    (h : ∀ k ∈ b.liveConditions, k.verdict s = true → k.verdict s' = true) (hb : b.verdict s = true) :
    b.verdict s' = true := by
  rw [liveConditions, if_pos hen] at h
  refine Quorum.tally_mono (fun c hc => Container.verdict_mono fun k hk => ?_) hb
  exact h k (List.mem_flatMap.mpr ⟨c, hc, hk⟩)

/-- **Branches are monotone.** Where every live condition that holds on one snapshot holds on another, a branch that
passes on the first passes on the second, with the same actions. What is switched off need not be compared. -/
theorem Branch.evaluate_mono {b : Branch} {slot : Slot} {out out' : BranchOutcome}
    (hout : b.evaluate s slot = .ok out) (hout' : b.evaluate s' slot = .ok out')
    (hholds : ∀ c ∈ b.liveConditions, c.holds s = .ok true → c.holds s' = .ok true) (hpassed : out.passed = true) :
    out'.passed = true ∧ out'.actions = out.actions := by
  have hrep := reported hout
  have hrep' := reported hout'
  rw [hrep.passed, Bool.and_eq_true] at hpassed
  obtain ⟨hen, hverdict⟩ := hpassed
  have hverdict' : b.verdict s' = true := by
    refine verdict_mono hen (fun c hc => ?_) hverdict
    rw [Call.verdict_iff_holds, Call.verdict_iff_holds]
    exact hholds c hc
  refine ⟨?_, ?_⟩
  · rw [hrep'.passed, hen, hverdict', Bool.and_self]
  · rw [hrep'.actions, hrep.actions, hverdict, hverdict']

/-- Bounds under the close, required and optional ones at all levels, with a threshold that is above the number of
optional children and one that is below zero. -/
def Branch.layered : Branch :=
  let above (x : Float) (required : Bool) : Call := ⟨"GreaterThan", [.ref .hourlyClose, .number x], true, required⟩
  let steep : Group := ⟨[above 90 true, above 150 false, above 180 false], true, 1, false⟩
  let flat : Group := ⟨[above 50 false, { above 70 true with enabled := false }], true, 1, false⟩
  let sole : Group := ⟨[above 95 true], true, 9, true⟩
  { enabled := true
    minPass := 1
    containers := [⟨[steep, flat], true, 1, false⟩, ⟨[sole], true, -3, true⟩]
    onPass := .makeTrade "Long" }

end Compiled

def Snapshot.closing (x : Float) : Snapshot := ⟨[("field|1h|Close", .list [.real x])]⟩

/-- One more group passes at the higher close. -/
theorem Compiled.Branch.evaluate_mono_layered : ∃ out out',
    Branch.layered.evaluate (.closing 100) .entryLong = .ok out ∧
    Branch.layered.evaluate (.closing 200) .entryLong = .ok out' ∧
    (∀ c ∈ Branch.layered.liveConditions, c.holds (.closing 100) = .ok true → c.holds (.closing 200) = .ok true) ∧
    out.passed = true ∧ out'.passed = true ∧ out'.actions = out.actions ∧
    out.containers.map (·.optionalPassed) = [1, 0] ∧ out'.containers.map (·.optionalPassed) = [2, 0] := by
  have hlow : (Snapshot.closing 100).Numeric := by decide
  have hhigh : (Snapshot.closing 200).Numeric := by decide
  obtain ⟨out, hout⟩ := Branch.layered.evaluate_answers hlow .entryLong
  obtain ⟨out', hout'⟩ := Branch.layered.evaluate_answers hhigh .entryLong
  have hholds : ∀ c ∈ Branch.layered.liveConditions,
      c.holds (.closing 100) = .ok true → c.holds (.closing 200) = .ok true := by
    simp only [← Call.verdict_iff_holds]
    decide +kernel
  have hpassed : out.passed = true := by
    rw [(reported hout).passed]
    decide +kernel
  obtain ⟨hpassed', hactions⟩ := evaluate_mono hout hout' hholds hpassed
  have hcounts : (do
      let out ← Branch.layered.evaluate (.closing 100) .entryLong
      let out' ← Branch.layered.evaluate (.closing 200) .entryLong
      return (out.containers.map Quorum.Verdict.optionalPassed,
        out'.containers.map Quorum.Verdict.optionalPassed)).toOption = some ([1, 0], [2, 0]) := by
    decide +kernel
  rw [hout, ok_bind, hout', ok_bind] at hcounts
  obtain ⟨hcounts, hcounts'⟩ := Prod.mk.inj (Option.some.inj hcounts)
  exact ⟨out, out', hout, hout', hholds, hpassed, hpassed', hactions, hcounts, hcounts'⟩

end Stratagem
