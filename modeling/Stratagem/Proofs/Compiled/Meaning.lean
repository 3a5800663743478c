import Stratagem.Proofs.Compiled.Decompile
import Stratagem.Proofs.Tree.Meaning

/-!
# Editing keeps the meaning

A compiled strategy that is decompiled and compiled again loses its disabled nodes, gets other thresholds
where no optional child is counted, and has its literals written anew. As long as its thresholds fit, none
of this shows on doubles.
-/

namespace Stratagem

open Quorum (live tally SameVote)
open Method (SameReading)

/-! ## Thresholds that fit -/

namespace Compiled

/-- The thresholds of the group and of what is enabled below need no clamping. -/
def Group.Fits (g : Group) : Prop := Quorum.Fits g.conditions g.minPass

def Container.Fits (c : Container) : Prop :=
  Quorum.Fits c.groups c.minPass ∧ ∀ g ∈ live c.groups, g.Fits

def Branch.Fits (b : Branch) : Prop :=
  Quorum.Fits b.containers b.minPass ∧ ∀ c ∈ live b.containers, c.Fits

def Logic.Fits (l : Logic) : Prop := ∀ slot, (l.get slot).enabled = true → (l.get slot).Fits

instance Group.decidableFits (g : Group) : Decidable g.Fits :=
  inferInstanceAs (Decidable (Quorum.Fits g.conditions g.minPass))

instance Container.decidableFits (c : Container) : Decidable c.Fits :=
  inferInstanceAs (Decidable (_ ∧ ∀ g ∈ live c.groups, g.Fits))

instance Branch.decidableFits (b : Branch) : Decidable b.Fits :=
  inferInstanceAs (Decidable (_ ∧ ∀ c ∈ live b.containers, c.Fits))

end Compiled

/-! ## Operands -/

section Operands

variable {s : Snapshot} {further : Nat}

theorem argument?_of_number {a : Argument} {x : Float} (h : a.number? = some x) :
    s.argument? further a = some x := by
  cases a with
  | ref r =>
      rw [Snapshot.argument?, reading_literal s further (isLiteral_of_literalValue h)]
      exact h
  | number y => exact h
  | text t => exact h

theorem argument?_of_toOperand {a : Argument} {o : Operand} (h : a.toOperand = .ok o) :
    s.argument? further a = s.operand? further o := by
  rcases Argument.toOperand_cases h with ⟨x, hx, rfl⟩ | ⟨r, rfl, -, rfl⟩
  · exact argument?_of_number hx
  · rfl

theorem argument?_of_toLeft {a : Argument} {r : ValueRef} (h : a.toLeft = .ok r) :
    SameReading (s.argument? further a) (s.reading further r) := by
  rcases Argument.toLeft_cases h with rfl | ⟨x, hx, rfl⟩
  · exact sameReading_refl _
  · rw [argument?_of_number hx]
    exact reading_ofNumber s further x _ _

end Operands

/-! ## Level by level -/

section Levels

variable {s : Snapshot}

/-- The operands of a decompiled condition read what the first three arguments of its source read. -/
theorem Call.Decompiles.readings {c : Call} {k : Condition} (h : c.Decompiles k) (further : Nat) :
    List.Forall₂ SameReading ((c.args.map (s.argument? further)).take 3)
      (k.operands.map (s.operand? further)) := by
  obtain ⟨left, rest, hargs, hleft, hrest⟩ := h.args
  rw [hargs, ← List.map_take, List.take_succ_cons, Condition.operands, List.forall₂_map_left_iff,
    List.forall₂_map_right_iff]
  refine .cons (argument?_of_toLeft hleft) (hrest.imp fun a o ho => ?_)
  rw [argument?_of_toOperand ho]
  exact sameReading_refl _

/-- A decompiled condition decides as its source does. -/
theorem Call.Decompiles.verdict (hs : s.Numeric) {c : Call} {k : Condition} (h : c.Decompiles k) :
    k.compile.verdict s = c.verdict s := by
  calc k.compile.verdict s
      = k.passes s := Condition.verdict_compile hs k
    _ = Method.holdsOn c.method ((c.args.map (s.argument? 0)).take 3)
          ((c.args.map (s.argument? 1)).take 3) := by
        rw [Condition.passes, h.method]
        exact (Method.holdsOn_congr (h.readings 0) (h.readings 1)).symm
    _ = c.verdict s := by rw [Method.holdsOn_take, Call.verdict_eq hs]

namespace Compiled

theorem Group.Decompiles.verdict (hs : s.Numeric) {g : Group} {g' : Stratagem.Group}
    (h : g.Decompiles g') (hfits : g.Fits) :
    g'.compile.verdict s = g.verdict s := by
  rw [Stratagem.Group.verdict_compile, h.minPass]
  refine (Quorum.tally_congr hfits (h.conditions.imp fun c k hck => ?_)).symm
  exact ⟨⟨hck.enabled.symm, hck.required.symm⟩, fun _ => (hck.verdict hs).symm⟩

theorem Container.Decompiles.verdict (hs : s.Numeric) {c : Container} {c' : Stratagem.Container}
    (h : c.Decompiles c') (hfits : c.Fits) :
    c'.compile.verdict s = c.verdict s := by
  rw [Stratagem.Container.verdict_compile, h.minPass]
  have hvotes := List.forall₂_and_left _ _ |>.mpr
    ⟨fun g hg => (hfits.2 g <| Quorum.mem_live.mpr ⟨hg, ·⟩), h.groups⟩
  refine (Quorum.tally_congr hfits.1 (hvotes.imp ?_)).symm
  rintro g g' ⟨hgfits, hgg⟩
  exact ⟨⟨hgg.enabled.symm, hgg.required.symm⟩, fun he => (hgg.verdict hs (hgfits he)).symm⟩

theorem Branch.Decompiles.verdict (hs : s.Numeric) {b : Branch} {b' : Stratagem.Branch}
    (h : b.Decompiles b') (hen : b.enabled = true) (hfits : b.Fits) :
    b'.compile.verdict s = b.verdict s := by
  rw [Stratagem.Branch.verdict_compile (h.enabled.trans hen), h.minPass]
  have hvotes := List.forall₂_and_left _ _ |>.mpr
    ⟨fun c hc => (hfits.2 c <| Quorum.mem_live.mpr ⟨hc, ·⟩), h.containers⟩
  refine (Quorum.tally_congr hfits.1 (hvotes.imp ?_)).symm
  rintro c c' ⟨hcfits, hcc⟩
  exact ⟨⟨hcc.enabled.symm, hcc.required.symm⟩, fun he => (hcc.verdict hs (hcfits he)).symm⟩

end Compiled

end Levels

/-- **Editing a strategy does not change what it trades.** If the thresholds fit, a strategy and what its
tree compiles to both answer on doubles and missing values, and report the same for every slot. -/
theorem Compiled.Logic.evaluate_recompiled {l : Compiled.Logic} {t : Tree} {s : Snapshot}
    (h : l.decompile = .ok t) (hfits : l.Fits) (hs : s.Numeric) :
    ∃ before after, l.evaluate s = .ok before ∧ t.compile.evaluate s = .ok after ∧ ∀ slot,
      (after.get slot).evaluated = (before.get slot).evaluated ∧
      (after.get slot).passed = (before.get slot).passed ∧
      (after.get slot).actions = (before.get slot).actions := by
  obtain ⟨before, hbefore⟩ := l.evaluate_answers hs
  obtain ⟨after, hafter⟩ := t.compile.evaluate_answers hs
  refine ⟨before, after, hbefore, hafter, fun slot => ?_⟩
  have hdec := decompiles h slot
  obtain ⟨heval, hpassed, hactions⟩ := reported hbefore slot
  obtain ⟨heval', hpassed', hactions'⟩ := Tree.reported hafter slot
  have hpass : (after.get slot).passed = (before.get slot).passed := by
    rw [hpassed, hpassed', hdec.enabled]
    by_cases hen : (l.get slot).enabled = true
    · rw [hdec.verdict hs hen (hfits slot hen)]
    · rw [Bool.not_eq_true] at hen
      rw [hen, Bool.false_and, Bool.false_and]
  refine ⟨by rw [heval, heval', hdec.enabled], hpass, ?_⟩
  rw [hactions', hactions, hpass, hpassed]
  -- the actions stand in the strategy as they stand in its tree
  have hact : (t.get slot).actions = (l.get slot).actions := by
    rw [Stratagem.Branch.actions, hdec.onPass]
    rfl
  rw [hact]

/-- A close that crosses 100 opens a long trade. The level is written as a text, an argument is too many,
one condition is switched off, and the group asks for optional conditions that it does not have. -/
def Compiled.Logic.persisted : Compiled.Logic :=
  let rise : Call := ⟨"CrossUp", [.ref .hourlyClose, .text " 100 ", .number 7], true, true⟩
  let off : Call := ⟨"LessThan", [.number 1, .ref .hourlyClose], false, false⟩
  let group : Compiled.Group := ⟨[rise, off], true, 4, false⟩
  let branch : Compiled.Branch := ⟨true, 1, [⟨[group], true, 1, false⟩], .makeTrade "Long"⟩
  PerSlot.set (.ofFn fun slot => .disabled (.makeTrade slot.action)) .entryLong branch

theorem Compiled.Logic.evaluate_recompiled_persisted : ∃ t before after,
    Compiled.Logic.persisted.decompile = .ok t ∧
    Compiled.Logic.persisted.evaluate .breakout = .ok before ∧
    t.compile.evaluate .breakout = .ok after ∧
    (before.get .entryLong).passed = true ∧ (after.get .entryLong).passed = true := by
  obtain ⟨t, ht⟩ : ∃ t, Compiled.Logic.persisted.decompile = .ok t := ⟨_, rfl⟩
  have hfits : Compiled.Logic.persisted.Fits := by
    intro slot hen
    cases slot
    case entryLong => decide
    all_goals cases hen
  obtain ⟨before, after, hbefore, hafter, hslots⟩ :=
    Compiled.Logic.evaluate_recompiled (s := .breakout) ht hfits (by decide)
  have hpass : (before.get .entryLong).passed = true := by
    rw [(Compiled.Logic.reported hbefore .entryLong).passed]
    decide +kernel
  refine ⟨t, before, after, ht, hbefore, hafter, hpass, ?_⟩
  rw [(hslots .entryLong).2.1]
  exact hpass

end Stratagem
