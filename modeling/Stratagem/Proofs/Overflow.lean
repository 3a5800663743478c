import Stratagem.Proofs.Evaluate
import Stratagem.Proofs.Reading
import Stratagem.Proofs.Refusal
import Stratagem.Proofs.Tree.Meaning

/-!
# Runs on any data

A run asks every condition that is enabled together with everything it is in, and none else. Whatever the columns
hold, each of these comes out with its reason, unless it reads a whole number beyond every double: that number is
refused, and the run with it.
-/

namespace Stratagem

open Quorum (live)

abbrev Failure.tooLarge : Failure := .coercion .realTooLarge

/-! ## Comparisons -/

theorem Gap.reason_eq_error {gap : Gap} {r : Reason} {f : Failure} :
    gap.reason r = .error f ↔ gap = .tooLarge ∧ f = .tooLarge := by
  cases gap <;> simp [Gap.reason, eq_comm]

theorem Method.reason_eq_error {m : Method} {now before : Except Gap (List Float)} {f : Failure} :
    m.reason now before = .error f ↔
      (now = .error .tooLarge ∨ m.needsPrevious = true ∧ (∃ xs, now = .ok xs) ∧ before = .error .tooLarge) ∧
        f = .tooLarge := by
  unfold reason
  cases now with
  | error gap => simp [Gap.reason_eq_error]
  | ok xs =>
      cases m.needsPrevious with
      | false => simp
      | true =>
          cases before with
          | error gap => simp [Gap.reason_eq_error]
          | ok ys => simp

namespace Call

/-- Among the operands that are looked at, the first one without a double is a number beyond every double, on the
current bar or, for a crossing, on the previous one. -/
def Overflows (s : Snapshot) (c : Call) : Prop :=
  ∃ m, Method.comparator? c.method = some m ∧ m.arity ≤ c.args.length ∧
    (c.readings s m 0 = .error .tooLarge ∨
      m.needsPrevious = true ∧ (∃ xs, c.readings s m 0 = .ok xs) ∧ c.readings s m 1 = .error .tooLarge)

variable {s : Snapshot} {c : Call}

theorem reason_eq_error {f : Failure} : c.reason s = .error f ↔ c.Overflows s ∧ f = .tooLarge := by
  unfold reason Overflows
  cases Method.comparator? c.method with
  | none => simp
  | some m =>
      by_cases hlt : c.args.length < m.arity
      · have hnot : ¬ m.arity ≤ c.args.length := by omega
        simp [hlt, hnot]
      · have hle : m.arity ≤ c.args.length := by omega
        simp only [if_neg hlt, Method.reason_eq_error, Option.some.injEq, exists_eq_left', hle, true_and]

theorem reason_exists_iff : (∃ r, c.reason s = .ok r) ↔ ¬ c.Overflows s := by
  cases hr : c.reason s with
  | ok r =>
      refine iff_of_true ⟨r, rfl⟩ fun hover => ?_
      have herror := reason_eq_error.mpr ⟨hover, rfl⟩
      rw [hr] at herror
      cases herror
  | error f => simpa using (reason_eq_error.mp hr).1

theorem evaluate_exists_iff (hs : s.Listed) : (∃ o, c.evaluate s = .ok o) ↔ ¬ c.Overflows s := by
  rw [← reason_exists_iff, ← c.evaluate_reason hs]
  cases c.evaluate s with
  | ok o => exact iff_of_true ⟨o, rfl⟩ ⟨o.reason, rfl⟩
  | error f => simp [Except.map]

theorem holds_exists_iff (hs : s.Listed) : (∃ b, c.holds s = .ok b) ↔ ¬ c.Overflows s := by
  rw [← evaluate_exists_iff hs]
  exact bind_pure_exists_iff

theorem evaluate_refuses (hs : s.Listed) (c : Call) : Refuses (· = .tooLarge) (c.evaluate s) := by
  intro f hf
  have hreason := c.evaluate_reason hs
  rw [hf] at hreason
  exact (reason_eq_error.mp hreason.symm).2

/-- A comparison holds if its reason says so. -/
theorem verdict_iff_reason (hs : s.Listed) : c.verdict s = true ↔ c.reason s = .ok .ok := by
  rw [verdict, holds_eq_map, ← c.evaluate_reason hs]
  cases c.evaluate s with
  | error f => simp [Except.map, Quorum.saysYes]
  | ok o =>
      obtain ⟨r, m, text⟩ := o
      cases r <;> simp [Except.map, Quorum.saysYes, Outcome.holds]

end Call

/-! ## Levels -/

namespace Quorum

variable {α : Type} {p : Failure → Prop} {ask : α → Except Failure Bool}

theorem countPassing_refuses (hask : ∀ c, Refuses p (ask c)) (cs : List α) : Refuses p (countPassing ask cs) := by
  induction cs with
  | nil => exact Refuses.ok 0
  | cons c cs ih => exact (hask c).bind fun _ _ => ih.bind fun _ _ => Refuses.ok _

theorem judge_refuses [Flagged α] (hask : ∀ c, Refuses p (ask c)) (children : List α) (minPass : Int) :
    Refuses p (judge children minPass ask) := by
  refine Refuses.ite (Refuses.ok _) ?_
  exact (countPassing_refuses hask _).bind fun _ _ =>
    (countPassing_refuses hask _).bind fun _ _ => Refuses.ok _

end Quorum

namespace Compiled

/-- The conditions that a run asks: each is enabled, and so is everything it is in. -/
def Container.liveConditions (c : Container) : List Call :=
  (live c.groups).flatMap fun g => live g.conditions

def Branch.liveConditions (b : Branch) : List Call :=
  if b.enabled then (live b.containers).flatMap Container.liveConditions else []

def Logic.liveConditions (l : Logic) : List Call :=
  l.toList.flatMap fun (_, b) => b.liveConditions

variable {s : Snapshot}

/-! A run answers exactly if every condition that it asks does. -/

theorem Group.passes_exists_iff {g : Group} :
    (∃ b, g.passes s = .ok b) ↔ ∀ c ∈ live g.conditions, ∃ b, c.holds s = .ok b := by
  rw [passes, bind_pure_exists_iff, evaluate, Quorum.judge_exists_iff]

theorem Container.evaluate_exists_iff {c : Container} :
    (∃ v, c.evaluate s = .ok v) ↔ ∀ k ∈ c.liveConditions, ∃ b, k.holds s = .ok b := by
  rw [evaluate, Quorum.judge_exists_iff, liveConditions]
  simp only [Group.passes_exists_iff, List.forall_mem_flatMap]

theorem Container.passes_exists_iff {c : Container} :
    (∃ b, c.passes s = .ok b) ↔ ∀ k ∈ c.liveConditions, ∃ b, k.holds s = .ok b := by
  rw [passes, bind_pure_exists_iff, evaluate_exists_iff]

theorem Branch.evaluate_exists_iff {slot : Slot} {b : Branch} :
    (∃ out, b.evaluate s slot = .ok out) ↔ ∀ k ∈ b.liveConditions, ∃ b, k.holds s = .ok b := by
  rw [evaluate, liveConditions]
  by_cases hen : b.enabled = true
  · rw [if_pos hen, if_pos hen, List.forall_mem_flatMap]
    have hjudge : (∃ v, Quorum.judge b.containers b.minPass (Container.passes s) = .ok v) ↔
        ∀ c ∈ live b.containers, ∀ k ∈ c.liveConditions, ∃ b, k.holds s = .ok b := by
      rw [Quorum.judge_exists_iff]
      simp only [Container.passes_exists_iff]
    have hall : (∃ vs, (live b.containers).mapM (Container.evaluate s) = .ok vs) ↔
        ∀ c ∈ live b.containers, ∀ k ∈ c.liveConditions, ∃ b, k.holds s = .ok b := by
      rw [mapM_exists_iff]
      simp only [Container.evaluate_exists_iff]
    rw [← hjudge]
    constructor
    · rintro ⟨out, hout⟩
      obtain ⟨v, hv, -⟩ := bind_eq_ok.mp hout
      exact ⟨v, hv⟩
    · rintro ⟨v, hv⟩
      -- the containers are asked once more for their own outcomes
      obtain ⟨vs, hvs⟩ := hall.mpr (hjudge.mp ⟨v, hv⟩)
      rw [hv, ok_bind, hvs, ok_bind]
      exact ⟨_, rfl⟩
  · rw [if_neg hen, if_neg hen]
    exact iff_of_true ⟨_, rfl⟩ (List.forall_mem_nil _)

theorem Branch.evaluate_refuses (hs : s.Listed) (slot : Slot) (b : Branch) :
    Refuses (· = .tooLarge) (b.evaluate s slot) := by
  have hcall (c : Call) : Refuses (· = .tooLarge) (c.holds s) :=
    (c.evaluate_refuses hs).bind fun _ _ => Refuses.ok _
  have hgroup (g : Group) : Refuses (· = .tooLarge) (g.passes s) :=
    (Quorum.judge_refuses hcall _ _).bind fun _ _ => Refuses.ok _
  have hcontainer (c : Container) : Refuses (· = .tooLarge) (c.evaluate s) := Quorum.judge_refuses hgroup _ _
  refine Refuses.ite ?_ (Refuses.ok _)
  refine (Quorum.judge_refuses (fun c => (hcontainer c).bind fun _ _ => Refuses.ok _) _ _).bind fun _ _ => ?_
  exact (Refuses.mapM fun c _ => hcontainer c).bind fun _ _ => Refuses.ok _

theorem Logic.evaluate_exists_iff (hs : s.Listed) {l : Logic} :
    (∃ out, l.evaluate s = .ok out) ↔ ∀ k ∈ l.liveConditions, ¬ k.Overflows s := by
  simp only [← Call.holds_exists_iff hs]
  rw [evaluate, PerSlot.ofFnM_exists_iff, liveConditions, List.forall_mem_flatMap, PerSlot.forall_mem_toList]
  exact forall_congr' fun slot => Branch.evaluate_exists_iff

end Compiled

/-! ## Columns without such numbers -/

namespace Snapshot

def fitsDouble : Document → Bool
  | .int n => (Number.ofInt? n).isSome
  | _ => true

/-- No column holds a whole number beyond every double. -/
def Fits (s : Snapshot) : Prop :=
  ∀ column ∈ s.series, ∀ d ∈ column.2.items.toOption.getD [], fitsDouble d = true

instance (s : Snapshot) : Decidable s.Fits :=
  inferInstanceAs (Decidable (∀ column ∈ s.series, ∀ d ∈ column.2.items.toOption.getD [], fitsDouble d = true))

variable {s : Snapshot}

theorem fitsDouble_of_mem_column (hs : s.Fits) {key : String} {d : Document} (hd : d ∈ s.column key) :
    fitsDouble d = true := by
  obtain ⟨items, hitems, hd⟩ := mem_series_of_mem_column hd
  exact hs (key, .list items) hitems d hd

theorem valueReading_fits {d : Document} (h : fitsDouble d = true) : valueReading d ≠ .error .tooLarge := by
  cases d with
  | int n =>
      obtain ⟨x, hx⟩ := Option.isSome_iff_exists.mp h
      simp [valueReading, hx]
  | text t =>
      rw [valueReading, textReading]
      cases Number.readReal? t <;> simp
  | _ => simp [valueReading]

end Snapshot

theorem Call.not_overflows {s : Snapshot} (hs : s.Fits) (c : Call) : ¬ c.Overflows s := by
  have hreadings (m : Method) (further : Nat) : c.readings s m further ≠ .error .tooLarge := by
    intro h
    rcases readings_error h with h | ⟨h, -⟩ | ⟨key, d, hd, hread⟩
    · cases h
    · cases h
    · exact Snapshot.valueReading_fits (Snapshot.fitsDouble_of_mem_column hs hd) hread
  rintro ⟨m, -, -, hnow | ⟨-, -, hbefore⟩⟩
  · exact hreadings m 0 hnow
  · exact hreadings m 1 hbefore

def Snapshot.unruly : Snapshot :=
  ⟨[("field|1h|Close", .list [.text "n/a", .record [], .bool true, .int (2 ^ 1000)]), ("field|1h|Open", .null)]⟩

namespace Compiled

/-- **A run on any data fails on nothing but a whole number beyond every double.** Whatever the columns hold, a
condition comes out with its reason unless it overflows, and counts as passed if that reason says so. A run asks the
enabled conditions alone. It answers exactly if none of them overflows, and then reports every slot by these verdicts;
otherwise the number is refused. Where no column holds such a number, nothing overflows. -/
theorem Logic.evaluate_any {s : Snapshot} (hs : s.Listed) (l : Logic) :
    (∀ c : Call, ¬ c.Overflows s → ∃ o, c.evaluate s = .ok o ∧ c.reason s = .ok o.reason) ∧
    (∀ c : Call, c.verdict s = true ↔ c.reason s = .ok .ok) ∧
    ((∃ out, l.evaluate s = .ok out) ↔ ∀ c ∈ l.liveConditions, ¬ c.Overflows s) ∧
    (∀ out, l.evaluate s = .ok out → ∀ slot, (l.get slot).Reported s (out.get slot)) ∧
    (∀ f, l.evaluate s = .error f → f = .tooLarge) ∧
    (s.Fits → ∀ c : Call, ¬ c.Overflows s) := by
  refine ⟨fun c hc => ?_, fun c => Call.verdict_iff_reason hs, evaluate_exists_iff hs, fun out hout slot => ?_, ?_,
    fun hfits c => c.not_overflows hfits⟩
  · obtain ⟨o, ho⟩ := (Call.evaluate_exists_iff hs).mpr hc
    refine ⟨o, ho, ?_⟩
    rw [← c.evaluate_reason hs, ho]
    rfl
  · exact Branch.reported (PerSlot.ofFnM_eq_ok.mp hout slot)
  · exact Refuses.ofFnM fun slot => Branch.evaluate_refuses hs slot _

theorem Logic.evaluate_any_unruly :
    Snapshot.unruly.Listed ∧ Snapshot.unruly.Fits ∧
      (∀ c ∈ Tree.breakout.compile.liveConditions, (c.reason .unruly).toOption = some .invalidOperand) ∧
      ∃ out, Tree.breakout.compile.evaluate .unruly = .ok out ∧ (out.get .entryLong).passed = false := by
  have hs : Snapshot.unruly.Listed := by decide
  have hfits : Snapshot.unruly.Fits := by decide +kernel
  obtain ⟨-, -, hanswers, hreported, -, hnone⟩ := evaluate_any hs Tree.breakout.compile
  obtain ⟨out, hout⟩ := hanswers.mpr fun c _ => hnone hfits c
  refine ⟨hs, hfits, by decide +kernel, out, hout, ?_⟩
  rw [(hreported out hout .entryLong).passed]
  decide +kernel

/-- The number that overflows refuses the run, whatever else the strategy holds. -/
example : (Tree.breakout.compile.evaluate ⟨[("field|1h|Close", .list [.int (10 ^ 400)])]⟩).toOption = none := by
  decide +kernel

end Compiled

end Stratagem
