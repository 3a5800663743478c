import Stratagem.Evaluate
import Stratagem.Proofs.Method
import Stratagem.Proofs.Quorum

/-!
# Verdicts

On a snapshot whose columns hold doubles and missing values, every operand reads as a double or as nothing:
`argument?` says which. The evaluator may still refuse a reference that has no key or a text that is no
number, but such a refusal only makes the comparison fail. `Call.holds_eq` sums this up.

The evaluator counts level by level and may be refused on the way. `verdict` is the same decision without
refusals: whatever is asked for an enabled node of a run that answers, the answer is its verdict. A run on
doubles always answers.
-/

namespace Stratagem

namespace Snapshot

/-! ## Columns of doubles -/

def isValue : Document → Bool
  | .null => true
  | .real _ => true
  | _ => false

def isColumn : Document → Bool
  | .null => true
  | .list items => items.all isValue
  | _ => false

/-- Every column holds doubles and missing values. -/
def Numeric (s : Snapshot) : Prop :=
  ∀ column ∈ s.series, isColumn column.2 = true

instance (s : Snapshot) : Decidable s.Numeric :=
  inferInstanceAs (Decidable (∀ column ∈ s.series, isColumn column.2 = true))

/-- The double that an item is. No number is a missing one. -/
def known : Document → Option Float
  | .real x => if x.isNaN then none else some x
  | _ => none

def column (s : Snapshot) (key : String) : List Document :=
  match s.series.lookup key with
  | some (.list items) => items
  | _ => []

def valueAt (s : Snapshot) (key : String) (barsBack : Nat) : Option Float :=
  (s.column key)[barsBack]?.bind known

def reading (s : Snapshot) (further : Nat) (r : ValueRef) : Option Float :=
  if r.isLiteral then r.literalValue
  else r.seriesKey.toOption.bind fun key => s.valueAt key (r.window.low + further)

def argument? (s : Snapshot) (further : Nat) : Argument → Option Float
  | .ref r => s.reading further r
  | .number x => some x
  | .text t => Number.readReal? (Text.trim t)

/-! ## The evaluator reads the same -/

variable {s : Snapshot}

/-- The answer is the given reading, or there is no reading and the answer is a refusal that makes a
comparison fail. -/
def AnswersBy {α : Type} (answer : Except Failure (Option α)) (o : Option α) : Prop :=
  answer = .ok o ∨ o = none ∧ ∃ f, answer = .error f ∧ f.isOfValue true = true

theorem mem_of_lookup {key : String} {d : Document} (h : s.series.lookup key = some d) : (key, d) ∈ s.series := by
  obtain ⟨l₁, l₂, hl, -⟩ := List.lookup_eq_some_iff.mp h
  rw [hl]
  exact List.mem_append_right l₁ List.mem_cons_self

theorem mem_series_of_mem_column {key : String} {d : Document} (h : d ∈ s.column key) :
    ∃ items, (key, .list items) ∈ s.series ∧ d ∈ items := by
  unfold column at h
  split at h
  · rename_i items hlookup
    exact ⟨items, mem_of_lookup hlookup, h⟩
  · cases h

theorem itemAt_list (items : List Document) (n : Nat) : itemAt (.list items) n = .ok items[n]? := by
  unfold itemAt
  rw [Document.count, ok_bind]
  by_cases h : items.length ≤ n
  · rw [if_pos h, List.getElem?_eq_none h]
    rfl
  · rw [if_neg h]
    rfl

theorem read_isValue {item : Option Document} (h : ∀ d ∈ item, isValue d = true) :
    read item = .ok (item.bind known) := by
  rcases item with _ | d
  · rfl
  · have hd := h d rfl
    cases d
    case null => rfl
    case real x => rfl
    all_goals cases hd

theorem seriesKey_error {r : ValueRef} {f : Failure} (h : r.seriesKey = .error f) :
    f.isOfValue true = true := by
  rw [ValueRef.seriesKey] at h
  split at h
  · cases h
  · cases h
  · rw [ValueRef.outputText] at h
    split at h
    · cases h
    · cases h
      rfl

theorem value_answersBy (hs : s.Numeric) (further : Nat) (r : ValueRef) :
    AnswersBy (s.value r (r.window.low + further)) (s.reading further r) := by
  unfold value reading
  by_cases hlit : r.isLiteral = true
  · rw [if_pos hlit, if_pos hlit]
    exact Or.inl rfl
  · rw [if_neg hlit, if_neg hlit]
    cases hkey : r.seriesKey with
    | error f =>
        exact Or.inr ⟨rfl, f, rfl, seriesKey_error hkey⟩
    | ok key =>
        refine Or.inl ?_
        show _ = Except.ok (s.valueAt key (r.window.low + further))
        rw [ok_bind, valueAt, column]
        cases hcol : s.series.lookup key with
        | none => rfl
        | some d =>
            have hd : isColumn d = true := hs (key, d) (mem_of_lookup hcol)
            cases d
            case null => rfl
            case list items =>
              show itemAt (.list items) _ >>= read = _
              rw [itemAt_list, ok_bind]
              exact read_isValue fun d hmem =>
                List.all_eq_true.mp hd d (List.mem_of_getElem? hmem)
            all_goals cases hd

theorem argument_answersBy (hs : s.Numeric) (further : Nat) (a : Argument) :
    AnswersBy (s.argument further a) (s.argument? further a) := by
  cases a with
  | ref r => exact value_answersBy hs further r
  | number x => exact Or.inl rfl
  | text t =>
      show AnswersBy (some <$> (Document.text (Text.trim t)).toReal) (Number.readReal? (Text.trim t))
      rw [Document.toReal]
      cases Number.readReal? (Text.trim t) with
      | some x => exact Or.inl rfl
      | none => exact Or.inr ⟨rfl, _, rfl, rfl⟩

theorem arguments_answersBy (hs : s.Numeric) (further : Nat) (args : List Argument) :
    AnswersBy (s.arguments further args) (Method.allKnown (args.map (s.argument? further))) := by
  induction args with
  | nil => exact Or.inl rfl
  | cons a as ih =>
      rw [arguments, List.map_cons]
      rcases argument_answersBy hs further a with ha | ⟨ha, f, hf, hval⟩
      · rw [ha, ok_bind]
        cases s.argument? further a with
        | none => exact Or.inl rfl
        | some x =>
            rw [Method.allKnown]
            rcases ih with hrest | ⟨hrest, f, hf, hval⟩
            · rw [hrest]
              exact Or.inl rfl
            · rw [hrest, hf]
              exact Or.inr ⟨rfl, f, rfl, hval⟩
      · rw [ha, hf]
        exact Or.inr ⟨rfl, f, rfl, hval⟩

theorem operands_of_allKnown (hs : s.Numeric) {further : Nat} {args : List Argument} {xs : List Float}
    (h : Method.allKnown (args.map (s.argument? further)) = some xs) :
    s.operands further args = .ok (.values xs) := by
  rcases arguments_answersBy hs further args with ha | ⟨ha, -⟩
  · rw [operands, ha, h]
  · rw [h] at ha
    cases ha

theorem operands_of_missing (hs : s.Numeric) {further : Nat} {args : List Argument}
    (h : Method.allKnown (args.map (s.argument? further)) = none) :
    s.operands further args = .ok .missing ∨ s.operands further args = .ok .invalid := by
  rcases arguments_answersBy hs further args with ha | ⟨-, f, hf, hval⟩
  · left
    rw [operands, ha, h]
  · right
    rw [operands, hf]
    exact if_pos hval

end Snapshot

namespace Call

variable {s : Snapshot}

theorem judged_eq {m : Method} {now before : List Float} (hm : m.isCondition = true)
    (hnow : now.length = m.arity) (hbefore : m.needsPrevious = true → before.length = 2) :
    Except.map Outcome.holds (judged m now (if m.needsPrevious then some before else none)) =
      .ok (m.holds now before) := by
  have happly := Method.apply_real hm hnow hbefore
  rw [judged, Option.map_if, happly, ok_bind]
  cases m.holds now before <;> rfl

theorem holds_eq_map (c : Call) : c.holds s = (c.evaluate s).map Outcome.holds := by
  rw [holds]
  cases c.evaluate s <;> rfl

theorem arity_of_needsPrevious {m : Method} (h : m.needsPrevious = true) : m.arity = 2 := by
  cases m <;> first | rfl | cases h

/-- A comparator with as many arguments as it takes answers by what they read. -/
theorem evaluateWith_eq (hs : s.Numeric) {m : Method} {args : List Argument} (hm : m.isCondition = true)
    (hlen : args.length = m.arity) :
    (evaluateWith m s args).map Outcome.holds =
      .ok (match Method.allKnown (args.map (s.argument? 0)),
          if m.needsPrevious then Method.allKnown (args.map (s.argument? 1)) else some [] with
        | some xs, some ys => m.holds xs ys
        | _, _ => false) := by
  rw [evaluateWith]
  cases hnow : Method.allKnown (args.map (s.argument? 0)) with
  | none =>
      rcases Snapshot.operands_of_missing hs hnow with h | h <;> rw [h] <;> rfl
  | some now =>
      have hnowlen : now.length = m.arity := by
        rw [Method.length_of_allKnown hnow, List.length_map, hlen]
      rw [Snapshot.operands_of_allKnown hs hnow, ok_bind]
      cases hp : m.needsPrevious with
      | false =>
          have hj : (judged m now (if m.needsPrevious then some [] else none)).map Outcome.holds =
              .ok (m.holds now []) := judged_eq hm hnowlen fun h => by rw [hp] at h; cases h
          rw [hp] at hj
          exact hj
      | true =>
          simp only [if_true]
          cases hbefore : Method.allKnown (args.map (s.argument? 1)) with
          | none =>
              rcases Snapshot.operands_of_missing hs hbefore with h | h <;> rw [h] <;> rfl
          | some before =>
              have hlen2 : before.length = 2 := by
                rw [Method.length_of_allKnown hbefore, List.length_map, hlen, arity_of_needsPrevious hp]
              have hj := judged_eq hm hnowlen fun _ => hlen2
              rw [hp] at hj
              rw [Snapshot.operands_of_allKnown hs hbefore, ok_bind]
              exact hj

/-- A comparison answers on doubles, and says what `holdsOn` says of what its arguments read. -/
theorem holds_eq (hs : s.Numeric) (c : Call) :
    c.holds s = .ok (Method.holdsOn c.method (c.args.map (s.argument? 0)) (c.args.map (s.argument? 1))) := by
  rw [holds_eq_map]
  unfold evaluate Method.holdsOn
  cases hm : Method.comparator? c.method with
  | none => rfl
  | some m =>
      have hcond : m.isCondition = true := (Option.filter_eq_some_iff.mp hm).2
      by_cases hlt : c.args.length < m.arity
      · have hle : ¬ m.arity ≤ c.args.length := by omega
        simp only [if_pos hlt, List.length_map, hle, decide_false, Bool.false_and]
        rfl
      · have hle : m.arity ≤ c.args.length := by omega
        have hlen : (c.args.take m.arity).length = m.arity := by
          rw [List.length_take, Nat.min_eq_left hle]
        simp only [if_neg hlt, List.length_map, hle, decide_true, Bool.true_and, ← List.map_take]
        exact evaluateWith_eq hs hcond hlen

end Call

open Quorum (live tally saysYes)

/-! ## Verdicts of levels -/

/-- Whether the comparison says yes; one that is refused does not. -/
def Call.verdict (s : Snapshot) (c : Call) : Bool := saysYes (c.holds s)

namespace Compiled

def Group.verdict (s : Snapshot) (g : Group) : Bool :=
  (tally g.conditions g.minPass (Call.verdict s)).passed

def Container.verdict (s : Snapshot) (c : Container) : Bool :=
  (tally c.groups c.minPass (Group.verdict s)).passed

def Branch.verdict (s : Snapshot) (b : Branch) : Bool :=
  (tally b.containers b.minPass (Container.verdict s)).passed

end Compiled

/-! ## What is answered is the verdict -/

section Answers

variable {s : Snapshot}

theorem Call.eq_verdict {c : Call} {b : Bool} (h : c.holds s = .ok b) : b = c.verdict s := by
  rw [verdict, h]
  cases b <;> rfl

namespace Compiled

theorem Group.eq_verdict {g : Group} {b : Bool} (h : g.passes s = .ok b) : b = g.verdict s := by
  obtain ⟨v, hv, heq⟩ := bind_eq_ok.mp h
  cases heq
  rw [Quorum.judge_eq_tally hv fun _ _ _ => Call.eq_verdict]
  rfl

theorem Container.eq_verdict {c : Container} {b : Bool} (h : c.passes s = .ok b) :
    b = c.verdict s := by
  obtain ⟨v, hv, heq⟩ := bind_eq_ok.mp h
  cases heq
  rw [Quorum.judge_eq_tally hv fun _ _ _ => Group.eq_verdict]
  rfl

/-- A branch reports its flag, its verdict while it is enabled, and its actions when it passes. -/
structure Branch.Reported (s : Snapshot) (b : Branch) (out : BranchOutcome) : Prop where
  evaluated : out.evaluated = b.enabled
  passed : out.passed = (b.enabled && b.verdict s)
  actions : out.actions = if b.enabled && b.verdict s then b.actions else []

theorem Branch.reported {slot : Slot} {b : Branch} {out : BranchOutcome}
    (h : b.evaluate s slot = .ok out) : b.Reported s out := by
  rw [evaluate] at h
  by_cases hen : b.enabled = true
  · rw [if_pos hen] at h
    obtain ⟨v, hv, h⟩ := bind_eq_ok.mp h
    obtain ⟨vs, -, h⟩ := bind_eq_ok.mp h
    cases h
    have hpassed : v.passed = b.verdict s := by
      rw [Quorum.judge_eq_tally hv fun _ _ _ => Container.eq_verdict]
      rfl
    constructor
    · exact hen.symm
    · rw [hen, Bool.true_and, ← hpassed]
    · rw [hen, Bool.true_and, ← hpassed]
  · rw [if_neg hen] at h
    cases h
    rw [Bool.not_eq_true] at hen
    constructor
    · exact hen.symm
    · rw [hen]
      rfl
    · rw [hen]
      rfl

end Compiled

end Answers

/-! ## Runs on doubles answer -/

section Numeric

variable {s : Snapshot}

theorem Call.verdict_eq (hs : s.Numeric) (c : Call) :
    c.verdict s =
      Method.holdsOn c.method (c.args.map (s.argument? 0)) (c.args.map (s.argument? 1)) := by
  rw [verdict, holds_eq hs]
  generalize Method.holdsOn _ _ _ = b
  cases b <;> rfl

theorem Call.holds_verdict (hs : s.Numeric) (c : Call) : c.holds s = .ok (c.verdict s) := by
  rw [verdict_eq hs, holds_eq hs]

namespace Compiled

theorem Group.passes_verdict (hs : s.Numeric) (g : Group) : g.passes s = .ok (g.verdict s) := by
  rw [passes, evaluate, Quorum.judge_ok fun c _ => c.holds_verdict hs]
  rfl

theorem Container.evaluate_tally (hs : s.Numeric) (c : Container) :
    c.evaluate s = .ok (tally c.groups c.minPass (Group.verdict s)) :=
  Quorum.judge_ok fun g _ => g.passes_verdict hs

theorem Container.passes_verdict (hs : s.Numeric) (c : Container) : c.passes s = .ok (c.verdict s) := by
  rw [passes, c.evaluate_tally hs]
  rfl

theorem Branch.evaluate_answers (hs : s.Numeric) (slot : Slot) (b : Branch) :
    ∃ out, b.evaluate s slot = .ok out := by
  rw [evaluate]
  by_cases hen : b.enabled = true
  · rw [if_pos hen, Quorum.judge_ok fun c _ => c.passes_verdict hs, ok_bind,
      mapM_ok fun c _ => c.evaluate_tally hs, ok_bind]
    exact ⟨_, rfl⟩
  · rw [if_neg hen]
    exact ⟨_, rfl⟩

/-- A run of a compiled strategy on doubles answers for every slot. -/
theorem Logic.evaluate_answers (hs : s.Numeric) (l : Logic) : ∃ out, l.evaluate s = .ok out :=
  PerSlot.ofFnM_exists_iff.mpr fun slot => (l.get slot).evaluate_answers hs slot

theorem Logic.reported {l : Logic} {out : PerSlot BranchOutcome} (h : l.evaluate s = .ok out)
    (slot : Slot) : (l.get slot).Reported s (out.get slot) :=
  Branch.reported (PerSlot.ofFnM_eq_ok.mp h slot)

end Compiled

end Numeric

end Stratagem
