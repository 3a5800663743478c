import Stratagem.Proofs.Number.Order
import Stratagem.Proofs.Reading
import Stratagem.Proofs.Tree.Meaning

/-!
# Opposite comparators

Of a comparator and its opposite never both hold, and one of them does as long as the operands are numbers
that can be told apart. The exceptions are literals that are no numbers, since only the values of columns
are screened for those, and two infinities of one sign, which have no distance. Bounds that are numbers may
be given in either order.
-/

namespace Stratagem

open Number (Same)

/-! ## Operands that are doubles -/

namespace Method

theorem holds_equal (x a : Float) : holds equal [x, a] [] = decide ((x - a).abs ≤ toleranceReal) := rfl

theorem holds_notEqual (x a : Float) : holds notEqual [x, a] [] = decide (toleranceReal < (x - a).abs) := rfl

theorem holds_between (x a b : Float) :
    holds between [x, a, b] [] = (decide (lesserReal a b ≤ x) && decide (x ≤ greaterReal a b)) := rfl

theorem holds_outside (x a b : Float) :
    holds outside [x, a, b] [] = (decide (x < lesserReal a b) || decide (greaterReal a b < x)) := rfl

/-- Equal and not equal split the pairs of doubles that have a distance. -/
theorem holds_notEqual_of_distance {x a : Float} (h : (x - a).isNaN = false) :
    holds notEqual [x, a] [] = !holds equal [x, a] [] := by
  have hdist : (x - a).abs.isNaN = false := by rw [Number.isNaN_abs, h]
  have htolerance : toleranceReal.isNaN = false := by decide +kernel
  rw [holds_equal, holds_notEqual, ← decide_not, decide_eq_decide]
  exact (Number.not_le_iff_lt hdist htolerance).symm

theorem not_holds_of_no_distance {x a : Float} (h : (x - a).isNaN = true) :
    holds equal [x, a] [] = false ∧ holds notEqual [x, a] [] = false := by
  have hdist : (x - a).abs.isNaN = true := by rw [Number.isNaN_abs, h]
  rw [holds_equal, holds_notEqual]
  exact ⟨decide_eq_false (Number.not_le_of_isNaN (.inl hdist)), decide_eq_false (Number.not_lt_of_isNaN (.inr hdist))⟩

/-- A second bound that is no number is passed over, a first one is not. -/
theorem isNaN_lesserReal (a b : Float) : (lesserReal a b).isNaN = a.isNaN := by
  unfold lesserReal
  split
  · rename_i hlt
    obtain ⟨hb, ha⟩ := Number.isNaN_of_lt hlt
    rw [hb, ha]
  · rfl

theorem isNaN_greaterReal (a b : Float) : (greaterReal a b).isNaN = a.isNaN := by
  unfold greaterReal
  split
  · rename_i hlt
    obtain ⟨ha, hb⟩ := Number.isNaN_of_lt hlt
    rw [hb, ha]
  · rfl

/-- Inside and outside split the numbers, whatever the second bound is. -/
theorem holds_outside_of_isNumber {x a : Float} (hx : x.isNaN = false) (ha : a.isNaN = false) (b : Float) :
    holds outside [x, a, b] [] = !holds between [x, a, b] [] := by
  have hlow : (lesserReal a b).isNaN = false := by rw [isNaN_lesserReal, ha]
  have hhigh : (greaterReal a b).isNaN = false := by rw [isNaN_greaterReal, ha]
  rw [holds_between, holds_outside, Bool.not_and, ← decide_not, ← decide_not,
    decide_eq_decide.mpr (Number.not_le_iff_lt hlow hx), decide_eq_decide.mpr (Number.not_le_iff_lt hx hhigh)]

theorem not_holds_of_no_number {x a : Float} (h : x.isNaN = true ∨ a.isNaN = true) (b : Float) :
    holds between [x, a, b] [] = false ∧ holds outside [x, a, b] [] = false := by
  have hlow : x.isNaN = true ∨ (lesserReal a b).isNaN = true := by rwa [isNaN_lesserReal]
  have hhigh : (greaterReal a b).isNaN = true ∨ x.isNaN = true := by rwa [isNaN_greaterReal, or_comm]
  rw [holds_between, holds_outside, Bool.or_eq_false_iff]
  constructor
  · exact Bool.and_eq_false_imp.mpr fun _ => decide_eq_false (Number.not_le_of_isNaN hhigh.symm)
  · exact ⟨decide_eq_false (Number.not_lt_of_isNaN hlow), decide_eq_false (Number.not_lt_of_isNaN hhigh)⟩

/-- Two bounds, unless just one of them is a number, may trade places. -/
theorem bounds_comm {a b : Float} (h : a.isNaN = b.isNaN) :
    Same (lesserReal a b) (lesserReal b a) ∧ Same (greaterReal a b) (greaterReal b a) := by
  unfold lesserReal greaterReal
  by_cases hab : a < b
  · simp only [if_pos hab, if_neg (Number.not_lt_of_lt hab)]
    exact ⟨.refl _, .refl _⟩
  · by_cases hba : b < a
    · simp only [if_pos hba, if_neg hab]
      exact ⟨.refl _, .refl _⟩
    · simp only [if_neg hab, if_neg hba]
      have hsame : Same a b := by
        cases hnan : a.isNaN with
        | true => rw [Number.eq_of_isNaN hnan (h ▸ hnan)]; exact .refl b
        | false => exact Number.same_of_not_lt hnan (h ▸ hnan) hab hba
      exact ⟨hsame, hsame⟩

theorem holds_bounds_comm (m : Method) (x : Float) {a b : Float} (h : a.isNaN = b.isNaN) :
    m.holds [x, a, b] [] = m.holds [x, b, a] [] := by
  obtain ⟨hlow, hhigh⟩ := bounds_comm h
  cases m with
  | between =>
      exact congrArg₂ and (decide_eq_decide.mpr (hlow.le (.refl x))) (decide_eq_decide.mpr ((Same.refl x).le hhigh))
  | outside =>
      exact congrArg₂ or (decide_eq_decide.mpr ((Same.refl x).lt hlow)) (decide_eq_decide.mpr (hhigh.lt (.refl x)))
  | _ => rfl

/-- A range with just one bound that is a number tells which of its bounds is the first. -/
theorem holds_bounds_ne {x a b : Float} (hx : x.isNaN = false) (ha : a.isNaN = false) (hb : b.isNaN = true) :
    ¬ (holds between [x, a, b] [] = holds between [x, b, a] [] ∧
      holds outside [x, a, b] [] = holds outside [x, b, a] []) := by
  rintro ⟨hbetween, houtside⟩
  have hsplit := holds_outside_of_isNumber hx ha b
  obtain ⟨hnone, hnone'⟩ := not_holds_of_no_number (.inr hb) a (x := x)
  rw [houtside, hbetween, hnone, hnone'] at hsplit
  cases hsplit

/-- Bounds may trade places unless just one of them is a number. -/
theorem holds_bounds_comm_iff (x a b : Float) :
    (holds between [x, b, a] [] = holds between [x, a, b] [] ∧
      holds outside [x, b, a] [] = holds outside [x, a, b] []) ↔
      (x.isNaN = false → a.isNaN = b.isNaN) := by
  constructor
  · rintro hswap hx
    cases ha : a.isNaN with
    | false =>
        cases hb : b.isNaN with
        | false => rfl
        | true => exact absurd ⟨hswap.1.symm, hswap.2.symm⟩ (holds_bounds_ne hx ha hb)
    | true =>
        cases hb : b.isNaN with
        | false => exact absurd hswap (holds_bounds_ne hx hb ha)
        | true => rfl
  · intro h
    cases hx : x.isNaN with
    | false => exact ⟨holds_bounds_comm _ x (h hx).symm, holds_bounds_comm _ x (h hx).symm⟩
    | true =>
        obtain ⟨hbetween, houtside⟩ := not_holds_of_no_number (.inl hx) b (a := a)
        obtain ⟨hbetween', houtside'⟩ := not_holds_of_no_number (.inl hx) a (a := b)
        exact ⟨hbetween'.trans hbetween.symm, houtside'.trans houtside.symm⟩

end Method

/-! ## Arguments -/

namespace Argument

def literal? : Argument → Option Float
  | ref r => r.literalValue
  | number x => some x
  | text t => Number.readReal? (Text.trim t)

def isNoNumber (a : Argument) : Bool := a.literal?.any Float.isNaN

end Argument

namespace Snapshot

/-- The argument has a value on the bar it looks at. -/
abbrev Reads (s : Snapshot) (a : Argument) (x : Float) : Prop := s.argument 0 a = .ok (some x)

/-- Both arguments are infinite, with one sign. -/
def ReadsOneInfinity (s : Snapshot) (a b : Argument) : Prop :=
  ∃ x, x.isInf = true ∧ s.Reads a x ∧ s.Reads b x

variable {s : Snapshot}

theorem isNaN_of_read {item : Option Document} {x : Float} (h : read item = .ok (some x)) : x.isNaN = false := by
  unfold read at h
  split at h
  · cases h
  · cases h
  · obtain ⟨y, -, hy⟩ := bind_eq_ok.mp h
    split at hy
    · cases hy
    · rename_i hnumber
      cases hy
      exact Bool.not_eq_true _ ▸ hnumber

theorem value_eq_ok {r : ValueRef} {barsBack : Nat} {x : Float} (h : s.value r barsBack = .ok (some x)) :
    r.literalValue = some x ∨ r.literalValue = none ∧ x.isNaN = false := by
  rw [value] at h
  by_cases hliteral : r.isLiteral = true
  · rw [if_pos hliteral, Except.ok.injEq] at h
    exact Or.inl h
  · rw [if_neg hliteral] at h
    obtain ⟨key, -, hcolumn⟩ := bind_eq_ok.mp h
    refine Or.inr ⟨if_neg hliteral, ?_⟩
    split at hcolumn
    · cases hcolumn
    · cases hcolumn
    · obtain ⟨item, -, hitem⟩ := bind_eq_ok.mp hcolumn
      exact isNaN_of_read hitem

theorem literal_of_reads {a : Argument} {x : Float} (h : s.Reads a x) :
    a.literal? = some x ∨ a.literal? = none ∧ x.isNaN = false := by
  cases a with
  | ref r => exact value_eq_ok h
  | number y =>
      cases h
      exact Or.inl rfl
  | text t =>
      have htext : some <$> (Document.text (Text.trim t)).toReal = .ok (some x) := h
      rw [Document.toReal] at htext
      refine Or.inl ?_
      rw [Argument.literal?]
      cases hread : Number.readReal? (Text.trim t) with
      | none =>
          rw [hread] at htext
          cases htext
      | some y =>
          rw [hread] at htext
          cases htext
          rfl

/-- Only a literal is read as no number. -/
theorem isNaN_of_reads {a : Argument} {x : Float} (h : s.Reads a x) : x.isNaN = a.isNoNumber := by
  rcases literal_of_reads h with hliteral | ⟨hliteral, hx⟩
  · rw [Argument.isNoNumber, hliteral, Option.any_some]
  · rw [Argument.isNoNumber, hliteral, hx, Option.any_none]

theorem arguments_eq_ok {args : List Argument} {xs : List Float} :
    s.arguments 0 args = .ok (some xs) ↔ List.Forall₂ s.Reads args xs := by
  induction args generalizing xs with
  | nil =>
      rw [arguments, Except.ok.injEq, Option.some.injEq, List.forall₂_nil_left_iff]
      exact eq_comm
  | cons a as ih =>
      rw [arguments, bind_eq_ok]
      constructor
      · rintro ⟨o, ho, hrest⟩
        cases o with
        | none => cases hrest
        | some x =>
            obtain ⟨o', ho', hmap⟩ := bind_eq_ok.mp hrest
            obtain ⟨ys, rfl, rfl⟩ := Option.map_eq_some_iff.mp (Except.ok.inj hmap)
            exact .cons ho (ih.mp ho')
      · rintro (_ | ⟨hx, hxs⟩)
        exact ⟨_, hx, by rw [ih.mpr hxs]; rfl⟩

end Snapshot

/-! ## Comparisons that are decided -/

/-- Whether the comparison held, if it got as far as comparing. -/
def Reason.decision : Reason → Option Bool
  | ok => some true
  | conditionFailed => some false
  | _ => none

namespace Call

def comparing (m : Method) (args : List Argument) : Call := ⟨m.name, args, true, false⟩

def decision (s : Snapshot) (c : Call) : Option Bool :=
  ((c.evaluate s).map Outcome.reason).toOption.bind Reason.decision

theorem comparator?_name {m : Method} (hm : m.isCondition = true) : Method.comparator? m.name = some m := by
  cases m with
  | makeTrade => cases hm
  | _ => decide +kernel

/-- A comparator that looks at one bar, with as many arguments as it takes. -/
structure Instant (m : Method) (args : List Argument) : Prop where
  condition : m.isCondition = true
  current : m.needsPrevious = false
  arity : args.length = m.arity

variable {s : Snapshot} {m : Method} {args : List Argument}

theorem evaluate_comparing (hm : Instant m args) : (comparing m args).evaluate s = evaluateWith m s args := by
  have hname : Method.comparator? (comparing m args).method = some m := comparator?_name hm.condition
  have hargs : (comparing m args).args = args := rfl
  rw [evaluate, hname, hargs]
  dsimp only
  rw [if_neg (Nat.not_lt.mpr hm.arity.ge), ← hm.arity, List.take_length]

/-- A comparison on one bar is decided if all its arguments have a value, and then by the comparator. -/
theorem decision_comparing (hm : Instant m args) {p : Bool} :
    (comparing m args).decision s = some p ↔ ∃ xs, List.Forall₂ s.Reads args xs ∧ m.holds xs [] = p := by
  rw [decision, evaluate_comparing hm, evaluateWith, Snapshot.operands]
  simp only [← Snapshot.arguments_eq_ok]
  cases hargs : s.arguments 0 args with
  | error f =>
      -- an invalid operand, or a run that is refused
      refine iff_of_false ?_ (by simp)
      cases hvalue : f.isOfValue true <;> simp [hvalue, Reason.decision, Except.map, Except.toOption]
  | ok o =>
      cases o with
      | none => exact iff_of_false (by simp [Reason.decision, Except.map, Except.toOption]) (by simp)
      | some xs =>
          have hxs : xs.length = m.arity := by rw [← hm.arity, (Snapshot.arguments_eq_ok.mp hargs).length_eq]
          have hreason : (judged m xs none).map Outcome.reason =
              .ok (if m.holds xs [] then .ok else .conditionFailed) := by
            have hjudged := judged_reason [] hm.condition hxs fun h => by rw [hm.current] at h; cases h
            rwa [hm.current, if_neg Bool.false_ne_true] at hjudged
          simp only [ok_bind, hm.current, Bool.false_eq_true, if_false, hreason]
          cases hp : m.holds xs [] <;> simp [hp, Reason.decision, Except.toOption]

theorem decision_of_reads (hm : Instant m args) {xs : List Float} (h : List.Forall₂ s.Reads args xs) :
    (comparing m args).decision s = some (m.holds xs []) :=
  (decision_comparing hm).mpr ⟨xs, h, rfl⟩

theorem reads_of_decided (hm : Instant m args) (h : ((comparing m args).decision s).isSome = true) :
    ∃ xs, List.Forall₂ s.Reads args xs := by
  obtain ⟨p, hp⟩ := Option.isSome_iff_exists.mp h
  obtain ⟨xs, hxs, -⟩ := (decision_comparing hm).mp hp
  exact ⟨xs, hxs⟩

/-- Of two comparisons both are decided or none is, and they never both hold. If they are decided, one of them
holds just under the condition. -/
structure Opposed (s : Snapshot) (c d : Call) (p : Prop) : Prop where
  decided : (d.decision s).isSome = (c.decision s).isSome
  notBoth : ¬ (c.decision s = some true ∧ d.decision s = some true)
  oneHolds : (c.decision s).isSome = true → ((c.decision s = some true ∨ d.decision s = some true) ↔ p)

/-- Comparators that are opposite on doubles are opposite on the arguments that read as these. -/
theorem opposed_of_holds {m' : Method} {p : Prop} (hm : Instant m args) (hm' : Instant m' args)
    (h : ∀ xs, List.Forall₂ s.Reads args xs →
      p ∧ m'.holds xs [] = (!m.holds xs []) ∨ ¬ p ∧ m.holds xs [] = false ∧ m'.holds xs [] = false) :
    Opposed s (comparing m args) (comparing m' args) p := by
  by_cases hreads : ∃ xs, List.Forall₂ s.Reads args xs
  · obtain ⟨xs, hxs⟩ := hreads
    have hc := decision_of_reads hm hxs
    have hd := decision_of_reads hm' hxs
    constructor
    · rw [hc, hd, Option.isSome_some, Option.isSome_some]
    · rintro ⟨hp, hq⟩
      rw [hc, Option.some.injEq] at hp
      rw [hd, Option.some.injEq] at hq
      rcases h xs hxs with ⟨-, heq⟩ | ⟨-, hfalse, -⟩
      · rw [hp, hq] at heq
        cases heq
      · rw [hp] at hfalse
        cases hfalse
    · intro _
      rcases h xs hxs with ⟨hp, heq⟩ | ⟨hp, hfalse, hfalse'⟩
      · refine iff_of_true ?_ hp
        rw [hc, hd, heq]
        cases m.holds xs [] <;> simp
      · refine iff_of_false ?_ hp
        rw [hc, hd, hfalse, hfalse']
        simp
  · have hc : (comparing m args).decision s = none :=
      Option.not_isSome_iff_eq_none.mp fun h => hreads (reads_of_decided hm h)
    have hd : (comparing m' args).decision s = none :=
      Option.not_isSome_iff_eq_none.mp fun h => hreads (reads_of_decided hm' h)
    constructor
    · rw [hc, hd]
    · rintro ⟨htrue, -⟩
      rw [htrue] at hc
      cases hc
    · intro hdecided
      rw [hc] at hdecided
      cases hdecided

theorem equal_opposed (s : Snapshot) (x a : Argument) :
    Opposed s (comparing .equal [x, a]) (comparing .notEqual [x, a])
      (x.isNoNumber = false ∧ a.isNoNumber = false ∧ ¬ s.ReadsOneInfinity x a) := by
  refine opposed_of_holds ⟨rfl, rfl, rfl⟩ ⟨rfl, rfl, rfl⟩ ?_
  rintro xs (_ | ⟨hx, _ | ⟨ha, _ | _⟩⟩)
  rename_i x' a'
  have hinfinity : s.ReadsOneInfinity x a ↔ x'.isInf = true ∧ x' = a' := by
    constructor
    · rintro ⟨y, hy, hyx, hya⟩
      cases hx.symm.trans hyx
      cases ha.symm.trans hya
      exact ⟨hy, rfl⟩
    · rintro ⟨hinf, rfl⟩
      exact ⟨x', hinf, hx, ha⟩
  rw [hinfinity, ← Snapshot.isNaN_of_reads hx, ← Snapshot.isNaN_of_reads ha]
  cases hdist : (x' - a').isNaN with
  | true =>
      refine Or.inr ⟨?_, Method.not_holds_of_no_distance hdist⟩
      rintro ⟨hnx, hna, hinf⟩
      rcases Number.isNaN_sub.mp hdist with h | h | h
      · rw [h] at hnx
        cases hnx
      · rw [h] at hna
        cases hna
      · exact hinf h
  | false =>
      refine Or.inl ⟨?_, Method.holds_notEqual_of_distance hdist⟩
      have hnot := mt Number.isNaN_sub.mpr (by rw [hdist]; exact Bool.false_ne_true)
      rw [not_or, not_or, Bool.not_eq_true, Bool.not_eq_true] at hnot
      exact hnot

theorem between_opposed (s : Snapshot) (x a b : Argument) :
    Opposed s (comparing .between [x, a, b]) (comparing .outside [x, a, b])
      (x.isNoNumber = false ∧ a.isNoNumber = false) := by
  refine opposed_of_holds ⟨rfl, rfl, rfl⟩ ⟨rfl, rfl, rfl⟩ ?_
  rintro xs (_ | ⟨hx, _ | ⟨ha, _ | ⟨hb, _ | _⟩⟩⟩)
  rename_i x' a' b'
  rw [← Snapshot.isNaN_of_reads hx, ← Snapshot.isNaN_of_reads ha]
  by_cases h : x'.isNaN = false ∧ a'.isNaN = false
  · exact Or.inl ⟨h, Method.holds_outside_of_isNumber h.1 h.2 b'⟩
  · refine Or.inr ⟨h, Method.not_holds_of_no_number ?_ b'⟩
    rwa [not_and_or, Bool.not_eq_false, Bool.not_eq_false] at h

/-- Bounds may trade places unless just one of them is a number. -/
theorem bounds_swap_iff {x a b : Argument} (h : ((comparing .between [x, a, b]).decision s).isSome = true) :
    (comparing .between [x, b, a]).decision s = (comparing .between [x, a, b]).decision s ∧
      (comparing .outside [x, b, a]).decision s = (comparing .outside [x, a, b]).decision s ↔
      (x.isNoNumber = false → a.isNoNumber = b.isNoNumber) := by
  obtain ⟨xs, _ | ⟨hx, _ | ⟨ha, _ | ⟨hb, _ | _⟩⟩⟩⟩ := reads_of_decided ⟨rfl, rfl, rfl⟩ h
  rename_i x' a' b'
  have hgiven : List.Forall₂ s.Reads [x, a, b] [x', a', b'] := .cons hx (.cons ha (.cons hb .nil))
  have hswapped : List.Forall₂ s.Reads [x, b, a] [x', b', a'] := .cons hx (.cons hb (.cons ha .nil))
  have hbetween := decision_of_reads (m := .between) ⟨rfl, rfl, rfl⟩ hgiven
  have hbetween' := decision_of_reads (m := .between) ⟨rfl, rfl, rfl⟩ hswapped
  have houtside := decision_of_reads (m := .outside) ⟨rfl, rfl, rfl⟩ hgiven
  have houtside' := decision_of_reads (m := .outside) ⟨rfl, rfl, rfl⟩ hswapped
  rw [hbetween, hbetween', houtside, houtside', Option.some.injEq, Option.some.injEq, ← Snapshot.isNaN_of_reads hx,
    ← Snapshot.isNaN_of_reads ha, ← Snapshot.isNaN_of_reads hb]
  exact Method.holds_bounds_comm_iff x' a' b'

/-- Equal and not equal are opposite, except on literals that are no numbers and on one infinity. Between and
outside are so, except on a value and a first bound that are no numbers, and the bounds may trade places unless
just one of them is a number. -/
theorem comparators_opposed (s : Snapshot) (x a b : Argument) :
    Opposed s (comparing .equal [x, a]) (comparing .notEqual [x, a])
      (x.isNoNumber = false ∧ a.isNoNumber = false ∧ ¬ s.ReadsOneInfinity x a) ∧
    Opposed s (comparing .between [x, a, b]) (comparing .outside [x, a, b])
      (x.isNoNumber = false ∧ a.isNoNumber = false) ∧
    (((comparing .between [x, a, b]).decision s).isSome = true →
      ((comparing .between [x, b, a]).decision s = (comparing .between [x, a, b]).decision s ∧
        (comparing .outside [x, b, a]).decision s = (comparing .outside [x, a, b]).decision s ↔
        (x.isNoNumber = false → a.isNoNumber = b.isNoNumber))) :=
  ⟨equal_opposed s x a, between_opposed s x a b, bounds_swap_iff⟩

end Call

def Snapshot.boundless : Snapshot := ⟨[("field|1h|Close", .list [.real (1 / 0)])]⟩

theorem Call.comparators_opposed_boundless :
    let s := Snapshot.boundless
    let close := Argument.ref .hourlyClose
    let infinite := Argument.text " Infinity"
    let equal := (comparing .equal [close, infinite]).decision s
    let notEqual := (comparing .notEqual [close, infinite]).decision s
    let between := (comparing .between [close, infinite, .number 5]).decision s
    let outside := (comparing .outside [close, infinite, .number 5]).decision s
    (equal.isSome = true ∧ ¬ (equal = some true ∨ notEqual = some true)) ∧
      (between.isSome = true ∧ (between = some true ∨ outside = some true)) ∧
        (comparing .between [close, .number 5, infinite]).decision s = between := by
  intro s close infinite equal notEqual between outside
  obtain ⟨hequal, hbetween, hswap⟩ := comparators_opposed s close infinite (.number 5)
  have hcompared : equal.isSome = true := by decide +kernel
  have hranged : between.isSome = true := by decide +kernel
  have hclose : close.isNoNumber = false := by decide +kernel
  have hinfinite : infinite.isNoNumber = false := by decide +kernel
  have hfive : (Argument.number 5).isNoNumber = false := by decide +kernel
  have hone : s.ReadsOneInfinity close infinite :=
    ⟨1 / 0, by decide +kernel, eq_ok_of_toOption (by decide +kernel), eq_ok_of_toOption (by decide +kernel)⟩
  exact ⟨⟨hcompared, fun h => ((hequal.oneHolds hcompared).mp h).2.2 hone⟩,
    ⟨hranged, (hbetween.oneHolds hranged).mpr ⟨hclose, hinfinite⟩⟩,
    ((hswap hranged).mpr fun _ => hinfinite.trans hfive.symm).1⟩

end Stratagem
