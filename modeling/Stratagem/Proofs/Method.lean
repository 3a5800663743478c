import Stratagem.Method
import Stratagem.Proofs.Number.Same
import Stratagem.Proofs.Sequencing

/-!
# Comparing doubles

What a comparator says of operands that are doubles, free of documents and refusals. `Method.apply` says
the same, and neither sees which of two doubles that are `Same` it is given. `holdsOn` adds what the
evaluator decides before that: an unknown method, too few operands and a missing one all fail.
-/

namespace Stratagem.Method

open Number (Same)

/-! ## Numbers in, yes or no out -/

/-- The first double unless the second is below it. -/
def lesserReal (a b : Float) : Float := if b < a then b else a

def greaterReal (a b : Float) : Float := if a < b then b else a

def toleranceReal : Float := 1e-10

def crossesUpReal (beforeA beforeB a b : Float) : Bool := decide (beforeA ≤ beforeB) && decide (b < a)

def crossesDownReal (beforeA beforeB a b : Float) : Bool := decide (beforeB ≤ beforeA) && decide (a < b)

/-- Whether the comparator holds of its operands on the current bar and, for a crossing, on the previous
one. -/
def holds (m : Method) (now before : List Float) : Bool :=
  match m, now, before with
  | greaterThan, [a, b], _ => decide (b < a)
  | greaterThanOrEqual, [a, b], _ => decide (b ≤ a)
  | lessThan, [a, b], _ => decide (a < b)
  | lessThanOrEqual, [a, b], _ => decide (a ≤ b)
  | equal, [a, b], _ => decide ((a - b).abs ≤ toleranceReal)
  | notEqual, [a, b], _ => decide (toleranceReal < (a - b).abs)
  | crossUp, [a, b], [beforeA, beforeB] => crossesUpReal beforeA beforeB a b
  | crossDown, [a, b], [beforeA, beforeB] => crossesDownReal beforeA beforeB a b
  | crossAny, [a, b], [beforeA, beforeB] =>
    crossesUpReal beforeA beforeB a b || crossesDownReal beforeA beforeB a b
  | between, [x, a, b], _ => decide (lesserReal a b ≤ x) && decide (x ≤ greaterReal a b)
  | outside, [x, a, b], _ => decide (x < lesserReal a b) || decide (greaterReal a b < x)
  | _, _, _ => false

/-! ## The comparator over documents -/

section Real

theorem lt_real (a b : Float) : (Document.real a).lt (.real b) = .ok (decide (a < b)) := rfl

theorem le_real (a b : Float) : (Document.real a).le (.real b) = .ok (decide (a ≤ b)) := rfl

theorem lesser_real (a b : Float) :
    (Document.real a).lesser (.real b) = .ok (.real (lesserReal a b)) := by
  rw [Document.lesser, lt_real, ok_bind, pure_eq_ok, lesserReal]
  by_cases h : b < a <;> simp [h]

theorem greater_real (a b : Float) :
    (Document.real a).greater (.real b) = .ok (.real (greaterReal a b)) := by
  rw [Document.greater, lt_real, ok_bind, pure_eq_ok, greaterReal]
  by_cases h : a < b <;> simp [h]

theorem crossesUp_real (a' b' a b : Float) :
    crossesUp (.real a') (.real b') (.real a) (.real b) = .ok (crossesUpReal a' b' a b) := by
  rw [crossesUp, le_real, ok_bind, crossesUpReal]
  by_cases h : a' ≤ b' <;> simp [h, lt_real]

theorem crossesDown_real (a' b' a b : Float) :
    crossesDown (.real a') (.real b') (.real a) (.real b) = .ok (crossesDownReal a' b' a b) := by
  rw [crossesDown, le_real, ok_bind, crossesDownReal]
  by_cases h : b' ≤ a' <;> simp [h, lt_real]

theorem crossesAny_real (a' b' a b : Float) :
    crossAny.crosses (.real a') (.real b') (.real a) (.real b) =
      .ok (crossesUpReal a' b' a b || crossesDownReal a' b' a b) := by
  rw [crosses, crossesUp_real, ok_bind, crossesDown_real]
  · cases crossesUpReal a' b' a b <;> rfl
  · exact fun h => nomatch h
  · exact fun h => nomatch h

theorem isBetween_real (x a b : Float) :
    isBetween (.real x) (.real a) (.real b) =
      .ok (decide (lesserReal a b ≤ x) && decide (x ≤ greaterReal a b)) := by
  rw [isBetween, lesser_real, ok_bind, greater_real, ok_bind, le_real, ok_bind]
  by_cases h : lesserReal a b ≤ x <;> simp [h, le_real]

theorem isOutside_real (x a b : Float) :
    isOutside (.real x) (.real a) (.real b) =
      .ok (decide (x < lesserReal a b) || decide (greaterReal a b < x)) := by
  rw [isOutside, lesser_real, ok_bind, greater_real, ok_bind, lt_real, ok_bind]
  by_cases h : x < lesserReal a b <;> simp [h, lt_real]

end Real

theorem exists_pair {xs : List Float} (h : xs.length = 2) : ∃ a b, xs = [a, b] := by
  match xs, h with
  | [a, b], _ => exact ⟨a, b, rfl⟩

theorem exists_triple {xs : List Float} (h : xs.length = 3) : ∃ x a b, xs = [x, a, b] := by
  match xs, h with
  | [x, a, b], _ => exact ⟨x, a, b, rfl⟩

/-- A comparator that is given as many doubles as it takes answers, and says what `holds` says. -/
theorem apply_real {m : Method} {now before : List Float} (hm : m.isCondition = true)
    (hnow : now.length = m.arity) (hbefore : m.needsPrevious = true → before.length = 2) :
    m.apply (now.map .real) (if m.needsPrevious then some (before.map .real) else none) =
      .ok (m.holds now before) := by
  cases m
  case makeTrade => cases hm
  case crossUp =>
    obtain ⟨a, b, rfl⟩ := exists_pair hnow
    obtain ⟨a', b', rfl⟩ := exists_pair (hbefore rfl)
    exact crossesUp_real a' b' a b
  case crossDown =>
    obtain ⟨a, b, rfl⟩ := exists_pair hnow
    obtain ⟨a', b', rfl⟩ := exists_pair (hbefore rfl)
    exact crossesDown_real a' b' a b
  case crossAny =>
    obtain ⟨a, b, rfl⟩ := exists_pair hnow
    obtain ⟨a', b', rfl⟩ := exists_pair (hbefore rfl)
    exact crossesAny_real a' b' a b
  case between =>
    obtain ⟨x, a, b, rfl⟩ := exists_triple hnow
    exact isBetween_real x a b
  case outside =>
    obtain ⟨x, a, b, rfl⟩ := exists_triple hnow
    exact isOutside_real x a b
  -- the comparisons are read off, and see no previous bar
  all_goals
    obtain ⟨a, b, rfl⟩ := exists_pair hnow
    rfl

/-! ## Doubles that are the same -/

section Congruence

variable {a a' b b' x x' c c' d d' : Float}

theorem lesserReal_congr (ha : Same a a') (hb : Same b b') : Same (lesserReal a b) (lesserReal a' b') := by
  unfold lesserReal
  by_cases h : b < a
  · rw [if_pos h, if_pos ((hb.lt ha).mp h)]
    exact hb
  · rw [if_neg h, if_neg (fun h' => h ((hb.lt ha).mpr h'))]
    exact ha

theorem greaterReal_congr (ha : Same a a') (hb : Same b b') :
    Same (greaterReal a b) (greaterReal a' b') := by
  unfold greaterReal
  by_cases h : a < b
  · rw [if_pos h, if_pos ((ha.lt hb).mp h)]
    exact hb
  · rw [if_neg h, if_neg (fun h' => h ((ha.lt hb).mpr h'))]
    exact ha

theorem crossesUpReal_congr (hc : Same c c') (hd : Same d d') (ha : Same a a') (hb : Same b b') :
    crossesUpReal c d a b = crossesUpReal c' d' a' b' := by
  rw [crossesUpReal, crossesUpReal, decide_eq_decide.mpr (hc.le hd), decide_eq_decide.mpr (hb.lt ha)]

theorem crossesDownReal_congr (hc : Same c c') (hd : Same d d') (ha : Same a a') (hb : Same b b') :
    crossesDownReal c d a b = crossesDownReal c' d' a' b' := by
  rw [crossesDownReal, crossesDownReal, decide_eq_decide.mpr (hd.le hc),
    decide_eq_decide.mpr (ha.lt hb)]

end Congruence

/-- No comparator tells operands apart that are the same. -/
theorem holds_congr {m : Method} {now now' before before' : List Float}
    (hnow : List.Forall₂ Same now now') (hbefore : List.Forall₂ Same before before') :
    m.holds now before = m.holds now' before' := by
  -- on the number of operands: a comparator fails on any number but its own
  rcases hnow with _ | ⟨ha, _ | ⟨hb, _ | ⟨hc, _ | ⟨_, _⟩⟩⟩⟩
  · cases m <;> rfl
  · cases m <;> rfl
  · cases m
    case greaterThan => exact decide_eq_decide.mpr (hb.lt ha)
    case greaterThanOrEqual => exact decide_eq_decide.mpr (hb.le ha)
    case lessThan => exact decide_eq_decide.mpr (ha.lt hb)
    case lessThanOrEqual => exact decide_eq_decide.mpr (ha.le hb)
    case equal => exact decide_eq_decide.mpr ((ha.distance hb).le (Same.refl _))
    case notEqual => exact decide_eq_decide.mpr ((Same.refl _).lt (ha.distance hb))
    case crossUp =>
      rcases hbefore with _ | ⟨ha', _ | ⟨hb', _ | ⟨_, _⟩⟩⟩
      case cons.cons.nil => exact crossesUpReal_congr ha' hb' ha hb
      all_goals rfl
    case crossDown =>
      rcases hbefore with _ | ⟨ha', _ | ⟨hb', _ | ⟨_, _⟩⟩⟩
      case cons.cons.nil => exact crossesDownReal_congr ha' hb' ha hb
      all_goals rfl
    case crossAny =>
      rcases hbefore with _ | ⟨ha', _ | ⟨hb', _ | ⟨_, _⟩⟩⟩
      case cons.cons.nil =>
        exact congrArg₂ or (crossesUpReal_congr ha' hb' ha hb) (crossesDownReal_congr ha' hb' ha hb)
      all_goals rfl
    all_goals rfl
  · cases m
    case between =>
      exact congrArg₂ and (decide_eq_decide.mpr ((lesserReal_congr hb hc).le ha))
        (decide_eq_decide.mpr (ha.le (greaterReal_congr hb hc)))
    case outside =>
      exact congrArg₂ or (decide_eq_decide.mpr (ha.lt (lesserReal_congr hb hc)))
        (decide_eq_decide.mpr ((greaterReal_congr hb hc).lt ha))
    all_goals rfl
  · cases m <;> rfl

/-! ## Operands that may be missing -/

def allKnown : List (Option Float) → Option (List Float)
  | [] => some []
  | none :: _ => none
  | some x :: os => (allKnown os).map (x :: ·)

/-- Whether the method of the given name is a comparator with enough operands, none of them missing, that
holds. Operands beyond those it takes are not looked at, and the previous bar only for a crossing. -/
def holdsOn (name : String) (now before : List (Option Float)) : Bool :=
  match comparator? name with
  | none => false
  | some m =>
    decide (m.arity ≤ now.length) &&
      match allKnown (now.take m.arity),
        if m.needsPrevious then allKnown (before.take m.arity) else some [] with
      | some xs, some ys => m.holds xs ys
      | _, _ => false

theorem arity_le (m : Method) : m.arity ≤ 3 := by
  cases m <;> decide

/-- No comparator takes more than three operands. -/
theorem holdsOn_take (name : String) (now before : List (Option Float)) :
    holdsOn name (now.take 3) (before.take 3) = holdsOn name now before := by
  unfold holdsOn
  cases comparator? name with
  | none => rfl
  | some m =>
      have harity := m.arity_le
      have hlen : m.arity ≤ min 3 now.length ↔ m.arity ≤ now.length := by omega
      simp only [List.length_take, List.take_take, Nat.min_eq_left harity, hlen]

theorem length_of_allKnown {os : List (Option Float)} {xs : List Float} (h : allKnown os = some xs) :
    xs.length = os.length := by
  induction os generalizing xs with
  | nil =>
      cases h
      rfl
  | cons o os ih =>
      cases o with
      | none => cases h
      | some x =>
          obtain ⟨ys, hys, rfl⟩ := Option.map_eq_some_iff.mp h
          rw [List.length_cons, List.length_cons, ih hys]

/-- Two readings of one operand: both are missing, or the doubles are the same. -/
abbrev SameReading : Option Float → Option Float → Prop := Option.Rel Same

theorem allKnown_congr {os ps : List (Option Float)} (h : List.Forall₂ SameReading os ps) :
    Option.Rel (List.Forall₂ Same) (allKnown os) (allKnown ps) := by
  induction h with
  | nil => exact .some .nil
  | @cons o p os ps hop _ ih =>
      rcases hop with hxy | _
      · unfold allKnown
        generalize allKnown os = rest at ih ⊢
        generalize allKnown ps = rest' at ih ⊢
        rcases ih with hrest | _
        · exact .some (.cons hxy hrest)
        · exact .none
      · exact .none

theorem holdsOn_congr {name : String} {now now' before before' : List (Option Float)}
    (hnow : List.Forall₂ SameReading now now') (hbefore : List.Forall₂ SameReading before before') :
    holdsOn name now before = holdsOn name now' before' := by
  unfold holdsOn
  cases comparator? name with
  | none => rfl
  | some m =>
      have hcur := allKnown_congr (List.forall₂_take m.arity hnow)
      have hprev : Option.Rel (List.Forall₂ Same)
          (if m.needsPrevious then allKnown (before.take m.arity) else some [])
          (if m.needsPrevious then allKnown (before'.take m.arity) else some []) := by
        cases m.needsPrevious with
        | true => exact allKnown_congr (List.forall₂_take m.arity hbefore)
        | false => exact .some .nil
      simp only [hnow.length_eq]
      congr 1
      generalize allKnown (now.take m.arity) = xs at hcur ⊢
      generalize allKnown (now'.take m.arity) = xs' at hcur ⊢
      generalize (if m.needsPrevious then allKnown (before.take m.arity) else some []) = ys at hprev ⊢
      generalize (if m.needsPrevious then allKnown (before'.take m.arity) else some []) = ys' at hprev ⊢
      rcases hcur with hxs | _
      · rcases hprev with hys | _
        · exact holds_congr hxs hys
        · rfl
      · rfl

end Stratagem.Method
