import Stratagem.Document.Coercion

/-!
# The quorum rule

A level of a strategy passes if each of its required children passes and enough of the optional ones do.
Disabled children do not count. A level without an enabled child is empty.
-/

namespace Stratagem

/-- Things that can be switched off and marked as required. -/
class Flagged (α : Type) where
  enabled : α → Bool
  required : α → Bool

export Flagged (enabled required)

namespace Quorum

variable {α : Type} [Flagged α]

def live (children : List α) : List α :=
  children.filter enabled

def requiredOf (children : List α) : List α :=
  (live children).filter required

def optionalOf (children : List α) : List α :=
  (live children).filter fun c => !required c

/-- The threshold brought between zero and the number of optional children. -/
def clamp (minPass : Int) (optional : Nat) : Int :=
  max 0 (min minPass optional)

/-- The threshold of an empty level. -/
def emptyMinPass : Int := 1

/-- What is left of a level when it is compiled. -/
structure Plan (α : Type) where
  live : List α
  required : List α
  optional : List α
  authored : Int
  minPass : Int

namespace Plan

def isEmpty {α : Type} (p : Plan α) : Bool := p.live.isEmpty

/-- Whether the threshold of a level that is not empty was out of range. -/
def wasClamped {α : Type} (p : Plan α) : Bool :=
  !p.isEmpty && p.minPass != p.authored

end Plan

def plan (children : List α) (minPass : Int) : Plan α where
  live := live children
  required := requiredOf children
  optional := optionalOf children
  authored := minPass
  minPass :=
    if (live children).isEmpty then emptyMinPass else clamp minPass (optionalOf children).length

/-- The outcome of a level. -/
structure Verdict where
  passed : Bool
  minPass : Int
  requiredTotal : Nat
  requiredPassed : Nat
  optionalTotal : Nat
  optionalPassed : Nat
  deriving DecidableEq, Repr

namespace Verdict

def isEmpty (v : Verdict) : Bool :=
  v.requiredTotal == 0 && v.optionalTotal == 0

def passCount (v : Verdict) : Nat :=
  v.requiredPassed + v.optionalPassed

def textWith (v : Verdict) (minPass : String) : String :=
  let count (n : Nat) : String := Number.decimal n
  (if v.passed then "PASS" else "FAIL") ++ " required " ++ count v.requiredPassed ++ "/" ++
    count v.requiredTotal ++ ", optional " ++ count v.optionalPassed ++ "/" ++
    count v.optionalTotal ++ " (min " ++ minPass ++ ")"

def text (v : Verdict) : Except Failure String :=
  v.textWith <$> Number.intText v.minPass

def ofEmpty (minPass : Int) : Verdict :=
  ⟨decide (minPass ≤ 0), minPass, 0, 0, 0, 0⟩

def ofCounts (minPass : Int) (requiredTotal requiredPassed optionalTotal optionalPassed : Nat) :
    Verdict where
  passed := requiredPassed == requiredTotal && (optionalTotal == 0 || minPass ≤ optionalPassed)
  minPass
  requiredTotal
  requiredPassed
  optionalTotal
  optionalPassed

end Verdict

def countPassing {β : Type} {m : Type → Type} [Monad m] (passes : β → m Bool) : List β → m Nat
  | [] => pure 0
  | c :: cs => do
    let passed ← passes c
    let rest ← countPassing passes cs
    pure (if passed then rest + 1 else rest)

/-- Asks each enabled child whether it passes, first the required ones, and counts. -/
def judge {m : Type → Type} [Monad m] (children : List α) (minPass : Int) (passes : α → m Bool) :
    m Verdict := do
  if (live children).isEmpty then pure (.ofEmpty minPass)
  else
    let requiredPassed ← countPassing passes (requiredOf children)
    let optionalPassed ← countPassing passes (optionalOf children)
    pure (.ofCounts minPass (requiredOf children).length requiredPassed
      (optionalOf children).length optionalPassed)

/-! ## Thresholds of any kind

A threshold that is given as a document. It is planned with as the whole number that it reads as, and
counts are compared with it as it is. -/

/-- The least whole number that is not below the threshold. A text is not compared with numbers. -/
def ceiling (minPass : Document) : Except Failure Int :=
  match minPass with
  | .real x => do
    let n ← Document.wholePart x
    return if (Number.int n).lt (.real x) then n + 1 else n
  | .text _ => Document.refuse (.notComparable minPass (.int 0))
  | d => d.toInteger

def loosePlan (children : List α) (minPass : Document) : Except Failure (Plan α) := do
  return plan children (← minPass.toInteger)

/-- The outcome for a threshold of any kind. The threshold does not matter when every enabled child is
required. -/
def looseJudge {m : Type → Type} [Monad m] [MonadExcept Failure m] (children : List α)
    (minPass : Document) (passes : α → m Bool) : m Verdict := do
  if !(live children).isEmpty && (optionalOf children).isEmpty then judge children 0 passes
  else
    match ceiling minPass with
    | .ok n => judge children n passes
    | .error f =>
      for c in requiredOf children ++ optionalOf children do
        let _ ← passes c
      throw f

end Quorum

end Stratagem
