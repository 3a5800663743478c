import Stratagem.Document.Coercion
import Stratagem.Failure
import Stratagem.Text

/-!
# Methods

The methods that a condition may compare by, and the one action. A method is looked up by name in any
letter case, with blanks at either end. Operands are compared as documents are, so that numbers of both
kinds are compared exactly.
-/

namespace Stratagem

inductive MethodKind where
  /-- Two operands on the current bar. -/
  | comparison
  /-- Two operands on the current and on the previous bar. -/
  | cross
  /-- A value against two bounds. -/
  | range
  | action
  deriving DecidableEq, Repr

namespace MethodKind

def name : MethodKind → String
  | comparison => "COMPARISON"
  | cross => "CROSS"
  | range => "RANGE"
  | action => "ACTION"

end MethodKind

inductive Method where
  | greaterThan
  | greaterThanOrEqual
  | lessThan
  | lessThanOrEqual
  | equal
  | notEqual
  | crossUp
  | crossDown
  | crossAny
  | between
  | outside
  | makeTrade
  deriving DecidableEq, Repr

namespace Method

def all : List Method := [
  greaterThan, greaterThanOrEqual, lessThan, lessThanOrEqual, equal, notEqual, crossUp, crossDown,
  crossAny, between, outside, makeTrade]

def name : Method → String
  | greaterThan => "GreaterThan"
  | greaterThanOrEqual => "GreaterThanOrEqual"
  | lessThan => "LessThan"
  | lessThanOrEqual => "LessThanOrEqual"
  | equal => "Equal"
  | notEqual => "NotEqual"
  | crossUp => "CrossUp"
  | crossDown => "CrossDown"
  | crossAny => "CrossAny"
  | between => "Between"
  | outside => "Outside"
  | makeTrade => "MakeTrade"

def aliases : Method → List String
  | crossUp => ["CrossOver"]
  | crossDown => ["CrossUnder"]
  | _ => []

def kind : Method → MethodKind
  | greaterThan | greaterThanOrEqual | lessThan | lessThanOrEqual | equal | notEqual => .comparison
  | crossUp | crossDown | crossAny => .cross
  | between | outside => .range
  | makeTrade => .action

def symbol : Method → String
  | greaterThan => ">"
  | greaterThanOrEqual => ">="
  | lessThan => "<"
  | lessThanOrEqual => "<="
  | equal => "="
  | notEqual => "!="
  | crossUp => "crosses above"
  | crossDown => "crosses below"
  | crossAny => "crosses"
  | between => "between"
  | outside => "outside"
  | makeTrade => "trade"

def description : Method → String
  | greaterThan => "greater than"
  | greaterThanOrEqual => "greater than or equal"
  | lessThan => "less than"
  | lessThanOrEqual => "less than or equal"
  | equal => "equal"
  | notEqual => "not equal"
  | crossUp => "crosses above"
  | crossDown => "crosses below"
  | crossAny => "crosses either way"
  | between => "between"
  | outside => "outside"
  | makeTrade => "make trade"

def arity (m : Method) : Nat :=
  match m.kind with
  | .comparison | .cross => 2
  | .range => 3
  | .action => 1

def isCondition (m : Method) : Bool := m.kind != .action

def isRange (m : Method) : Bool := m.kind == .range

/-- Whether the method also looks at the previous bar. -/
def needsPrevious (m : Method) : Bool := m.kind == .cross

def label (m : Method) : String :=
  if m.symbol == m.description then m.symbol else m.description ++ " (" ++ m.symbol ++ ")"

/-- Whether the text, already in lower case, is a name of the method. -/
def isNamed (m : Method) (word : String) : Bool :=
  (m.name :: m.aliases).any fun name => String.ofList (name.toList.map Char.toLower) == word

def ofName? (name : String) : Option Method :=
  let word := Text.lower (Text.trim name)
  all.find? (·.isNamed word)

def comparator? (name : String) : Option Method :=
  (ofName? name).filter (·.isCondition)

def comparator (name : String) : Except Failure Method :=
  match ofName? name with
  | none => .error (.method (.unknown name))
  | some m => if m.isCondition then .ok m else .error (.method (.isAction name))

/-- The label of the method with the given name; an unknown one is shown as it is. -/
def labelOf (short : Bool) (name : String) : String :=
  match ofName? name with
  | none => name
  | some m => if short then m.symbol else m.label

/-- Numbers that differ by no more than this are equal. -/
def tolerance : Number := .real 1e-10

def compares (m : Method) (a b : Document) : Except Failure Bool :=
  match m with
  | greaterThan => b.lt a
  | greaterThanOrEqual => b.le a
  | lessThan => a.lt b
  | lessThanOrEqual => a.le b
  | equal => do return (← a.distance b).le tolerance
  | notEqual => do return tolerance.lt (← a.distance b)
  | _ => .error (.method (.notComparator m.name))

def crossesUp (beforeA beforeB a b : Document) : Except Failure Bool := do
  if ← beforeA.le beforeB then b.lt a else return false

def crossesDown (beforeA beforeB a b : Document) : Except Failure Bool := do
  if ← beforeB.le beforeA then a.lt b else return false

def crosses (m : Method) (beforeA beforeB a b : Document) : Except Failure Bool :=
  match m with
  | crossUp => crossesUp beforeA beforeB a b
  | crossDown => crossesDown beforeA beforeB a b
  | _ => do
    if ← crossesUp beforeA beforeB a b then return true else crossesDown beforeA beforeB a b

def isBetween (x a b : Document) : Except Failure Bool := do
  let low ← a.lesser b
  let high ← a.greater b
  if ← low.le x then x.le high else return false

def isOutside (x a b : Document) : Except Failure Bool := do
  let low ← a.lesser b
  let high ← a.greater b
  if ← x.lt low then return true else high.lt x

/-- Whether a method holds of its operands on the current bar and, if it needs them, on the previous
one. -/
def apply (m : Method) (current : List Document) (previous? : Option (List Document)) :
    Except Failure Bool :=
  match m.kind, current with
  | .comparison, [a, b] => m.compares a b
  | .cross, [a, b] =>
    match previous? with
    | some [beforeA, beforeB] => m.crosses beforeA beforeB a b
    | _ => .error (.method (.noPreviousBar m.name))
  | .range, [x, a, b] => if m == outside then isOutside x a b else isBetween x a b
  | .action, [_] => .error (.method (.notComparator m.name))
  | _, _ => .error (.method (.operandCount m.name m.arity current.length))

end Method

end Stratagem
