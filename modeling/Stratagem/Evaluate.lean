import Stratagem.Compiled
import Stratagem.Method
import Stratagem.ValueRef

/-!
# Evaluation

What a compiled strategy decides on a snapshot of its columns. A condition reads each operand at the near
end of its window, and a crossing also one bar further back. Every level is judged by the quorum rule.
-/

namespace Stratagem

structure Snapshot where
  /-- The values by the identity of the column. -/
  series : List (String × Document)

namespace Snapshot

/-- The item of a column that lies some bars back, if the column is that long. -/
def itemAt (column : Document) (barsBack : Nat) : Except Failure (Option Document) := do
  if (← column.count) ≤ barsBack then return none
  match column with
  | .record _ => Document.refuse (.noMember (Number.decimal barsBack))
  | d => return (← d.items)[barsBack]?

/-- The number that an item is, unless it is missing. -/
def read : Option Document → Except Failure (Option Float)
  | none | some .null => .ok none
  | some d => do
    let x ← d.toReal
    return if x.isNaN then none else some x

/-- The snapshot that holds a column for each of the references. Of references to one column the last counts. -/
def ofRefs (values : List (ValueRef × Document)) : Except Failure Snapshot := do
  let series ← values.foldlM (fun series entry => do
    return Document.insert series (← entry.1.seriesKey) entry.2) []
  return ⟨series⟩

def value (s : Snapshot) (r : ValueRef) (barsBack : Nat) : Except Failure (Option Float) :=
  if r.isLiteral then .ok r.literalValue
  else do
    match s.series.lookup (← r.seriesKey) with
    | none | some .null => return none
    | some column => read (← itemAt column barsBack)

end Snapshot

/-- Why a condition came out as it did. -/
inductive Reason where
  | ok
  | conditionFailed
  | missingValue
  | missingPreviousValue
  | unknownMethod
  | badArity
  | invalidOperand
  deriving DecidableEq, Repr

namespace Reason

def name : Reason → String
  | ok => "OK"
  | conditionFailed => "CONDITION_FAILED"
  | missingValue => "MISSING_VALUE"
  | missingPreviousValue => "MISSING_PREV_VALUE"
  | unknownMethod => "UNKNOWN_METHOD"
  | badArity => "BAD_ARITY"
  | invalidOperand => "INVALID_OPERAND"

def code : Reason → Nat
  | ok => 0
  | conditionFailed => 1
  | missingValue => 2
  | missingPreviousValue => 3
  | unknownMethod => 4
  | badArity => 5
  | invalidOperand => 6

end Reason

structure Outcome where
  reason : Reason
  method : String
  message : String
  deriving DecidableEq

namespace Outcome

def holds (o : Outcome) : Bool := o.reason == .ok

end Outcome

inductive Operands where
  | values (xs : List Float)
  /-- At least one operand has no value. -/
  | missing
  /-- At least one operand is no number. -/
  | invalid

namespace Snapshot

/-- The value of an argument, `extra` bars further back than it says. -/
def argument (s : Snapshot) (extra : Nat) : Argument → Except Failure (Option Float)
  | .ref r => s.value r (r.window.low + extra)
  | .number x => .ok (some x)
  | .text t => some <$> (Document.text (Text.trim t)).toReal

/-- The values of arguments up to the first that is missing. -/
def arguments (s : Snapshot) (extra : Nat) : List Argument → Except Failure (Option (List Float))
  | [] => .ok (some [])
  | a :: as => do
    match ← s.argument extra a with
    | none => return none
    | some x => return (← s.arguments extra as).map (x :: ·)

/-- The operands for some arguments. Only a number that is too large is refused. -/
def operands (s : Snapshot) (extra : Nat) (args : List Argument) : Except Failure Operands :=
  match s.arguments extra args with
  | .ok (some xs) => .ok (.values xs)
  | .ok none => .ok .missing
  | .error f => if f.isOfValue true then .ok .invalid else .error f

end Snapshot

namespace Call

def unknownMethod (c : Call) : Outcome :=
  ⟨.unknownMethod, c.method, "Unknown comparator '" ++ c.method ++ "'"⟩

def badArity (c : Call) (m : Method) : Outcome :=
  ⟨.badArity, m.name, m.name ++ " expects " ++ Number.decimal m.arity ++ " args, got " ++
    Number.decimal c.args.length⟩

def judged (m : Method) (current : List Float) (previous? : Option (List Float)) :
    Except Failure Outcome := do
  let holds ← m.apply (current.map .real) (previous?.map (·.map .real))
  return ⟨if holds then .ok else .conditionFailed, m.name, ""⟩

def evaluateWith (m : Method) (s : Snapshot) (args : List Argument) : Except Failure Outcome := do
  match ← s.operands 0 args with
  | .invalid => return ⟨.invalidOperand, m.name, "Non-numeric operand value"⟩
  | .missing => return ⟨.missingValue, m.name, "Operand value is missing"⟩
  | .values current =>
    if m.needsPrevious then
      match ← s.operands 1 args with
      | .invalid => return ⟨.invalidOperand, m.name, "Non-numeric previous bar value"⟩
      | .missing => return ⟨.missingPreviousValue, m.name, "Previous bar value is missing"⟩
      | .values previous => judged m current (some previous)
    else judged m current none

/-- Evaluates a comparison. Surplus arguments are ignored. -/
def evaluate (s : Snapshot) (c : Call) : Except Failure Outcome :=
  match Method.comparator? c.method with
  | none => .ok c.unknownMethod
  | some m =>
    if c.args.length < m.arity then .ok (c.badArity m)
    else evaluateWith m s (c.args.take m.arity)

def holds (s : Snapshot) (c : Call) : Except Failure Bool := do
  return (← c.evaluate s).holds

end Call

structure BranchOutcome where
  slot : Slot
  evaluated : Bool
  passed : Bool
  quorum : Option Quorum.Verdict
  /-- The outcomes of the enabled containers, in order. -/
  containers : List Quorum.Verdict
  /-- The actions to run. -/
  actions : List Call
  deriving DecidableEq

namespace Compiled

def Group.evaluate (s : Snapshot) (g : Group) : Except Failure Quorum.Verdict :=
  Quorum.judge g.conditions g.minPass (Call.holds s)

def Group.passes (s : Snapshot) (g : Group) : Except Failure Bool := do
  return (← g.evaluate s).passed

def Container.evaluate (s : Snapshot) (c : Container) : Except Failure Quorum.Verdict :=
  Quorum.judge c.groups c.minPass (Group.passes s)

def Container.passes (s : Snapshot) (c : Container) : Except Failure Bool := do
  return (← c.evaluate s).passed

def Branch.actions (b : Branch) : List Call :=
  if b.onPass.enabled then Quorum.live b.onPass.calls else []

def Branch.evaluate (s : Snapshot) (slot : Slot) (b : Branch) : Except Failure BranchOutcome :=
  if b.enabled then do
    let quorum ← Quorum.judge b.containers b.minPass (Container.passes s)
    return {
      slot
      evaluated := true
      passed := quorum.passed
      quorum := some quorum
      containers := ← (Quorum.live b.containers).mapM (Container.evaluate s)
      actions := if quorum.passed then b.actions else [] }
  else .ok ⟨slot, false, false, none, [], []⟩

def Logic.evaluate (s : Snapshot) (l : Logic) : Except Failure (PerSlot BranchOutcome) :=
  PerSlot.ofFnM fun slot => (l.get slot).evaluate s slot

end Compiled

/-- Runs the enabled actions of an action set, each once, and judges their outcomes. A disabled set runs
nothing and does not pass. -/
def ActionSet.run {m : Type → Type} [Monad m] (a : ActionSet) (perform : Call → m Bool) :
    m Quorum.Verdict :=
  if a.enabled then Quorum.judge a.calls a.minPass perform
  else pure ⟨false, a.minPass, 0, 0, 0, 0⟩

end Stratagem
