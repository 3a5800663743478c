import Stratagem.Selection
import Stratagem.Tree

/-!
# Walking a tree

The conditions of a tree in order, each with its place. A walk may keep to what is switched on: then a
condition counts only if it and everything above it is enabled. Walks find which columns point at
nothing, which selected indicators no enabled condition reads, and where a given indicator is read.
-/

namespace Stratagem

/-- The place of a condition, or of one of its operands. -/
structure Path where
  slot : Slot
  container : String
  group : String
  condition : String
  /-- The position of the operand, empty for the condition itself. -/
  operand : String
  deriving DecidableEq

namespace Path

def text (p : Path) : String :=
  let base := "/".intercalate [p.slot.name, p.container, p.group, p.condition]
  if p.operand.isEmpty then base else base ++ ":" ++ p.operand

end Path

namespace Tree

/-- The children that a walk visits. -/
def visited {α : Type} [Flagged α] (enabledOnly : Bool) (children : List α) : List α :=
  if enabledOnly then Quorum.live children else children

def branchConditions (enabledOnly : Bool) (slot : Slot) (b : Branch) : List (Path × Condition) :=
  if enabledOnly && !b.enabled then []
  else
    (visited enabledOnly b.containers).flatMap fun c =>
      (visited enabledOnly c.groups).flatMap fun g =>
        (visited enabledOnly g.conditions).map fun k =>
          (⟨slot, c.id, g.id, k.id, ""⟩, k)

def conditions (enabledOnly : Bool) (t : Tree) : List (Path × Condition) :=
  t.toList.flatMap fun (slot, b) => branchConditions enabledOnly slot b

def conditionSeries (entry : Path × Condition) : List (Path × ValueRef) :=
  entry.2.positions.filterMap fun (position, operand) =>
    operand.series?.map fun r => ({ entry.1 with operand := position }, r)

def series (enabledOnly : Bool) (t : Tree) : List (Path × ValueRef) :=
  (t.conditions enabledOnly).flatMap conditionSeries

end Tree

/-! ## Use of indicators -/

structure DanglingOperand where
  path : Path
  ref : ValueRef
  reason : Dangling
  deriving DecidableEq

namespace DanglingOperand

def message (d : DanglingOperand) : String :=
  d.path.text ++ ": " ++ d.reason.message

end DanglingOperand

structure Usage where
  path : Path
  output : Document
  /-- Whether everything from the condition up to the branch is enabled. -/
  active : Bool
  deriving DecidableEq

namespace Tree

def danglingAt (s : Selection) (entry : Path × ValueRef) :
    Except Failure (Option DanglingOperand) := do
  match ← s.resolve entry.2 with
  | .dangling reason => return some ⟨entry.1, entry.2, reason⟩
  | .found _ _ => return none

def dangling (enabledOnly : Bool) (t : Tree) (s : Selection) :
    Except Failure (List DanglingOperand) := do
  return (← (t.series enabledOnly).mapM (danglingAt s)).filterMap id

/-- An output channel that cannot be compared with others as a key. -/
def unhashable? (t : Tree) : Option Document :=
  (t.conditions false).findSome? fun (_, c) =>
    c.operands.findSome? fun
      | .ref r => match r.output with
        | .list xs => some (.list xs)
        | .record ms => some (.record ms)
        | _ => none
      | .number _ => none

/-- The outputs of indicators that enabled conditions read, with repetitions dropped. Output channels are the
same if they hold the same. -/
def usedOutputs (t : Tree) : Except Failure (List ValueRef) :=
  match t.unhashable? with
  | some d => Document.refuse (.notHashable d)
  | none => .ok ((((t.series true).map (·.2)).filter (·.isIndicator)).eraseDupsBy ValueRef.alike)

/-- Whether a reference to the indicator is among the given ones. -/
def readsAny (i : Indicator) : List ValueRef → Except Failure Bool
  | [] => .ok false
  | r :: rs => do if ← i.matches? r then return true else readsAny i rs

def unreadAmong (refs : List ValueRef) : List Indicator → Except Failure (List Indicator)
  | [] => .ok []
  | i :: is => do
    let read ← readsAny i refs
    let rest ← unreadAmong refs is
    return if read then rest else i :: rest

def unused (t : Tree) (s : Selection) : Except Failure (List Indicator) := do
  unreadAmong (← t.usedOutputs) s.indicators

def usageAt (active : List String) (i : Indicator) (entry : Path × ValueRef) :
    Except Failure (Option Usage) := do
  if ← i.matches? entry.2 then
    return some ⟨entry.1, entry.2.output, active.contains entry.1.text⟩
  else return none

/-- Every place where the indicator is read, switched on or not. -/
def usages (t : Tree) (i : Indicator) : Except Failure (List Usage) := do
  let active := (t.series true).map (·.1.text)
  return (← (t.series false).mapM (usageAt active i)).filterMap id

end Tree

end Stratagem
