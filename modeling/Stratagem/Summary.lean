import Stratagem.Selection
import Stratagem.Tree.Walk
import Stratagem.ValueRef.Wire

/-!
# Labels and summaries

How references and operands are shown. With a selection at hand an output is shown by its name, and a
reference that dangles by its column. A summary is a tree in words: a section for each container and a
line for each condition. Containers and groups without conditions are left out, what is switched off is
marked.
-/

namespace Stratagem

namespace Label

def notConfigured : String := "not configured"

/-- The bars that a reference looks back, nothing for the current one. -/
def windowNote (w : Window) : Except Failure String :=
  if w.high == 0 then .ok ""
  else if w.low == w.high then do return "[" ++ (← Number.intText w.low) ++ "]"
  else do return "[" ++ (← Number.intText w.low) ++ ".." ++ (← Number.intText w.high) ++ "]"

def outputHint (selection? : Option Selection) (r : ValueRef) : Except Failure Document :=
  match selection? with
  | some s => s.outputHint r
  | none => .ok r.output

def ofRef (selection? : Option Selection) (r : ValueRef) : Except Failure String :=
  let timeframe := Timeframe.normalize r.timeframe
  let timeframeNote := if timeframe.isEmpty then "" else " " ++ timeframe
  match r.kind with
  | .literal => .ok (if r.input.isEmpty then "0" else r.input)
  | .field => do return r.input ++ timeframeNote ++ (← windowNote r.window)
  | .indicator => do
    let hint ← (← outputHint selection? r).display
    return Text.trim (r.indicator ++ timeframeNote ++ " (" ++ Indicator.paramsLabel r.params ++ ") " ++
      hint) ++ (← windowNote r.window)

/-- A reference shows its label, or its column when it dangles. -/
def ofSeries (selection? : Option Selection) (r : ValueRef) : Except Failure String := do
  match selection? with
  | some s =>
    if !r.isLiteral && (← s.resolve r).isDangling then r.seriesKey else ofRef selection? r
  | none => ofRef selection? r

def ofOperand (selection? : Option Selection) : Operand → Except Failure String
  | .ref r => ofSeries selection? r
  | .number x => .ok (Number.briefText x)

def ofComparison (short : Bool) (method : String) (operands : List String) : String :=
  let operand (n : Nat) : String := operands.getD n notConfigured
  let head := operand 0 ++ " " ++ Method.labelOf short method ++ " " ++ operand 1
  if (Method.ofName? method).any (·.isRange) then head ++ " and " ++ operand 2 else head

def ofCondition (selection? : Option Selection) (short : Bool) (c : Condition) :
    Except Failure String := do
  return ofComparison short c.method (← c.operands.mapM (ofOperand selection?))

def ofArgument (selection? : Option Selection) : Argument → Except Failure String
  | .ref r => ofSeries selection? r
  | .number x => .ok (Number.briefText x)
  | .text s => .ok s

def ofCall (selection? : Option Selection) (short : Bool) (c : Call) : Except Failure String := do
  return ofComparison short c.method (← c.args.mapM (ofArgument selection?))

def noCondition : String := "no condition configured"

end Label

namespace Summary

structure Group where
  title : String
  enabled : Bool
  lines : List String
  deriving DecidableEq

structure Section where
  slot : Slot
  container : String
  title : String
  enabled : Bool
  groups : List Group
  deriving DecidableEq

def marks (enabled required : Bool) : String :=
  (if required then " (required)" else "") ++ (if enabled then "" else " (disabled)")

def line (selection? : Option Selection) (c : Condition) : Except Failure String := do
  return (← Label.ofCondition selection? true c) ++ marks c.enabled c.required

/-- The summary of the `n`-th group of a container, counted from one. -/
def ofGroup (selection? : Option Selection) (n : Nat) (g : Stratagem.Group) : Except Failure Group := do
  let name := if g.name.isEmpty then "Group " ++ Number.decimal n else g.name
  return {
    title := name ++ marks g.enabled g.required
    enabled := g.enabled
    lines := ← g.conditions.mapM (line selection?) }

def ofGroups (selection? : Option Selection) :
    Nat → List Stratagem.Group → Except Failure (List Group)
  | _, [] => .ok []
  | n, g :: gs =>
    if g.conditions.isEmpty then ofGroups selection? (n + 1) gs
    else do
      let group ← ofGroup selection? n g
      return group :: (← ofGroups selection? (n + 1) gs)

def sectionTitle (slot : Slot) (enabled : Bool) (c : Container) (groups : Nat) : String :=
  (if c.title.isEmpty then slot.title else c.title) ++ " (" ++ slot.name ++ "), " ++
    Number.decimal groups ++ " group" ++ (if groups == 1 then "" else "s") ++ marks enabled c.required

def ofContainer (selection? : Option Selection) (slot : Slot) (b : Branch) (c : Container) :
    Except Failure (Option Section) := do
  let groups ← ofGroups selection? 1 c.groups
  let enabled := b.enabled && c.enabled
  return if groups.isEmpty then none
    else some ⟨slot, c.id, sectionTitle slot enabled c groups.length, enabled, groups⟩

def ofBranch (selection? : Option Selection) (entry : Slot × Branch) :
    Except Failure (List Section) := do
  return (← entry.2.containers.mapM (ofContainer selection? entry.1 entry.2)).filterMap id

def ofTree (selection? : Option Selection) (t : Tree) : Except Failure (List Section) := do
  return (← t.toList.mapM (ofBranch selection?)).flatten

def Section.text (s : Section) : String :=
  "\n".intercalate <| s.title :: s.groups.flatMap fun g =>
    ("  " ++ g.title) :: g.lines.map ("    - " ++ ·)

def text (sections : List Section) : String :=
  if sections.isEmpty then "No conditions configured"
  else "\n\n".intercalate (sections.map Section.text)

/-- The labels of the outputs that enabled conditions read, sorted. -/
def usedLabels (selection? : Option Selection) (t : Tree) : Except Failure (List String) := do
  let labels ← (← t.usedOutputs).mapM (Label.ofRef selection?)
  return labels.eraseDups.mergeSort fun a b => !Text.before b a

end Summary

end Stratagem
