import Stratagem.Tree
import Stratagem.Tree.Walk

/-!
# Compiling trees

Every level of a tree is compiled by the quorum plan of its children: the disabled ones are left out and
the threshold is brought into range. A level that is left empty never passes, and a disabled branch holds
no containers. What was found on the way does not keep a strategy from being compiled; it is reported
apart.

The way back makes a tree for a compiled strategy: flags, thresholds and order are kept, ids are made from
the place, and literals become numbers again.
-/

namespace Stratagem

/-! ## Decompiling -/

/-- The ordinal of a node that is the `n`-th of its siblings, counted from zero. -/
def ordinal (n : Nat) : String := Number.decimal (n + 1)

namespace Argument

def toOperand : Argument → Except Failure Operand
  | ref r => .ok (.ofRef r)
  | number x => .ok (.number x)
  | text s => Operand.ofDocument (.text s)

/-- The left operand of a condition: a reference, or a number made one. -/
def toLeft : Argument → Except Failure ValueRef
  | ref r => .ok r
  | a => do
    match ← a.toOperand with
    | .ref r => return r
    | .number x => return .ofNumber x "" ValueRef.defaultCalcMode

end Argument

namespace Call

/-- The condition of a call. Arguments after the third are dropped. A call that was read has a method, so
the condition is not asked for one again. -/
def decompile (id : String) (c : Call) : Except Failure Condition :=
  match c.args with
  | left :: right :: rest => do
    let left ← left.toLeft
    let upper ← rest.head?.mapM Argument.toOperand
    let right ← right.toOperand
    return { id, method := c.method, left, right, upper, enabled := c.enabled, required := c.required }
  | args => .error (.format (.tooFewArguments id c.method args.length))

end Call

namespace Compiled

def decompileConditions (group : String) : Nat → List Call → Except Failure (List Condition)
  | _, [] => .ok []
  | n, c :: cs => do
    let condition ← c.decompile (group ++ "-condition-" ++ ordinal n)
    return condition :: (← decompileConditions group (n + 1) cs)

def Group.decompile (id : String) (n : Nat) (g : Group) : Except Failure Stratagem.Group := do
  return {
    id
    name := "Group " ++ ordinal n
    conditions := ← decompileConditions id 0 g.conditions
    enabled := g.enabled
    required := g.required
    minPass := g.minPass }

def decompileGroups (container : String) : Nat → List Group → Except Failure (List Stratagem.Group)
  | _, [] => .ok []
  | n, g :: gs => do
    let group ← g.decompile (container ++ "-group-" ++ ordinal n) n
    return group :: (← decompileGroups container (n + 1) gs)

/-- The first container of a slot has the id and title that a new strategy gives it. -/
def Container.decompile (slot : Slot) (n : Nat) (c : Container) :
    Except Failure Stratagem.Container := do
  let id := if n == 0 then slot.containerId else slot.containerId ++ "-" ++ ordinal n
  return {
    id
    title := if n == 0 then slot.title else slot.title ++ " " ++ ordinal n
    groups := ← decompileGroups id 0 c.groups
    enabled := c.enabled
    required := c.required
    minPass := c.minPass }

def decompileContainers (slot : Slot) :
    Nat → List Container → Except Failure (List Stratagem.Container)
  | _, [] => .ok []
  | n, c :: cs => do
    let container ← c.decompile slot n
    return container :: (← decompileContainers slot (n + 1) cs)

def Branch.decompile (slot : Slot) (b : Branch) : Except Failure Stratagem.Branch := do
  return {
    containers := ← decompileContainers slot 0 b.containers
    enabled := b.enabled
    minPass := b.minPass
    onPass := b.onPass }

def Logic.decompile (l : Logic) : Except Failure Tree :=
  PerSlot.ofFnM fun slot => (l.get slot).decompile slot

end Compiled

/-! ## Diagnostics -/

inductive Diagnostic where
  /-- An enabled level without an enabled child. -/
  | emptyLevel (path level : String)
  /-- A threshold that was out of range. -/
  | clamped (path level : String) (authored minPass : Int) (optional : Nat) (message : String)
  /-- An operand that points at nothing. -/
  | dangling (path column reason message : String)
  /-- A selected indicator that no enabled condition reads. -/
  | unused (id label key : String)
  deriving DecidableEq

namespace Diagnostic

def code : Diagnostic → String
  | emptyLevel _ _ => "EMPTY_REQUIRED_FIELD"
  | clamped _ _ _ _ _ _ => "THRESHOLD_OUT_OF_RANGE"
  | dangling _ _ _ _ => "DANGLING_REFERENCE"
  | unused _ _ _ => "UNUSED_INDICATOR"

def path : Diagnostic → String
  | emptyLevel p _ => p
  | clamped p _ _ _ _ _ => p
  | dangling p _ _ _ => p
  | unused id _ _ => id

def message : Diagnostic → String
  | emptyLevel _ level => "Enabled " ++ level ++ " has no enabled children and will never pass"
  | clamped _ _ _ _ _ message => message
  | dangling _ _ _ message => message
  | unused _ label _ =>
    "Indicator '" ++ label ++ "' is selected but no enabled condition uses it"

/-- Whether the user should see it; the others are silent corrections. -/
def isWarning : Diagnostic → Bool
  | emptyLevel _ _ | dangling _ _ _ _ => true
  | clamped _ _ _ _ _ _ | unused _ _ _ => false

def isClamped : Diagnostic → Bool
  | clamped _ _ _ _ _ _ => true
  | _ => false

def isDangling : Diagnostic → Bool
  | dangling _ _ _ _ => true
  | _ => false

def details : Diagnostic → List (String × Document)
  | emptyLevel _ level => [("level", .text level)]
  | clamped _ level authored minPass optional _ =>
    [("level", .text level), ("authored", .int authored), ("clamped", .int minPass),
      ("optional", .int optional)]
  | dangling _ column reason _ => [("ref", .text column), ("reason", .text reason)]
  | unused _ _ key => [("indicator", .text key)]

def toDocument (d : Diagnostic) : Document :=
  .record [
    ("code", .text d.code),
    ("path", .text d.path),
    ("message", .text d.message),
    ("severity", .text (if d.isWarning then "warning" else "info")),
    ("details", .record d.details)]

def text (d : Diagnostic) : String :=
  "[" ++ d.code ++ "] " ++ d.path ++ ": " ++ d.message

end Diagnostic

open Quorum (plan)

/-! ## The compiled strategy -/

namespace Condition

/-- The call of an enabled condition. Its numbers are aligned with the left operand. -/
def compile (c : Condition) : Call where
  method := c.method
  args := c.operands.map fun o => .ref (o.toRef c.left)
  enabled := true
  required := c.required

end Condition

namespace Group

def plan (g : Group) : Quorum.Plan Condition := Quorum.plan g.conditions g.minPass

def compile (g : Group) : Compiled.Group where
  conditions := g.plan.live.map Condition.compile
  enabled := true
  minPass := g.plan.minPass
  required := g.required

end Group

namespace Container

def plan (c : Container) : Quorum.Plan Group := Quorum.plan c.groups c.minPass

def compile (c : Container) : Compiled.Container where
  groups := c.plan.live.map Group.compile
  enabled := true
  minPass := c.plan.minPass
  required := c.required

end Container

namespace ActionSet

def plan (a : ActionSet) : Quorum.Plan Call := Quorum.plan a.calls a.minPass

/-- The action set without its disabled actions. -/
def compile (a : ActionSet) : ActionSet where
  calls := a.plan.live
  enabled := a.enabled
  minPass := a.plan.minPass

end ActionSet

namespace Branch

def plan (b : Branch) : Quorum.Plan Container := Quorum.plan b.containers b.minPass

def compile (b : Branch) : Compiled.Branch :=
  if b.enabled then {
    enabled := true
    minPass := b.plan.minPass
    containers := b.plan.live.map Container.compile
    onPass := b.onPass.compile }
  else .disabled b.onPass.compile

end Branch

namespace Tree

def compile (t : Tree) : Compiled.Logic :=
  t.map fun _ b => b.compile

end Tree

/-! ## Findings -/

namespace Diagnostic

def clampedMessage {α : Type} (level : String) (p : Quorum.Plan α) : Except Failure String := do
  return level ++ " threshold " ++ (← Number.intText p.authored) ++ " corrected to " ++
    (← Number.intText p.minPass) ++ " (" ++ Number.decimal p.optional.length ++ " optional of " ++
    Number.decimal p.live.length ++ " enabled)"

/-- The finding on one level, if there is one. -/
def ofPlan {α : Type} (path level : String) (p : Quorum.Plan α) : Except Failure (List Diagnostic) :=
  if p.isEmpty then .ok [emptyLevel path level]
  else if p.wasClamped then do
    return [clamped path level p.authored p.minPass p.optional.length (← clampedMessage level p)]
  else .ok []

def ofGroup (place : String) (g : Group) : Except Failure (List Diagnostic) :=
  ofPlan (place ++ "/" ++ g.id) "group" g.plan

def ofContainer (place : String) (c : Container) : Except Failure (List Diagnostic) := do
  let path := place ++ "/" ++ c.id
  let own ← ofPlan path "container" c.plan
  return own ++ (← c.plan.live.mapM (ofGroup path)).flatten

def ofActionSet (place : String) (a : ActionSet) : Except Failure (List Diagnostic) :=
  if a.enabled then ofPlan (place ++ "/onPass") "action set" a.plan else .ok []

def ofBranch (slot : Slot) (b : Branch) : Except Failure (List Diagnostic) :=
  if b.enabled then do
    let actions ← ofActionSet slot.name b.onPass
    let own ← ofPlan slot.name "branch" b.plan
    return actions ++ own ++ (← b.plan.live.mapM (ofContainer slot.name)).flatten
  else .ok []

def ofLevels (t : Tree) : Except Failure (List Diagnostic) := do
  return (← t.toList.mapM fun (slot, b) => ofBranch slot b).flatten

def ofDangling (d : DanglingOperand) : Except Failure Diagnostic := do
  return dangling d.path.text (← d.ref.seriesKey) d.reason.reason d.reason.message

def ofUnused (i : Indicator) : Except Failure Diagnostic := do
  return unused i.id i.label (← i.key)

/-- The findings on a tree in the light of a selection. -/
def ofSelection (t : Tree) (s : Selection) : Except Failure (List Diagnostic) := do
  let dangling ← (← t.dangling true s).mapM ofDangling
  let unused ← (← t.unused s).mapM ofUnused
  return dangling ++ unused

end Diagnostic

structure Compilation where
  logic : Compiled.Logic
  diagnostics : List Diagnostic
  deriving DecidableEq

namespace Compilation

def warnings (c : Compilation) : List Diagnostic := c.diagnostics.filter (·.isWarning)

def corrections (c : Compilation) : Nat := c.diagnostics.countP (·.isClamped)

def danglingCount (c : Compilation) : Nat := c.diagnostics.countP (·.isDangling)

def hasDangling (c : Compilation) : Bool := c.diagnostics.any (·.isDangling)

def liveConditions (c : Compilation) : Nat := c.logic.conditions.length

end Compilation

/-- Compiles a tree and reports what it finds. References are looked up if a selection is given. -/
def Tree.compileWith (t : Tree) (selection? : Option Selection) : Except Failure Compilation := do
  let levels ← Diagnostic.ofLevels t
  let found ← match selection? with
    | some s => Diagnostic.ofSelection t s
    | none => pure []
  return ⟨t.compile, levels ++ found⟩

end Stratagem
