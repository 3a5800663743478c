import Stratagem.Document.Printer
import Stratagem.Method
import Stratagem.Quorum
import Stratagem.Slot
import Stratagem.ValueRef.Wire

/-!
# Compiled strategies

What the execution engine is handed: for each slot a branch of containers of groups of calls, each level
with a threshold, and the actions to run when the branch passes. In the record form a key that is missing
or null takes its default, a branch that is missing is disabled, and the mark of a required level is
written only where it is set.
-/

namespace Stratagem

inductive Argument where
  | ref (r : ValueRef)
  | number (x : Float)
  | text (s : String)
  deriving DecidableEq

/-- A comparison or an action with its arguments. -/
structure Call where
  method : String
  args : List Argument
  enabled : Bool
  required : Bool
  deriving DecidableEq

instance : Flagged Call := ⟨Call.enabled, Call.required⟩

structure ActionSet where
  calls : List Call
  enabled : Bool
  minPass : Int
  deriving DecidableEq

namespace ActionSet

def makeTrade (action : String) : ActionSet where
  calls := [⟨Method.makeTrade.name, [.text action], true, false⟩]
  enabled := true
  minPass := 1

end ActionSet

namespace Compiled

structure Group where
  conditions : List Call
  enabled : Bool
  minPass : Int
  required : Bool
  deriving DecidableEq

instance : Flagged Group := ⟨Group.enabled, Group.required⟩

structure Container where
  groups : List Group
  enabled : Bool
  minPass : Int
  required : Bool
  deriving DecidableEq

instance : Flagged Container := ⟨Container.enabled, Container.required⟩

structure Branch where
  enabled : Bool
  minPass : Int
  containers : List Container
  onPass : ActionSet
  deriving DecidableEq

namespace Branch

/-- A branch that is not evaluated. -/
def disabled (onPass : ActionSet) : Branch where
  enabled := false
  minPass := 1
  containers := []
  onPass

def conditions (b : Branch) : List Call :=
  b.containers.flatMap fun c => c.groups.flatMap Group.conditions

end Branch

abbrev Logic := PerSlot Branch

namespace Logic

def conditions (l : Logic) : List Call :=
  l.toList.flatMap fun (_, b) => b.conditions

def enabledCount (l : Logic) : Nat :=
  l.toList.countP fun (_, b) => b.enabled

end Logic

end Compiled

/-! ## Compiled strategies in documents -/

open Document

namespace Wire

def record (what : String) : Document → Except Failure (List (String × Document))
  | .record ms => .ok ms
  | d => .error (.format (.notRecord what d))

/-- The items of a list, none for null. -/
def list (ms : List (String × Document)) (key : String) : Except Failure (List Document) :=
  match member ms key with
  | .null => .ok []
  | .list xs => .ok xs
  | d => .error (.format (.notList key d))

def flag (ms : List (String × Document)) (key : String) (default : Bool) : Except Failure Bool :=
  match member ms key with
  | .null => .ok default
  | .bool b => .ok b
  | d => do throw (.format (.notFlag none key (← d.quoted)))

/-- A whole number; a double that is one will do. -/
def threshold (ms : List (String × Document)) (key : String) : Except Failure Int :=
  match member ms key with
  | .null => .ok 1
  | .int n => .ok n
  | .real x => do
    let n ← wholePart x
    if Number.isIntegral x then return n
    else throw (.format (.notWhole none key (Number.render Number.plain x)))
  | d => do throw (.format (.notWhole none key (← d.quoted)))

/-- The name of a method, without the blanks around it. -/
def readMethod (ms : List (String × Document)) : Except Failure String :=
  match member ms "method" with
  | .text s =>
    if (Text.trim s).isEmpty then .error (.format (.noMethod (Text.quoted s))) else .ok (Text.trim s)
  | d => do throw (.format (.noMethod (← d.quoted)))

def requiredMark (required : Bool) : List (String × Document) :=
  if required then [("required", .bool true)] else []

end Wire

open Wire

namespace Argument

def ofDocument (raw : Document) : Except Failure Argument :=
  match raw with
  | .record _ => do return ref (← ValueRef.ofDocument raw)
  | .int _ | .real _ => do return number (← raw.toReal)
  | .text s => .ok (text s)
  | d => do throw (.format (.unreadableArgument (← d.quoted)))

def toDocument : Argument → Document
  | ref r => r.toDocument
  | number x => .ofReal x
  | text s => .text s

end Argument

namespace Call

def ofDocument (raw : Document) : Except Failure Call := do
  let ms ← record "MethodConfig" raw
  let method ← readMethod ms
  let args ← (← list ms "args").mapM Argument.ofDocument
  return { method, args, enabled := ← flag ms "enabled" true, required := ← flag ms "required" false }

def toDocument (c : Call) : Document :=
  .record [
    ("enabled", .bool c.enabled),
    ("required", .bool c.required),
    ("method", .text c.method),
    ("args", .list (c.args.map Argument.toDocument))]

end Call

namespace ActionSet

def ofDocument (raw : Document) : Except Failure ActionSet := do
  let ms ← record "onPass" raw
  let calls ← (← list ms "conditions").mapM Call.ofDocument
  return {
    calls
    enabled := ← flag ms "enabled" true
    minPass := ← threshold ms "minPassConditions" }

def toDocument (a : ActionSet) : Document :=
  .record [
    ("enabled", .bool a.enabled),
    ("minPassConditions", .int a.minPass),
    ("conditions", .list (a.calls.map Call.toDocument))]

end ActionSet

namespace Compiled

namespace Group

def ofDocument (raw : Document) : Except Failure Group := do
  let ms ← record "ConditionGroupConfig" raw
  let conditions ← (← list ms "conditions").mapM Call.ofDocument
  return {
    conditions
    enabled := ← flag ms "enabled" true
    minPass := ← threshold ms "minPassConditions"
    required := ← flag ms "required" false }

def toDocument (g : Group) : Document :=
  .record <| [
    ("enabled", .bool g.enabled),
    ("minPassConditions", .int g.minPass),
    ("conditions", .list (g.conditions.map Call.toDocument))] ++ requiredMark g.required

end Group

namespace Container

def ofChecks (raw : Document) : Except Failure Container := do
  let ms ← record "checks" raw
  let groups ← (← list ms "groups").mapM Group.ofDocument
  return {
    groups
    enabled := ← flag ms "enabled" true
    minPass := ← threshold ms "minPassGroups"
    required := ← flag ms "required" false }

def toChecks (c : Container) : Document :=
  .record <| [
    ("enabled", .bool c.enabled),
    ("minPassGroups", .int c.minPass),
    ("groups", .list (c.groups.map Group.toDocument))] ++ requiredMark c.required

def ofDocument (raw : Document) : Except Failure Container := do
  let ms ← record "ConditionContainerConfig" raw
  ofChecks ((member ms "checks").orElse (.record []))

def toDocument (c : Container) : Document :=
  .record [("checks", c.toChecks)]

end Container

namespace Branch

def ofDocument (raw : Document) : Except Failure Branch := do
  let ms ← record "Branch" raw
  let enabled ← flag ms "enabled" true
  let minPass ← threshold ms "minPassConditionContainer"
  let containers ← (← list ms "containers").mapM Container.ofDocument
  let onPass ← ActionSet.ofDocument ((member ms "onPass").orElse (.record []))
  return { enabled, minPass, containers, onPass }

def toDocument (b : Branch) : Document :=
  .record [
    ("enabled", .bool b.enabled),
    ("minPassConditionContainer", .int b.minPass),
    ("containers", .list (b.containers.map Container.toDocument)),
    ("onPass", b.onPass.toDocument)]

def ofSlot (ms : List (String × Document)) (slot : Slot) : Except Failure Branch := do
  let phase ← record slot.phase ((member ms slot.phase).orElse (.record []))
  match member phase slot.side with
  | .null => return disabled (.makeTrade slot.action)
  | raw => ofDocument raw

end Branch

namespace Logic

def ofDocument (raw : Document) : Except Failure Logic := do
  let ms ← record "StrategyLogicConfig" raw
  PerSlot.ofFnM (Branch.ofSlot ms)

def toDocument (l : Logic) : Document :=
  .record [
    ("entry", .record [
      ("long", l.entryLong.toDocument), ("short", l.entryShort.toDocument)]),
    ("exit", .record [
      ("long", l.exitLong.toDocument), ("short", l.exitShort.toDocument)])]

def branchNamed (l : Logic) (name : Document) : Except Failure Branch := do
  let shown ← name.display
  match Slot.all.find? (·.name == shown) with
  | some slot => return l.get slot
  | none => throw (.missingKey (← name.quoted))

/-- The written form, the same for equal strategies: the keys are sorted. -/
def text (style : Document.Style) (l : Logic) : Except Failure String :=
  l.toDocument.sorted.written style

/-- The member of a document, if it is a record. -/
def subrecord? (raw : Document) (key : String) : Option Document :=
  (raw.get? key).filter fun d => d matches Document.record _

/-- The compiled strategy inside a document: the document itself, its logic section, or that of the
strategy that the document carries. -/
def sectionOf (raw : Document) : Document :=
  let raw := (subrecord? raw "configJson").getD raw
  (subrecord? raw "logic").getD raw

end Logic

end Compiled

end Stratagem
