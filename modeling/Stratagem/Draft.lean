import Stratagem.Selection
import Stratagem.Trade
import Stratagem.Tree
import Stratagem.ValueRef.Wire

/-!
# Drafts

A draft is a strategy as a person writes it: a name, the selected indicators, trade settings, and the
tree, whose branches are named by any spelling of their slot. What is malformed is reported with the
place where it stands. A draft is written with every flag and threshold spelled out.

An operand is written as a number, as the id of a selected indicator with an optional output after a
point, as the name of a candle column, or as a record. When an operand is written, the short forms are
preferred.
-/

namespace Stratagem.Draft

/-! ## Operands -/

open Document (lookup member)

def readOffset (raw : Document) : Except Failure (Int × Int) :=
  match raw with
  | .null => .ok (0, 0)
  | .int n => .ok (n, n)
  | .list [low, high] => do return (← low.toInteger, ← high.toInteger)
  | d => do throw (.format (.unreadableOffset (← d.quoted)))

def readIndicator (s : Selection) (place id : String) (output offset : Document) :
    Except Failure ValueRef := do
  match s.get? id with
  | none => .error (.format (.unknownIndicator place id))
  | some i =>
    let r ← i.ref output
    match offset with
    | .null => return r
    | d =>
      let (low, high) ← readOffset d
      r.withOffset low high

def readField (ms : List (String × Document)) (name : Document) : Except Failure ValueRef := do
  let (low, high) ← readOffset (member ms "offset")
  let r ← ValueRef.field (← name.display) (← (member ms "timeframe").displayOr "") 0
    ValueRef.defaultCalcMode
  r.withOffset low high

def splitPoint (cs : List Char) : String × String :=
  (String.ofList (cs.takeWhile (· != '.')), String.ofList ((cs.dropWhile (· != '.')).drop 1))

def readText (s : Selection) (place raw : String) : Except Failure Operand :=
  let text := Text.trim raw
  match Number.readReal? text with
  | some x => .ok (.number x)
  | none =>
    let (id, output) := splitPoint text.toList
    if s.contains id then
      .ref <$> readIndicator s place id (.text output) .null
    else if Kline.isField text then
      .ref <$> ValueRef.field text "" 0 ValueRef.defaultCalcMode
    else .error (.format (.unknownOperand place raw))

def readRecord (s : Selection) (place : String) (ms : List (String × Document)) :
    Except Failure Operand :=
  if (lookup ms "refType").isSome then .ref <$> ValueRef.ofDocument (.record ms)
  else
    match lookup ms "indicator", lookup ms "field" with
    | some id, _ =>
      placed (some place) false do
        return .ref (← readIndicator s place (← id.display) (member ms "output") (member ms "offset"))
    | none, some name => placed (some place) false (.ref <$> readField ms name)
    | none, none => do throw (.format (.unsupportedOperand place (← (Document.record ms).quoted)))

/-- Reads an operand at a place. -/
def readOperand (s : Selection) (place : String) (raw : Document) : Except Failure Operand :=
  match raw with
  | .bool _ => .error (.format (.flagOperand place))
  | .int _ | .real _ => .number <$> raw.toReal
  | .text t => readText s place t
  | .record ms => readRecord s place ms
  | d => do throw (.format (.unsupportedOperand place (← d.quoted)))

def writeOffset (w : Window) : Document :=
  if w.low == w.high then .int w.low else .list [.int w.low, .int w.high]

/-- The offset of a window among other members, left out for the current bar. -/
def offsetMember (w : Window) : List (String × Document) :=
  if w = .current then [] else [("offset", writeOffset w)]

def writeField (r : ValueRef) : Document :=
  .record <| [("field", .text r.input)] ++
    (if r.timeframe.isEmpty then [] else [("timeframe", .text r.timeframe)]) ++ offsetMember r.window

/-- The short form of a reference to an indicator with the window `offset`. -/
def writeIndicator (i : Indicator) (r : ValueRef) : Document :=
  .record <| [("indicator", .text i.id), ("output", r.output)] ++
    (if ((r.window.low : Int), (r.window.high : Int)) = i.offset then []
      else [("offset", writeOffset r.window)])

def writeRef (s : Selection) (r : ValueRef) : Except Failure Document := do
  if r.isField then return writeField r
  match ← s.find r with
  | some i => return if r.calcMode == i.calcMode then writeIndicator i r else r.toDocument
  | none => return r.toDocument

/-- Writes an operand, in a short form if there is one. -/
def writeOperand (s : Selection) : Operand → Except Failure Document
  | .number x => .ok (.real x)
  | .ref r => writeRef s r

end Stratagem.Draft

/-! ## Trees -/

namespace Stratagem

/-- A strategy as a person writes it. -/
structure Draft where
  name : String
  description : String
  selection : Selection
  tree : Tree
  trade : Option Trade
  deriving DecidableEq

namespace Draft

open Document (lookup member)

def readFlag (place : String) (ms : List (String × Document)) (key : String) (default : Bool) :
    Except Failure Bool :=
  match lookup ms key with
  | none => .ok default
  | some (.bool b) => .ok b
  | some d => do throw (.format (.notFlag (some place) key (← d.quoted)))

def readThreshold (place : String) (ms : List (String × Document)) : Except Failure Int :=
  match lookup ms "min_pass" with
  | none => .ok 1
  | some (.int n) => .ok n
  | some d => do throw (.format (.notWhole (some place) "min_pass" (← d.quoted)))

def children (ms : List (String × Document)) (key : String) : Except Failure (List Document) :=
  ((member ms key).orElse (.list [])).items

def inside (place : String) (ms : List (String × Document)) : Except Failure String := do
  return place ++ "/" ++ (← (member ms "id").display)

def readLeft (s : Selection) (place : String) (raw : Document) : Except Failure ValueRef := do
  match ← readOperand s (place ++ ":left") raw with
  | .ref r => return r
  | .number x => return .ofNumber x "" ValueRef.defaultCalcMode

def readUpper (s : Selection) (place : String) (raw : Document) : Except Failure (Option Operand) :=
  match raw with
  | .null => .ok none
  | d => some <$> readOperand s (place ++ ":upper") d

def conditionKeys : List String := ["id", "method", "left", "right"]

def missingKey? (ms : List (String × Document)) : Option String :=
  conditionKeys.find? fun key => (lookup ms key).isNone

def readConditionMembers (s : Selection) (place : String) (ms : List (String × Document)) :
    Except Failure Condition := do
  let left ← readLeft s place (member ms "left")
  placed (some place) true do
    let id ← (member ms "id").display
    let method ← (member ms "method").display
    let right ← readOperand s (place ++ ":right") (member ms "right")
    let upper ← readUpper s place (member ms "upper")
    let enabled ← readFlag place ms "enabled" true
    let required ← readFlag place ms "required" false
    Condition.checked { id, method, left, right, upper, enabled, required }

def readCondition (s : Selection) (place : String) (raw : Document) : Except Failure Condition :=
  match raw with
  | .record ms =>
    match missingKey? ms with
    | some key => .error (.format (.conditionIncomplete place key))
    | none => do readConditionMembers s (← inside place ms) ms
  | _ => .error (.format (.conditionNotRecord place))

def nodeMembers (place node : String) (raw : Document) :
    Except Failure (List (String × Document)) :=
  match raw with
  | .record ms =>
    if (lookup ms "id").isSome then .ok ms else .error (.format (.nodeWithoutId place node))
  | _ => .error (.format (.nodeWithoutId place node))

def readGroup (s : Selection) (place : String) (raw : Document) : Except Failure Group := do
  let ms ← nodeMembers place "group" raw
  let place ← inside place ms
  placed (some place) false do
    let id ← (member ms "id").display
    let name ← (member ms "name").displayOr ""
    let conditions ← (← children ms "conditions").mapM (readCondition s place)
    let enabled ← readFlag place ms "enabled" true
    let required ← readFlag place ms "required" false
    let minPass ← readThreshold place ms
    Group.checked { id, name, conditions, enabled, required, minPass }

def readContainer (s : Selection) (place : String) (raw : Document) : Except Failure Container := do
  let ms ← nodeMembers place "container" raw
  let place ← inside place ms
  placed (some place) false do
    let id ← (member ms "id").display
    let title ← (member ms "title").displayOr ""
    let groups ← (← children ms "groups").mapM (readGroup s place)
    let enabled ← readFlag place ms "enabled" true
    let required ← readFlag place ms "required" false
    let minPass ← readThreshold place ms
    Container.checked { id, title, groups, enabled, required, minPass }

/-- The action set of a branch, by default the trade of its slot. -/
def readActions (slot : Slot) (raw : Document) : Except Failure ActionSet :=
  match raw with
  | .null => .ok (.makeTrade slot.action)
  | d => ActionSet.ofDocument d

def readBranch (s : Selection) (slot : Slot) (raw : Document) : Except Failure Branch :=
  match raw.orElse (.record []) with
  | .record ms =>
    placed (some slot.name) false do
      let containers ← (← children ms "containers").mapM (readContainer s slot.name)
      let enabled ← readFlag slot.name ms "enabled" true
      let minPass ← readThreshold slot.name ms
      let onPass ← readActions slot (member ms "on_pass")
      Branch.checked slot { containers, enabled, minPass, onPass }
  | _ => .error (.format (.branchNotRecord slot.name))

/-- Reads the branches one after another. A later spelling of a slot replaces an earlier one. -/
def readBranches (s : Selection) : Tree → List (String × Document) → Except Failure Tree
  | t, [] => .ok t
  | t, (key, raw) :: rest => do
    let slot ← placed none false (Slot.ofText key)
    let branch ← readBranch s slot raw
    readBranches s (t.set slot branch) rest

/-- Reads a tree. A slot that is not mentioned is that of a new strategy. -/
def readTree (s : Selection) (raw : Document) : Except Failure Tree :=
  match raw with
  | .record ms => readBranches s Tree.empty ms
  | _ => .error (.format .logicNotRecord)

def readSelection (raw : Document) : Except Failure Selection :=
  match raw.orElse (.list []) with
  | .list xs => Selection.ofDocument (.list xs)
  | _ => .error (.format .indicatorsNotList)

/-- Reads a draft. Trade settings are merged over `base`, which is asked for only where it is needed. -/
def ofDocument (base : Except Failure Trade) (raw : Document) : Except Failure Draft := do
  let ms ← Wire.record "Draft" raw
  let selection ← readSelection (member ms "indicators")
  let name ← (member ms "name").displayOr ""
  let description ← (member ms "description").displayOr ""
  let tree ← readTree selection ((member ms "logic").orElse (.record []))
  let trade ← match member ms "trade" with
    | .null => pure none
    | d => do pure (some (← (← base).merge d))
  return { name, description, selection, tree, trade }

/-! ## Writing -/

def writeCondition (s : Selection) (c : Condition) : Except Failure Document := do
  let left ← writeRef s c.left
  let right ← writeOperand s c.right
  let upper ← c.upper.mapM (writeOperand s)
  return .record <| [
    ("id", .text c.id),
    ("method", .text c.method),
    ("left", left),
    ("right", right)] ++ (upper.map fun d => ("upper", d)).toList ++ [
    ("enabled", .bool c.enabled),
    ("required", .bool c.required)]

def writeGroup (s : Selection) (g : Group) : Except Failure Document := do
  let conditions ← g.conditions.mapM (writeCondition s)
  return .record [
    ("id", .text g.id),
    ("name", .text g.name),
    ("enabled", .bool g.enabled),
    ("required", .bool g.required),
    ("min_pass", .int g.minPass),
    ("conditions", .list conditions)]

def writeContainer (s : Selection) (c : Container) : Except Failure Document := do
  let groups ← c.groups.mapM (writeGroup s)
  return .record [
    ("id", .text c.id),
    ("title", .text c.title),
    ("enabled", .bool c.enabled),
    ("required", .bool c.required),
    ("min_pass", .int c.minPass),
    ("groups", .list groups)]

def writeBranch (s : Selection) (b : Branch) : Except Failure Document := do
  let containers ← b.containers.mapM (writeContainer s)
  return .record [
    ("enabled", .bool b.enabled),
    ("min_pass", .int b.minPass),
    ("containers", .list containers),
    ("on_pass", b.onPass.toDocument)]

def writeTree (s : Selection) (t : Tree) : Except Failure Document := do
  let branches ← t.toList.mapM fun (slot, b) => do return (slot.name, ← writeBranch s b)
  return .record branches

def writeIndicatorEntry (i : Indicator) : Document :=
  .record [
    ("id", .text i.id),
    ("code", .text i.code),
    ("timeframe", .text i.timeframe),
    ("input", .text i.input),
    ("params", i.paramsDocument),
    ("outputs", i.outputsDocument),
    ("offsetRange", i.offsetDocument),
    ("calcMode", .text i.calcMode)]

def toDocument (d : Draft) : Except Failure Document := do
  let logic ← writeTree d.selection d.tree
  return .record <| [
    ("name", .text d.name),
    ("description", .text d.description),
    ("indicators", .list (d.selection.indicators.map writeIndicatorEntry))] ++
    (d.trade.map fun t => ("trade", t.toDocument)).toList ++ [
    ("logic", logic)]

end Draft

end Stratagem
