import Stratagem.Document.Coercion
import Stratagem.Selection
import Stratagem.Settings
import Stratagem.Tree

/-!
# Edits

The edits of a tree. Nodes are addressed by slot and ids. An edit that cannot be made is refused and
leaves the tree as it is. Required nodes come first: a node that becomes required moves to the top of its
siblings.
-/

namespace Stratagem

inductive Edit where
  | setBranchEnabled (slot : String) (enabled : Bool)
  /-- Appends an empty container; without an id it gets a fresh one. -/
  | addContainer (slot id title : String)
  | removeContainer (slot id : String)
  | toggleContainer (slot id flag : String)
  | addGroup (slot container id name : String)
  | removeGroup (slot container id : String)
  | toggleGroup (slot container id flag : String)
  /-- Sets the threshold of a branch, of a container, or of a group. -/
  | setMinPass (slot : String) (value : Int) (container? group? : Option String)
  /-- Replaces the condition of the same id, or appends it. -/
  | saveCondition (slot container group : String) (condition : Condition)
  | removeCondition (slot container group id : String)
  | toggleCondition (slot container group id flag : String)
  /-- Points every reference to one indicator at another. -/
  | retarget (old new : Indicator)

namespace Edit

/-! ## Lists of nodes -/

def promote {α : Type} (items : List α) (index : Nat) : List α :=
  match items[index]? with
  | some a => a :: items.eraseIdx index
  | none => items

/-- The first of `prefix1`, `prefix2` and so on that is not taken. -/
def freshId (stem : String) (taken : List String) : String :=
  let candidates := (List.range (taken.length + 1)).map fun (n : Nat) => stem ++ Number.decimal (n + 1)
  (candidates.find? (!taken.contains ·)).getD stem

/-- Nodes whose flags can be changed. -/
class Switchable (α : Type) extends Flagged α, Named α where
  setEnabled : α → Bool → α
  setRequired : α → Bool → α

instance : Switchable Condition where
  setEnabled c b := { c with enabled := b }
  setRequired c b := { c with required := b }

instance : Switchable Group where
  setEnabled g b := { g with enabled := b }
  setRequired g b := { g with required := b }

instance : Switchable Container where
  setEnabled c b := { c with enabled := b }
  setRequired c b := { c with required := b }

inductive Flag where
  | enabled
  | required
  deriving DecidableEq, Repr

def Flag.ofText (key : String) : Except Failure Flag :=
  if key == "enabled" then .ok .enabled
  else if key == "required" then .ok .required
  else .error (.edit (.unknownFlag key))

def indexOf? {α : Type} [Named α] (items : List α) (id : String) : Option Nat :=
  items.findIdx? (Named.id · == id)

/-- The position of the node with the given id, which the parent must have. -/
def locate {α : Type} [Named α] (type parent : String) (items : List α) (id : String) :
    Except Failure Nat :=
  match indexOf? items id with
  | some n => .ok n
  | none => .error (.edit (.missingNode type id parent))

def update {α : Type} [Named α] (type parent : String) (items : List α) (id : String)
    (change : α → Except Failure α) : Except Failure (List α) := do
  let n ← locate type parent items id
  match items[n]? with
  | some a => return items.set n (← change a)
  | none => return items

def erase {α : Type} [Named α] (type parent : String) (items : List α) (id : String) :
    Except Failure (List α) := do
  let _ ← locate type parent items id
  return items.filter (Named.id · != id)

def flipped {α : Type} [Switchable α] (flag : Flag) (a : α) : α :=
  match flag with
  | .enabled => Switchable.setEnabled a (!enabled a)
  | .required => Switchable.setRequired a (!required a)

def toggle {α : Type} [Switchable α] (type parent : String) (items : List α) (id key : String) :
    Except Failure (List α) := do
  let flag ← Flag.ofText key
  let n ← locate type parent items id
  match items[n]? with
  | some a =>
    let changed := items.set n (flipped flag a)
    return if flag == .required && !required a then promote changed n else changed
  | none => return items

/-! ## Nodes by address -/

def onBranch (t : Tree) (slot : String) (change : Slot → Branch → Except Failure Branch) :
    Except Failure Tree := do
  let slot ← Slot.ofText slot
  return t.set slot (← change slot (t.get slot))

def onContainer (t : Tree) (slot id : String) (change : Container → Except Failure Container) :
    Except Failure Tree :=
  onBranch t slot fun slot b => do
    return { b with containers := ← update "container" slot.name b.containers id change }

def onGroup (t : Tree) (slot container id : String) (change : Group → Except Failure Group) :
    Except Failure Tree :=
  onContainer t slot container fun c => do
    return { c with groups := ← update "group" c.id c.groups id change }

/-! ## The edits -/

def orElse (s default : String) : String :=
  if s.isEmpty then default else s

/-- Refuses a child for which the holder has no room. -/
def refuseFull {α : Type} (holder : String) (limit : Int) (children : String) : Except Failure α := do
  throw (.edit (.full holder (.int limit) (← Number.intText limit) children))

def addContainerTo (id title : String) (slot : Slot) (b : Branch) : Except Failure Branch :=
  let ids := b.containers.map (·.id)
  let id := orElse id (freshId (slot.containerId ++ "-") ids)
  if ids.contains id then .error (.edit (.containerExists id slot.name))
  else .ok { b with containers := b.containers ++ [.fresh id (orElse title slot.title)] }

def freshGroup (id name : String) : Group where
  id
  name
  conditions := []
  enabled := true
  required := false
  minPass := 1

def addGroupTo (limits : Limits) (id name : String) (c : Container) : Except Failure Container :=
  let ids := c.groups.map (·.id)
  let id := orElse id (freshId (c.id ++ "-group-") ids)
  if limits.groupsPerContainer ≤ c.groups.length then
    refuseFull (orElse c.title c.id) limits.groupsPerContainer "groups"
  else if ids.contains id then .error (.edit (.groupExists id c.id))
  else
    let name := orElse name ("Group " ++ Number.decimal (c.groups.length + 1))
    .ok { c with groups := c.groups ++ [freshGroup id name] }

/-- Refuses a condition whose method is unknown or does not take its operands. -/
def checkCondition (c : Condition) : Except Failure Unit := do
  let m ← Method.comparator c.method
  if m.isRange && c.upper.isNone then .error (.method (.noUpperBound m.name))
  if !m.isRange && c.upper.isSome then .error (.method (.surplusUpperBound m.name))

/-- The conditions with the new one at its place, and the place. -/
def placeCondition (limits : Limits) (c : Condition) (g : Group) :
    Except Failure (List Condition × Nat) :=
  match indexOf? g.conditions c.id with
  | some n => .ok (g.conditions.set n c, n)
  | none =>
    if limits.conditionsPerGroup ≤ g.conditions.length then
      refuseFull (orElse g.name g.id) limits.conditionsPerGroup "conditions"
    else .ok (g.conditions ++ [c], g.conditions.length)

def saveConditionIn (limits : Limits) (c : Condition) (g : Group) : Except Failure Group := do
  let (conditions, n) ← placeCondition limits c g
  return { g with conditions := if c.required then promote conditions n else conditions }

def setMinPassOf (t : Tree) (slot : String) (value : Int) :
    (container? group? : Option String) → Except Failure Tree
  | none, some _ => .error (.edit .groupWithoutContainer)
  | none, none => onBranch t slot fun _ b => .ok { b with minPass := value }
  | some container, none => onContainer t slot container fun c => .ok { c with minPass := value }
  | some container, some group =>
    onGroup t slot container group fun g => .ok { g with minPass := value }

/-! ## Retargeting -/

/-- The reference to `new` that stands for a reference to `old`. Its window and calculation mode are kept
where they were its own. -/
def redirect (old new : Indicator) (r : ValueRef) : Except Failure ValueRef := do
  let ref ← new.ref (if new.declares r.output then r.output else .text new.output.key)
  let ref := if ((r.window.low : Int), (r.window.high : Int)) = old.offset then ref
    else { ref with window := r.window }
  return if r.calcMode = old.calcMode then ref else { ref with calcMode := r.calcMode }

def retargetRef (old new : Indicator) (r : ValueRef) : Except Failure ValueRef := do
  if ← old.matches? r then redirect old new r else return r

def retargetOperand (old new : Indicator) : Operand → Except Failure Operand
  | .ref r => .ref <$> retargetRef old new r
  | .number x => .ok (.number x)

def retargetCondition (old new : Indicator) (c : Condition) : Except Failure Condition := do
  return { c with
    left := ← retargetRef old new c.left
    right := ← retargetOperand old new c.right
    upper := ← c.upper.mapM (retargetOperand old new) }

def retargetGroup (old new : Indicator) (g : Group) : Except Failure Group := do
  return { g with conditions := ← g.conditions.mapM (retargetCondition old new) }

def retargetContainer (old new : Indicator) (c : Container) : Except Failure Container := do
  return { c with groups := ← c.groups.mapM (retargetGroup old new) }

def retargetBranch (old new : Indicator) (b : Branch) : Except Failure Branch := do
  return { b with containers := ← b.containers.mapM (retargetContainer old new) }

def retargetTree (old new : Indicator) (t : Tree) : Except Failure Tree :=
  PerSlot.ofFnM fun slot => retargetBranch old new (t.get slot)

def apply (limits : Limits) (t : Tree) : Edit → Except Failure Tree
  | setBranchEnabled slot enabled => onBranch t slot fun _ b => .ok { b with enabled }
  | addContainer slot id title => onBranch t slot (addContainerTo id title)
  | removeContainer slot id => onBranch t slot fun slot b => do
    return { b with containers := ← erase "container" slot.name b.containers id }
  | toggleContainer slot id flag => onBranch t slot fun slot b => do
    return { b with containers := ← toggle "container" slot.name b.containers id flag }
  | addGroup slot container id name => onContainer t slot container (addGroupTo limits id name)
  | removeGroup slot container id => onContainer t slot container fun c => do
    return { c with groups := ← erase "group" c.id c.groups id }
  | toggleGroup slot container id flag => onContainer t slot container fun c => do
    return { c with groups := ← toggle "group" c.id c.groups id flag }
  | setMinPass slot value container? group? =>
    if value < 0 then do throw (.edit (.negativeThreshold (← Number.intText value)))
    else setMinPassOf t slot value container? group?
  | saveCondition slot container group condition => do
    checkCondition condition
    onGroup t slot container group (saveConditionIn limits condition)
  | removeCondition slot container group id => onGroup t slot container group fun g => do
    return { g with conditions := ← erase "condition" g.id g.conditions id }
  | toggleCondition slot container group id flag => onGroup t slot container group fun g => do
    return { g with conditions := ← toggle "condition" g.id g.conditions id flag }
  | retarget old new => retargetTree old new t

end Edit

/-! ## Conditions and edits from parts

What an editor asks for by name. An id, a title or a name may be given as another document than a text,
and then counts as the text that shows it. -/

open Document (Parts lookup member)

namespace Condition

/-- An operand from outside: a record is read as a reference, anything else is checked later. -/
def Candidate.ofDocument (raw : Document) : Except Failure Candidate :=
  match raw with
  | .record _ => ref <$> ValueRef.ofDocument raw
  | d => .ok (other d)

/-- A flag from outside, which is set by whatever stands for something. -/
def flagPart (ps : Parts) (key : String) (default : Bool) : Bool :=
  (lookup ps key).elim default (!·.isEmpty)

/-- The condition of the given parts. -/
def ofParts (ps : Parts) : Except Failure Condition := do
  let operand (key : String) : Except Failure Candidate := Candidate.ofDocument (member ps key)
  let left ← operand "left"
  let right ← operand "right"
  let upper? ← match member ps "upper" with
    | .null => pure none
    | d => some <$> Candidate.ofDocument d
  Document.checkMembers ["id", "method", "left", "right"] ["upper", "enabled", "required"] ps
  ofCandidates (← (member ps "id").displayOr "") (← (member ps "method").displayOr "") left right
    upper? (flagPart ps "enabled" true) (flagPart ps "required" false)

end Condition

/-- Moves the item at an index to the front. No index but a whole number is one inside the list. -/
def Edit.loosePromote (items : Document) (index : Document) : Except Failure (List Document) := do
  let items ← items.items
  if ← index.le (.int 0) then return items
  if ← (Document.int items.length).le index then return items
  match index with
  | .real _ => Document.refuse (.notIndex index)
  | _ => return promote items (← index.toInteger).toNat

/-- An edit, with limits of its own if it has any. -/
structure LooseEdit where
  edit : Edit
  limits? : Option LooseLimits

namespace LooseEdit

/-- The parts that each edit requires, and those that it may have. -/
def known : List (String × List String × List String) := [
  ("set_branch_enabled", ["slot", "enabled"], []),
  ("add_container", ["slot"], ["container_id", "title"]),
  ("remove_container", ["slot", "container_id"], []),
  ("toggle_container_flag", ["slot", "container_id", "key"], []),
  ("add_group", ["slot", "container_id"], ["group_id", "name", "limits"]),
  ("remove_group", ["slot", "container_id", "group_id"], []),
  ("toggle_group_flag", ["slot", "container_id", "group_id", "key"], []),
  ("set_min_pass", ["slot", "value"], ["container_id", "group_id"]),
  ("save_condition", ["slot", "container_id", "group_id", "condition"], ["limits"]),
  ("remove_condition", ["slot", "container_id", "group_id", "condition_id"], []),
  ("toggle_condition_flag", ["slot", "container_id", "group_id", "condition_id", "key"], []),
  ("retarget_indicator", ["old", "new"], [])]

structure Given where
  condition? : Option Condition
  limits? : Option LooseLimits
  old? : Option Indicator
  new? : Option Indicator

def optionally {α : Type} (ps : Parts) (key : String) (read : Document → Except Failure α) :
    Except Failure (Option α) :=
  (lookup ps key).mapM read

def given (ps : Parts) : Except Failure Given := do
  let condition? ← optionally ps "condition" fun d => do Condition.ofParts (← d.parts)
  let limits? ← match member ps "limits" with
    | .null => pure none
    | d => do pure (some (← LooseLimits.ofMembers (← d.parts)))
  let old? ← optionally ps "old" Indicator.ofDocument
  let new? ← optionally ps "new" Indicator.ofDocument
  return { condition?, limits?, old?, new? }

/-- The edit of a name, with what was read of its parts. -/
def editOf (name : String) (ps : Parts) (g : Given) : Except Failure Edit := do
  let slot ← (member ps "slot").display
  let id (key : String) : Except Failure String := (member ps key).display
  let own (key : String) : Except Failure String := (member ps key).displayOr ""
  match name, g.condition?, g.old?, g.new? with
  | "set_branch_enabled", _, _, _ => return .setBranchEnabled slot (!(member ps "enabled").isEmpty)
  | "add_container", _, _, _ => return .addContainer slot (← own "container_id") (← own "title")
  | "remove_container", _, _, _ => return .removeContainer slot (← id "container_id")
  | "toggle_container_flag", _, _, _ =>
    return .toggleContainer slot (← id "container_id") (← id "key")
  | "add_group", _, _, _ =>
    return .addGroup slot (← id "container_id") (← own "group_id") (← own "name")
  | "remove_group", _, _, _ => return .removeGroup slot (← id "container_id") (← id "group_id")
  | "toggle_group_flag", _, _, _ =>
    return .toggleGroup slot (← id "container_id") (← id "group_id") (← id "key")
  | "set_min_pass", _, _, _ =>
    return .setMinPass slot (← (member ps "value").toInteger) (← (member ps "container_id").lenientText)
      (← (member ps "group_id").lenientText)
  | "remove_condition", _, _, _ =>
    return .removeCondition slot (← id "container_id") (← id "group_id") (← id "condition_id")
  | "toggle_condition_flag", _, _, _ =>
    return .toggleCondition slot (← id "container_id") (← id "group_id") (← id "condition_id")
      (← id "key")
  | "save_condition", some c, _, _ =>
    let _ ← (member (← (member ps "condition").parts) "method").textOrEmpty
    return .saveCondition slot (← id "container_id") (← id "group_id") c
  | "retarget_indicator", _, some old, some new => return .retarget old new
  | _, _, _, _ => Document.refuse (.noAttribute name)

def ofParts (name : String) (ps : Parts) : Except Failure LooseEdit := do
  let g ← given ps
  match known.lookup name with
  | none => Document.refuse (.noAttribute name)
  | some (required, optional) =>
    Document.checkMembers required optional ps
    return ⟨← editOf name ps g, g.limits?⟩

/-- Makes the edit under its own limits, or else under those of the editor. -/
def apply (limits : Except Failure Limits) (t : Tree) (e : LooseEdit) : Except Failure Tree := do
  match e.limits? with
  | some own => (e.edit.apply own.strict t).mapError own.restate
  | none => e.edit.apply (← limits) t

end LooseEdit

end Stratagem
