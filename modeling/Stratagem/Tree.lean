import Stratagem.Compiled

/-!
# Strategy trees

What the user edits: for each slot a branch of containers of groups of conditions. Every node has an id
that is unique among its siblings, can be switched off, and can be marked as required.
-/

namespace Stratagem

/-- A comparison of a column with columns or numbers. -/
structure Condition where
  id : String
  method : String
  left : ValueRef
  right : Operand
  /-- The second bound of a range. -/
  upper : Option Operand
  enabled : Bool
  required : Bool
  deriving DecidableEq

/-- Conditions under a threshold. -/
structure Group where
  id : String
  name : String
  conditions : List Condition
  enabled : Bool
  required : Bool
  minPass : Int
  deriving DecidableEq

/-- Groups under a threshold. -/
structure Container where
  id : String
  title : String
  groups : List Group
  enabled : Bool
  required : Bool
  minPass : Int
  deriving DecidableEq

/-- Containers under a threshold, and what to do when they pass. -/
structure Branch where
  containers : List Container
  enabled : Bool
  minPass : Int
  onPass : ActionSet
  deriving DecidableEq

abbrev Tree := PerSlot Branch

instance : Flagged Condition := ⟨Condition.enabled, Condition.required⟩

instance : Flagged Group := ⟨Group.enabled, Group.required⟩

instance : Flagged Container := ⟨Container.enabled, Container.required⟩

class Named (α : Type) where
  id : α → String

instance : Named Condition := ⟨Condition.id⟩

instance : Named Group := ⟨Group.id⟩

instance : Named Container := ⟨Container.id⟩

namespace Node

/-- The first id that an earlier sibling has too. -/
def repeatedId? (seen : List String) : List String → Option String
  | [] => none
  | id :: ids => if seen.contains id then some id else repeatedId? (id :: seen) ids

def checkIds (owner child : String) (ids : List String) : Except Failure Unit :=
  match repeatedId? [] ids with
  | some id => .error (.node (.repeatedId owner child id))
  | none => .ok ()

/-- Whether siblings have different ids, none of them empty. -/
def WellNamed (ids : List String) : Prop :=
  ids.Nodup ∧ "" ∉ ids

theorem repeatedId?_eq_none {seen ids : List String} (h : repeatedId? seen ids = none) :
    ids.Nodup ∧ ∀ id ∈ ids, id ∉ seen := by
  induction ids generalizing seen with
  | nil => simp
  | cons id ids ih =>
    rw [repeatedId?] at h
    split at h
    · cases h
    · rename_i hid
      simp only [List.contains_eq_mem, decide_eq_true_eq] at hid
      obtain ⟨hn, hs⟩ := ih h
      refine ⟨List.nodup_cons.2 ⟨fun hm => hs id hm (by simp), hn⟩, ?_⟩
      intro i hi
      rcases List.mem_cons.1 hi with rfl | hi
      · exact hid
      · exact fun hm => hs i hi (List.mem_cons_of_mem _ hm)

end Node

namespace Condition

/-- The condition, if it has an id and a method. -/
def checked (c : Condition) : Except Failure Condition :=
  if c.id.isEmpty then .error (.node (.noId "ConditionItem"))
  else if c.method.isEmpty then .error (.node (.noMethod c.id))
  else .ok c

/-- An operand that is not checked yet: a reference, or something else. -/
inductive Candidate where
  | ref (r : ValueRef)
  | other (d : Document)

/-- The operand that a candidate for a position is. -/
def checkOperand (id position : String) : Candidate → Except Failure Operand
  | .ref r => .ok (.ref r)
  | .other (.int n) => .number <$> (Document.int n).toReal
  | .other (.real x) => .ok (.number x)
  | .other d => do throw (.node (.badOperand id position (← d.quoted)))

def ofCandidates (id method : String) (left right : Candidate) (upper? : Option Candidate)
    (enabled required : Bool) : Except Failure Condition := do
  if id.isEmpty then .error (.node (.noId "ConditionItem"))
  if method.isEmpty then .error (.node (.noMethod id))
  match left with
  | .other _ => .error (.node (.leftNotReference id))
  | .ref left =>
    let right ← checkOperand id "right" right
    let upper ← upper?.mapM (checkOperand id "upper")
    return { id, method, left, right, upper, enabled, required }

/-- The operands in the order of a call. -/
def operands (c : Condition) : List Operand :=
  .ref c.left :: c.right :: c.upper.toList

def series (c : Condition) : List ValueRef :=
  c.operands.filterMap Operand.series?

def positions (c : Condition) : List (String × Operand) :=
  ["left", "right", "upper"].zip c.operands

end Condition

namespace Group

def checked (g : Group) : Except Failure Group := do
  if g.id.isEmpty then .error (.node (.noId "ConditionGroup"))
  Node.checkIds ("ConditionGroup '" ++ g.id ++ "'") "condition" (g.conditions.map (·.id))
  return g

end Group

namespace Container

def checked (c : Container) : Except Failure Container := do
  if c.id.isEmpty then .error (.node (.noId "ConditionContainer"))
  Node.checkIds ("ConditionContainer '" ++ c.id ++ "'") "group" (c.groups.map (·.id))
  return c

def conditionCount (c : Container) : Nat :=
  (c.groups.flatMap (·.conditions)).length

def fresh (id title : String) : Container where
  id
  title
  groups := []
  enabled := true
  required := false
  minPass := 1

end Container

namespace Branch

def checked (slot : Slot) (b : Branch) : Except Failure Branch := do
  Node.checkIds ("LogicBranch '" ++ slot.name ++ "'") "container" (b.containers.map (·.id))
  return b

end Branch

namespace Tree

/-- A new strategy: every slot holds one empty container. -/
def empty : Tree :=
  .ofFn fun slot => {
    containers := [.fresh slot.containerId slot.title]
    enabled := true
    minPass := 1
    onPass := .makeTrade slot.action }

def findContainer? (t : Tree) (id : String) : Option (Slot × Container) :=
  t.toList.findSome? fun (slot, b) => (b.containers.find? (·.id == id)).map fun c => (slot, c)

/-- Whether siblings have different ids at every level, none of them empty. -/
def WellNamed (t : Tree) : Prop :=
  ∀ slot, Node.WellNamed ((t.get slot).containers.map (·.id)) ∧
    ∀ c ∈ (t.get slot).containers, Node.WellNamed (c.groups.map (·.id)) ∧
      ∀ g ∈ c.groups, Node.WellNamed (g.conditions.map (·.id))

end Tree

end Stratagem
