import Stratagem.Document.Printer

/-!
# What documents hold

Reading a document as a number, a collection or a text. A flag counts as zero or one. Strict coercions
refuse what they cannot read; lenient ones say that there is nothing to read.

Documents are compared by what they hold. Numbers of both kinds are compared exactly; texts are ordered
by their characters, and lists by the first items that differ. Other documents are in no order.
-/

namespace Stratagem.Document

open Failure (Coercion)

def refuse {α : Type} (c : Coercion) : Except Failure α :=
  .error (.coercion c)

/-! ## Strict coercions -/

def toReal : Document → Except Failure Float
  | bool b => .ok (if b then 1 else 0)
  | int n => (Number.ofInt? n).elim (refuse .realTooLarge) .ok
  | real x => .ok x
  | text s => (Number.readReal? s).elim (refuse (.unreadableReal s)) .ok
  | d => refuse (.notReal d)

def wholePart (x : Float) : Except Failure Int :=
  match Number.truncate? x with
  | some n => .ok n
  | none => refuse (if x.isNaN then .integerOfNoNumber else .integerOfInfinity)

def toInteger : Document → Except Failure Int
  | bool b => .ok (if b then 1 else 0)
  | int n => .ok n
  | real x => wholePart x
  | text s =>
    match Number.readInteger s with
    | .value n => .ok n
    | .malformed => refuse (.unreadableInteger s)
    | .tooLong digits => refuse (.tooManyDigits digits)
  | d => refuse (.notInteger d)

/-- What the document lists: the items of a list, the keys of a record, the characters of a text. -/
def items : Document → Except Failure (List Document)
  | list xs => .ok xs
  | record ms => .ok (ms.map fun m => text m.1)
  | text s => .ok ((Text.chunks s.toList).map fun cs => text (String.ofList cs))
  | d => refuse (.notIterable d)

def count : Document → Except Failure Nat
  | list xs => .ok xs.length
  | record ms => .ok ms.length
  | text s => .ok (Text.size s)
  | d => refuse (.noLength d)

def textOrEmpty : Document → Except Failure String
  | text s => .ok s
  | d => if d.isEmpty then .ok "" else refuse (.noTextOperation d)

/-- The number that the document is, a flag excepted. -/
def number? : Document → Option Number
  | int n => some (.int n)
  | real x => some (.real x)
  | _ => none

def ofNumber : Number → Document
  | .int n => int n
  | .real x => real x

/-- A whole number in place of a double that is one. -/
def ofReal (x : Float) : Document :=
  match Number.integral? x with
  | some n => int n
  | none => real x

/-! ## Lenient coercions -/

/-- Whether the document holds no number at first sight: no value, a flag or a blank text. -/
def isUnset : Document → Bool
  | null | bool _ => true
  | text s => (Text.trim s).isEmpty
  | _ => false

def trimmed : Document → Document
  | text s => text (Text.trim s)
  | d => d

/-- The double that the document holds. A whole number beyond every double is still refused. -/
def lenientReal (d : Document) : Except Failure (Option Float) :=
  if d.isUnset then .ok none
  else match d.trimmed.toReal with
    | .ok x => .ok (some x)
    | .error f => if f.kind == .overflow then .error f else .ok none

/-- The whole number that the document holds, read as a double first. -/
def lenientInteger (d : Document) : Option Int :=
  if d.isUnset then none
  else match d.trimmed.toReal with
    | .ok x => Number.truncate? x
    | .error _ => none

def trueWords : List String := ["true", "1", "yes", "on"]

def falseWords : List String := ["false", "0", "no", "off"]

/-- The flag that the document holds: a flag, zero or one, or one of the words for them. -/
def lenientFlag : Document → Option Bool
  | bool b => some b
  | int n => if n == 0 then some false else if n == 1 then some true else none
  | real x => if x == 0 then some false else if x == 1 then some true else none
  | text s =>
    let word := Text.lower (Text.trim s)
    if trueWords.contains word then some true
    else if falseWords.contains word then some false
    else none
  | _ => none

/-- The text of the document, if it has a value. -/
def lenientText : Document → Except Failure (Option String)
  | null => .ok none
  | d => some <$> d.display

/-! ## Parts by name

What something is made of, when its parts come from outside: some of them by position, the others by
name. No part may be given twice, be unknown, or be lacking where it is required. -/

abbrev Parts := List (String × Document)

/-- Refuses parts that are neither required nor optional, and the lack of a required one. -/
def checkMembers (required optional : List String) (ms : Parts) : Except Failure Unit :=
  match ms.find? fun (key, _) => !(required ++ optional).contains key with
  | some (key, _) => refuse (.surplusPart key)
  | none =>
    match required.find? fun key => !hasMember ms key with
    | some key => refuse (.missingPart key)
    | none => .ok ()

def parts : Document → Except Failure Parts
  | record ms => .ok ms
  | d => refuse (.notIterable d)

/-- All parts by name: first those given by position, in the order of the names, then the others. If
`further` is set, a part that is neither required nor optional may be given by name. -/
def bindParts (required optional : List String) (further : Bool) (args : List Document)
    (named : Parts) : Except Failure Parts := do
  let names := required ++ optional
  let placed := names.zip args
  if names.length < args.length then refuse (.surplusPart "args")
  if let some (key, _) := named.find? fun (key, _) => hasMember placed key then
    refuse (.surplusPart key)
  let all := placed ++ named
  checkMembers required (optional ++ if further then all.map (·.1) else []) all
  return all

/-! ## Numbers of either kind -/

/-- The number that the document is, where a flag counts as zero or one. -/
def quantity? : Document → Option Number
  | bool b => some (.int (if b then 1 else 0))
  | d => d.number?

/-! ## Equality of contents -/

mutual

/-- Whether two documents hold the same. -/
def alike : (a b : Document) → Bool
  | null, null => true
  | text s, text t => s == t
  | list xs, list ys => alikeItems xs ys
  | record ms, record others => ms.length == others.length && alikeMembers ms others
  | a, b =>
    match a.quantity?, b.quantity? with
    | some x, some y => x.equals y
    | _, _ => false

def alikeItems : (xs ys : List Document) → Bool
  | [], [] => true
  | x :: xs, y :: ys => x.alike y && alikeItems xs ys
  | _, _ => false

/-- Whether the other members hold the same under each of the keys. -/
def alikeMembers : (ms others : List (String × Document)) → Bool
  | [], _ => true
  | (key, x) :: ms, others =>
    match lookup others key with
    | some y => x.alike y && alikeMembers ms others
    | none => false

end

/-! ## Order -/

mutual

/-- Whether the first document comes before the second or, unless `strict` is set, holds the same. -/
def precedes (strict : Bool) : (a b : Document) → Except Failure Bool
  | text s, text t => .ok (if strict then Text.before s t else !Text.before t s)
  | list xs, list ys => precedesItems strict xs ys
  | a, b =>
    match a.quantity?, b.quantity? with
    | some x, some y => .ok (if strict then x.lt y else x.le y)
    | _, _ => refuse (.notComparable a b)

/-- A list comes before every list that it begins. -/
def precedesItems (strict : Bool) : (xs ys : List Document) → Except Failure Bool
  | x :: xs, y :: ys => if x.alike y then precedesItems strict xs ys else x.precedes strict y
  | [], ys => .ok (!strict || !ys.isEmpty)
  | _ :: _, [] => .ok false

end

def lt (a b : Document) : Except Failure Bool := precedes true a b

def le (a b : Document) : Except Failure Bool := precedes false a b

/-- The first document unless the second comes before it. -/
def lesser (a b : Document) : Except Failure Document := do
  return if ← b.lt a then b else a

/-- The first document unless it comes before the second. -/
def greater (a b : Document) : Except Failure Document := do
  return if ← a.lt b then b else a

/-- The distance of two numbers, unless one of them has no double to stand for it. -/
def distance (a b : Document) : Except Failure Number :=
  match a.quantity?, b.quantity? with
  | some x, some y =>
    match x.sub? y with
    | some d => .ok d.abs
    | none => refuse .realTooLarge
  | _, _ => refuse (.noDifference a b)

end Stratagem.Document
