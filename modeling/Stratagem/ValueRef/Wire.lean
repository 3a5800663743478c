import Stratagem.Document.Coercion
import Stratagem.ValueRef

/-!
# References and operands in documents

The record form of a reference. Every key may be missing; a kind is named in any letter case, and
`number` is a second name of a literal. What a condition compares is a reference or a number.
-/

namespace Stratagem

open Document

def RefKind.name : RefKind → String
  | .indicator => "Indicator"
  | .field => "Field"
  | .literal => "Const"

def RefKind.read (raw : Document) : Except Failure RefKind := do
  let word := Text.lower (Text.trim (← raw.displayOr ""))
  if word == "" || word == "indicator" then return .indicator
  else if word == "field" then return .field
  else if word == "const" || word == "number" then return .literal
  else throw (.reference (.unknownKind (← raw.display)))

namespace ValueRef

/-- Turns a failure to coerce `d` into the cause that shows it, unless a number was too large. -/
def unlessTooLarge {α : Type} (cause : String → Failure.Reference) (d : Document)
    (run : Except Failure α) : Except Failure α :=
  match run with
  | .error f =>
    if f.isOfValue true then do throw (.reference (cause (← d.quoted))) else .error f
  | .ok a => .ok a

def readParam (raw : Document) : Except Failure Float :=
  match raw with
  | .bool _ => do throw (.reference (.paramNotNumeric (← raw.quoted)))
  | _ => unlessTooLarge .paramNotNumeric raw raw.toReal

def readParams (raw : Document) : Except Failure (List Float) :=
  match raw with
  | .null => .ok []
  | .text s => .error (.reference (.paramsNotList (Text.quoted s)))
  | _ => do (← raw.items).mapM readParam

/-- One offset stands for both ends of the window. -/
def readOffset (raw : Document) : Except Failure (Int × Int) :=
  match raw with
  | .null => .ok (0, 0)
  | .int n => .ok (n, n)
  | _ => do
    let values ← raw.items
    match values with
    | [low, high] =>
      unlessTooLarge .offsetNotIntegers (.list values) do return (← low.toInteger, ← high.toInteger)
    | _ => throw (.reference (.offsetNotPair (← (Document.list values).quoted)))

def readParts (kind : Document) (indicator timeframe input : String) (params output offset : Document)
    (calcMode : String) : Except Failure ValueRef := do
  let kind ← RefKind.read kind
  let params ← readParams params
  let (low, high) ← readOffset offset
  make kind indicator timeframe input params output low high calcMode

def ofDocument (raw : Document) : Except Failure ValueRef :=
  match raw with
  | .record ms =>
    let part (key default : String) : Except Failure String := (member ms key).displayOr default
    placed none false do
      let indicator ← part "indicator" ""
      let timeframe ← part "timeframe" ""
      let input ← part "input" ""
      let output ← part "output" defaultOutput
      let calcMode ← part "calcMode" defaultCalcMode
      readParts (member ms "refType") indicator timeframe input ((member ms "params").orElse .null)
        (.text output) ((member ms "offsetRange").orElse .null) calcMode
  | d => .error (.format (.notRecord "ValueRef" d))

def toDocument (r : ValueRef) : Document :=
  .record [
    ("refType", .text r.kind.name),
    ("indicator", .text r.indicator),
    ("timeframe", .text r.timeframe),
    ("input", .text r.input),
    ("params", .list (r.params.map Document.ofReal)),
    ("output", r.output),
    ("offsetRange", .list [.int r.window.low, .int r.window.high]),
    ("calcMode", .text r.calcMode)]

end ValueRef

/-! ## Operands -/

inductive Operand where
  | ref (r : ValueRef)
  | number (x : Float)
  deriving DecidableEq

namespace Operand

/-- The column that an operand addresses; a literal addresses none. -/
def series? : Operand → Option ValueRef
  | ref r => if r.isLiteral then none else some r
  | number _ => none

/-- The operand as a reference. A number becomes a literal aligned with `left`. -/
def toRef (left : ValueRef) : Operand → ValueRef
  | ref r => r
  | number x => .ofNumber x left.timeframe left.calcMode

def ofRef (r : ValueRef) : Operand :=
  match r.literalValue with
  | some x => number x
  | none => ref r

/-- Reads an argument of a call: a reference, a number or a numeric text. -/
def ofDocument (raw : Document) : Except Failure Operand :=
  match raw with
  | .record _ => do return ofRef (← ValueRef.ofDocument raw)
  | .int _ | .real _ => do return number (← raw.toReal)
  | .text s =>
    match Number.readReal? (Text.trim s) with
    | some x => .ok (number x)
    | none => .error (.format (.argumentNotNumeric s))
  | d => do throw (.format (.unreadableConditionArgument (← d.quoted)))

def toDocument : Operand → Document
  | ref r => r.toDocument
  | number x => .real x

end Operand

/-! ## References from parts of any kind

A reference that is put together by name. Its timeframe and its calculation mode may be something else
than texts: then they are kept as they were given, and the reference reads them as nothing. -/

structure LooseRef where
  ref : ValueRef
  timeframe : Document
  calcMode : Document

namespace LooseRef

def ofRef (r : ValueRef) : LooseRef :=
  ⟨r, .text r.timeframe, .text r.calcMode⟩

/-- The record form, with what was given in place of what was read. -/
def toDocument (l : LooseRef) : Document :=
  match l.ref.toDocument with
  | .record ms =>
    .record (Document.insert (Document.insert ms "timeframe" l.timeframe) "calcMode" l.calcMode)
  | d => d

def withOffset (l : LooseRef) (low high : Int) : Except Failure LooseRef := do
  return { l with ref := ← l.ref.withOffset low high }

def withOutput (l : LooseRef) (output : Document) : LooseRef :=
  { l with ref := l.ref.withOutput output }

/-- The text that a part is, joined to others. -/
def joinable : Document → Except Failure String
  | .text s => .ok s
  | d => Document.refuse (.notJoinable d)

/-- The input that a reference of the kind keeps. Only an indicator keeps another document than a text,
until it is asked for its identity. -/
def readInput (kind : RefKind) (input : Document) : Except Failure String :=
  match kind with
  | .indicator => input.displayOr ""
  | _ => input.textOrEmpty

/-- The reference of the given parts, if it has an identity. -/
def make (kind indicator timeframe input params output offset calcMode : Document) :
    Except Failure LooseRef := do
  let kind ← RefKind.read kind
  let params ← ValueRef.readParams params
  let (low, high) ← ValueRef.readOffset offset
  let _ ← Window.ofInts low high
  let text ← readInput kind input
  let mode := match calcMode with
    | .text s => s
    | _ => ""
  let ref ← ValueRef.make kind (← indicator.displayOr "") "" text params output low high mode
  let ref := { ref with timeframe := ← timeframe.textOrEmpty }
  let _ ← joinable indicator
  if kind = .indicator then
    let _ ← joinable input
  return { ref, timeframe, calcMode := calcMode.orElse (.text ref.calcMode) }

def part (ps : Parts) (key default : String) : Document :=
  (lookup ps key).getD (.text default)

def ofParts (ps : Parts) : Except Failure LooseRef := do
  Document.checkMembers [] ["indicator_id", "timeframe", "input_channel", "params", "output_channel",
    "offset_range", "aggregation", "ref_type"] ps
  make (member ps "ref_type") (part ps "indicator_id" "") (part ps "timeframe" "")
    (part ps "input_channel" "") (member ps "params") (member ps "output_channel")
    (member ps "offset_range") (part ps "aggregation" "")

def fieldOfParts (ps : Parts) : Except Failure LooseRef := do
  Document.checkMembers ["name"] ["timeframe", "offset", "aggregation"] ps
  let offset := (lookup ps "offset").getD (.int 0)
  make (.text RefKind.field.name) (.text "") (part ps "timeframe" "") (member ps "name") .null .null
    (.list [offset, offset]) (part ps "aggregation" "")

def literalOfParts (ps : Parts) : Except Failure LooseRef := do
  Document.checkMembers ["value"] ["timeframe", "aggregation"] ps
  let text ← match member ps "value" with
    | .text s => pure (Text.trim s)
    | d => Number.briefText <$> d.toReal
  make (.text RefKind.literal.name) (.text "") (part ps "timeframe" "") (.text text) .null .null .null
    (part ps "aggregation" "")

end LooseRef

end Stratagem
