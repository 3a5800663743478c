import Stratagem.ValueRef

/-!
# Indicators

An indicator that the user has chosen, with the output channels that it declares. The first output is the
default one. It is written as a record that holds its settings in a record of their own; when it is read
the settings may also stand beside the identity, and an output may be given by its key alone.
-/

namespace Stratagem

structure Output where
  key : String
  hint : String
  deriving DecidableEq

namespace Output

def label (o : Output) : String :=
  if o.hint.isEmpty then o.key else o.hint

end Output

structure Indicator where
  /-- The identity within a selection. -/
  id : String
  code : String
  timeframe : String
  input : String
  params : List Float
  output : Output
  otherOutputs : List Output
  /-- The window of a reference that names none. -/
  offset : Int × Int
  calcMode : String
  deriving DecidableEq

namespace Indicator

def outputs (i : Indicator) : List Output :=
  i.output :: i.otherOutputs

def outputKeys (i : Indicator) : List String :=
  i.outputs.map (·.key)

def declares (i : Indicator) (channel : Document) : Bool :=
  i.outputKeys.any fun key => channel == .text key

/-- The name that a channel is shown by; an undeclared one is its own name. -/
def hint (i : Indicator) (channel : Document) : Document :=
  match i.outputs.find? fun o => channel == .text o.key with
  | some o => .text o.label
  | none => channel

/-- The reference to an output, the default one if none is named. -/
def ref (i : Indicator) (output : Document) : Except Failure ValueRef :=
  ValueRef.make .indicator i.code i.timeframe i.input i.params (output.orElse (.text i.output.key))
    i.offset.1 i.offset.2 i.calcMode

/-- The identity that references to the indicator carry. -/
def key (i : Indicator) : Except Failure String := do
  return (← i.ref .null).indicatorKey

/-- Whether the reference addresses the indicator, by whatever output. -/
def matches? (i : Indicator) (r : ValueRef) : Except Failure Bool :=
  if r.isIndicator then do return r.indicatorKey == (← i.key) else .ok false

/-- Two indicators with one signature are duplicates of each other. -/
def signature (i : Indicator) : Except Failure String := do
  let low ← Number.intText i.offset.1
  let high ← Number.intText i.offset.2
  return "|".intercalate [
    Text.trim i.code, Text.lower (Text.trim i.timeframe), Text.trim i.input,
    ValueRef.paramsText i.params, low ++ "," ++ high, Text.trim i.calcMode]

def paramsLabel (params : List Float) : String :=
  if params.isEmpty then "default" else ValueRef.paramsText params

def label (i : Indicator) : String :=
  let timeframe := Timeframe.normalize i.timeframe
  let parts := [
    i.code, if timeframe.isEmpty then "-" else timeframe, paramsLabel i.params, i.input]
  " ".intercalate (parts.filter (!·.isEmpty))

end Indicator

/-! ## Indicators in documents -/

open Document

namespace Output

def make (key hint : String) : Except Failure Output :=
  if key.isEmpty then .error (.indicator .noOutputKey) else .ok ⟨key, hint⟩

def ofDocument (raw : Document) : Except Failure Output :=
  match raw with
  | .record ms => do make (← (member ms "key").displayOr "") (← (member ms "hint").displayOr "")
  | d => do make (← d.display) ""

def toDocument (o : Output) : Document :=
  .record [("key", .text o.key), ("hint", .text o.hint)]

end Output

namespace Indicator

/-- The outputs that a record lists; without any, the output that its settings name. -/
def readOutputs (raw named : Document) : Except Failure (Output × List Output) := do
  match ← (← (raw.orElse (.list [])).items).mapM Output.ofDocument with
  | o :: os => return (o, os)
  | [] =>
    let key ← named.displayOr ValueRef.defaultOutput
    return (← Output.make key key, [])

def readOffset (raw : Document) : Except Failure (Document × Document) := do
  let raw := raw.orElse (.list [.int 0, .int 0])
  let _ ← raw.count
  match ← raw.items with
  | [low, high] => return (low, high)
  | values => throw (.indicator (.offsetNotPair (← (Document.list values).quoted)))

def readParts (code : String) (ms config : List (String × Document)) : Except Failure Indicator := do
  let text (key default : String) : Except Failure String :=
    Text.trim <$> (member config key).displayOr default
  let (output, otherOutputs) ← readOutputs (member ms "outputs") (member config "output")
  let (low, high) ← readOffset (member config "offsetRange")
  let id ← (member ms "id").displayOr ""
  let timeframe ← text "timeframe" ""
  let input ← text "input" ""
  let params ← ((member config "params").orElse (.list [])).items
  let calcMode ← text "calcMode" ValueRef.defaultCalcMode
  if id.isEmpty then .error (.indicator .noId)
  if code.isEmpty then .error (.indicator (.noCode id))
  let params ← params.mapM toReal
  let low ← low.toInteger
  let high ← high.toInteger
  return {
    id, code, timeframe, input, output, otherOutputs, calcMode
    params := params.map ValueRef.unsignedZero
    offset := (low, high) }

/-- Puts a failure to read an indicator at its id, which has to be shown for that. -/
def placedAt {α : Type} (id : Document) (run : Except Failure α) : Except Failure α :=
  match run with
  | .error f =>
    if f.isOfValue true then do throw (.malformed (some ("Invalid indicator " ++ (← id.quoted))) f)
    else .error f
  | .ok a => .ok a

def ofDocument (raw : Document) : Except Failure Indicator :=
  match raw with
  | .record ms => do
    let config := match member ms "config" with
      | .record config => config
      | _ => ms
    let code ← ((member config "indicator").orElse (member ms "code")).displayOr ""
    placedAt (member ms "id") (readParts (Text.trim code) ms config)
  | d => .error (.format (.notRecord "Indicator" d))

def offsetDocument (i : Indicator) : Document :=
  .list [.int i.offset.1, .int i.offset.2]

def paramsDocument (i : Indicator) : Document :=
  .list (i.params.map Document.ofReal)

def outputsDocument (i : Indicator) : Document :=
  .list (i.outputs.map Output.toDocument)

def toDocument (i : Indicator) : Document :=
  .record [
    ("id", .text i.id),
    ("code", .text i.code),
    ("config", .record [
      ("indicator", .text i.code),
      ("timeframe", .text i.timeframe),
      ("input", .text i.input),
      ("params", i.paramsDocument),
      ("output", .text i.output.key),
      ("offsetRange", i.offsetDocument),
      ("calcMode", .text i.calcMode)]),
    ("outputs", i.outputsDocument)]

end Indicator

end Stratagem
