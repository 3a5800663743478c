import Stratagem.Document.Coercion
import Stratagem.Text
import Stratagem.Text.Case

/-!
# Value references

The address of one column of values: an output of an indicator, a raw candle column, or a literal
number. The literal is kept as text in the place of the input.

A timeframe is the bar length of a series, written as a count and a unit, such as `5m`. A label may also
put the unit first. Labels are compared in their normal form; an unknown label is kept. The candle columns
are those that a condition may read without an indicator.
-/

namespace Stratagem.Timeframe

open Stratagem.Text

def isUnitLetter (c : Char) : Bool :=
  'a' ≤ c && c ≤ 'z'

/-- Puts the count of a label in front of its unit. -/
def countFirst (cs : List Char) : List Char :=
  let unit := cs.takeWhile isUnitLetter
  let rest := cs.dropWhile isUnitLetter
  if !unit.isEmpty && !rest.isEmpty && rest.all isDecimalDigit then rest ++ unit else cs

/-- The normal form of a label: lower case, no blanks, the count first. -/
def normalize (label : String) : String :=
  String.ofList (countFirst (squeeze (lower (trim label))).toList)

/-- The known timeframes with their lengths in seconds. -/
def known : List (String × Int) := [
  ("1m", 60), ("3m", 180), ("5m", 300), ("15m", 900), ("30m", 1800), ("1h", 3600), ("2h", 7200),
  ("4h", 14400), ("6h", 21600), ("8h", 28800), ("12h", 43200), ("1d", 86400), ("3d", 259200),
  ("1w", 604800), ("1mo", 2592000)]

def seconds? (label : String) : Option Int :=
  known.lookup (normalize label)

def defaultSeconds : Int := 60

theorem seconds?_pos {label : String} {n : Int} (h : seconds? label = some n) : 0 < n := by
  unfold seconds? at h
  have hmem : (normalize label, n) ∈ known := by
    rw [List.lookup_eq_some_iff] at h
    obtain ⟨l₁, l₂, hl, _⟩ := h
    rw [hl]; simp
  revert hmem
  generalize normalize label = s
  intro hmem
  simp only [known, List.mem_cons, Prod.mk.injEq, List.not_mem_nil, or_false] at hmem
  omega

end Stratagem.Timeframe

namespace Stratagem.Kline

/-- The known columns with the names that they are shown by. -/
def fields : List (String × String) := [
  ("OPEN", "Open"), ("HIGH", "High"), ("LOW", "Low"), ("CLOSE", "Close"), ("VOLUME", "Volume"),
  ("HL2", "HL2"), ("HLC3", "HLC3"), ("OHLC4", "OHLC4"), ("OC2", "OC2"), ("HLCC4", "HLCC4")]

/-- The key of a column: upper case, no blanks at either end. -/
def key (name : String) : String :=
  Text.upper (Text.trim name)

def isField (name : String) : Bool :=
  (fields.lookup (key name)).isSome

def hint? (key : String) : Option String :=
  fields.lookup key

end Stratagem.Kline

/-! ## References -/

namespace Stratagem

inductive RefKind where
  | indicator
  | field
  | literal
  deriving DecidableEq, Repr

/-- The bars that a reference looks at, counted back from the current one. -/
structure Window where
  low : Nat
  high : Nat
  low_le_high : low ≤ high := by omega
  deriving DecidableEq

namespace Window

def current : Window where
  low := 0
  high := 0

def ofInts (low high : Int) : Except Failure Window :=
  if low < 0 || high < 0 then do
    throw (.reference (.offsetNegative (← Number.intText low) (← Number.intText high)))
  else if h : low ≤ high then .ok ⟨low.toNat, high.toNat, by omega⟩
  else do throw (.reference (.offsetReversed (← Number.intText low) (← Number.intText high)))

theorem ofInts_ofNat (w : Window) : ofInts w.low w.high = .ok w := by
  obtain ⟨l, h, hle⟩ := w
  have : ¬((l : Int) < 0) ∧ ¬((h : Int) < 0) := by omega
  simp [ofInts, this, hle]

end Window

structure ValueRef where
  kind : RefKind
  /-- The code of the indicator. -/
  indicator : String
  timeframe : String
  /-- The source column, the key of a candle column, or the text of a literal. -/
  input : String
  params : List Float
  /-- The output channel. It is a text, except where a draft has named something else. -/
  output : Document
  window : Window
  calcMode : String
  deriving DecidableEq

namespace ValueRef

def defaultOutput : String := "Value"

def defaultCalcMode : String := "OnBarClose"

/-- A negative zero among the parameters is the zero. -/
def unsignedZero (x : Float) : Float :=
  if x == 0 then 0 else x

/-- The reference with the given parts, if they are admissible. Missing parts take their defaults; the
key of a candle column and the text of a literal are brought to their normal form. -/
def make (kind : RefKind) (indicator timeframe input : String) (params : List Float)
    (output : Document) (low high : Int) (calcMode : String) : Except Failure ValueRef := do
  let window ← Window.ofInts low high
  let ref : ValueRef := {
    kind, indicator, timeframe, input, window
    params := params.map unsignedZero
    output := output.orElse (.text defaultOutput)
    calcMode := if calcMode.isEmpty then defaultCalcMode else calcMode }
  match kind with
  | .indicator =>
    if indicator.isEmpty then .error (.reference .noIndicator) else .ok ref
  | .field =>
    let key := Kline.key input
    if key.isEmpty then .error (.reference .noField) else .ok { ref with input := key }
  | .literal =>
    let text := Text.trim input
    let text := if text.isEmpty then "0" else text
    if (Number.readReal? text).isSome then .ok { ref with input := text }
    else .error (.reference (.literalNotNumeric text))

def field (name timeframe : String) (offset : Int) (calcMode : String) : Except Failure ValueRef :=
  make .field "" timeframe name [] .null offset offset calcMode

def literal (text timeframe calcMode : String) : ValueRef where
  kind := .literal
  indicator := ""
  timeframe
  input := text
  params := []
  output := .text defaultOutput
  window := .current
  calcMode

/-- The literal for a number, aligned with a timeframe and a calculation mode. -/
def ofNumber (x : Float) (timeframe calcMode : String) : ValueRef :=
  literal (Number.briefText x) timeframe calcMode

/-! ## Identity -/

def isIndicator (r : ValueRef) : Bool := r.kind == .indicator

def isField (r : ValueRef) : Bool := r.kind == .field

def isLiteral (r : ValueRef) : Bool := r.kind == .literal

def literalValue (r : ValueRef) : Option Float :=
  if r.isLiteral then Number.readReal? r.input else none

def paramsText (params : List Float) : String :=
  ",".intercalate (params.map Number.briefText)

def paramsKey (r : ValueRef) : String :=
  paramsText r.params

/-- The identity of the indicator instance. -/
def indicatorKey (r : ValueRef) : String :=
  "|".intercalate [r.indicator, Timeframe.normalize r.timeframe, r.input, r.paramsKey]

def outputText (r : ValueRef) : Except Failure String :=
  match r.output with
  | .text s => .ok s
  | d => Document.refuse (.notJoinable d)

/-- Whether two references are the same, as far as their output channels hold the same. -/
def alike (r s : ValueRef) : Bool :=
  { r with output := .null } = { s with output := .null } && r.output.alike s.output

def seriesKey (r : ValueRef) : Except Failure String :=
  match r.kind with
  | .literal => .ok ("const|" ++ r.input)
  | .field => .ok ("field|" ++ Timeframe.normalize r.timeframe ++ "|" ++ r.input)
  | .indicator => do
    let output ← r.outputText
    return "|".intercalate
      [r.indicator, Timeframe.normalize r.timeframe, r.input, output, r.paramsKey]

def withOffset (r : ValueRef) (low high : Int) : Except Failure ValueRef := do
  return { r with window := ← Window.ofInts low high }

def withOutput (r : ValueRef) (output : Document) : ValueRef :=
  { r with output := output.orElse (.text defaultOutput) }

/-! ## Text -/

def offsetNote (w : Window) : Except Failure String :=
  if w = .current then .ok ""
  else do return ", offset=[" ++ (← Number.intText w.low) ++ ", " ++ (← Number.intText w.high) ++ "]"

def describe (r : ValueRef) : Except Failure String :=
  match r.kind with
  | .literal => .ok ("Const(" ++ r.input ++ ")")
  | .field => do
    let note ← offsetNote r.window
    return "Field(" ++ Text.quoted r.input ++ note ++ ")"
  | .indicator => do
    let note ← offsetNote r.window
    return "Ref(" ++ Text.quoted (← r.seriesKey) ++ note ++ ")"

end ValueRef

end Stratagem
