import Stratagem.Compiled
import Stratagem.Selection
import Stratagem.Settings

/-!
# Trade settings

Where a strategy trades, how much, and when it gives up. A partial record is merged over a base: a value
that is missing, or that cannot be read, leaves the one of the base.
-/

namespace Stratagem

structure Sizing where
  orderQty : Float
  maxPositionQty : Number
  leverage : Int
  deriving DecidableEq

structure TrailingStop where
  enabled : Bool
  activationProfitPct : Float
  closeOnDrawdownPct : Float
  deriving DecidableEq

structure Risk where
  takeProfitPct : Float
  stopLossPct : Float
  trailing : TrailingStop
  deriving DecidableEq

structure Trade where
  exchange : String
  symbol : String
  timeframeSec : Int
  positionMode : String
  openConflictPolicy : String
  sizing : Sizing
  risk : Risk
  deriving DecidableEq

namespace Sizing

def default : Sizing := ⟨0.001, .int 10, 100⟩

def checked (s : Sizing) : Except Failure Sizing :=
  if s.orderQty ≤ 0 then .error (.trade (.orderQty (Number.render Number.plain s.orderQty)))
  else if s.maxPositionQty.le (.int 0) then do
    throw (.trade (.maxPositionQty (← s.maxPositionQty.text)))
  else if s.leverage < 1 then do throw (.trade (.leverage (← Number.intText s.leverage)))
  else .ok s

def toDocument (s : Sizing) : Document :=
  .record [
    ("orderQty", .real s.orderQty),
    ("maxPositionQty", .ofNumber s.maxPositionQty),
    ("leverage", .int s.leverage)]

end Sizing

namespace TrailingStop

def default : TrailingStop := ⟨false, 1.0, 0.2⟩

def toDocument (t : TrailingStop) : Document :=
  .record [
    ("enabled", .bool t.enabled),
    ("activationProfitPct", .real t.activationProfitPct),
    ("closeOnDrawdownPct", .real t.closeOnDrawdownPct)]

end TrailingStop

namespace Risk

def default : Risk := ⟨2.0, 1.0, .default⟩

def toDocument (r : Risk) : Document :=
  .record [
    ("takeProfitPct", .real r.takeProfitPct),
    ("stopLossPct", .real r.stopLossPct),
    ("trailing", r.trailing.toDocument)]

end Risk

namespace PositionMode

def cross : String := "Cross"

def isolated : String := "Isolated"

def occursIn (word : List Char) : List Char → Bool
  | [] => word.isEmpty
  | c :: cs => word.isPrefixOf (c :: cs) || occursIn word cs

/-- The mode that a text spells: any spelling of cross, isolated or hedge is known, a blank text is
none, and another text is kept. -/
def normalize (raw : String) : String :=
  let value := (Text.lower (Text.trim raw)).toList
  let mentions (word : String) : Bool := occursIn word.toList value
  if value.isEmpty then ""
  else if mentions "cross" then cross
  else if mentions "isolate" then isolated
  else if mentions "longshort" || mentions "hedge" then cross
  else raw

end PositionMode

namespace Trade

def giveUp : String := "GiveUp"

def default (exchange symbol : String) : Trade where
  exchange
  symbol
  timeframeSec := Timeframe.defaultSeconds
  positionMode := PositionMode.cross
  openConflictPolicy := giveUp
  sizing := .default
  risk := .default

def ofSettings (s : Settings) : Trade :=
  default s.exchange s.symbol

def checked (t : Trade) : Except Failure Trade :=
  if t.timeframeSec ≤ 0 then do throw (.trade (.timeframe (← Number.intText t.timeframeSec)))
  else .ok t

def toDocument (t : Trade) : Document :=
  .record [
    ("exchange", .text t.exchange),
    ("symbol", .text t.symbol),
    ("timeframeSec", .int t.timeframeSec),
    ("positionMode", .text t.positionMode),
    ("openConflictPolicy", .text t.openConflictPolicy),
    ("sizing", t.sizing.toDocument),
    ("risk", t.risk.toDocument)]

/-! ## Merging -/

open Document (member)

/-- A record inside a record, empty if there is none. -/
def subsection (ms : List (String × Document)) (key what : String) :
    Except Failure (List (String × Document)) :=
  match member ms key with
  | .null => .ok []
  | d => Wire.record what d

/-- The text under a key, or `base` if it is missing or empty. -/
def mergeText (ms : List (String × Document)) (key base : String) : Except Failure String := do
  match ← (member ms key).lenientText with
  | some s => return if s.isEmpty then base else s
  | none => return base

def mergeReal (ms : List (String × Document)) (key : String) (base : Float) :
    Except Failure Float := do
  return (← (member ms key).lenientReal).getD base

def mergeNumber (ms : List (String × Document)) (key : String) (base : Number) :
    Except Failure Number := do
  return ((← (member ms key).lenientReal).map .real).getD base

def mergeInteger (ms : List (String × Document)) (key : String) (base : Int) : Int :=
  (member ms key).lenientInteger.getD base

def mergeFlag (ms : List (String × Document)) (key : String) (base : Bool) : Bool :=
  (member ms key).lenientFlag.getD base

def mergePositionMode (ms : List (String × Document)) (base : String) : Except Failure String := do
  let mode := PositionMode.normalize (← (member ms "positionMode").textOrEmpty)
  return if mode.isEmpty then base else mode

def mergeSizing (base : Sizing) (ms : List (String × Document)) : Except Failure Sizing := do
  let orderQty ← mergeReal ms "orderQty" base.orderQty
  let maxPositionQty ← mergeNumber ms "maxPositionQty" base.maxPositionQty
  let leverage := mergeInteger ms "leverage" base.leverage
  ({ orderQty, maxPositionQty, leverage } : Sizing).checked

def mergeTrailing (base : TrailingStop) (ms : List (String × Document)) :
    Except Failure TrailingStop := do
  return {
    enabled := mergeFlag ms "enabled" base.enabled
    activationProfitPct := ← mergeReal ms "activationProfitPct" base.activationProfitPct
    closeOnDrawdownPct := ← mergeReal ms "closeOnDrawdownPct" base.closeOnDrawdownPct }

def mergeRisk (base : Risk) (ms trailing : List (String × Document)) : Except Failure Risk := do
  return {
    takeProfitPct := ← mergeReal ms "takeProfitPct" base.takeProfitPct
    stopLossPct := ← mergeReal ms "stopLossPct" base.stopLossPct
    trailing := ← mergeTrailing base.trailing trailing }

def mergeMembers (base : Trade) (ms : List (String × Document)) : Except Failure Trade := do
  let sizing ← subsection ms "sizing" "trade.sizing"
  let risk ← subsection ms "risk" "trade.risk"
  let trailing ← subsection risk "trailing" "trade.risk.trailing"
  placed (some "Invalid trade config") false do
    let exchange ← mergeText ms "exchange" base.exchange
    let symbol ← mergeText ms "symbol" base.symbol
    let timeframeSec := mergeInteger ms "timeframeSec" base.timeframeSec
    let positionMode ← mergePositionMode ms base.positionMode
    let openConflictPolicy ← mergeText ms "openConflictPolicy" base.openConflictPolicy
    let sizing ← mergeSizing base.sizing sizing
    let risk ← mergeRisk base.risk risk trailing
    ({
      exchange, symbol, timeframeSec, positionMode, openConflictPolicy, sizing, risk
      } : Trade).checked

/-- Merges a partial record over a base. A document that stands for nothing changes nothing. -/
def merge (base : Trade) (partialRecord : Document) : Except Failure Trade :=
  if partialRecord.isEmpty then .ok base
  else do mergeMembers base (← Wire.record "trade" partialRecord)

end Trade

/-- The length of the first known timeframe among the selected indicators. -/
def Selection.timeframeSeconds (s : Selection) : Int :=
  (s.indicators.findSome? fun i => Timeframe.seconds? i.timeframe).getD Timeframe.defaultSeconds

structure Strategy where
  trade : Trade
  logic : Compiled.Logic
  deriving DecidableEq

namespace Strategy

/-- Reads a strategy. Trade settings are merged over `base`, which is asked for once the record has logic. -/
def ofDocument (base : Except Failure Trade) (raw : Document) : Except Failure Strategy := do
  let ms ← Wire.record "Strategy config" raw
  match Document.lookup ms "logic" with
  | none => .error (.format .noLogicSection)
  | some logic =>
    let trade ← (← base).merge (Document.member ms "trade")
    return ⟨trade, ← Compiled.Logic.ofDocument logic⟩

def toDocument (s : Strategy) : Document :=
  .record [("trade", s.trade.toDocument), ("logic", s.logic.toDocument)]

end Strategy

end Stratagem
