import Stratagem.Number.Double
import Stratagem.Text

/-!
# Numbers

A number is a whole number or a double. The two kinds are compared exactly; a difference of the two kinds
is taken between doubles.

In number text, blanks may surround a number, digits may be of any script, and single underscores may
stand between digits. A real number is a decimal with an optional exponent, or the name of an infinity or
of no number, in any letter case.
-/

namespace Stratagem.Number

open Stratagem.Text

/-- Blanks around a number; the information separators are not among them. -/
def isNumberBlank (c : Char) : Bool :=
  isBlank c && !(0x1C ≤ c.toNat && c.toNat ≤ 0x1F)

def trimNumber (cs : List Char) : List Char :=
  ((cs.dropWhile isNumberBlank).reverse.dropWhile isNumberBlank).reverse

def dropSeparators : (afterDigit : Bool) → List Char → List Char
  | _, [] => []
  | afterDigit, c :: cs =>
    if c == '_' && afterDigit && cs.head?.any isDecimalDigit then dropSeparators false cs
    else c :: dropSeparators (isDecimalDigit c) cs

/-- Splits an optional sign off; true is minus. -/
def splitSign : List Char → Bool × List Char
  | '-' :: cs => (true, cs)
  | '+' :: cs => (false, cs)
  | cs => (false, cs)

/-- The number written by decimal digits; other characters count as zeros. -/
def natOfDigits (cs : List Char) : Nat :=
  cs.foldl (fun n c => 10 * n + (digit? c).getD 0) 0

def readExponent? : List Char → Option Int
  | [] => some 0
  | c :: cs =>
    if c == 'e' || c == 'E' then
      let (negative, ds) := splitSign cs
      if ds.isEmpty || !ds.all isDecimalDigit then none
      else some (if negative then -(natOfDigits ds : Int) else natOfDigits ds)
    else none

/-- An unsigned decimal as `m · 10 ^ e`. -/
def readDecimal? (cs : List Char) : Option (Nat × Int) :=
  let (whole, rest) := cs.span isDecimalDigit
  let (fraction, rest) := match rest with
    | '.' :: r => r.span isDecimalDigit
    | r => ([], r)
  if whole.isEmpty && fraction.isEmpty then none
  else (readExponent? rest).map fun e => (natOfDigits (whole ++ fraction), e - fraction.length)

def infinity : Float := 1 / 0

def notANumber : Float := 0 / 0

/-- Beyond this decimal exponent every double is zero or infinite. -/
def exponentBound : Int := 400

def ofDecimal (m : Nat) (e : Int) : Float :=
  let order := e + (m.log2 * 30103 / 100000 : Nat)
  if m == 0 || order < -exponentBound then 0
  else if exponentBound < order then infinity
  else Float.ofScientific m (e < 0) e.natAbs

def readUnsigned? (cs : List Char) : Option Float :=
  let name := String.ofList (cs.map Char.toLower)
  if name == "inf" || name == "infinity" then some infinity
  else if name == "nan" then some notANumber
  else (readDecimal? cs).map fun (m, e) => ofDecimal m e

def readReal? (s : String) : Option Float :=
  let (negative, cs) := splitSign (dropSeparators false (trimNumber s.toList))
  (readUnsigned? cs).map fun x => if negative then -x else x

inductive IntegerReading where
  | value (n : Int)
  | malformed
  | tooLong (digits : Nat)

def readInteger (s : String) : IntegerReading :=
  let (negative, ds) := splitSign (dropSeparators false (trimNumber s.toList))
  if ds.isEmpty || !ds.all isDecimalDigit then .malformed
  else if maxDigits < ds.length then .tooLong ds.length
  else .value (if negative then -(natOfDigits ds : Int) else natOfDigits ds)

end Stratagem.Number

namespace Stratagem

inductive Number where
  | int (n : Int)
  | real (x : Float)
  deriving DecidableEq, Inhabited

namespace Number

/-- `a < b`; false when either is no number. -/
def lt : Number → Number → Bool
  | int a, int b => a < b
  | real a, real b => a < b
  | int a, real b => compareInt a b == some .lt
  | real a, int b => compareInt b a == some .gt

/-- `a ≤ b`; false when either is no number. -/
def le : Number → Number → Bool
  | int a, int b => a ≤ b
  | real a, real b => a ≤ b
  | int a, real b => (compareInt a b).any (·.isLE)
  | real a, int b => (compareInt b a).any (·.isGE)

/-- Whether the numbers are the same; no number is itself. -/
def equals (a b : Number) : Bool :=
  a.le b && b.le a

/-- `a - b`, unless a whole number has no double to stand for it. -/
def sub? : Number → Number → Option Number
  | int a, int b => some (int (a - b))
  | real a, real b => some (real (a - b))
  | int a, real b => (ofInt? a).map fun a => real (a - b)
  | real a, int b => (ofInt? b).map fun b => real (a - b)

def abs : Number → Number
  | int a => int a.natAbs
  | real a => real a.abs

end Number

end Stratagem
