/-!
# Doubles

A finite double is a sign, a mantissa `m` and an exponent `e`, and stands for `± m · 2 ^ e`. Everything
here is computed on these parts with whole numbers, so nothing is rounded. A double is written by the
fewest decimal digits that still lie in the interval of reals that round to it, and of two such decimals
by the nearer one; the record `Layout` decides where the digits stand. With a given number of places or of
digits it is rounded on its exact value, and what lies half way between two decimals goes to the even one.
-/

namespace Stratagem.Number

/-! ## Exact parts -/

open Float.Model

/-- The whole part, dropping the fraction; none for an infinity or no number at all. -/
def truncate? (x : Float) : Option Int :=
  match x.toModel.unpack with
  | .zero _ => some 0
  | .finite s m e _ =>
    some (s.apply (if 0 ≤ e then (m * Nat.pow 2 e.toNat : Nat)
      else (m / Nat.pow 2 (-e).toNat : Nat)))
  | _ => none

def isIntegral (x : Float) : Bool :=
  match x.toModel.unpack with
  | .zero _ => true
  | .finite _ m e _ => 0 ≤ e || m % Nat.pow 2 (-e).toNat == 0
  | _ => false

/-- The whole number that the double is, if it is one. -/
def integral? (x : Float) : Option Int :=
  if isIntegral x then truncate? x else none

/-- The exact order of a whole number and a double; none when the double is no number. -/
def compareInt (n : Int) (x : Float) : Option Ordering :=
  match x.toModel.unpack with
  | .notANumber => none
  | .infinity .positive => some .lt
  | .infinity .negative => some .gt
  | .zero _ => some (compare n 0)
  | .finite s m e _ =>
    some (if 0 ≤ e then compare n (s.apply (m * Nat.pow 2 e.toNat))
      else compare (n * (Nat.pow 2 (-e).toNat : Nat)) (s.apply m))

/-- The nearest double, unless the number is beyond the largest one. -/
def ofInt? (n : Int) : Option Float :=
  let x := Float.ofInt n
  if x.isInf then none else some x

/-! ## Shortest digits

The search tries one digit, two digits and so on; at each length only the two neighbours of the value on
the decimal grid can be in the interval first. -/

/-- The value `digits · 10 ^ exponent`. -/
structure Decimal where
  digits : Nat
  exponent : Int
  deriving Repr, DecidableEq

/-- A positive rational `num / den`. -/
structure Ratio where
  num : Nat
  den : Nat

def Ratio.scaled (base n : Nat) (e : Int) : Ratio :=
  if 0 ≤ e then ⟨n * Nat.pow base e.toNat, 1⟩ else ⟨n, Nat.pow base (-e).toNat⟩

def Ratio.lt (a b : Ratio) : Bool := a.num * b.den < b.num * a.den

def Ratio.le (a b : Ratio) : Bool := a.num * b.den ≤ b.num * a.den

/-- The reals that round to a double: the bounds belong to it when the mantissa is even. -/
structure Interval where
  low : Ratio
  high : Ratio
  closed : Bool

def Interval.contains (i : Interval) (r : Ratio) : Bool :=
  if i.closed then i.low.le r && r.le i.high else i.low.lt r && r.lt i.high

/-- The interval of the double `m · 2 ^ e`. Below a power of two the neighbour is half as far away. -/
def roundingInterval (m : Nat) (e : Int) : Interval where
  low := Ratio.scaled 2 (if m == Nat.pow 2 52 && e != -1074 then 4 * m - 1 else 4 * m - 2) (e - 2)
  high := Ratio.scaled 2 (4 * m + 2) (e - 2)
  closed := m % 2 == 0

/-- The decimal exponent of the leading digit of `m · 2 ^ e`, for `m > 0`. -/
def leadingExponent (m : Nat) (e : Int) : Int :=
  let r := Ratio.scaled 2 m e
  let guess := Int.fdiv ((m.log2 + e) * 30103) 100000
  if (Ratio.scaled 10 1 (guess + 1)).le r then guess + 1
  else if r.lt (Ratio.scaled 10 1 guess) then guess - 1
  else guess

/-- The neighbour of the value on the grid of multiples of `10 ^ exponent` that lies in the interval,
the nearer one when both do, an even one when both are equally near. -/
def gridPoint? (r : Ratio) (i : Interval) (exponent : Int) : Option Decimal :=
  let unit := Ratio.scaled 10 1 exponent
  -- the value in units of the grid is `n / d`
  let n := r.num * unit.den
  let d := r.den * unit.num
  let below := n / d
  let point (k : Nat) : Ratio := Ratio.scaled 10 k exponent
  let belowIn := below != 0 && i.contains (point below)
  let aboveIn := i.contains (point (below + 1))
  if belowIn && aboveIn then
    let twice := 2 * (n % d)
    let k := if twice < d then below else if d < twice then below + 1 else below + below % 2
    some ⟨k, exponent⟩
  else if belowIn then some ⟨below, exponent⟩
  else if aboveIn then some ⟨below + 1, exponent⟩
  else none

/-- Seventeen digits always suffice; with fewer to spend, the search stops at the first hit. -/
def searchDigits (r : Ratio) (i : Interval) (leading : Int) : (remaining : Nat) → Int → Option Decimal
  | 0, _ => none
  | k + 1, count =>
    (gridPoint? r i (leading - count + 1)).orElse fun _ => searchDigits r i leading k (count + 1)

/-- The shortest decimal that reads back as the double `m · 2 ^ e`. -/
def shortest (m : Nat) (e : Int) : Decimal :=
  (searchDigits (Ratio.scaled 2 m e) (roundingInterval m e) (leadingExponent m e) 17 1).getD ⟨m, e⟩

/-! ## Text -/

structure Layout where
  /-- Leading exponents from `low` on, and below `high`, are written positionally. -/
  low : Int
  high : Int
  /-- The fewest digits of a written exponent. -/
  exponentDigits : Nat
  infinity : String
  notANumber : String

/-- Positional from 0.0001 up to 10^16, and always with a point or an exponent. -/
def plain : Layout := ⟨-4, 16, 2, "inf", "nan"⟩

/-- The same layout with the names that a JSON file uses. -/
def json : Layout := { plain with infinity := "Infinity", notANumber := "NaN" }

def digitsOf (n : Nat) : List Char := Nat.toDigits 10 n

def zeros (n : Nat) : List Char := List.replicate n '0'

/-- The digits without zeros at the end, the first digit kept. -/
def dropTrailingZeros (ds : List Char) : List Char :=
  match (ds.reverse.dropWhile (· == '0')).reverse with
  | [] => ['0']
  | kept => kept

def exponentText (l : Layout) (e : Int) : List Char :=
  let ds := digitsOf e.natAbs
  ['e', if e < 0 then '-' else '+'] ++ zeros (l.exponentDigits - ds.length) ++ ds

/-- Digits `d₀d₁d₂…` for the value `d₀.d₁d₂… · 10 ^ leading`. -/
def place (l : Layout) (ds : List Char) (leading : Int) : List Char :=
  if l.low ≤ leading && leading < l.high then
    if leading < 0 then ['0', '.'] ++ zeros (-leading - 1).toNat ++ ds
    else
      let whole := leading.toNat + 1
      ds.take whole ++ zeros (whole - ds.length) ++ ['.'] ++
        (if ds.length ≤ whole then ['0'] else ds.drop whole)
  else
    ds.take 1 ++ (if ds.length ≤ 1 then [] else '.' :: ds.drop 1) ++ exponentText l leading

def signText (s : Float.Model.UnpackedFloat.Sign) : List Char :=
  match s with
  | .positive => []
  | .negative => ['-']

def render (l : Layout) (x : Float) : String :=
  match x.toModel.unpack with
  | .notANumber => l.notANumber
  | .infinity .positive => l.infinity
  | .infinity .negative => "-" ++ l.infinity
  | .zero s => String.ofList (signText s ++ ['0', '.', '0'])
  | .finite s m e _ =>
    let d := shortest m e
    let ds := digitsOf d.digits
    String.ofList (signText s ++ place l (dropTrailingZeros ds) (d.exponent + ds.length - 1))

/-- The digits of a whole number behind its sign. Counts and the whole numbers among the doubles are written
so, which never have many digits. -/
def decimal (n : Int) : String :=
  String.ofList ((if n < 0 then ['-'] else []) ++ digitsOf n.natAbs)

/-- A whole number is read and written with this many digits at most. -/
def maxDigits : Nat := 4300

def isTooLong (n : Int) : Bool :=
  maxDigits < (digitsOf n.natAbs).length

/-- A whole number without point; any other as the shortest digits. -/
def briefText (x : Float) : String :=
  match integral? x with
  | some n => decimal n
  | none => render plain x

/-! ## Decimal places -/

/-- The whole number nearest to `num / den`, of two the even one. -/
def roundEven (num den : Nat) : Nat :=
  let below := num / den
  let twice := 2 * (num % den)
  if twice < den then below else if den < twice then below + 1 else below + below % 2

def Ratio.units (r : Ratio) (exponent : Int) : Nat :=
  let unit := Ratio.scaled 10 1 exponent
  roundEven (r.num * unit.den) (r.den * unit.num)

inductive Form where
  /-- By an exponent, with a number of places. -/
  | scientific
  /-- Not at all; the number has a number of places. -/
  | positional
  /-- By an exponent only if there is need; the number has a number of digits. -/
  | general
  deriving DecidableEq, Repr

/-- Digits around a point. Where there are no places a point stands only if it is asked for. -/
def pointed (point : Bool) (whole places : List Char) : List Char :=
  whole ++ if places.isEmpty && !point then [] else '.' :: places

def placesText (point : Bool) (places m : Nat) (e : Int) : List Char :=
  let ds := digitsOf ((Ratio.scaled 2 m e).units (-places))
  let ds := zeros (places + 1 - ds.length) ++ ds
  pointed point (ds.take (ds.length - places)) (ds.drop (ds.length - places))

/-- The leading digits of `m · 2 ^ e`, and the exponent of the first of them. -/
def leadingDigits (count m : Nat) (e : Int) : List Char × Int :=
  if m == 0 then (zeros count, 0)
  else
    let leading := leadingExponent m e
    let ds := digitsOf ((Ratio.scaled 2 m e).units (leading - count + 1))
    -- rounding may have carried into a further digit
    if count < ds.length then (ds.take count, leading + 1) else (ds, leading)

/-- Digits `d₀d₁d₂…` for the value `d₀.d₁d₂… · 10 ^ leading`, by the exponent. -/
def scientificText (point : Bool) (ds : List Char) (leading : Int) : List Char :=
  pointed point (ds.take 1) (ds.drop 1) ++ exponentText plain leading

def positionalText (point : Bool) (ds : List Char) (leading : Int) : List Char :=
  if leading < 0 then pointed point ['0'] (zeros (-leading - 1).toNat ++ ds)
  else
    let whole := leading.toNat + 1
    pointed point (ds.take whole ++ zeros (whole - ds.length)) (ds.drop whole)

/-- The number `m · 2 ^ e` in a form. In the general one zeros at the end are dropped, unless the
point is asked for. -/
def Form.write (f : Form) (point : Bool) (precision m : Nat) (e : Int) : List Char :=
  match f with
  | .positional => placesText point precision m e
  | .scientific =>
    let (ds, leading) := leadingDigits (precision + 1) m e
    scientificText point ds leading
  | .general =>
    let count := max precision 1
    let (ds, leading) := leadingDigits count m e
    let ds := if point then ds else dropTrailingZeros ds
    if plain.low ≤ leading && leading < count then positionalText point ds leading
    else scientificText point ds leading

def Form.render (f : Form) (point : Bool) (precision : Nat) (x : Float) : List Char :=
  match x.toModel.unpack with
  | .notANumber => plain.notANumber.toList
  | .infinity s => signText s ++ plain.infinity.toList
  | .zero s => signText s ++ f.write point precision 0 0
  | .finite s m e _ => signText s ++ f.write point precision m e

end Stratagem.Number
