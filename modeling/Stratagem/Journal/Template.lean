import Stratagem.Document.Coercion
import Stratagem.Number.Double

/-!
# Templates

A template is a text with places for values. A place starts with a percent sign and ends with a letter
that says how its value is shown; between them stand, in this order, the name of the value, flags, the
width and the precision of the place, and a letter of no consequence. A doubled percent sign stands for
itself.
-/

namespace Stratagem.Journal

inductive Size where
  | unset
  | fixed (n : Nat)
  /-- The size is the next value. -/
  | next
  deriving DecidableEq, Repr

structure Place where
  name? : Option String
  /-- The characters `-`, `+`, blank, `#` and `0`, as often as they were given. -/
  flags : List Char
  width : Size
  precision : Size
  conversion : Char
  deriving DecidableEq, Repr

inductive Segment where
  | char (c : Char)
  | place (p : Place)
  /-- A place whose name has no end. -/
  | unclosed
  /-- A place that has no end, or a size beyond bounds. -/
  | malformed
  deriving DecidableEq, Repr

/-! ## Reading -/

namespace Place

/-- The name of a value up to its closing parenthesis, and what follows. Inner parentheses are pairs. -/
def readName? : (depth : Nat) → List Char → Option (List Char × List Char)
  | _, [] => none
  | 0, ')' :: cs => some ([], cs)
  | d + 1, ')' :: cs => (readName? d cs).map fun (name, rest) => (')' :: name, rest)
  | d, '(' :: cs => (readName? (d + 1) cs).map fun (name, rest) => ('(' :: name, rest)
  | d, c :: cs => (readName? d cs).map fun (name, rest) => (c :: name, rest)

def isFlag (c : Char) : Bool :=
  c == '-' || c == '+' || c == ' ' || c == '#' || c == '0'

def readSize : List Char → Size × List Char
  | '*' :: cs => (.next, cs)
  | cs =>
    match cs.takeWhile Char.isDigit with
    | [] => (.unset, cs)
    | ds => (.fixed (Number.natOfDigits ds), cs.dropWhile Char.isDigit)

/-- A precision is announced by a point; without a number it is zero. -/
def readPrecision : List Char → Size × List Char
  | '.' :: cs =>
    match readSize cs with
    | (.unset, rest) => (.fixed 0, rest)
    | read => read
  | cs => (.unset, cs)

def dropModifier : List Char → List Char
  | 'h' :: cs | 'l' :: cs | 'L' :: cs => cs
  | cs => cs

def widthBound : Nat := 9223372036854775808

def precisionBound : Nat := 2147483648

def Size.isBelow (bound : Nat) : Size → Bool
  | .fixed n => n < bound
  | _ => true

/-- A place behind its name, and what follows. -/
def readShape (name? : Option String) (cs : List Char) : Segment × List Char :=
  let flags := cs.takeWhile isFlag
  let (width, cs) := readSize (cs.dropWhile isFlag)
  let (precision, cs) := readPrecision cs
  match dropModifier cs with
  | [] => (.malformed, [])
  | c :: rest =>
    if Size.isBelow widthBound width && Size.isBelow precisionBound precision then
      (.place ⟨name?, flags, width, precision, c⟩, rest)
    else (.malformed, rest)

/-- A place behind its percent sign, and what follows. -/
def read : List Char → Segment × List Char
  | '(' :: cs =>
    match readName? 0 cs with
    | some (name, rest) => readShape (some (String.ofList name)) rest
    | none => (.unclosed, [])
  | cs => readShape none cs

theorem readName?_length {d : Nat} {cs name rest : List Char} (h : readName? d cs = some (name, rest)) :
    rest.length ≤ cs.length := by
  fun_induction readName? d cs generalizing name with
  | case1 => cases h
  | case2 cs => cases h; simp
  | case3 d cs ih | case4 d cs ih | case5 d c cs _ _ _ ih =>
    obtain ⟨⟨n, r⟩, hr, he⟩ := Option.map_eq_some_iff.1 h
    cases he
    have := ih hr
    simp only [List.length_cons]
    omega

theorem readSize_length (cs : List Char) : (readSize cs).2.length ≤ cs.length := by
  unfold readSize
  split
  · simp
  · split
    · exact Nat.le_refl _
    · exact (List.dropWhile_sublist _).length_le

theorem readPrecision_length (cs : List Char) : (readPrecision cs).2.length ≤ cs.length := by
  unfold readPrecision
  split
  · rename_i cs
    have h := readSize_length cs
    split
    · rename_i rest hr
      rw [hr] at h
      simp only [List.length_cons] at h ⊢
      omega
    · simp only [List.length_cons]
      omega
  · exact Nat.le_refl _

theorem dropModifier_length (cs : List Char) : (dropModifier cs).length ≤ cs.length := by
  unfold dropModifier
  split <;> simp

theorem readShape_length (name? : Option String) (cs : List Char) :
    (readShape name? cs).2.length ≤ cs.length := by
  have hf := (List.dropWhile_sublist (l := cs) isFlag).length_le
  have hw := readSize_length (cs.dropWhile isFlag)
  have hp := readPrecision_length (readSize (cs.dropWhile isFlag)).2
  have hm := dropModifier_length (readPrecision (readSize (cs.dropWhile isFlag)).2).2
  unfold readShape
  simp only
  split
  · simp
  · rename_i c rest hr
    rw [hr] at hm
    simp only [List.length_cons] at hm
    split <;> simp only <;> omega

theorem read_length (cs : List Char) : (read cs).2.length ≤ cs.length := by
  unfold read
  split
  · rename_i cs
    split
    · rename_i name rest hn
      have h1 := readName?_length hn
      have h2 := readShape_length (some (String.ofList name)) rest
      simp only [List.length_cons]
      omega
    · simp
  · exact readShape_length none _

end Place

def segments : List Char → List Segment
  | [] => []
  | '%' :: '%' :: cs => .char '%' :: segments cs
  | '%' :: cs => (Place.read cs).1 :: segments (Place.read cs).2
  | c :: cs => .char c :: segments cs
termination_by cs => cs.length
decreasing_by
  all_goals simp only [List.length_cons]
  · omega
  · have := Place.read_length cs
    omega
  · omega

/-! ## Values -/

/-- The values that are left. They have names if there is only one and it is a record. -/
structure Values where
  left : List Document
  named? : Option (List (String × Document))

namespace Values

def refuse {α : Type} (c : Failure.Template) : Except Failure α :=
  .error (.template c)

def of (values : List Document) : Values where
  left := values
  named? := match values with
    | [.record (m :: ms)] => some (m :: ms)
    | _ => none

def next (v : Values) : Except Failure (Document × Values) :=
  match v.left with
  | [] => refuse .tooFewValues
  | d :: ds => .ok (d, { v with left := ds })

/-- The values with the one of the given name as the only one left. -/
def only (v : Values) (name : String) : Except Failure Values :=
  match v.named? with
  | none => refuse .unnamedValues
  | some ms =>
    match Document.lookup ms name with
    | some d => .ok { v with left := [d] }
    | none => refuse (.noValue name)

/-- A whole number among the values, where a flag counts as zero or one. -/
def whole? : Document → Option Int
  | .int n => some n
  | .bool b => some (if b then 1 else 0)
  | _ => none

def size (bound : Nat) (v : Values) : Size → Except Failure (Option Int × Values)
  | .unset => .ok (none, v)
  | .fixed n => .ok (some n, v)
  | .next => do
    let (d, v) ← v.next
    match whole? d with
    | none => refuse (.sizeNotWhole d)
    | some n =>
      if n < -(bound : Int) || (bound : Int) ≤ n then refuse .sizeOutOfBounds
      else return (some n, v)

end Values

/-! ## Filling -/

/-- A value as it is shown, before it is fitted into its place. -/
structure Shown where
  /-- Whether signs and zeros may be put before the value. -/
  numeric : Bool
  negative : Bool
  /-- The sign of a base. -/
  base : List Char
  body : List Char

namespace Shown

def ofText (cs : List Char) : Shown := ⟨false, false, [], cs⟩

/-- A number as it was written, with its sign. -/
def ofNumeral : List Char → Shown
  | '-' :: cs => ⟨true, true, [], cs⟩
  | cs => ⟨true, false, [], cs⟩

/-- A whole number in a base, with at least `precision` digits. -/
def ofWhole (base : Nat) (mark : List Char) (upper : Bool) (precision : Nat) (n : Int) : Shown :=
  let ds := Nat.toDigits base n.natAbs
  let ds := if upper then ds.map Char.toUpper else ds
  ⟨true, n < 0, mark, Number.zeros (precision - ds.length) ++ ds⟩

end Shown

namespace Place

def has (p : Place) (flag : Char) : Bool := p.flags.contains flag

/-- A value as a whole number, unless it is a double. -/
def wholeOf (c : Char) (d : Document) : Except Failure Int :=
  (Values.whole? d).elim (Values.refuse (.notConvertible c d)) .ok

/-- A value as a whole number of few enough digits; the fraction of a double is dropped. -/
def decimalOf (c : Char) (d : Document) : Except Failure Int := do
  let n ← match d with
    | .real x => Document.wholePart x
    | d => wholeOf c d
  if Number.isTooLong n then Document.refuse .tooLongToWrite
  return n

def realOf (c : Char) : Document → Except Failure Float
  | .text s => Values.refuse (.notConvertible c (.text s))
  | d => d.toReal

def characterOf (c : Char) (d : Document) : Except Failure (List Char) :=
  match d with
  | .text s =>
    match Text.chunks s.toList with
    | [only] => .ok only
    | _ => Values.refuse (.notConvertible c d)
  | d => do
    let n ← wholeOf c d
    if n < 0 || 0x110000 ≤ n then Values.refuse .noCharacter
    else return Text.Point.kept n.toNat

def cut (precision? : Option Int) (cs : List Char) : List Char :=
  precision?.elim cs fun n => ((Text.chunks cs).take n.toNat).flatten

/-- Every code point beyond the first 128 by its escape. -/
def plainForm (cs : List Char) : List Char :=
  (Text.points cs).flatMap fun n => if n < 0x80 then [Char.ofNat n] else Text.codePointEscape n

def defaultPrecision : Nat := 6

def showReal (p : Place) (f : Number.Form) (upper : Bool) (precision? : Option Int) (d : Document) :
    Except Failure Shown := do
  let x ← realOf p.conversion d
  let cs := f.render (p.has '#') (precision?.elim defaultPrecision Int.toNat) x
  return .ofNumeral (if upper then cs.map Char.toUpper else cs)

/-- Shows a value as the letter of the place says. -/
def present (p : Place) (precision? : Option Int) (d : Document) : Except Failure Shown :=
  let digits := precision?.elim 0 Int.toNat
  let mark (cs : List Char) : List Char := if p.has '#' then cs else []
  match p.conversion with
  | 's' => do return .ofText (cut precision? (← d.display).toList)
  | 'r' => do return .ofText (cut precision? (← d.quoted).toList)
  | 'a' => do return .ofText (cut precision? (plainForm (← d.quoted).toList))
  | 'd' | 'i' | 'u' => .ofWhole 10 [] false digits <$> decimalOf p.conversion d
  | 'o' => .ofWhole 8 (mark ['0', 'o']) false digits <$> wholeOf p.conversion d
  | 'x' => .ofWhole 16 (mark ['0', 'x']) false digits <$> wholeOf p.conversion d
  | 'X' => .ofWhole 16 (mark ['0', 'X']) true digits <$> wholeOf p.conversion d
  | 'e' => p.showReal .scientific false precision? d
  | 'E' => p.showReal .scientific true precision? d
  | 'f' => p.showReal .positional false precision? d
  | 'F' => p.showReal .positional true precision? d
  | 'g' => p.showReal .general false precision? d
  | 'G' => p.showReal .general true precision? d
  | 'c' => .ofText <$> characterOf p.conversion d
  | c => Values.refuse (.unknownConversion c)

def signOf (p : Place) (s : Shown) : List Char :=
  if s.negative then ['-']
  else if !s.numeric then []
  else if p.has '+' then ['+']
  else if p.has ' ' then [' ']
  else []

/-- Fits a value into its place. A negative width asks for the left side. -/
def fit (p : Place) (width : Int) (s : Shown) : List Char :=
  let sign := p.signOf s
  let gap := width.natAbs - (sign.length + s.base.length + (Text.chunks s.body).length)
  let whole := sign ++ s.base ++ s.body
  if p.has '-' || width < 0 then whole ++ List.replicate gap ' '
  else if s.numeric && p.has '0' then sign ++ s.base ++ Number.zeros gap ++ s.body
  else List.replicate gap ' ' ++ whole

/-- Fills the place with the values that it takes. -/
def fill (p : Place) (v : Values) : Except Failure (List Char × Values) := do
  let v ← p.name?.elim (.ok v) v.only
  let (width?, v) ← v.size widthBound p.width
  let (precision?, v) ← v.size precisionBound p.precision
  let (d, v) ← v.next
  return (p.fit (width?.getD 0) (← p.present precision? d), v)

end Place

/-- Fills segments with values. All values have to be used, unless they have names. -/
def fillSegments (v : Values) : List Segment → Except Failure (List Char)
  | [] => if v.left.isEmpty || v.named?.isSome then .ok [] else Values.refuse .surplusValues
  | .char c :: rest => do return c :: (← fillSegments v rest)
  | .place p :: rest => do
    let (cs, v) ← p.fill v
    return cs ++ (← fillSegments v rest)
  | .unclosed :: _ => Values.refuse (if v.named?.isSome then .malformed else .unnamedValues)
  | .malformed :: _ => Values.refuse .malformed

/-- A template with its values. Without values it is taken as it is. -/
def fillTemplate (template : String) (values : List Document) : Except Failure String :=
  if values.isEmpty then .ok template
  else String.ofList <$> fillSegments (.of values) (segments template.toList)

end Stratagem.Journal
