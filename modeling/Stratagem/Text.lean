/-!
# Texts

White space as the Unicode standard has it, together with the four information separators (U+001C to
U+001F), and trimming of it. The decimal digits are the characters of general category Nd. They come in
runs of ten, each run starting with a zero, so the list of zeros is the whole table.

From outside, a text is a list of code points, and one half of a surrogate pair may be among them without
the other. No character stands for a half, so a string keeps it as the private character that lies sixteen
planes above it. Where such a character is meant itself, an escape character stands in front of it.
-/

namespace Stratagem.Text

/-- White space or an information separator. -/
def isBlank (c : Char) : Bool :=
  let n := c.toNat
  (0x09 ≤ n && n ≤ 0x0D) || (0x1C ≤ n && n ≤ 0x20) || n == 0x85 || n == 0xA0 || n == 0x1680 ||
    (0x2000 ≤ n && n ≤ 0x200A) || n == 0x2028 || n == 0x2029 || n == 0x202F || n == 0x205F ||
    n == 0x3000

def trimChars (cs : List Char) : List Char :=
  ((cs.dropWhile isBlank).reverse.dropWhile isBlank).reverse

def trim (s : String) : String :=
  String.ofList (trimChars s.toList)

def squeeze (s : String) : String :=
  String.ofList (s.toList.filter fun c => !isBlank c)

/-! ## Decimal digits -/

def digitZeros : List Nat := [
  0x30, 0x660, 0x6F0, 0x7C0, 0x966, 0x9E6, 0xA66, 0xAE6, 0xB66, 0xBE6, 0xC66, 0xCE6, 0xD66, 0xDE6,
  0xE50, 0xED0, 0xF20, 0x1040, 0x1090, 0x17E0, 0x1810, 0x1946, 0x19D0, 0x1A80, 0x1A90, 0x1B50,
  0x1BB0, 0x1C40, 0x1C50, 0xA620, 0xA8D0, 0xA900, 0xA9D0, 0xA9F0, 0xAA50, 0xABF0, 0xFF10, 0x104A0,
  0x10D30, 0x11066, 0x110F0, 0x11136, 0x111D0, 0x112F0, 0x11450, 0x114D0, 0x11650, 0x116C0, 0x11730,
  0x118E0, 0x11950, 0x11C50, 0x11D50, 0x11DA0, 0x16A60, 0x16AC0, 0x16B50, 0x1D7CE, 0x1D7D8, 0x1D7E2,
  0x1D7EC, 0x1D7F6, 0x1E140, 0x1E2F0, 0x1E950, 0x1FBF0]

/-- The value of a decimal digit of any script. -/
def digit? (c : Char) : Option Nat :=
  digitZeros.findSome? fun z => if z ≤ c.toNat && c.toNat < z + 10 then some (c.toNat - z) else none

def isDecimalDigit (c : Char) : Bool :=
  (digit? c).isSome

example : digit? '7' = some 7 := by decide
example : digit? 'x' = none := by decide

/-! ## Code points -/

namespace Point

def first : Nat := 0xD800

def stop : Nat := 0xE000

/-- How far above a half the character lies that keeps it. -/
def lift : Nat := 0x100000

def bound : Nat := 0x110000

def isHalf (n : Nat) : Bool := first ≤ n && n < stop

/-- Stands in front of a character that is meant itself. -/
def escape : Char := Char.ofNat (stop + lift)

def isKeeper (c : Char) : Bool := isHalf (c.toNat - lift)

def ofChar (c : Char) : Nat := if isKeeper c then c.toNat - lift else c.toNat

/-- The characters that keep a code point. -/
def kept (n : Nat) : List Char :=
  if isHalf n then [Char.ofNat (n + lift)]
  else
    let c := Char.ofNat n
    if isKeeper c || c == escape then [escape, c] else [c]

end Point

open Point

/-- The characters of each code point. -/
def chunks : List Char → List (List Char)
  | [] => []
  | [c] => [[c]]
  | c :: d :: cs => if c == escape then [c, d] :: chunks cs else [c] :: chunks (d :: cs)

def pointOf : List Char → Nat
  | [c] => ofChar c
  | cs => cs.getLastD escape |>.toNat

def points (cs : List Char) : List Nat := (chunks cs).map pointOf

def size (s : String) : Nat := (chunks s.toList).length

/-- How many bytes a text takes. A half on its own stands for one byte. -/
def byteSize (s : String) : Nat :=
  (points s.toList).foldl (fun done n => done + (Char.ofNat n).utf8Size) 0

/-- Whether a text comes before another one, by their code points. The escape lies among the characters that
it stands in front of, so it keeps their place. -/
def before (s t : String) : Bool := s.toList.map ofChar < t.toList.map ofChar

def holdsHalf (s : String) : Bool := (points s.toList).any isHalf

/-- A text of characters as it is kept. -/
def inward (s : String) : String := String.ofList (s.toList.flatMap fun c => kept c.toNat)

/-- A text that was kept, in characters. A half is lost. -/
def outward (s : String) : String := String.ofList ((points s.toList).map Char.ofNat)

end Stratagem.Text
