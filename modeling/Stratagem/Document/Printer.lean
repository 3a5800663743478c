import Stratagem.Failure
import Stratagem.Number

/-!
# Showing and writing documents

How a number or a document is shown inside a message: a text is quoted, except where the document is shown
on its own. How a document is written: compact on one line, or with one item a line. What holds a whole
number of too many digits can be neither shown nor written.
-/

namespace Stratagem

namespace Number

def intText (n : Int) : Except Failure String :=
  if isTooLong n then .error (.coercion .tooLongToWrite) else .ok (decimal n)

def text : Number → Except Failure String
  | int n => intText n
  | real x => .ok (render plain x)

end Number

namespace Document

mutual

/-- The document as a part of another. -/
def quoted : Document → Except Failure String
  | null => .ok "None"
  | bool true => .ok "True"
  | bool false => .ok "False"
  | int n => Number.intText n
  | real x => .ok (Number.render Number.plain x)
  | text s => .ok (Text.quoted s)
  | list xs => do return "[" ++ ", ".intercalate (← quotedItems xs) ++ "]"
  | record ms => do return "\x7b" ++ ", ".intercalate (← quotedMembers ms) ++ "\x7d"

def quotedItems : List Document → Except Failure (List String)
  | [] => .ok []
  | x :: xs => do return (← x.quoted) :: (← quotedItems xs)

def quotedMembers : List (String × Document) → Except Failure (List String)
  | [] => .ok []
  | (k, x) :: ms => do return (Text.quoted k ++ ": " ++ (← x.quoted)) :: (← quotedMembers ms)

end

/-- The document on its own. -/
def display : Document → Except Failure String
  | text s => .ok s
  | d => d.quoted

/-- The document on its own, `default` if it stands for nothing. -/
def displayOr (default : String) (d : Document) : Except Failure String :=
  if d.isEmpty then .ok default else d.display

@[simp]
theorem display_text (s : String) : (text s).display = .ok s := rfl

/-! ## Writing -/

structure Style where
  /-- Between items on one line. -/
  separator : String
  /-- Between a key and its value. -/
  colon : String
  /-- With one item a line, the spaces a level is indented by. -/
  indent? : Option Nat
  /-- Whether characters beyond ASCII are escaped. -/
  escapes : Bool

namespace Style

def compact : Style := ⟨",", ":", none, false⟩

/-- One item a line, two spaces a level. -/
def pretty : Style := ⟨",", ": ", some 2, false⟩

/-- One item a line, two spaces a level, in ASCII. -/
def prettyAscii : Style := ⟨",", ": ", some 2, true⟩

/-- One line with blanks after the separators, in ASCII. -/
def oneLine : Style := ⟨", ", ": ", none, true⟩

end Style

def hexDigit (n : Nat) : Char :=
  Char.ofNat (if n < 10 then 0x30 + n else 0x57 + n)

def unitEscape (n : Nat) : List Char :=
  ['\\', 'u', hexDigit (n / 0x1000 % 16), hexDigit (n / 0x100 % 16), hexDigit (n / 0x10 % 16),
    hexDigit (n % 16)]

/-- The escape of a code point by its one or two code units. -/
def charEscape (n : Nat) : List Char :=
  if n < 0x10000 then unitEscape n
  else unitEscape (0xD800 + (n - 0x10000) / 0x400) ++ unitEscape (0xDC00 + (n - 0x10000) % 0x400)

def writtenChar (c : Char) : List Char :=
  if c == '"' then ['\\', '"']
  else if c == '\\' then ['\\', '\\']
  else if c == '\n' then ['\\', 'n']
  else if c == '\r' then ['\\', 'r']
  else if c == '\t' then ['\\', 't']
  else if c == '\x08' then ['\\', 'b']
  else if c == '\x0c' then ['\\', 'f']
  else if c.toNat < 0x20 then charEscape c.toNat
  else [c]

def writtenPoint (n : Nat) : List Char :=
  if n < 0x7F then writtenChar (Char.ofNat n) else charEscape n

def writtenText (escapes : Bool) (s : String) : String :=
  let cs :=
    if escapes then (Text.points s.toList).flatMap writtenPoint else s.toList.flatMap writtenChar
  String.ofList (['"'] ++ cs ++ ['"'])

/-- Brackets around the written items of a list or record at a depth. -/
def bracketed (style : Style) (depth : Nat) (opening closing : String) (items : List String) :
    String :=
  if items.isEmpty then opening ++ closing
  else match style.indent? with
    | none => opening ++ style.separator.intercalate items ++ closing
    | some width =>
      let line (depth : Nat) : String := "\n" ++ String.ofList (List.replicate (width * depth) ' ')
      opening ++ line (depth + 1) ++ (style.separator ++ line (depth + 1)).intercalate items ++
        line depth ++ closing

mutual

/-- The written form of a part of a document that lies `depth` levels deep. -/
def writtenAt (style : Style) (depth : Nat) : Document → Except Failure String
  | null => .ok "null"
  | bool true => .ok "true"
  | bool false => .ok "false"
  | int n => Number.intText n
  | real x => .ok (Number.render Number.json x)
  | text s => .ok (writtenText style.escapes s)
  | list xs => bracketed style depth "[" "]" <$> writtenItems style (depth + 1) xs
  | record ms => bracketed style depth "\x7b" "\x7d" <$> writtenMembers style (depth + 1) ms

def writtenItems (style : Style) (depth : Nat) : List Document → Except Failure (List String)
  | [] => .ok []
  | x :: xs => do return (← x.writtenAt style depth) :: (← writtenItems style depth xs)

def writtenMembers (style : Style) (depth : Nat) :
    List (String × Document) → Except Failure (List String)
  | [] => .ok []
  | (k, x) :: ms => do
    return (writtenText style.escapes k ++ style.colon ++ (← x.writtenAt style depth)) ::
      (← writtenMembers style depth ms)

end

/-- The written form of a document, unless it holds a whole number of too many digits. -/
def written (style : Style) (d : Document) : Except Failure String :=
  d.writtenAt style 0

end Document

end Stratagem
