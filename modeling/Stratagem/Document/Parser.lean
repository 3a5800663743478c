import Stratagem.Document
import Stratagem.Number
import Stratagem.Text

/-!
# Reading written documents

The text of a document is split into brackets, separators, texts, numbers and words. Numbers may be
whole, or have a fraction or an exponent, and are written with ASCII digits only. Apart from null, true
and false, the words are the names of the doubles that are no finite numbers. The tokens are consumed one
by one; the state holds the lists and records that are not closed yet, innermost first.
-/

namespace Stratagem.Document

inductive Token where
  | open (record : Bool)
  | close (record : Bool)
  | comma
  | colon
  | leaf (d : Document)

inductive Unwritten where
  | malformed
  /-- A whole number has more digits than are read. -/
  | tooLong (digits : Nat)
  /-- Lists and records are nested too deeply. -/
  | tooDeep
  deriving DecidableEq, Repr

namespace Token

def isSpace (c : Char) : Bool :=
  c == ' ' || c == '\t' || c == '\n' || c == '\r'

def hexValue? (c : Char) : Option Nat :=
  if '0' ≤ c && c ≤ '9' then some (c.toNat - 0x30)
  else if 'a' ≤ c && c ≤ 'f' then some (c.toNat - 0x57)
  else if 'A' ≤ c && c ≤ 'F' then some (c.toNat - 0x37)
  else none

def codeUnit? (a b c d : Char) : Option Nat := do
  return (((← hexValue? a) * 16 + (← hexValue? b)) * 16 + (← hexValue? c)) * 16 + (← hexValue? d)

def escapes : List (Char × Char) :=
  [('"', '"'), ('\\', '\\'), ('/', '/'), ('b', '\x08'), ('f', '\x0c'), ('n', '\n'), ('r', '\r'),
    ('t', '\t')]

/-- Puts the characters that keep a code point in front of characters in reverse. -/
def put (n : Nat) (done : List Char) : List Char :=
  (Text.Point.kept n).reverse ++ done

/-- The rest of a text up to its closing quote, characters read so far in reverse. A pair of surrogate
code units is one code point. -/
def readText (done : List Char) : List Char → Option (List Char × List Char)
  | '"' :: rest => some (done.reverse, rest)
  | '\\' :: 'u' :: a :: b :: c :: d :: rest =>
    match codeUnit? a b c d, rest with
    | some high, '\\' :: 'u' :: e :: f :: g :: h :: rest' =>
      match codeUnit? e f g h with
      | some low =>
        if 0xD800 ≤ high && high < 0xDC00 && 0xDC00 ≤ low && low < 0xE000 then
          readText (put (0x10000 + (high - 0xD800) * 0x400 + (low - 0xDC00)) done) rest'
        else readText (put high done) ('\\' :: 'u' :: e :: f :: g :: h :: rest')
      | none => none
    | some unit, rest => readText (put unit done) rest
    | none, _ => none
  | '\\' :: c :: rest =>
    match escapes.lookup c with
    | some e => readText (e :: done) rest
    | none => none
  | c :: rest => if c.toNat < 0x20 then none else readText (c :: done) rest
  | [] => none

def isDigit (c : Char) : Bool :=
  '0' ≤ c && c ≤ '9'

/-- The whole digits of a number: a single zero, or digits that do not start with one. -/
def wholeDigits : List Char → List Char × List Char
  | '0' :: rest => (['0'], rest)
  | cs => cs.span isDigit

/-- A fraction, unless no digit follows the point. -/
def fractionDigits : List Char → List Char × List Char
  | '.' :: rest =>
    match rest.span isDigit with
    | ([], _) => ([], '.' :: rest)
    | (ds, rest') => ('.' :: ds, rest')
  | cs => ([], cs)

/-- An exponent, unless no digit follows its letter and sign. -/
def exponentDigits : List Char → List Char × List Char
  | e :: rest =>
    if e == 'e' || e == 'E' then
      let (sign, ds) := match rest with
        | '-' :: ds => (['-'], ds)
        | '+' :: ds => (['+'], ds)
        | ds => ([], ds)
      match ds.span isDigit with
      | ([], _) => ([], e :: rest)
      | (digits, rest') => (e :: sign ++ digits, rest')
    else ([], e :: rest)
  | [] => ([], [])

/-- An unsigned number after its sign. -/
def readNumber (sign : List Char) (cs : List Char) : Except Unwritten (Document × List Char) :=
  match wholeDigits cs with
  | ([], _) => .error .malformed
  | (whole, rest) =>
    let (fraction, rest) := fractionDigits rest
    let (exponent, rest) := exponentDigits rest
    if fraction.isEmpty && exponent.isEmpty then
      match Number.readInteger (String.ofList (sign ++ whole)) with
      | .value n => .ok (int n, rest)
      | .tooLong digits => .error (.tooLong digits)
      | .malformed => .error .malformed
    else
      match Number.readReal? (String.ofList (sign ++ whole ++ fraction ++ exponent)) with
      | some x => .ok (real x, rest)
      | none => .error .malformed

def words : List (List Char × Document) :=
  [("null".toList, null), ("true".toList, bool true), ("false".toList, bool false),
    ("NaN".toList, real Number.notANumber), ("Infinity".toList, real Number.infinity),
    ("-Infinity".toList, real (-Number.infinity))]

def readWord (cs : List Char) : Option (Document × List Char) :=
  words.findSome? fun (word, d) =>
    if word.isPrefixOf cs then some (d, cs.drop word.length) else none

def next (cs : List Char) : Except Unwritten (Token × List Char) :=
  match cs with
  | '\x7b' :: rest => .ok (.open true, rest)
  | '\x7d' :: rest => .ok (.close true, rest)
  | '[' :: rest => .ok (.open false, rest)
  | ']' :: rest => .ok (.close false, rest)
  | ',' :: rest => .ok (.comma, rest)
  | ':' :: rest => .ok (.colon, rest)
  | '"' :: rest =>
    match readText [] rest with
    | some (s, rest) => .ok (.leaf (text (String.ofList s)), rest)
    | none => .error .malformed
  | cs =>
    match readWord cs, cs with
    | some (d, rest), _ => .ok (.leaf d, rest)
    | none, '-' :: rest => do let (d, rest) ← readNumber ['-'] rest; return (.leaf d, rest)
    | none, cs => do let (d, rest) ← readNumber [] cs; return (.leaf d, rest)

/-- The tokens up to the end or to what is no token, the ones read so far in reverse. -/
def readAll (done : List Token) : (fuel : Nat) → List Char → List Token × Option Unwritten
  | 0, _ => (done.reverse, some .malformed)
  | fuel + 1, cs =>
    match cs.dropWhile isSpace with
    | [] => (done.reverse, none)
    | cs =>
      match next cs with
      | .ok (token, rest) => readAll (token :: done) fuel rest
      | .error fault => (done.reverse, some fault)

/-- The tokens of a text, and what stands behind them if it is no token. -/
def ofText (s : String) : List Token × Option Unwritten :=
  readAll [] (s.length + 1) s.toList

end Token

/-! ## Consuming tokens -/

inductive Frame where
  | list (done : List Document)
  | record (done : List (String × Document)) (key : String)

inductive Reading where
  /-- A value, or the end of the list that was just opened. -/
  | value (frames : List Frame) (orClose : Bool)
  /-- A key, or the end of the record that was just opened. -/
  | key (done : List (String × Document)) (frames : List Frame) (orClose : Bool)
  | colon (done : List (String × Document)) (key : String) (frames : List Frame)
  /-- A separator or the end, a value having been read. -/
  | after (value : Document) (frames : List Frame)

namespace Reading

/-- So many lists and records may be nested. -/
def depthLimit : Nat := 985

/-- Opens a list or record inside the given ones, unless they are too many. -/
def opened (frames : List Frame) (r : Reading) : Except Unwritten Reading :=
  if depthLimit ≤ frames.length then .error .tooDeep else .ok r

def step : Reading → Token → Except Unwritten Reading
  | value frames _, .open false => opened frames (value (.list [] :: frames) true)
  | value frames _, .open true => opened frames (key [] frames true)
  | value (.list [] :: frames) true, .close false => .ok (after (.list []) frames)
  | value frames _, .leaf d => .ok (after d frames)
  | key done frames _, .leaf (.text k) => .ok (colon done k frames)
  | key done frames true, .close true => .ok (after (.record done) frames)
  | colon done k frames, .colon => .ok (value (.record done k :: frames) false)
  | after v (.list done :: frames), .comma => .ok (value (.list (v :: done) :: frames) false)
  | after v (.record done k :: frames), .comma => .ok (key (insert done k v) frames false)
  | after v (.list done :: frames), .close false => .ok (after (.list (v :: done).reverse) frames)
  | after v (.record done k :: frames), .close true => .ok (after (.record (insert done k v)) frames)
  | _, _ => .error .malformed

end Reading

/-- The document that a text writes, or the first thing that is wrong with the text. Of two members with
one key the later value counts, at the place of the earlier. -/
def parse (s : String) : Except Unwritten Document := do
  let (tokens, fault?) := Token.ofText s
  let reading ← tokens.foldlM Reading.step (.value [] false)
  match reading, fault? with
  | _, some fault => throw fault
  | .after d [], none => return d
  | _, none => throw .malformed

def parse? (s : String) : Option Document :=
  (parse s).toOption

end Stratagem.Document
