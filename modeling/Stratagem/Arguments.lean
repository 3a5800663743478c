import Stratagem.Number

/-!
# Arguments

How a command line is read. An option has a long name, which may be cut short as long as only one option
is meant, and perhaps a letter. A value is attached to its option or is the next argument; behind a
letter that takes no value further letters may follow. Whatever is no option is an operand, as a negative
number is. After two dashes all that follows is an operand.

The two dashes belong to the operand next to them and are dropped from it. Two dashes that are all there
is of a value are dropped too, and then the value is lost: it is given, but there is nothing to it.
-/

namespace Stratagem

/-- What an option takes. -/
inductive Taking where
  | nothing
  | text
  | whole
  /-- Nothing; the option asks for help. -/
  | help
  deriving DecidableEq, Repr

structure CommandOption where
  name : String
  letter? : Option Char
  takes : Taking
  deriving DecidableEq, Repr

/-- Why a command line is not carried out. -/
inductive Refusal where
  | help
  | misuse
  deriving DecidableEq, Repr

structure Grammar where
  options : List CommandOption
  /-- The names of options of which only one may be given. -/
  exclusive : List String
  /-- How many operands there are. -/
  operands : Nat

inductive Word where
  | operand (text : String)
  /-- Two dashes. -/
  | dashes
  /-- An option by its long name or by its letter, perhaps with an attached text. -/
  | named (o : CommandOption) (attached? : Option (List Char))
  | lettered (o : CommandOption) (attached? : Option (List Char))
  | unknown
  deriving DecidableEq, Repr

namespace CommandOption

def takesValue (o : CommandOption) : Bool :=
  o.takes == .text || o.takes == .whole

end CommandOption

namespace Grammar

/-! ## Words -/

def ofLetter? (g : Grammar) (c : Char) : Option CommandOption :=
  g.options.find? (·.letter? == some c)

/-- The options whose long name is cut short to the given one. A full name means itself. -/
def candidates (g : Grammar) (name : List Char) : List CommandOption :=
  match g.options.find? (·.name.toList == name) with
  | some o => [o]
  | none => g.options.filter fun o => name.isPrefixOf o.name.toList

def dropLineEnd : List Char → List Char
  | [] | ['\n'] => []
  | c :: cs => c :: dropLineEnd cs

/-- A negative number: digits, or digits around a point of which the latter ones are needed. -/
def isNumeral (cs : List Char) : Bool :=
  match (dropLineEnd cs).dropWhile Text.isDecimalDigit with
  | [] => !(dropLineEnd cs).isEmpty
  | '.' :: places => !places.isEmpty && places.all Text.isDecimalDigit
  | _ => false

/-- An argument with a dash that starts with no known option. -/
def stray (cs : List Char) : Word :=
  if isNumeral cs || cs.contains ' ' then .operand (String.ofList ('-' :: cs)) else .unknown

/-- The text behind the first equals sign. -/
def attached? (cs : List Char) : Option (List Char) :=
  match cs.dropWhile (· != '=') with
  | [] => none
  | _ :: value => some value

/-- The argument after its two dashes. The beginning of more than one long name is misuse. -/
def longWord (g : Grammar) (cs : List Char) : Except Refusal Word :=
  match g.candidates (cs.takeWhile (· != '=')) with
  | [] => .ok (stray ('-' :: cs))
  | [o] => .ok (.named o (attached? cs))
  | _ => .error .misuse

/-- The argument after its only dash: a letter, and what is attached to it with or without an equals
sign. -/
def shortWord (g : Grammar) (c : Char) (cs : List Char) : Word :=
  match g.ofLetter? c with
  | none => stray (c :: cs)
  | some o =>
    match cs with
    | [] => .lettered o none
    | '=' :: value => .lettered o (some value)
    | cs => .lettered o (some cs)

def word (g : Grammar) (argument : String) : Except Refusal Word :=
  match argument.toList with
  | '-' :: '-' :: cs => g.longWord cs
  | '-' :: c :: cs => .ok (g.shortWord c cs)
  | _ => .ok (.operand argument)

/-- The words of a command line. All arguments are read before any of them is carried out. -/
def words (g : Grammar) : List String → Except Refusal (List Word)
  | [] => .ok []
  | argument :: rest =>
    if argument == "--" then .ok (.dashes :: rest.map .operand)
    else do return (← g.word argument) :: (← g.words rest)

/-! ## Options that share an argument -/

/-- The options of an argument that begins with one by its letter, when `cs` is attached to it. All have
their values but the last, which may have to take the next argument. -/
def letters (g : Grammar) (o : CommandOption) : List Char → Except Refusal (List (CommandOption × Option String))
  | [] => if o.takesValue then .ok [(o, some "")] else .error .misuse
  | c :: cs =>
    if o.takesValue then .ok [(o, some (String.ofList (c :: cs)))]
    else
      match g.ofLetter? c with
      | none => .error .misuse
      | some next =>
        if cs.isEmpty then .ok [(o, none), (next, none)]
        else do return (o, none) :: (← g.letters next cs)

def optionsOf (g : Grammar) : Word → Except Refusal (List (CommandOption × Option String))
  | .named o none | .lettered o none => .ok [(o, none)]
  | .named o (some value) =>
    if o.takesValue then .ok [(o, some (String.ofList value))] else .error .misuse
  | .lettered o (some cs) => g.letters o cs
  | .operand _ | .dashes | .unknown => .ok []

end Grammar

/-- What was read so far. -/
structure Arguments where
  /-- The options in the order they were given, with their values. Flags and lost values have none. -/
  given : List (String × Option String) := []
  /-- The operands, of which some may be lost. -/
  operands : List (Option String) := []
  /-- Whether there was more than is known. -/
  surplus : Bool := false
  deriving DecidableEq, Repr

namespace Arguments

def kept (text : String) : Option String :=
  if text == "--" then none else some text

def give (g : Grammar) (a : Arguments) (name : String) (value : Option String) :
    Except Refusal Arguments :=
  if g.exclusive.contains name &&
      a.given.any fun (other, _) => g.exclusive.contains other && other != name then
    .error .misuse
  else .ok { a with given := a.given ++ [(name, value)] }

def accept (g : Grammar) (a : Arguments) (o : CommandOption) (text : String) :
    Except Refusal Arguments :=
  match o.takes, kept text with
  | .help, _ => .error .help
  | .nothing, _ => a.give g o.name none
  | .text, value => a.give g o.name value
  | .whole, none => a.give g o.name none
  | .whole, some value =>
    match Number.readInteger value with
    | .value _ => a.give g o.name (some value)
    | _ => .error .misuse

def acceptAll (g : Grammar) (a : Arguments) (given : List (CommandOption × Option String)) :
    Except Refusal Arguments :=
  given.foldlM (fun a (o, value?) => a.accept g o (value?.getD "")) a

def hasRoom (g : Grammar) (a : Arguments) : Bool :=
  a.operands.length < g.operands

def addOperand (g : Grammar) (a : Arguments) (operand : Option String) : Arguments :=
  if a.hasRoom g then { a with operands := a.operands ++ [operand] } else { a with surplus := true }

def awaitsValue (given : List (CommandOption × Option String)) : Bool :=
  given.getLast?.any fun (o, value?) => o.takesValue && value?.isNone

def supply (value : String) : List (CommandOption × Option String) → List (CommandOption × Option String)
  | [] => []
  | [(o, _)] => [(o, some value)]
  | given :: rest => given :: supply value rest

/-- Reads words. Dashes behind an operand that was just `taken` belong to it, other dashes to the operand
that follows them. -/
def readWords (g : Grammar) (a : Arguments) (taken : Bool) : List Word → Except Refusal Arguments
  | [] => .ok a
  | .operand text :: rest => (a.addOperand g (kept text)).readWords g (a.hasRoom g) rest
  | .dashes :: .operand text :: rest =>
    if taken then (a.addOperand g (kept text)).readWords g true rest
    else (a.addOperand g (some text)).readWords g true rest
  | .dashes :: rest => { a with surplus := a.surplus || !taken }.readWords g false rest
  | .unknown :: rest => { a with surplus := true }.readWords g false rest
  | w :: .operand value :: rest => do
    let given ← g.optionsOf w
    if awaitsValue given then (← a.acceptAll g (supply value given)).readWords g false rest
    else
      let a ← a.acceptAll g given
      (a.addOperand g (kept value)).readWords g (a.hasRoom g) rest
  | w :: rest => do
    let given ← g.optionsOf w
    if awaitsValue given then .error .misuse
    else (← a.acceptAll g given).readWords g false rest

/-- Reads a command line. What is more than is known is left to the caller. -/
def read (g : Grammar) (line : List String) : Except Refusal Arguments := do
  let a ← readWords g {} false (← g.words line)
  if a.operands.length < g.operands then throw .misuse
  return a

/-- Reads the options in front of the first operand, which no dashes may announce, and counts the
arguments that they take. -/
def readLeading (g : Grammar) (a : Arguments) (count : Nat) : List Word → Except Refusal (Arguments × Nat)
  | [] | .operand _ :: _ => .ok (a, count)
  | .dashes :: _ => .error .misuse
  | .unknown :: rest => { a with surplus := true }.readLeading g (count + 1) rest
  | w :: rest => do
    let given ← g.optionsOf w
    if awaitsValue given then .error .misuse
    else (← a.acceptAll g given).readLeading g (count + 1) rest

/-! ## What was read -/

def has (a : Arguments) (name : String) : Bool :=
  a.given.any (·.1 == name)

/-- The last value of an option, which may be lost. -/
def value? (a : Arguments) (name : String) : Option (Option String) :=
  a.given.reverse.lookup name

def text? (a : Arguments) (name : String) : Option String :=
  (a.value? name).join.filter (· != "")

def operand? (a : Arguments) (index : Nat) : Option String :=
  a.operands[index]?.join

def whole? (a : Arguments) (name : String) : Option Int :=
  match (a.value? name).join.map Number.readInteger with
  | some (.value n) => some n
  | _ => none

end Arguments

end Stratagem
