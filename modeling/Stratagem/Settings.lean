import Stratagem.Document.Coercion
import Stratagem.Text

/-!
# Settings

What the environment decides: the limits of the editor, the log, and where a new strategy trades. What
a settings file says takes precedence over the environment.

A settings file holds entries `NAME=VALUE`. A value ends with its line, or stands between quotes and may
then go over several lines; a comment starts with a number sign, in front of which a value needs a blank.
The word `export` may precede a name. A line that is nothing of this is passed over. Within a value,
`${NAME}` stands for the value of an earlier entry or of the environment, and `${NAME:-TEXT}` for the
text where there is none.
-/

namespace Stratagem.Settings

abbrev Environment := List (String × String)

/-- An entry of a settings file. A name may stand without a value. -/
structure Entry where
  name : String
  value? : Option String
  deriving DecidableEq, Repr

namespace Entry

def unifyLineEnds : List Char → List Char
  | '\r' :: '\n' :: cs => '\n' :: unifyLineEnds cs
  | '\r' :: cs => '\n' :: unifyLineEnds cs
  | c :: cs => c :: unifyLineEnds cs
  | [] => []

def isBlankInLine (c : Char) : Bool :=
  Text.isBlank c && c != '\n'

def skipLine (cs : List Char) : List Char :=
  (cs.dropWhile (· != '\n')).drop 1

/-! ## Names -/

def isNameChar (c : Char) : Bool :=
  c != '=' && c != '#' && !Text.isBlank c

/-- A name, between quotes or not, and what follows. -/
def readName? : List Char → Option (List Char × List Char)
  | '\'' :: cs =>
    match cs.takeWhile (· != '\''), cs.dropWhile (· != '\'') with
    | c :: name, _ :: rest => some (c :: name, rest)
    | _, _ => none
  | cs =>
    match cs.takeWhile isNameChar with
    | [] => none
    | name => some (name, cs.dropWhile isNameChar)

/-- The line behind the word `export`, if it starts with it. -/
def dropExport (cs : List Char) : List Char :=
  if "export".toList.isPrefixOf cs && (cs.drop 6).head?.any isBlankInLine then
    (cs.drop 6).dropWhile isBlankInLine
  else cs

/-! ## Values -/

/-- A value up to its closing quote, and what follows. Two backslashes stand for one, and a quote behind
another backslash closes the value only if no later one does. -/
def readQuoted? (quote : Char) : List Char → Option (List Char × List Char)
  | [] => none
  | [c] => if c == quote then some ([], []) else none
  | c :: d :: cs =>
    if c == quote then some ([], d :: cs)
    else if c == '\\' && d == '\\' then
      (readQuoted? quote cs).map fun (value, rest) => (c :: d :: value, rest)
    else if c == '\\' && d == quote then
      match readQuoted? quote cs with
      | some (value, rest) => some (c :: d :: value, rest)
      | none => some ([c], cs)
    else (readQuoted? quote (d :: cs)).map fun (value, rest) => (c :: value, rest)

def singleEscapes : List (Char × Char) := [('\\', '\\'), ('\'', '\'')]

def doubleEscapes : List (Char × Char) :=
  singleEscapes ++ [('"', '"'), ('a', '\x07'), ('b', '\x08'), ('f', '\x0c'), ('n', '\n'), ('r', '\r'),
    ('t', '\t'), ('v', '\x0b')]

def unescape (escapes : List (Char × Char)) : List Char → List Char
  | '\\' :: c :: cs =>
    match escapes.lookup c with
    | some e => e :: unescape escapes cs
    | none => '\\' :: unescape escapes (c :: cs)
  | c :: cs => c :: unescape escapes cs
  | [] => []

def dropComment : List Char → List Char
  | [] => []
  | c :: cs =>
    if Text.isBlank c && (cs.dropWhile Text.isBlank).head? == some '#' then []
    else c :: dropComment cs

/-- A value, and what follows; none if its quote is not closed. -/
def readValue? (cs : List Char) : Option (List Char × List Char) :=
  match cs.dropWhile isBlankInLine with
  | '\'' :: rest => (readQuoted? '\'' rest).map fun (value, rest) => (unescape singleEscapes value, rest)
  | '"' :: rest => (readQuoted? '"' rest).map fun (value, rest) => (unescape doubleEscapes value, rest)
  | _ =>
    some (Text.trimChars (dropComment (cs.takeWhile (· != '\n'))), cs.dropWhile (· != '\n'))

/-! ## Entries -/

/-- What follows the line, if all that is left of it is a comment. -/
def finishLine? (cs : List Char) : Option (List Char) :=
  match cs.dropWhile isBlankInLine with
  | [] => some []
  | '\n' :: rest => some rest
  | '#' :: rest => some (skipLine rest)
  | _ => none

/-- The entry, if its line ends behind it, and what follows. -/
def finish (name : List Char) (value? : Option (List Char)) (rest : List Char) :
    Option Entry × List Char :=
  match finishLine? rest with
  | some rest => (some ⟨String.ofList name, value?.map String.ofList⟩, rest)
  | none => (none, skipLine rest)

/-- The entry at the front of characters that do not start with a blank, and what follows. -/
def read (cs : List Char) : Option Entry × List Char :=
  let cs := dropExport cs
  if cs.head? == some '#' then (none, skipLine cs)
  else
    match readName? cs with
    | none => (none, skipLine cs)
    | some (name, rest) =>
      match rest.dropWhile isBlankInLine with
      | '=' :: rest =>
        match readValue? rest with
        | some (value, rest) => finish name (some value) rest
        | none => (none, skipLine rest)
      | rest => finish name none rest

/-- All entries. There are no more of them than characters. -/
def readAll : (fuel : Nat) → List Char → List Entry
  | 0, _ => []
  | fuel + 1, cs =>
    match cs.dropWhile Text.isBlank with
    | [] => []
    | cs =>
      let (found?, rest) := read cs
      found?.toList ++ readAll fuel rest

def ofText (text : String) : List Entry :=
  readAll text.length (unifyLineEnds text.toList)

end Entry

/-! ## Variables -/

/-- A variable behind its opening brace: its name, the text for want of a value, and what follows. -/
def readVariable? (cs : List Char) : Option (List Char × List Char × List Char) :=
  let isOfName (c : Char) : Bool := c != '\x7d' && c != ':'
  match cs.dropWhile isOfName with
  | '\x7d' :: rest => some (cs.takeWhile isOfName, [], rest)
  | ':' :: '-' :: other =>
    match other.dropWhile (· != '\x7d') with
    | _ :: rest => some (cs.takeWhile isOfName, other.takeWhile (· != '\x7d'), rest)
    | [] => none
  | _ => none

/-- The value with its variables replaced. Each step takes a character at least. -/
def interpolate (find? : String → Option String) : (fuel : Nat) → List Char → List Char
  | 0, cs => cs
  | _, [] => []
  | fuel + 1, '$' :: '\x7b' :: cs =>
    match readVariable? cs with
    | some (name, other, rest) =>
      ((find? (String.ofList name)).elim other String.toList) ++ interpolate find? fuel rest
    | none => '$' :: interpolate find? fuel ('\x7b' :: cs)
  | fuel + 1, c :: cs => c :: interpolate find? fuel cs

/-- Sets the value of a name among the entries so far. A name without a value hides what the environment
says, but only from later entries. -/
def Entry.resolve (environment : Environment) (done : List (String × Option String)) (e : Entry) :
    List (String × Option String) :=
  let find? (name : String) : Option String :=
    match done.lookup name with
    | some value? => some (value?.getD "")
    | none => environment.lookup name
  (e.name, e.value?.map fun value => String.ofList (interpolate find? value.length value.toList)) ::
    done.filter (·.1 != e.name)

/-- The environment with the entries of a settings file, of which the last counts. -/
def withFile (environment : Environment) (text : String) : Environment :=
  let entries := (Entry.ofText text).foldl (Entry.resolve environment) []
  entries.filterMap (fun (name, value?) => value?.map fun value => (name, value)) ++ environment

end Stratagem.Settings

/-! ## Settings by name -/

namespace Stratagem

/-- How many children the editor allows. -/
structure Limits where
  groupsPerContainer : Int
  conditionsPerGroup : Int
  deriving DecidableEq, Repr

namespace Limits

def default : Limits := ⟨3, 6⟩

def make (groups conditions : Int) : Except Failure Limits :=
  if groups < 1 then do throw (.limit (.groupsPerContainer (← Number.intText groups)))
  else if conditions < 1 then do throw (.limit (.conditionsPerGroup (← Number.intText conditions)))
  else .ok ⟨groups, conditions⟩

end Limits

structure LogSettings where
  level : String
  directory : String
  toFile : Bool
  deriving DecidableEq, Repr

structure Settings where
  limits : Limits
  log : LogSettings
  exchange : String
  symbol : String
  deriving DecidableEq, Repr

namespace Settings

def names : List String := [
  "MAX_GROUPS_PER_CONTAINER", "MAX_CONDITIONS_PER_GROUP", "LOG_LEVEL", "LOG_DIR", "LOG_TO_FILE",
  "DEFAULT_EXCHANGE", "DEFAULT_SYMBOL"]

def integer (environment : Environment) (name : String) (default : Int) : Except Failure Int :=
  match environment.lookup name with
  | some s => (Document.text s).toInteger
  | none => .ok default

def ofEnvironment (environment : Environment) : Except Failure Settings := do
  let get (name default : String) : String := (environment.lookup name).getD default
  let groups ← integer environment "MAX_GROUPS_PER_CONTAINER" Limits.default.groupsPerContainer
  let conditions ← integer environment "MAX_CONDITIONS_PER_GROUP" Limits.default.conditionsPerGroup
  let limits ← Limits.make groups conditions
  return {
    limits
    log := {
      level := get "LOG_LEVEL" "INFO"
      directory := get "LOG_DIR" "logs"
      toFile := Text.lower (get "LOG_TO_FILE" "true") == "true" }
    exchange := get "DEFAULT_EXCHANGE" "bitget"
    symbol := get "DEFAULT_SYMBOL" "BTC/USDT" }

def summary (s : Settings) : Except Failure String := do
  return "groups/container=" ++ (← Number.intText s.limits.groupsPerContainer) ++
    " | conditions/group=" ++ (← Number.intText s.limits.conditionsPerGroup) ++ " | log=" ++ s.log.level

end Settings

/-! ## Limits of any number

Limits that an editor gives by hand. They need not be whole: a limit of two and a half allows two
children, as three would not. They are shown as they were given. -/

structure LooseLimits where
  groupsPerContainer : Document
  conditionsPerGroup : Document

namespace LooseLimits

/-- The limits that a record names, the others as usual. -/
def ofMembers (ms : List (String × Document)) : Except Failure LooseLimits := do
  let groupsKey := "max_groups_per_container"
  let conditionsKey := "max_conditions_per_group"
  Document.checkMembers [] [groupsKey, conditionsKey] ms
  let groups := (Document.lookup ms groupsKey).getD (.int Limits.default.groupsPerContainer)
  let conditions := (Document.lookup ms conditionsKey).getD (.int Limits.default.conditionsPerGroup)
  if ← groups.lt (.int 1) then throw (.limit (.groupsPerContainer (← groups.display)))
  if ← conditions.lt (.int 1) then throw (.limit (.conditionsPerGroup (← conditions.display)))
  return ⟨groups, conditions⟩

/-- More children than there are. -/
def unbounded : Int := 18446744073709551616

/-- The least whole number that is no smaller. What is no number limits nothing. -/
def ceiling (d : Document) : Int :=
  match d.quantity? with
  | some (.int n) => n
  | some (.real x) =>
    match Number.truncate? x with
    | some n => if Number.compareInt n x == some .lt then n + 1 else n
    | none => unbounded
  | none => unbounded

def strict (l : LooseLimits) : Limits :=
  ⟨ceiling l.groupsPerContainer, ceiling l.conditionsPerGroup⟩

/-- The failure of an edit under the strict limits, with the limit as it was given. -/
def restate (l : LooseLimits) : Failure → Failure
  | .edit (.full holder _ _ children) =>
    let limit := if children == "groups" then l.groupsPerContainer else l.conditionsPerGroup
    match limit.display with
    | .ok shown => .edit (.full holder limit shown children)
    | .error f => f
  | f => f

end LooseLimits

end Stratagem
