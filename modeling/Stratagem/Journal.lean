import Stratagem.Document.Coercion
import Stratagem.Journal.Template

/-!
# The journal

The lines that a session leaves behind. An entry has a level and a text, which is made of parts or is a
template with values; errors are also entered in a journal of their own.
-/

namespace Stratagem

namespace Journal

inductive Level where
  | debug
  | info
  | warning
  | error
  deriving DecidableEq, Repr

namespace Level

def rank : Level → Nat
  | debug => 10
  | info => 20
  | warning => 30
  | error => 40

def name : Level → String
  | debug => "DEBUG"
  | info => "INFO"
  | warning => "WARNING"
  | error => "ERROR"

def colour : Level → String
  | debug => "\x1b[96m"
  | info => "\x1b[92m"
  | warning => "\x1b[93m"
  | error => "\x1b[91m"

def thresholds : List (String × Nat) := [
  ("NOTSET", 30), ("DEBUG", 10), ("INFO", 20), ("WARN", 30), ("WARNING", 30), ("ERROR", 40),
  ("FATAL", 50), ("CRITICAL", 50)]

/-- The rank that a name stands for. Two names stand for other things than ranks. -/
def threshold (name : String) : Except Failure Nat :=
  let word := Text.upper name
  match thresholds.lookup word with
  | some rank => .ok rank
  | none =>
    .error <| .coercion <|
      if word == "BASIC_FORMAT" then .noRank name
      else if word == "_STYLES" then .notRank name
      else .noAttribute name

end Level

/-- A line of the journal, or of the journal of errors. -/
structure Entry where
  errors : Bool
  level : Level
  /-- The text, which is a template if there are values. -/
  text : String
  values : List Document := []
  /-- Whether a line is added for the fault under way; an entry is made outside of every fault. -/
  traced : Bool := false
  deriving DecidableEq

namespace Entry

def journalName (e : Entry) : String :=
  if e.errors then "strategy.errors" else "strategy"

/-- Whether the entry is kept from a rank on. The journal of errors keeps all of its entries. -/
def isKept (e : Entry) (rank : Nat) : Bool :=
  rank ≤ e.level.rank || e.errors

def lineWith (e : Entry) (level text : String) : Except Failure String := do
  let line := e.journalName ++ ": " ++ level ++ " | " ++ (← fillTemplate text e.values)
  return if e.traced then line ++ "\nNoneType: None" else line

def line (e : Entry) : Except Failure String :=
  e.lineWith e.level.name e.text

def coloured (e : Entry) (s : String) : String :=
  e.level.colour ++ s ++ "\x1b[0m"

def colouredLine (e : Entry) : Except Failure String :=
  e.lineWith (e.coloured e.level.name) (e.coloured e.text)

end Entry

/-- The entries for a text: one, or two if it is an error. -/
def enter (level : Level) (text : String) : List Entry :=
  [{ errors := false, level, text }] ++ if level = .error then [{ errors := true, level, text }] else []

/-! ## Texts made of parts -/

abbrev Fields := List (String × String)

def part (name shown : String) : String :=
  name ++ "=" ++ shown

def joined (parts : List String) (fields : Fields) : String :=
  " | ".intercalate (parts ++ fields.map fun (name, shown) => part name shown)

/-- The entry for a compilation. Corrections are mentioned only if there are any. -/
def compiled (branches conditions : String) (corrections? : Option String) (fields : Fields) :
    List Entry :=
  let corrected := corrections?.elim [] fun shown => [part "clamped" shown]
  enter .info <|
    joined (["[COMPILE]", part "branches" branches, part "conditions" conditions] ++ corrected) fields

def reference (status key reason : String) (fields : Fields) : List Entry :=
  enter .warning (joined ["[REF:" ++ status ++ "]", key, reason] fields)

def submission (status name : String) (fields : Fields) : List Entry :=
  enter (if status == "FAILED" then .error else .info)
    (joined ["[SUBMIT:" ++ status ++ "]", "name=" ++ name] fields)

/-! ## Options of an entry -/

def optionNames : List String := ["exc_info", "extra", "stack_info", "stacklevel"]

/-- What every entry says of itself, and nobody else may. -/
def ownNames : List String := [
  "message", "asctime", "name", "msg", "args", "levelname", "levelno", "pathname", "filename",
  "module", "exc_info", "exc_text", "stack_info", "lineno", "funcName", "created", "msecs",
  "relativeCreated", "thread", "threadName", "processName", "process"]

/-- Refuses further fields that are no record, and fields of the entry itself. -/
def checkExtra : Document → Except Failure Unit
  | .null | .text "" | .list [] => .ok ()
  | .record ms =>
    match ms.find? fun (key, _) => ownNames.contains key with
    | some (key, _) => Document.refuse (.noMember (Text.quoted key))
    | none => .ok ()
  | d => Document.refuse (.notIterable d)

/-- Whether the options ask for the fault under way. -/
def readOptions (options : List (String × Document)) : Except Failure Bool := do
  Document.checkMembers [] optionNames options
  let depth := (Document.lookup options "stacklevel").getD (.int 1)
  if depth.quantity?.isNone then Document.refuse (.notComparable depth (.int 1))
  checkExtra (Document.member options "extra")
  return !(Document.member options "exc_info").isEmpty

/-- The entries for a template with values, as far as they are kept from a rank on. Options of an entry
that is not kept are not looked at. -/
def enterTemplate (rank : Nat) (level : Level) (template : Document) (values : List Document)
    (options : List (String × Document)) : Except Failure (List Entry) := do
  let entries := (enter level "").filter (·.isKept rank)
  if entries.isEmpty then return []
  let traced ← readOptions options
  let text ← template.display
  return entries.map fun e => { e with text, values, traced }

/-! ## Entries by name

What can be entered in the journal from outside: an entry is asked for by name, with values by position
and parts by name. -/

open Document (Parts bindParts member)

/-- The receiver of a request for an entry. It cannot be given by name. -/
def receiver : String := "self"

def readParts (required optional : List String) (args : List Document) (named : Parts) :
    Except Failure (Parts × Parts) := do
  let names := receiver :: required ++ optional
  let all ← bindParts (receiver :: required) optional true (.null :: args) named
  return (all, all.filter fun (key, _) => !names.contains key)

def requestTemplate (rank : Nat) (level : Level) (args : List Document) (named : Parts) :
    Except Failure (List Entry) := do
  let (all, options) ← readParts ["msg"] [] (args.take 1) named
  enterTemplate rank level (member all "msg") (args.drop 1) options

def textPart : Document → Except Failure String
  | .text s => .ok s
  | d => Document.refuse (.notJoinable d)

def showParts (parts : Parts) : Except Failure Fields :=
  parts.mapM fun (name, value) => do return (name, ← value.display)

def requestCompiled (args : List Document) (named : Parts) : Except Failure (List Entry) := do
  let (all, further) ← readParts ["branches", "conditions"] ["corrections"] args named
  let corrections := member all "corrections"
  let branches ← (member all "branches").display
  let conditions ← (member all "conditions").display
  let corrections? ← if corrections.isEmpty then pure none else some <$> corrections.display
  return compiled branches conditions corrections? (← showParts further)

def requestReference (args : List Document) (named : Parts) : Except Failure (List Entry) := do
  let (all, further) ← readParts ["status", "ref_key", "reason"] [] args named
  let status ← (member all "status").display
  let fields ← showParts further
  return reference status (← textPart (member all "ref_key")) (← textPart (member all "reason")) fields

def requestSubmission (args : List Document) (named : Parts) : Except Failure (List Entry) := do
  let (all, further) ← readParts ["status", "name"] [] args named
  let status ← (member all "status").display
  let name ← (member all "name").display
  return submission status name (← showParts further)

/-- The entries that are asked for by name, as far as they are kept from a rank on. -/
def request (rank : Nat) (name : String) (args : List Document) (named : Parts) :
    Except Failure (List Entry) :=
  let kept (entries : Except Failure (List Entry)) : Except Failure (List Entry) := do
    return (← entries).filter (·.isKept rank)
  match name with
  | "debug" => requestTemplate rank .debug args named
  | "info" => requestTemplate rank .info args named
  | "warning" => requestTemplate rank .warning args named
  | "error" => requestTemplate rank .error args named
  | "compile" => kept (requestCompiled args named)
  | "reference" => kept (requestReference args named)
  | "submission" => kept (requestSubmission args named)
  | _ => .error (.coercion (.noAttribute name))

end Journal

end Stratagem
