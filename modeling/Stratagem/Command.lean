import Stratagem.Arguments
import Stratagem.Failure
import Stratagem.Files
import Stratagem.Session
import Stratagem.Text
import Stratagem.Text.Case

/-!
# Commands

What the user can ask for, how it is spelled, and what a command leaves behind: a verdict, what it prints
and the files it writes. For another program the verdict, a message and the data are put into an envelope.

A text for a terminal holds marks between square brackets. A mark opens a style; behind a slash it closes
that style, and a slash alone closes the style that was opened last. A style may stay open. A backslash
in front of a mark makes the mark a part of the text, and two of them stand for one.
-/

namespace Stratagem

/-- A draft in a file, perhaps with a selection from another file. The path of the draft may be lost. -/
structure DraftSource where
  draft? : Option String
  indicators? : Option String
  deriving DecidableEq, Repr

inductive Command where
  /-- Writes the compiled strategy of a draft. -/
  | compile (source : DraftSource) (compact enveloped : Bool) (output? : Option String)
  /-- Reports what is wrong with a draft. -/
  | check (source : DraftSource) (strict enveloped : Bool)
  /-- Describes a draft in words. -/
  | summary (source : DraftSource) (plain : Bool)
  /-- Writes what is sent to save a draft. The key of the account may be given and lost. -/
  | payload (source : DraftSource) (name? : Option String) (apiKeyId? : Option (Option Int))
      (output? : Option String)
  /-- Writes a draft of a compiled strategy. Its name may be lost. -/
  | decompile (config? : Option String) (indicators? : Option String) (name? : Option String)
      (output? : Option String)
  /-- Evaluates a compiled strategy on the values of its columns. -/
  | evaluate (config? values? : Option String) (enveloped : Bool)
  deriving DecidableEq, Repr

inductive Verbosity where
  | quiet
  | verbose
  | debug
  deriving DecidableEq, Repr

/-- A command line: a command, unless there is none, and how much is told on the way. -/
structure Invocation where
  verbosity? : Option Verbosity
  command? : Option Command
  deriving DecidableEq, Repr

namespace CommandOption

def flag (name : String) : CommandOption := ⟨name, none, .nothing⟩

def valued (name : String) : CommandOption := ⟨name, none, .text⟩

def help : CommandOption := ⟨"help", some 'h', .help⟩

def output : CommandOption := ⟨"output", some 'o', .text⟩

end CommandOption

namespace Command

open CommandOption

def arguments (operands : Nat) (options : List CommandOption) (line : List String) :
    Except Refusal Arguments := do
  let a ← Arguments.read ⟨help :: options, [], operands⟩ line
  if a.surplus then throw .misuse
  return a

def sourceOf (a : Arguments) : DraftSource :=
  ⟨a.operand? 0, a.text? "indicators"⟩

def ofArguments (name : String) (line : List String) : Except Refusal Command :=
  match name with
  | "compile" => do
    let a ← arguments 1 [valued "indicators", flag "compact", output, flag "json"] line
    return .compile (sourceOf a) (a.has "compact") (a.has "json") (a.text? "output")
  | "check" => do
    let a ← arguments 1 [valued "indicators", flag "strict", flag "json"] line
    return .check (sourceOf a) (a.has "strict") (a.has "json")
  | "summary" => do
    let a ← arguments 1 [valued "indicators", flag "plain"] line
    return .summary (sourceOf a) (a.has "plain")
  | "payload" => do
    let a ← arguments 1
      [valued "indicators", valued "name", ⟨"api-key-id", none, .whole⟩, output] line
    let apiKeyId? := if a.has "api-key-id" then some (a.whole? "api-key-id") else none
    return .payload (sourceOf a) (a.text? "name") apiKeyId? (a.text? "output")
  | "decompile" => do
    let a ← arguments 1 [valued "indicators", valued "name", output] line
    return .decompile (a.operand? 0) (a.text? "indicators") ((a.value? "name").getD (some ""))
      (a.text? "output")
  | "evaluate" => do
    let a ← arguments 2 [flag "json"] line
    return .evaluate (a.operand? 0) (a.operand? 1) (a.has "json")
  | _ => .error .misuse

def inputs : Command → List String
  | compile source _ _ _ | check source _ _ | summary source _ | payload source _ _ _ =>
    source.draft?.toList ++ source.indicators?.toList
  | decompile config? indicators? _ _ => config?.toList ++ indicators?.toList
  | evaluate config? values? _ => config?.toList ++ values?.toList

end Command

namespace Invocation

def grammar : Grammar where
  options := [
    .help, ⟨"quiet", some 'q', .nothing⟩, ⟨"verbose", some 'v', .nothing⟩, .flag "debug"]
  exclusive := ["quiet", "verbose", "debug"]
  operands := 1

def verbosityOf (a : Arguments) : Option Verbosity :=
  if a.has "debug" then some .debug
  else if a.has "quiet" then some .quiet
  else if a.has "verbose" then some .verbose
  else none

/-- Reads a command line. What is wrong before the command shows only after the command was read. -/
def ofArguments (line : List String) : Except Refusal Invocation := do
  let (a, count) ← Arguments.readLeading grammar {} 0 (← grammar.words line)
  let command? ← match line.drop count with
    | [] => pure none
    | name :: rest => some <$> Command.ofArguments name rest
  if a.surplus then throw .misuse
  return ⟨verbosityOf a, command?⟩

end Invocation

end Stratagem

/-! ## Marks -/

namespace Stratagem.Markup

structure Scan where
  /-- The text without the marks, in reverse. -/
  shown : List Char
  /-- The marks, the last one first. -/
  marks : List (List Char)
  /-- Behind an open bracket, the backslashes in front of it and what stands behind it, in reverse. -/
  inside? : Option (Nat × List Char)
  /-- The backslashes that were read last. -/
  slashes : Nat

namespace Scan

def empty : Scan := ⟨[], [], none, 0⟩

def backslashes (n : Nat) : List Char := List.replicate n '\\'

/-- The first character of a mark. -/
def isLead (c : Char) : Bool :=
  ('a' ≤ c && c ≤ 'z') || c == '#' || c == '/' || c == '@'

/-- What was read up to an open bracket that is none of a mark. A backslash in front of it is dropped. -/
def giveUp (s : Scan) : Scan :=
  match s.inside? with
  | none => { s with shown := backslashes s.slashes ++ s.shown, slashes := 0 }
  | some (slashes, cs) =>
    { s with shown := cs ++ '[' :: backslashes (slashes - 1) ++ s.shown, inside? := none, slashes := 0 }

/-- Takes a mark, or the text that it is behind an odd number of backslashes. -/
def close (s : Scan) (slashes : Nat) (cs : List Char) : Scan :=
  let shown := backslashes (slashes / 2) ++ s.shown
  if slashes % 2 == 0 then { s with shown, marks := cs.reverse :: s.marks, inside? := none, slashes := 0 }
  else { s with shown := ']' :: cs ++ '[' :: shown, inside? := none, slashes := 0 }

/-- The scan of a text that goes on with the character. -/
def step (s : Scan) (c : Char) : Scan :=
  match s.inside? with
  | none =>
    if c == '[' then { s with inside? := some (s.slashes, []), slashes := 0 }
    else if c == '\\' then { s with slashes := s.slashes + 1 }
    else { s with shown := c :: backslashes s.slashes ++ s.shown, slashes := 0 }
  | some (slashes, cs) =>
    if c == '[' then
      let trailing := (cs.takeWhile (· == '\\')).length
      { { s with inside? := some (slashes, cs.drop trailing) }.giveUp with inside? := some (trailing, []) }
    else if cs.isEmpty && !isLead c then
      let s := s.giveUp
      if c == '\\' then { s with slashes := 1 } else { s with shown := c :: s.shown }
    else if c == ']' then s.close slashes cs
    else { s with inside? := some (slashes, c :: cs) }

end Scan

def scan (text : String) : Scan :=
  (text.toList.foldl Scan.step .empty).giveUp

def aliases : List (String × String) := [
  ("b", "bold"), ("d", "dim"), ("i", "italic"), ("u", "underline"), ("uu", "underline2"),
  ("r", "reverse"), ("c", "conceal"), ("s", "strike"), ("o", "overline")]

/-- The words of a style in lower case, in full. -/
def normalStyle (style : List Char) : String :=
  let words := (Text.lower (Text.trim (String.ofList style))).splitOn " "
  " ".intercalate ((words.filter (· != "")).map fun word => (aliases.lookup word).getD word)

/-- The open styles behind a mark, the last one first. -/
def follow (styles : List String) (mark : List Char) : Except Failure (List String) :=
  match mark.takeWhile (· != '='), styles with
  | '/' :: style, _ =>
    let style := normalStyle style
    if style.isEmpty then
      match styles with
      | _ :: rest => .ok rest
      | [] => .error (.markup .nothingOpen)
    else if styles.contains style then .ok (styles.erase style)
    else .error (.markup (.notOpen style))
  | style, styles => .ok (normalStyle style :: styles)

/-- The text without its marks, if they fit each other. -/
def shown (text : String) : Except Failure String := do
  let s := scan text
  let _ ← s.marks.reverse.foldlM follow []
  return String.ofList s.shown.reverse

def styled (style text : String) : String :=
  "[" ++ style ++ "]" ++ text ++ "[/]"

end Stratagem.Markup

namespace Stratagem

structure Report where
  exit : Nat
  printed : List String
  /-- The texts that are written, by the paths of their files. -/
  written : List (String × String)
  deriving DecidableEq

namespace Report

def lines (exit : Nat) (texts : List String) : Report :=
  ⟨exit, texts, []⟩

def envelope (passed : Bool) (message : String) (data : Document) : Except Failure Report := do
  let document := Document.record [
    ("status", .text (if passed then "pass" else "fail")),
    ("message", .text message),
    ("data", data)]
  return lines (if passed then 0 else 1) [← document.written .prettyAscii]

def failed (enveloped : Bool) (message : String) : Except Failure Report := do
  if enveloped then envelope false message .null
  else return lines 1 [← Markup.shown (Markup.styled "bold red" ("FAIL " ++ message))]

/-- The head of a report. Marks in it are followed. -/
def heading (title subtitle : String) : Except Failure String :=
  let title := Markup.styled "bold cyan" title
  Markup.shown (if subtitle.isEmpty then title else title ++ "\n" ++ subtitle)

def completed (text : String) : String :=
  if text.toList.getLast? == some '\n' then text else text ++ "\n"

/-- Writes a text to a file, or prints it if there is none. -/
def output (files : Files) (output? : Option String) (text : String) : Except Failure Report :=
  match output? with
  | none => .ok (lines 0 [text])
  | some path => do
    let shown := Files.normalPath path
    let target := (← files.target path).getD shown
    if Text.holdsHalf text then throw (.file .notEncodable)
    let line ← Markup.shown (Markup.styled "dim" ("Written to: " ++ shown))
    return { lines 0 [line] with written := [(target, completed text)] }

def followedBy (r : Report) (texts : List String) : Report :=
  { r with printed := r.printed ++ texts }

def precededBy (r : Report) (texts : List String) : Report :=
  { r with printed := texts ++ r.printed }

end Report

/-- Whether a command reports the failure. Any other is left to the caller. -/
def Failure.isReported (f : Failure) : Bool :=
  match f.kind with
  | .format | .limit | .missingNode | .duplicateIndicator | .danglingReference | .submission
  | .strategy | .missingFile => true
  | .value | .type | .key | .overflow | .attribute | .directory | .existingFile | .notDirectory
  | .system | .encoding | .depth | .markup => false

/-- Goes on with what some work gives. A failure of the work is reported. -/
def Report.after {α : Type} (enveloped : Bool) (work : Session.Logged α)
    (use : α → Session.Logged Report) : Session.Logged Report := do
  match ← (ExceptT.lift work.run : Session.Logged (Except Failure α)) with
  | .ok a => use a
  | .error f =>
    if f.isReported then Session.silent (Report.failed enveloped f.message) else throw f

end Stratagem
