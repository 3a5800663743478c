import Stratagem.Command
import Stratagem.Draft
import Stratagem.Evaluate

/-!
# Running commands

A command reads its files, runs a session on them, and reports. It changes nothing but the files that it
writes.
-/

namespace Stratagem

open Document (member)
open Session (Logged silent)

/-- The session on a draft. A selection of its own file replaces that of the draft. -/
def DraftSource.session (source : DraftSource) (base : Trade) (files : Files) :
    Except Failure Session := do
  let session := Session.ofDraft (← files.draft (.ok base) source.draft?) base
  match source.indicators? with
  | none => return session
  | some path => return { session with selection := ← files.selection path }

namespace Compilation

def toDocument (c : Compilation) : Document :=
  .record [
    ("logic", c.logic.toDocument),
    ("diagnostics", .list (c.diagnostics.map Diagnostic.toDocument))]

def counts (c : Compilation) : String :=
  Number.decimal c.danglingCount ++ " dangling, " ++ Number.decimal c.warnings.length ++
    " warnings, " ++ Number.decimal c.corrections ++ " thresholds clamped"

/-- Whether a check fails: on operands that point at nothing or, if it is strict, on any warning. -/
def fails (c : Compilation) (strict : Bool) : Bool :=
  c.hasDangling || (strict && !c.warnings.isEmpty)

end Compilation

/-- The strategy in a document: the document itself, the one that it carries, or its logic alone. -/
def Strategy.sectionOf (raw : Document) : Document :=
  let raw := (Compiled.Logic.subrecord? raw "configJson").getD raw
  if (raw.get? "logic").isSome then raw
  else .record [("logic", Compiled.Logic.sectionOf raw)]

/-- The columns in a document. A value that is no list is a column of its own. -/
def Snapshot.ofDocument : Document → Except Failure Snapshot
  | .record ms => .ok ⟨ms.map fun (key, d) =>
      match d with
      | .list xs => (key, .list xs)
      | d => (key, .list [d])⟩
  | _ => .error .valuesNotRecord

/-! ## What is shown of a strategy

Marks in the texts of a strategy are followed. -/

def Diagnostic.shown (d : Diagnostic) : Except Failure String := do
  return d.code ++ " " ++ (← Markup.shown d.path) ++ ": " ++ (← Markup.shown d.message)

/-- The lines of a section. What is switched off is dim. -/
def Summary.Section.shown (s : Summary.Section) : Except Failure (List String) := do
  let title ← Markup.shown (Markup.styled (if s.enabled then "bold" else "dim") s.title)
  let groups ← s.groups.mapM fun g => do
    let title ← Markup.shown (if g.enabled then g.title else Markup.styled "dim" g.title)
    return ("  " ++ title) :: (← g.lines.mapM Markup.shown).map ("    - " ++ ·)
  return title :: groups.flatten

/-- The lines of a summary, the last one with the indicators that it reads. -/
def Summary.shown (sections : List Summary.Section) (used : List String) :
    Except Failure (List String) := do
  if sections.isEmpty then return [Summary.text sections]
  let labels ←
    if used.isEmpty then pure []
    else List.singleton <$>
      Markup.shown (Markup.styled "dim" ("Indicators used: " ++ ", ".intercalate used))
  return (← sections.mapM Summary.Section.shown).flatten ++ labels

def Argument.shown : Argument → Except Failure String
  | .ref r => r.describe
  | a => a.toDocument.display

def Call.shown (cs : List Call) : Except Failure String := do
  let texts ← cs.mapM fun c => do
    return c.method ++ "(" ++ ", ".intercalate (← c.args.mapM Argument.shown) ++ ")"
  Markup.shown (", ".intercalate texts)

namespace BranchOutcome

def toDocument (o : BranchOutcome) : Except Failure Document := do
  let quorum ← match o.quorum with
    | none => pure .null
    | some v => .text <$> v.text
  return .record [
    ("evaluated", .bool o.evaluated),
    ("passed", .bool o.passed),
    ("quorum", quorum),
    ("actions", .list (o.actions.map Call.toDocument))]

def shown (o : BranchOutcome) : Except Failure String :=
  match o.quorum with
  | none => .ok (o.slot.name ++ " DISABLED")
  | some v => do
    return o.slot.name ++ " " ++ (← v.text) ++ " " ++ (← Call.shown o.actions)

end BranchOutcome

namespace Command

def runCompile (base : Trade) (files : Files) (source : DraftSource) (compact enveloped : Bool)
    (output? : Option String) : Logged Report :=
  Report.after enveloped
    (do
      let session ← silent (source.session base files)
      return (session.name, ← session.compile))
    fun (name, c) => do
      if enveloped then
        let name ← silent (name.displayOr (source.draft?.getD ""))
        silent (Report.envelope true ("Compiled " ++ name) c.toDocument)
      else
        let text ← silent (c.logic.text (if compact then .compact else .pretty))
        let report ← silent (Report.output files output? text)
        return report.followedBy (← silent (c.diagnostics.mapM Diagnostic.shown))

def runCheck (base : Trade) (files : Files) (source : DraftSource) (strict enveloped : Bool) :
    Logged Report :=
  Report.after enveloped (do (← silent (source.session base files)).compile) fun c => do
    let failed := c.fails strict
    if enveloped then
      silent (Report.envelope (!failed) c.counts (.list (c.diagnostics.map Diagnostic.toDocument)))
    else
      let heading ← silent (Report.heading "STRATEGY CHECK" ("Draft: " ++ source.draft?.getD ""))
      let findings ← silent (c.diagnostics.mapM Diagnostic.shown)
      return .lines (if failed then 1 else 0) <|
        heading :: findings ++ [(if failed then "FAIL " else "OK ") ++ c.counts]

def runSummary (base : Trade) (files : Files) (source : DraftSource) (plain : Bool) :
    Logged Report :=
  Report.after false
    (do
      let session ← silent (source.session base files)
      return (session, ← session.preview))
    fun (session, p) => do
      if plain then return .lines 0 [Summary.text p.sections]
      else
        let title ← silent (session.name.displayOr "STRATEGY SUMMARY")
        let subtitle ← silent (session.description.displayOr "")
        let heading ← silent (Report.heading title subtitle)
        let summary ← silent (Summary.shown p.sections p.used)
        let warnings ← silent (p.compilation.warnings.mapM Diagnostic.shown)
        return .lines 0 (heading :: summary ++ warnings)

/-- The session with the name and the account key that a command line gives. A lost key is a list without
keys. -/
def overridden (s : Session) (name? : Option String) (apiKeyId? : Option (Option Int)) : Session :=
  { s with
    name := name?.elim s.name .text
    apiKeyId := apiKeyId?.elim s.apiKeyId fun key? => key?.elim (.list []) .int }

def runPayload (base : Trade) (files : Files) (source : DraftSource) (name? : Option String)
    (apiKeyId? : Option (Option Int)) (output? : Option String) : Logged Report :=
  Report.after false
    (do (overridden (← silent (source.session base files)) name? apiKeyId?).payload)
    fun payload => silent do Report.output files output? (← payload.written .pretty)

/-- The draft of a compiled strategy. It has trade settings if the strategy does. -/
def decompiled (base : Trade) (files : Files) (config? : Option String)
    (indicators? : Option String) (name : String) : Except Failure Draft := do
  let document := Strategy.sectionOf (← files.read config?)
  let selection? ← indicators?.mapM files.selection
  let strategy ← Strategy.ofDocument (.ok base) document
  let session ← Session.ofStrategy strategy (.text name) (.text "") selection?
  return {
    name
    description := ""
    selection := session.selection
    tree := session.tree
    trade := if (document.get? "trade").isSome then some session.trade else none }

/-- The document of a draft. A lost name is a list without names. -/
def namedDocument (d : Draft) (name? : Option String) : Except Failure Document := do
  match ← d.toDocument, name? with
  | .record ms, none => return .record (Document.insert ms "name" (.list []))
  | document, _ => return document

def runDecompile (base : Trade) (files : Files) (config? : Option String)
    (indicators? : Option String) (name? output? : Option String) : Logged Report :=
  Report.after false (silent (decompiled base files config? indicators? (name?.getD "")))
    fun draft => silent do
      Report.output files output? (← (← namedDocument draft name?).written .prettyAscii)

def runEvaluate (files : Files) (config? values? : Option String) (enveloped : Bool) :
    Logged Report :=
  Report.after enveloped
    (silent do return (← files.logic config?, ← Snapshot.ofDocument (← files.read values?)))
    fun (logic, snapshot) => do
      let outcomes ← silent (logic.evaluate snapshot)
      let branches := outcomes.toList
      let passed := branches.countP fun (_, o) => o.passed
      if enveloped then
        let shown ← silent (branches.mapM fun (slot, o) => do return (slot.name, ← o.toDocument))
        silent (Report.envelope true (Number.decimal passed ++ " branch(es) passed") (.record shown))
      else return .lines 0 (← silent (branches.mapM fun (_, o) => o.shown))

/-- Runs a command on files. New strategies trade as `base` says. -/
def run (base : Trade) (files : Files) : Command → Logged Report
  | compile source compact enveloped output? =>
    runCompile base files source compact enveloped output?
  | check source strict enveloped => runCheck base files source strict enveloped
  | summary source plain => runSummary base files source plain
  | payload source name? apiKeyId? output? => runPayload base files source name? apiKeyId? output?
  | decompile config? indicators? name? output? =>
    runDecompile base files config? indicators? name? output?
  | evaluate config? values? enveloped => runEvaluate files config? values? enveloped

end Command

namespace Invocation

def usage : String :=
  "Usage: compile|check|summary|payload|decompile|evaluate FILE"

def levelName (i : Invocation) (s : Settings) : String :=
  match i.verbosity? with
  | some .debug => "DEBUG"
  | some .quiet => "WARNING"
  | some .verbose => "INFO"
  | none => s.log.level

/-- Runs a command line. The settings and the level are needed even where there is no command. -/
def run (i : Invocation) (settings : Except Failure Settings) (files : Files) : Logged Report := do
  let settings ← silent settings
  let _ ← silent (Journal.Level.threshold (i.levelName settings))
  let about ← silent do
    if i.verbosity? = some .verbose then
      return [← Markup.shown (Markup.styled "dim" (← settings.summary))]
    else return []
  let report ← match i.command? with
    | none => pure (.lines 1 [usage])
    | some c => c.run (Trade.ofSettings settings) files
  return report.precededBy about

def refused : Refusal → Report
  | .help => .lines 0 [usage]
  | .misuse => .lines 2 [usage]

def runLine (line : List String) (settings : Except Failure Settings) (files : Files) :
    Logged Report :=
  match ofArguments line with
  | .ok i => i.run settings files
  | .error r => pure (refused r)

end Invocation

end Stratagem
