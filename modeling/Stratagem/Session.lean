import Stratagem.Tree.Compile
import Stratagem.Draft
import Stratagem.Journal
import Stratagem.Summary
import Stratagem.Tree.Edit

/-!
# Sessions

The working state of one strategy that is created or edited: the tree, the selection and the trade
settings. An operation that fails leaves the state as it was.

An `Operation` is what an editor does to a session, store by store: what it has stored by the time it fails stays
stored.
-/

namespace Stratagem

/-- A selection for a compiled strategy: an indicator for each instance that it reads, with the outputs
that it reads in the order of their first use. -/
structure Extraction where
  key : String
  ref : ValueRef
  outputs : List String

namespace Extraction

def note (r : ValueRef) (output : String) : List Extraction → List Extraction
  | [] => [⟨r.indicatorKey, r, [output]⟩]
  | e :: es =>
    if e.key == r.indicatorKey then
      { e with outputs := if e.outputs.contains output then e.outputs else e.outputs ++ [output] } :: es
    else e :: note r output es

/-- The references to indicators among the arguments of a compiled strategy. -/
def refs (l : Compiled.Logic) : List ValueRef :=
  l.conditions.flatMap fun c => c.args.filterMap fun
    | .ref r => if r.isIndicator then some r else none
    | _ => none

def ofLogic (l : Compiled.Logic) : Except Failure (List Extraction) :=
  (refs l).foldlM (fun found r => do return note r (← r.outputText) found) []

/-- The indicator for the `n`-th instance, counted from zero. -/
def indicator (n : Nat) (e : Extraction) : Indicator where
  id := "loaded-" ++ ordinal n
  code := e.ref.indicator
  timeframe := e.ref.timeframe
  input := e.ref.input
  params := e.ref.params
  output := ⟨e.outputs.headD ValueRef.defaultOutput, ""⟩
  otherOutputs := (e.outputs.drop 1).map fun key => ⟨key, ""⟩
  offset := (e.ref.window.low, e.ref.window.high)
  calcMode := e.ref.calcMode

def indicators : Nat → List Extraction → List Indicator
  | _, [] => []
  | n, e :: es => e.indicator n :: indicators (n + 1) es

end Extraction

def Compiled.Logic.extractIndicators (l : Logic) : Except Failure Selection := do
  Selection.ofIndicators (Extraction.indicators 0 (← Extraction.ofLogic l))

structure Session where
  /-- The name and the description are texts, except where an editor has set something else. -/
  name : Document
  description : Document
  tree : Tree
  selection : Selection
  trade : Trade
  /-- The key of the account at the exchange, null if none was chosen. -/
  apiKeyId : Document
  deriving DecidableEq

namespace Session

/-- Work that leaves lines in the journal, also when it fails. -/
abbrev Logged := ExceptT Failure (StateM (List Journal.Entry))

def log (entries : List Journal.Entry) : Logged Unit :=
  modify fun done => done ++ entries

def silent {α : Type} (work : Except Failure α) : Logged α :=
  ExceptT.mk (pure work)

/-- A session on a draft. Its own trade settings come before the given ones. -/
def ofDraft (d : Draft) (trade : Trade) : Session where
  name := .text d.name
  description := .text d.description
  tree := d.tree
  selection := d.selection
  trade := d.trade.getD trade
  apiKeyId := .null

/-- A session on a strategy that was saved. Without a selection, one is made from what the strategy
reads. -/
def ofStrategy (s : Strategy) (name description : Document) (selection? : Option Selection) :
    Except Failure Session := do
  let tree ← s.logic.decompile
  let selection ← match selection? with
    | some selection => pure selection
    | none => s.logic.extractIndicators
  return { name, description, tree, selection, trade := s.trade, apiKeyId := .null }

/-! ## Editing -/

def edit (s : Session) (limits : Limits) (e : Edit) : Except Failure Session := do
  return { s with tree := ← e.apply limits s.tree }

def addIndicator (s : Session) (i : Indicator) : Except Failure Session := do
  return { s with selection := ← s.selection.add i }

def selected (s : Session) (id : String) : Except Failure Indicator :=
  match s.selection.get? id with
  | some i => .ok i
  | none => .error (.missingKey (Text.quoted id))

/-- Exchanges an indicator and points the conditions that read it at the new one. -/
def updateIndicator (s : Session) (i : Indicator) : Except Failure Session := do
  let old ← s.selected i.id
  let selection ← s.selection.replace i
  return { s with selection, tree := ← Edit.retargetTree old i s.tree }

def usages (s : Session) (id : String) : Except Failure (List Usage) := do
  s.tree.usages (← s.selected id)

/-- Drops an indicator. Conditions that read it are kept; they are the answer. -/
def removeIndicator (s : Session) (id : String) : Except Failure (Session × List Usage) := do
  let usages ← s.usages id
  return ({ s with selection := s.selection.remove id }, usages)

def updateTrade (s : Session) (partialRecord : Document) : Except Failure Session := do
  return { s with trade := ← s.trade.merge partialRecord }

/-! ## Output -/

def danglingEntries : Diagnostic → List Journal.Entry
  | .dangling path column _ message =>
    Journal.reference "DANGLING" column message [("path", path)]
  | _ => []

def compileEntries (c : Compilation) : List Journal.Entry :=
  Journal.compiled (Number.decimal c.logic.enabledCount) (Number.decimal c.liveConditions)
    (if c.corrections == 0 then none else some (Number.decimal c.corrections))
    [("warnings", Number.decimal c.warnings.length)] ++ c.diagnostics.flatMap danglingEntries

def compile (s : Session) : Logged Compilation := do
  let c ← silent (s.tree.compileWith (some s.selection))
  log (compileEntries c)
  return c

/-- What the user reviews before submitting. -/
structure Preview where
  sections : List Summary.Section
  logicText : String
  used : List String
  compilation : Compilation

def preview (s : Session) : Logged Preview := do
  let compilation ← s.compile
  let sections ← silent (Summary.ofTree (some s.selection) s.tree)
  let logicText ← silent (compilation.logic.text .pretty)
  let used ← silent (Summary.usedLabels (some s.selection) s.tree)
  return { sections, logicText, used, compilation }

/-- The trade settings to submit. The default timeframe follows the selected indicators. -/
def effectiveTrade (s : Session) : Trade :=
  if !s.selection.indicators.isEmpty && s.trade.timeframeSec == Timeframe.defaultSeconds then
    { s.trade with timeframeSec := s.selection.timeframeSeconds }
  else s.trade

def strategy (s : Session) : Logged Strategy := do
  let c ← s.compile
  return ⟨s.effectiveTrade, c.logic⟩

def apiKeyMember (apiKeyId : Document) : List (String × Document) :=
  match apiKeyId with
  | .null => []
  | d => [("exchangeApiKeyId", d)]

def trimmedText : Document → Except Failure String
  | .text s => .ok (Text.trim s)
  | d => Document.refuse (.noTextOperation d)

/-- What is sent to save the strategy. -/
def payload (s : Session) : Logged Document := do
  let name ← silent (trimmedText s.name)
  let description ← silent (trimmedText s.description)
  let strategy ← s.strategy
  return .record <| [
    ("name", .text name),
    ("description", .text description),
    ("configJson", strategy.toDocument)] ++ apiKeyMember s.apiKeyId

/-- Submits the strategy. The submitter gives its answer, or says why it failed. -/
def submit (s : Session) (submitter : Document → Except String Document) : Logged Document := do
  let name ← silent (trimmedText s.name)
  if name.isEmpty then throw (.submission "Strategy name is required")
  let payload ← s.payload
  log (Journal.submission "SENT" name [])
  match submitter payload with
  | .ok response =>
    log (Journal.submission "ACCEPTED" name [])
    return response
  | .error reason =>
    log (Journal.submission "FAILED" name [("error", reason)])
    throw (.submission reason)

end Session

/-! ## Operations -/

/-- A session that is worked on, the journal of the work, and what was handed to submitters. -/
structure Editor where
  session : Session
  journal : List Journal.Entry
  handed : List Document

namespace Editor

abbrev Work := ExceptT Failure (StateM Editor)

def attempt {α : Type} (answer : Except Failure α) : Work α :=
  ExceptT.mk (pure answer)

def store (change : Session → Session) : Work Unit :=
  modify fun e => { e with session := change e.session }

def logged {α : Type} (work : Session.Logged α) : Work α :=
  ExceptT.mk fun e =>
    let (answer, journal) := work.run.run e.journal
    (answer, { e with journal })

/-- Hands a document to a submitter, which gives its answer or says why it failed. -/
def hand (submitter : Document → Except String Document) (sent : Document) : Work (Except String Document) := do
  modify fun e => { e with handed := e.handed ++ [sent] }
  return submitter sent

/-! ### Editing -/

def apply (reducer : Tree → Except Failure Tree) : Work Unit := do
  let tree ← attempt (reducer (← get).session.tree)
  store fun s => { s with tree }

def addIndicator (i : Indicator) : Work Unit := do
  let selection ← attempt ((← get).session.selection.add i)
  store fun s => { s with selection }

/-- The tree is stored before the selection. -/
def updateIndicator (i : Indicator) : Work Unit := do
  let old ← attempt ((← get).session.selected i.id)
  let selection ← attempt ((← get).session.selection.replace i)
  let tree ← attempt (Edit.retargetTree old i (← get).session.tree)
  store fun s => { s with tree }
  store fun s => { s with selection }

def removeIndicator (id : String) : Work (List Usage) := do
  let i ← attempt ((← get).session.selected id)
  let usages ← attempt ((← get).session.tree.usages i)
  store fun s => { s with selection := s.selection.remove id }
  return usages

def updateTrade (partialRecord : Document) : Work Unit := do
  let trade ← attempt ((← get).session.trade.merge partialRecord)
  store fun s => { s with trade }

/-! ### Output -/

def submit (submitter : Document → Except String Document) : Work Document := do
  let name ← attempt (Session.trimmedText (← get).session.name)
  if name.isEmpty then throw (.submission "Strategy name is required")
  let payload ← logged (← get).session.payload
  logged (Session.log (Journal.submission "SENT" name []))
  match ← hand submitter payload with
  | .ok response =>
    logged (Session.log (Journal.submission "ACCEPTED" name []))
    return response
  | .error reason =>
    logged (Session.log (Journal.submission "FAILED" name [("error", reason)]))
    throw (.submission reason)

end Editor

inductive Operation where
  /-- Changes the tree. -/
  | apply (reducer : Tree → Except Failure Tree)
  | addIndicator (i : Indicator)
  | updateIndicator (i : Indicator)
  | removeIndicator (id : String)
  | updateTrade (partialRecord : Document)
  | submit (submitter : Document → Except String Document)

namespace Operation

def work : Operation → Editor.Work Unit
  | apply reducer => Editor.apply reducer
  | addIndicator i => Editor.addIndicator i
  | updateIndicator i => Editor.updateIndicator i
  | removeIndicator id => discard (Editor.removeIndicator id)
  | updateTrade partialRecord => Editor.updateTrade partialRecord
  | submit submitter => discard (Editor.submit submitter)

/-- Whether the operation went through, and what it left. -/
def run (o : Operation) (e : Editor) : Except Failure Unit × Editor := o.work.run.run e

/-- What is left after operations of which some may have failed. -/
def runAll (ops : List Operation) (e : Editor) : Editor :=
  ops.foldl (fun e o => (o.run e).2) e

/-- The operations that go through when all are run. -/
def completed : List Operation → Editor → List Operation
  | [], _ => []
  | o :: ops, e =>
    match o.run e with
    | (.ok _, e') => o :: completed ops e'
    | (.error _, e') => completed ops e'

end Operation

end Stratagem
