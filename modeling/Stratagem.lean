import Stratagem.Document.Parser
import Stratagem.Document.Printer
import Stratagem.Summary
import Stratagem.Method
import Stratagem.Quorum
import Stratagem.ValueRef.Wire
import Stratagem.Tree.Edit
import Stratagem.Journal
import Stratagem.Compiled
import Stratagem.Tree.Compile
import Stratagem.Draft
import Stratagem.Evaluate
import Stratagem.Session
import Stratagem.Main
import Stratagem.Proofs.Number.RoundTrip
import Stratagem.Proofs.Quorum
import Stratagem.Proofs.Method
import Stratagem.Proofs.Evaluate
import Stratagem.Proofs.Actions
import Stratagem.Proofs.Tree.Meaning
import Stratagem.Proofs.Compiled.Decompile
import Stratagem.Proofs.Compiled.Meaning
import Stratagem.Proofs.Compiled.Levels
import Stratagem.Proofs.Compiled.Restored
import Stratagem.Proofs.Compiled.Normal
import Stratagem.Proofs.Text
import Stratagem.Proofs.ValueRef.Wire
import Stratagem.Proofs.Compiled.Wire
import Stratagem.Proofs.ValueRef.Key
import Stratagem.Proofs.ValueRef.Column
import Stratagem.Proofs.Draft.Selection
import Stratagem.Proofs.Draft.Operand
import Stratagem.Proofs.Draft.ShortForm
import Stratagem.Proofs.Tree.Refs
import Stratagem.Proofs.Draft.Tree
import Stratagem.Proofs.Trade
import Stratagem.Proofs.Draft.RoundTrip
import Stratagem.Proofs.Tree.Alike
import Stratagem.Proofs.Extraction
import Stratagem.Proofs.Draft.Reread
import Stratagem.Proofs.Draft.Reopened
import Stratagem.Proofs.Tree.Edit
import Stratagem.Proofs.Tree.Valid
import Stratagem.Proofs.Tree.RequiredFirst
import Stratagem.Proofs.Tree.Apart
import Stratagem.Proofs.Tree.Undone
import Stratagem.Proofs.Tree.Retargeted
import Stratagem.Proofs.Draft.Authored
import Stratagem.Proofs.Selection
import Stratagem.Proofs.Retarget
import Stratagem.Proofs.Refusal
import Stratagem.Proofs.ValueRef.Refusal
import Stratagem.Proofs.Compiled.Refusal
import Stratagem.Proofs.Draft.Refusal
import Stratagem.Proofs.Draft.Answers
import Stratagem.Proofs.Reading
import Stratagem.Proofs.Overflow
import Stratagem.Proofs.Compiled.Monotone
import Stratagem.Proofs.Tree.Reordered
import Stratagem.Proofs.Tree.Each
import Stratagem.Proofs.Tree.Walk
import Stratagem.Proofs.Tree.Findings
import Stratagem.Proofs.Tree.Activity
import Stratagem.Proofs.Tree.Comparable
import Stratagem.Proofs.Draft.Admitted
import Stratagem.Proofs.Extraction.Coverage
import Stratagem.Proofs.Session.Operation
import Stratagem.Proofs.Session.Clone
import Stratagem.Proofs.Session.Removal
import Stratagem.Proofs.Number.Order
import Stratagem.Proofs.Trade.Given
import Stratagem.Proofs.Session.Timeframe
import Stratagem.Proofs.Tree.Fresh
import Stratagem.Proofs.Timeframe
import Stratagem.Proofs.Method.Opposite
