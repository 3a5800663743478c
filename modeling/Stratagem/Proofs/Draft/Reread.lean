import Stratagem.Proofs.Draft.RoundTrip

/-!
# Compiled drafts are read from their documents

A draft keeps the method of a condition and the output of a reference as they were given, and its compiled
strategy does too. Who reads the document of the strategy asks for a method that is not blank, drops the blanks
around it and takes every output for a text. So the document is read exactly if no method is blank and the outputs
can be shown, and the strategy comes back if its methods and outputs were in that form.
-/

namespace Stratagem

/-! ## Calls -/

/-- The argument as it is read: the output is a text. -/
def Argument.spelledOut : Argument → Argument
  | .ref r => .ref r.spelledOut
  | a => a

/-- The call as it is read: the method has no blanks around it, and the outputs are texts. -/
def Call.spelledOut (c : Call) : Call := { c.trimmed with args := c.args.map Argument.spelledOut }

def Argument.NamesOutput : Argument → Prop
  | .ref r => r.NamesOutput
  | _ => True

def Argument.Showable : Argument → Prop
  | .ref r => r.Showable
  | _ => True

/-- A call that can be read from its document. -/
structure Call.Readable (c : Call) : Prop where
  named : (Text.trim c.method).isEmpty = false
  outputs : ∀ a ∈ c.args, a.Showable

/-- A call that is in the form that it would be read in. -/
structure Call.Canonical (c : Call) : Prop where
  method : Text.trim c.method = c.method
  outputs : ∀ a ∈ c.args, a.NamesOutput

instance (a : Argument) : Decidable a.NamesOutput :=
  match a with
  | .ref r => inferInstanceAs (Decidable r.NamesOutput)
  | .number _ => isTrue trivial
  | .text _ => isTrue trivial

theorem Argument.NamesOutput.showable {a : Argument} (h : a.NamesOutput) : a.Showable :=
  match a with
  | .ref _ => ValueRef.NamesOutput.showable h
  | .number _ | .text _ => trivial

instance (c : Call) : Decidable c.Canonical :=
  decidable_of_iff (Text.trim c.method = c.method ∧ ∀ a ∈ c.args, a.NamesOutput)
    ⟨fun ⟨method, outputs⟩ => ⟨method, outputs⟩, fun h => ⟨h.method, h.outputs⟩⟩

theorem Call.Shaped.ref_of_mem {c : Call} (h : c.Shaped) {a : Argument} (ha : a ∈ c.args) : ∃ r, a = .ref r := by
  obtain ⟨left, right, upper, hargs⟩ := h.args
  rw [hargs] at ha
  rcases List.mem_cons.mp ha with rfl | ha
  · exact ⟨left, rfl⟩
  · obtain ⟨r, -, rfl⟩ := List.mem_map.mp ha
    exact ⟨r, rfl⟩

/-- The calls that a draft compiles to. -/
def Call.Drafted (c : Call) : Prop := c.Shaped ∧ ∀ r, .ref r ∈ c.args → r.Admissible

theorem Call.Drafted.reread {c : Call} (h : c.Drafted) (hreadable : c.Readable) :
    ofDocument c.toDocument = .ok c.spelledOut := by
  refine Call.reread_args hreadable.named fun a ha => ?_
  obtain ⟨r, rfl⟩ := h.1.ref_of_mem ha
  show (ValueRef.ofDocument r.toDocument >>= _) = _
  rw [(h.2 r ha).reread (hreadable.outputs _ ha)]
  rfl

/-- Only a call that can be read is read: it has a name, and its outputs were shown. -/
theorem Call.readable_of_reread {c d : Call} (h : ofDocument c.toDocument = .ok d) : c.Readable := by
  refine ⟨named_of_reread h, fun a ha => ?_⟩
  obtain ⟨b, hb⟩ := exists_arg_of_reread h a ha
  cases a with
  | ref r =>
      obtain ⟨q, hq, -⟩ := bind_eq_ok.mp hb
      exact ValueRef.showable_of_reread hq
  | _ => trivial

/-- Where the outputs are texts, only the method is changed. -/
theorem Call.Drafted.spelledOut_eq {c : Call} (h : c.Drafted) (houtputs : ∀ a ∈ c.args, a.NamesOutput) :
    c.spelledOut = c.trimmed := by
  refine congrArg (fun args => { c.trimmed with args }) (map_self fun a ha => ?_)
  obtain ⟨r, rfl⟩ := h.1.ref_of_mem ha
  obtain ⟨output, houtput⟩ := houtputs _ ha
  exact congrArg Argument.ref ((h.2 r ha).spelledOut_eq houtput)

theorem Call.Drafted.spelledOut_self {c : Call} (h : c.Drafted) (hcanonical : c.Canonical) : c.spelledOut = c := by
  rw [h.spelledOut_eq hcanonical.outputs, trimmed, hcanonical.method]

/-! ## Strategies -/

theorem Operand.toRef_admissible {o : Operand} (h : o.EachRef ValueRef.Admissible) {left : ValueRef}
    (hleft : left.Admissible) : (o.toRef left).Admissible := by
  cases o with
  | ref r => exact h
  | number x => exact ValueRef.ofNumber_admissible x left.timeframe hleft.calcMode

theorem Condition.EachRef.compile_admissible {k : Condition} (h : k.EachRef ValueRef.Admissible) :
    ∀ r, .ref r ∈ k.compile.args → r.Admissible := by
  intro r hr
  obtain ⟨o, ho, heq⟩ := List.mem_map.mp hr
  cases heq
  exact Operand.toRef_admissible (h o ho) (h _ List.mem_cons_self)

theorem ActionSet.Legible.compile {a : ActionSet} (h : a.Legible) : a.compile.Legible :=
  fun c hc => h c (Quorum.mem_live.mp hc).1

namespace Compiled

theorem Logic.same_iff {l l' : Logic} : l.Same l' ↔ ∀ slot, (l.get slot).unsigned = (l'.get slot).unsigned := by
  have hget : ∀ (l : Logic) slot, l.unsigned.get slot = (l.get slot).unsigned := fun _ _ => PerSlot.get_map _ _ _
  constructor
  · intro h slot
    rw [← hget, ← hget, show l.unsigned = l'.unsigned from h]
  · intro h
    refine PerSlot.ext_get fun slot => ?_
    rw [hget, hget, h]

/-- Whether the signs of zeros are dropped from the actions makes no difference. -/
theorem Branch.unsigned_onPass (b : Branch) : unsigned { b with onPass := b.onPass.unsigned } = b.unsigned := by
  rw [unsigned, unsigned, ActionSet.unsigned_unsigned]

end Compiled

namespace Tree

variable {t : Tree}

theorem Drafted.compile_normal (h : t.Drafted) (slot : Slot) :
    (t.compile.get slot).Normal Call.Drafted :=
  Tree.compile_normal (fun slot c hc g hg k hk =>
    ⟨k.compile_shaped, ((((h slot).containers c hc).groups g hg).conditions k hk).refs.compile_admissible⟩) slot

theorem Drafted.calls (h : t.Drafted) : ∀ c ∈ t.compile.conditions, c.Drafted :=
  Compiled.Logic.forall_conditions h.compile_normal

/-- The document of a compiled draft is read if every call can be read. -/
theorem Drafted.reread (h : t.Drafted) (hreadable : ∀ c ∈ t.compile.conditions, c.Readable) :
    Compiled.Logic.ofDocument t.compile.toDocument =
      .ok ((t.compile.mapCalls Call.spelledOut).map fun _ b => { b with onPass := b.onPass.unsigned }) := by
  refine Compiled.Logic.reread (fun c hc => (h.calls c hc).reread (hreadable c hc)) fun slot => ?_
  rw [show t.compile.get slot = (t.get slot).compile from PerSlot.get_map _ _ _, Branch.onPass_compile]
  exact (h slot).onPass.compile

theorem Drafted.read_iff (h : t.Drafted) : (∃ l, Compiled.Logic.ofDocument t.compile.toDocument = .ok l) ↔
    ∀ c ∈ t.compile.conditions, c.Readable := by
  constructor
  · rintro ⟨l, hl⟩ c hc
    obtain ⟨d, hd⟩ := Compiled.Logic.exists_of_reread hl c hc
    exact Call.readable_of_reread hd
  · exact fun hreadable => ⟨_, h.reread hreadable⟩

end Tree

namespace Draft

/-- **A compiled draft is read from its document exactly if no method is blank** and no output that is no text has
a number too long to be written. But for the blanks around methods and the outputs that are no texts it is the
strategy that is read. -/
theorem compiled_rereads (base : Trade) {raw : Document} {d : Draft} (h : ofDocument (.ok base) raw = .ok d) :
    ((∃ l, Compiled.Logic.ofDocument d.tree.compile.toDocument = .ok l) ↔
      ∀ c ∈ d.tree.compile.conditions, c.Readable) ∧
    ∀ l, Compiled.Logic.ofDocument d.tree.compile.toDocument = .ok l →
      l.Same (d.tree.compile.mapCalls Call.spelledOut) ∧
      ((∀ c ∈ d.tree.compile.conditions, c.Canonical) → l.Same d.tree.compile) := by
  obtain ⟨-, hdrafted⟩ := sound_of_ofDocument h
  refine ⟨hdrafted.read_iff, fun l hl => ?_⟩
  have hread := hdrafted.reread (hdrafted.read_iff.mp ⟨l, hl⟩)
  rw [hl, Except.ok.injEq] at hread
  have hsame : l.Same (d.tree.compile.mapCalls Call.spelledOut) := by
    rw [hread]
    refine Compiled.Logic.same_iff.mpr fun slot => ?_
    rw [PerSlot.get_map]
    exact Compiled.Branch.unsigned_onPass _
  refine ⟨hsame, fun hcanonical => ?_⟩
  rwa [Compiled.Logic.mapCalls_self fun c hc => (hdrafted.calls c hc).spelledOut_self (hcanonical c hc)] at hsame

theorem compiled_rereads_everyForm : ∃ d l, ofDocument (.ok (.ofSettings quiet)) everyForm = .ok d ∧
    Compiled.Logic.ofDocument d.tree.compile.toDocument = .ok l ∧ l.Same d.tree.compile := by
  have hrun : (do
      let d ← ofDocument (.ok (.ofSettings quiet)) everyForm
      return decide (∀ c ∈ d.tree.compile.conditions, c.Canonical ∧ (Text.trim c.method).isEmpty = false)).toOption =
        some true := by
    decide +kernel
  obtain ⟨d, hd, hrun⟩ := bind_eq_ok.mp (eq_ok_of_toOption hrun)
  have hcanonical := of_decide_eq_true (Except.ok.inj hrun)
  obtain ⟨hread, hsame⟩ := compiled_rereads (.ofSettings quiet) hd
  obtain ⟨l, hl⟩ := hread.mpr fun c hc =>
    ⟨(hcanonical c hc).2, fun a ha => ((hcanonical c hc).1.outputs a ha).showable⟩
  exact ⟨d, l, hd, hl, (hsame l hl).2 fun c hc => (hcanonical c hc).1⟩

def comparing (method : String) : Document :=
  let condition : Document := .record [
    ("id", .text "low"), ("method", .text method), ("left", .text "close"), ("right", .int 30)]
  .record [("logic", .record [("entry.long", .record [("containers", .list [.record [("id", .text "open"),
    ("groups", .list [.record [("id", .text "dip"), ("conditions", .list [condition])]])]])])])]

/-- A blank method is a method to the draft and none to the reader of its strategy. -/
example : ((ofDocument (.ok (.ofSettings quiet)) (comparing " ")).toOption.map fun d =>
    (Compiled.Logic.ofDocument d.tree.compile.toDocument).toOption.isSome) = some false := by
  decide +kernel

end Draft

end Stratagem
