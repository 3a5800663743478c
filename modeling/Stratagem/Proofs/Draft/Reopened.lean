import Stratagem.Proofs.Draft.Reread
import Stratagem.Proofs.Extraction

/-!
# Compiled strategies are opened again

A compiled strategy is turned into a draft: it is read from its document, decompiled, and given the selection that
it reads. What that draft compiles to differs from the strategy in spelling alone: methods are trimmed, literals
are aligned with the left operand beside them, and references to one indicator share the spelling of the first.
-/

namespace Stratagem

/-! ## Opening -/

/-- The document of the draft that a session on a compiled strategy holds. -/
def Compiled.Logic.reopened (base : Trade) (l : Logic) (name description : String) : Except Failure Document := do
  let strategy ← Strategy.ofDocument (.ok base) (.record [("logic", l.toDocument)])
  let session ← Session.ofStrategy strategy (.text name) (.text description) none
  Draft.toDocument { name, description, selection := session.selection, tree := session.tree, trade := none }

theorem Compiled.Logic.reopened_eq {base : Trade} {l l' : Logic} {t : Tree} {s : Selection}
    {name description : String}
    (hread : ofDocument l.toDocument = .ok l') (hdecompile : l'.decompile = .ok t)
    (hextract : l'.extractIndicators = .ok s) : l.reopened base name description =
      Draft.toDocument { name, description, selection := s, tree := t, trade := none } := by
  have hstrategy : Strategy.ofDocument (.ok base) (.record [("logic", l.toDocument)]) = .ok ⟨base, l'⟩ := by
    show (ofDocument l.toDocument >>= fun logic => Except.ok (Strategy.mk base logic)) = _
    rw [hread]
    rfl
  rw [reopened, hstrategy, ok_bind, Session.ofStrategy, hdecompile, ok_bind, hextract]
  rfl

def Argument.Tidy : Argument → Prop
  | .ref r => r.Tidy
  | _ => True

structure Call.Tidy (c : Call) : Prop where
  method : (Text.trim c.method).isEmpty = false
  args : ∀ a ∈ c.args, a.Tidy

theorem Call.Tidy.names {c : Call} (h : c.Tidy) : ∀ a ∈ c.args, a.NamesOutput := by
  intro a ha
  have htidy := h.args a ha
  cases a with
  | ref r => exact htidy.toPlain.output
  | _ => trivial

instance (r : ValueRef) : Decidable r.Tidy :=
  decidable_of_iff (r.NamesOutput ∧ (r.kind = .field → r.bare = r) ∧
      (r.kind = .indicator → (Text.trim r.indicator).isEmpty = false) ∧
      (r.kind = .indicator → (Text.trim r.calcMode).isEmpty = false))
    ⟨fun ⟨output, bare, code, calcMode⟩ => ⟨⟨output, bare⟩, code, calcMode⟩,
      fun h => ⟨h.output, h.bare, h.code, h.calcMode⟩⟩

instance (a : Argument) : Decidable a.Tidy :=
  match a with
  | .ref r => inferInstanceAs (Decidable r.Tidy)
  | .number _ => isTrue trivial
  | .text _ => isTrue trivial

instance (c : Call) : Decidable c.Tidy :=
  decidable_of_iff ((Text.trim c.method).isEmpty = false ∧ ∀ a ∈ c.args, a.Tidy)
    ⟨fun ⟨method, args⟩ => ⟨method, args⟩, fun h => ⟨h.method, h.args⟩⟩

/-- The strategy in the spelling that it comes back in. -/
def Compiled.Logic.recast (l : Logic) : Logic := l.mapCalls fun c => c.trimmed.recast l.respell

/-! ## Reading the strategy -/

namespace Compiled

theorem Branch.conditions_mapCalls (k : Call → Call) (b : Branch) :
    (b.mapCalls k).conditions = b.conditions.map k := by
  simp only [conditions, mapCalls, Container.mapCalls, Group.mapCalls, List.flatMap_map, List.map_flatMap]

def Logic.received (l : Logic) : Logic :=
  (l.mapCalls Call.trimmed).map fun _ b => { b with onPass := b.onPass.unsigned }

theorem Logic.get_received (l : Logic) (slot : Slot) : l.received.get slot =
    { (l.get slot).mapCalls Call.trimmed with onPass := (l.get slot).onPass.unsigned } := by
  rw [received, PerSlot.get_map, mapCalls, PerSlot.get_map]
  rfl

theorem Logic.conditions_received (l : Logic) : l.received.conditions = l.conditions.map Call.trimmed := by
  have hslot : ∀ slot, (l.received.get slot).conditions = (l.get slot).conditions.map Call.trimmed := by
    intro slot
    rw [get_received]
    exact Branch.conditions_mapCalls _ _
  rw [conditions, conditions, PerSlot.toList, PerSlot.toList, List.flatMap_map, List.flatMap_map,
    List.map_flatMap]
  exact congrArg (fun f => Slot.all.flatMap f) (funext hslot)

/-- The strategy and the one that is read have the same references. -/
theorem Logic.refs_received (l : Logic) : Extraction.refs l.received = Extraction.refs l := by
  rw [Extraction.refs, Extraction.refs, conditions_received, List.flatMap_map]
  rfl

theorem Logic.respell_received (l : Logic) : l.received.respell = l.respell := by
  funext r
  rw [respell, respell, original?, original?, refs_received]

theorem Branch.mapCalls_mapCalls (k k' : Call → Call) (b : Branch) :
    (b.mapCalls k).mapCalls k' = b.mapCalls fun c => k' (k c) := by
  unfold mapCalls Container.mapCalls Group.mapCalls
  simp only [List.map_map, Function.comp_def]

theorem Logic.received_mapCalls_same (l : Logic) (k : Call → Call) :
    (l.received.mapCalls k).Same (l.mapCalls fun c => k c.trimmed) := by
  refine same_iff.mpr fun slot => ?_
  rw [mapCalls, mapCalls, PerSlot.get_map, PerSlot.get_map, get_received,
    ← Branch.mapCalls_mapCalls Call.trimmed k (l.get slot)]
  exact Branch.unsigned_onPass (((l.get slot).mapCalls Call.trimmed).mapCalls k)

end Compiled

theorem Branch.compile_unsigned (b : Branch) :
    b.unsigned.compile = { b.compile with onPass := b.compile.onPass.unsigned } := by
  show (if b.enabled then _ else _) = _
  rw [compile]
  split
  · exact congrArg (Compiled.Branch.mk _ _ _) b.onPass.compile_unsigned
  · exact congrArg Compiled.Branch.disabled b.onPass.compile_unsigned

theorem Tree.compile_unsigned (t : Tree) : t.unsigned.compile.Same t.compile := by
  refine Compiled.Logic.same_iff.mpr fun slot => ?_
  rw [compile, compile, unsigned, PerSlot.get_map, PerSlot.get_map, PerSlot.get_map, Branch.compile_unsigned]
  exact Compiled.Branch.unsigned_onPass _

/-! ## The tree of the strategy -/

theorem Call.Restored.drafted {c : Call} (hc : c.Legible) {k : Condition} (h : c.Restored k) : k.Drafted :=
  ⟨h.id, by rw [h.method, hc.named], h.refs _ fun _ hr => (hc.args _ hr).1⟩

namespace Compiled

theorem Group.Restored.drafted {g : Group} (hg : g.Legible) {g' : Stratagem.Group} (h : g.Restored g') :
    g'.Drafted :=
  ⟨h.id, h.ids, forall_carried hg h.conditions fun _ _ hk hkk => hkk.drafted hk⟩

theorem Container.Restored.drafted {c : Container} (hc : c.Legible) {c' : Stratagem.Container}
    (h : c.Restored c') : c'.Drafted :=
  ⟨h.id, h.ids, forall_carried hc h.groups fun _ _ hg hgg => hgg.drafted hg⟩

theorem Branch.Restored.drafted {b : Branch} (hb : b.Legible) {b' : Stratagem.Branch} (h : b.Restored b') :
    b'.Drafted :=
  ⟨h.ids, forall_carried hb.containers h.containers fun _ _ hc hcc => hcc.drafted hc, h.onPass ▸ hb.onPass⟩

/-- What holds of the references of a strategy holds of those that its tree keeps. -/
theorem Logic.eachRef_of_restored {l : Logic} {t : Tree} (h : ∀ slot, (l.get slot).Restored (t.get slot))
    {p : ValueRef → Prop} (hp : ∀ c ∈ l.conditions, ∀ r, .ref r ∈ c.args → p r) : t.EachRef p := by
  intro slot c' hc' g' hg' k hk
  obtain ⟨c, hc, hcontainer⟩ := exists_left (h slot).containers c' hc'
  obtain ⟨g, hg, hgroup⟩ := exists_left hcontainer.groups g' hg'
  obtain ⟨d, hd, hcall⟩ := exists_left hgroup.conditions k hk
  exact hcall.refs p (hp d (mem_conditions.mpr ⟨slot, c, hc, g, hg, hd⟩))

theorem Logic.compile_mapRefs {l : Logic} {t : Tree} (h : ∀ slot, (l.get slot).Restored (t.get slot))
    (f : ValueRef → ValueRef) : (t.mapRefs f).compile = l.mapCalls (Call.recast f) := by
  refine PerSlot.ext_get fun slot => ?_
  rw [Tree.compile, Tree.mapRefs, mapCalls, PerSlot.get_map, PerSlot.get_map, PerSlot.get_map]
  exact (h slot).compile f

end Compiled

theorem Argument.recast_congr {f g : ValueRef → ValueRef} {left : ValueRef} {a : Argument}
    (hleft : f left = g left) (h : ∀ r, a = .ref r → f r = g r) : a.recast f left = a.recast g left := by
  cases a with
  | ref r =>
      have hoperand : (Operand.ofRef r).mapRef f = (Operand.ofRef r).mapRef g := by
        rw [Operand.ofRef]
        split
        · rfl
        · exact congrArg Operand.ref (h r rfl)
      rw [recast, recast, hoperand, hleft]
  | _ => rfl

theorem Call.recast_congr {f g : ValueRef → ValueRef} {c : Call} (h : ∀ r, .ref r ∈ c.args → f r = g r) :
    c.recast f = c.recast g := by
  rw [recast, recast]
  split
  · rename_i left rest hargs
    rw [hargs] at h
    have hleft := h left List.mem_cons_self
    have hrest : rest.map (Argument.recast f left) = rest.map (Argument.recast g left) :=
      List.map_congr_left fun a ha => Argument.recast_congr hleft fun r hr =>
        h r (List.mem_cons_of_mem _ (hr ▸ ha))
    rw [hleft, hrest]
  · rfl

/-! ## The whole way round -/

namespace Tree

variable {t : Tree}

theorem Drafted.received_normal (h : t.Drafted) (slot : Slot) :
    (t.compile.received.get slot).Normal Call.Shaped := by
  rw [Compiled.Logic.get_received]
  exact ((h.compile_normal slot).exchanged (k := Call.trimmed) (fun _ => ⟨rfl, rfl⟩)
    fun _ _ _ _ _ _ hd => ⟨hd.1.enabled, hd.1.args⟩).unsigned_onPass

/-- A compiled tree is read from its document with its methods trimmed. -/
theorem Drafted.reread_compile (h : t.Drafted)
    (hnamed : ∀ c ∈ t.compile.conditions, (Text.trim c.method).isEmpty = false)
    (hnames : ∀ c ∈ t.compile.conditions, ∀ a ∈ c.args, a.NamesOutput) :
    Compiled.Logic.ofDocument t.compile.toDocument = .ok t.compile.received := by
  have htrimmed : ∀ c ∈ t.compile.conditions, c.spelledOut = c.trimmed := fun c hc =>
    (h.calls c hc).spelledOut_eq (hnames c hc)
  have hreadable : ∀ c ∈ t.compile.conditions, c.Readable := fun c hc =>
    ⟨hnamed c hc, fun a ha => (hnames c hc a ha).showable⟩
  rw [h.reread hreadable, Compiled.Logic.mapCalls_congr htrimmed, Compiled.Logic.received]

end Tree

namespace Draft

/-- **A strategy that is opened again compiles to itself**, up to the spelling that `Compiled.Logic.recast` gives
it: flags, thresholds, order, actions, bars and outputs are those of the strategy. -/
theorem document_recompiles (base : Trade) (name description : String) {raw : Document} {d : Draft}
    (h : ofDocument (.ok base) raw = .ok d) (htidy : ∀ c ∈ d.tree.compile.conditions, c.Tidy) :
    ∃ doc e, d.tree.compile.reopened base name description = .ok doc ∧ ofDocument (.ok base) doc = .ok e ∧
      e.tree.compile.Same d.tree.compile.recast := by
  obtain ⟨-, hdrafted⟩ := sound_of_ofDocument h
  generalize d.tree = t at htidy hdrafted
  let l := t.compile
  -- the strategy is read, decompiled and given its selection
  have hread : Compiled.Logic.ofDocument l.toDocument = .ok l.received :=
    hdrafted.reread_compile (fun c hc => (htidy c hc).method) fun c hc => (htidy c hc).names
  have hlegible := Compiled.Logic.legible_of_ofDocument hread
  have htidy' : ∀ c ∈ l.received.conditions, ∀ a ∈ c.args, a.Tidy := by
    rw [Compiled.Logic.conditions_received]
    exact List.forall_mem_map.mpr fun c hc => (htidy c hc).args
  obtain ⟨t', hdecompile, hrestored⟩ := Compiled.Logic.restored hdrafted.received_normal
  obtain ⟨s, hextract, hs⟩ := Compiled.Logic.extractIndicators_standsFor
    (fun c hc => (hlegible.conditions c hc).args) fun r hr => by
      obtain ⟨hkind, c, hc, hmem⟩ := Extraction.mem_refs.mp hr
      exact (htidy' c hc _ hmem).code hkind
  -- the selection answers for every reference, so the draft is written, and it is drafted, so it is read
  obtain ⟨logic, hlogic⟩ := writeTree_exists (fun r => (hs.find r).imp fun _ hfound => hfound.1) t'
  let opened : Draft := { name, description, selection := s, tree := t', trade := none }
  obtain ⟨doc, hdoc⟩ : ∃ doc, opened.toDocument = .ok doc := ⟨_, bind_eq_ok.mpr ⟨logic, hlogic, rfl⟩⟩
  have hdrafted' : t'.Drafted := fun slot => (hrestored slot).drafted (hlegible slot)
  have hshow : t'.EachRef ValueRef.Showable := Compiled.Logic.eachRef_of_restored hrestored fun c hc r hr =>
    ValueRef.NamesOutput.showable ((hlegible.conditions c hc).args _ hr).2
  refine ⟨doc, _, (Compiled.Logic.reopened_eq hread hdecompile hextract).trans hdoc,
    ofDocument_toDocument hs.sound hdrafted' hshow rfl hdoc, ?_⟩
  have hrefs : ∀ c ∈ l.received.conditions, c.recast s.restored = c.recast l.respell := by
    intro c hc
    refine Call.recast_congr fun r hr => ?_
    rw [← l.respell_received]
    exact hs.restored ((hlegible.conditions c hc).args _ hr).1 (htidy' c hc _ hr)
  -- the actions come back without the signs of zeros, twice: from the strategy and from the draft
  show ((t'.mapRefs s.restored).unsigned.compile).unsigned = l.recast.unsigned
  rw [(t'.mapRefs s.restored).compile_unsigned, Compiled.Logic.compile_mapRefs hrestored,
    Compiled.Logic.mapCalls_congr hrefs]
  exact l.received_mapCalls_same _

theorem document_recompiles_everyForm : ∃ d doc e,
    ofDocument (.ok (.ofSettings quiet)) everyForm = .ok d ∧
      d.tree.compile.reopened (.ofSettings quiet) "Every form" "" = .ok doc ∧
      ofDocument (.ok (.ofSettings quiet)) doc = .ok e ∧ e.tree.compile.Same d.tree.compile.recast := by
  have hrun : (do
      let d ← ofDocument (.ok (.ofSettings quiet)) everyForm
      return decide (∀ c ∈ d.tree.compile.conditions, c.Tidy)).toOption = some true := by
    decide +kernel
  obtain ⟨d, hd, hrun⟩ := bind_eq_ok.mp (eq_ok_of_toOption hrun)
  have htidy := of_decide_eq_true (Except.ok.inj hrun)
  obtain ⟨doc, e, hdoc, he, hsame⟩ := document_recompiles (.ofSettings quiet) "Every form" "" hd htidy
  exact ⟨d, doc, e, hd, hdoc, he, hsame⟩

/-- The strategy itself does not come back: its literal has another text, and a reference another timeframe. -/
theorem everyForm_realigned : ∃ d doc e,
    ofDocument (.ok (.ofSettings quiet)) everyForm = .ok d ∧
      d.tree.compile.reopened (.ofSettings quiet) "Every form" "" = .ok doc ∧
      ofDocument (.ok (.ofSettings quiet)) doc = .ok e ∧ ¬ e.tree.compile.Same d.tree.compile := by
  have hrun : (do
      let d ← ofDocument (.ok (.ofSettings quiet)) everyForm
      let doc ← d.tree.compile.reopened (.ofSettings quiet) "Every form" ""
      let e ← ofDocument (.ok (.ofSettings quiet)) doc
      return decide (e.tree.compile.unsigned = d.tree.compile.unsigned)).toOption = some false := by
    decide +kernel
  obtain ⟨d, hd, hrun⟩ := bind_eq_ok.mp (eq_ok_of_toOption hrun)
  obtain ⟨doc, hdoc, hrun⟩ := bind_eq_ok.mp hrun
  obtain ⟨e, he, hrun⟩ := bind_eq_ok.mp hrun
  have hne : ¬ e.tree.compile.unsigned = d.tree.compile.unsigned := of_decide_eq_false (Except.ok.inj hrun)
  exact ⟨d, doc, e, hd, hdoc, he, hne⟩

end Draft

end Stratagem
