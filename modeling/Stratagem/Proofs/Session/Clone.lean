import Stratagem.Proofs.Compiled.Normal
import Stratagem.Proofs.Draft.Reopened
import Stratagem.Proofs.Extraction.Coverage
import Stratagem.Proofs.Session.Operation
import Stratagem.Proofs.Tree.Walk

/-!
# Clones

The strategy that was sent is opened in a session without a selection, and sent again. Its logic is sent as it was,
and so are its trade settings but for the timeframe: one of the default length is taken for one that nobody chose,
and follows the indicators that the logic reads, the first of which need not be the one that it followed before.
-/

namespace Stratagem

/-! ## The settings in force -/

/-- The settings with a timeframe of the default length taken from the selection. -/
def Trade.following (t : Trade) (s : Selection) : Trade :=
  { t with
    timeframeSec := if t.timeframeSec = Timeframe.defaultSeconds then s.timeframeSeconds else t.timeframeSec }

theorem Trade.timeframeSec_following (t : Trade) (s : Selection) : (t.following s).timeframeSec =
    if t.timeframeSec = Timeframe.defaultSeconds then s.timeframeSeconds else t.timeframeSec := rfl

theorem Timeframe.seconds?_isDouble {label : String} {n : Int} (h : seconds? label = some n) : Number.IsDouble n := by
  have hknown : ∀ entry ∈ known, (Number.ofInt? entry.2).bind Number.truncate? = some entry.2 := by decide +kernel
  obtain ⟨pre, post, hsplit, -⟩ := List.lookup_eq_some_iff.mp h
  have hmem : (normalize label, n) ∈ known := hsplit ▸ List.mem_append_right _ List.mem_cons_self
  obtain ⟨x, hx, htruncate⟩ := Option.bind_eq_some_iff.mp (hknown _ hmem)
  exact ⟨x, hx, htruncate⟩

theorem Selection.timeframeSeconds_settled (s : Selection) :
    Number.IsDouble s.timeframeSeconds ∧ ¬ s.timeframeSeconds ≤ 0 := by
  rw [timeframeSeconds]
  cases hfound : s.indicators.findSome? fun i => Timeframe.seconds? i.timeframe with
  | none => exact (Trade.default_settled "" "").timeframe
  | some n =>
      obtain ⟨i, -, hi⟩ := List.exists_of_findSome?_eq_some hfound
      exact ⟨Timeframe.seconds?_isDouble hi, Int.not_le.mpr (Timeframe.seconds?_pos hi)⟩

theorem Trade.Settled.following {t : Trade} (h : t.Settled) (s : Selection) : (t.following s).Settled := by
  refine ⟨?_, h.positionMode, h.sizing⟩
  rw [timeframeSec_following]
  split
  · exact s.timeframeSeconds_settled
  · exact h.timeframe

theorem Trade.Covers.following {base t : Trade} (h : base.Covers t) (s : Selection) : base.Covers (t.following s) :=
  ⟨h.exchange, h.symbol, h.openConflictPolicy⟩

theorem Trade.Same.following {t u : Trade} (h : t.Same u) (s : Selection) : (t.following s).Same (u.following s) := by
  obtain ⟨q, rfl, hq⟩ := h
  exact ⟨q, rfl, hq⟩

theorem Session.effectiveTrade_eq (s : Session) : s.effectiveTrade = s.trade.following s.selection := by
  rw [effectiveTrade, Trade.following]
  by_cases hdefault : s.trade.timeframeSec = Timeframe.defaultSeconds
  · rw [if_pos hdefault]
    cases hempty : s.selection.indicators.isEmpty with
    | true =>
        -- nothing is followed, which is to follow the default
        have hnone : s.selection.timeframeSeconds = Timeframe.defaultSeconds := by
          rw [Selection.timeframeSeconds, List.isEmpty_iff.mp hempty]
          rfl
        rw [hnone, ← hdefault]
        rfl
    | false =>
        rw [hdefault]
        rfl
  · rw [if_neg hdefault, if_neg (by simp [hdefault])]

/-! ## Written strategies -/

theorem Document.ofReal_unsignedZero (x : Float) : ofReal (ValueRef.unsignedZero x) = ofReal x := by
  by_cases hx : (x == 0) = true
  · obtain ⟨s, hs⟩ := Number.unpack_of_beq_zero hx
    rw [ValueRef.unsignedZero, if_pos hx, ofReal, ofReal, Number.integral?_of_unpack_zero hs]
    rfl
  · rw [ValueRef.unsignedZero, if_neg hx]

theorem Argument.toDocument_unsigned (a : Argument) : a.unsigned.toDocument = a.toDocument := by
  cases a with
  | number x => exact Document.ofReal_unsignedZero x
  | _ => rfl

theorem Call.toDocument_unsigned (c : Call) : c.unsigned.toDocument = c.toDocument := by
  rw [toDocument, toDocument, unsigned, List.map_map, Function.comp_def]
  simp only [Argument.toDocument_unsigned]

theorem ActionSet.toDocument_unsigned (a : ActionSet) : a.unsigned.toDocument = a.toDocument := by
  rw [toDocument, toDocument, unsigned, List.map_map, Function.comp_def]
  simp only [Call.toDocument_unsigned]

namespace Compiled

/-- A strategy with trimmed methods is written in the way that it is read. -/
theorem Logic.toDocument_received {l : Logic} (h : ∀ c ∈ l.conditions, c.trimmed = c) :
    l.received.toDocument = l.toDocument := by
  have hslot : ∀ slot, (l.received.get slot).toDocument = (l.get slot).toDocument := by
    intro slot
    rw [received, mapCalls_self h, PerSlot.get_map, Branch.toDocument, Branch.toDocument,
      ActionSet.toDocument_unsigned]
  rw [toDocument, toDocument, show l.received.entryLong.toDocument = _ from hslot .entryLong,
    show l.received.entryShort.toDocument = _ from hslot .entryShort,
    show l.received.exitLong.toDocument = _ from hslot .exitLong,
    show l.received.exitShort.toDocument = _ from hslot .exitShort]
  rfl

end Compiled

/-- A written strategy is read in two parts. -/
theorem Strategy.ofDocument_toDocument {base t u : Trade} {l m : Compiled.Logic}
    (htrade : base.merge t.toDocument = .ok u) (hlogic : Compiled.Logic.ofDocument l.toDocument = .ok m) :
    Strategy.ofDocument (.ok base) (⟨t, l⟩ : Strategy).toDocument = .ok ⟨u, m⟩ := by
  show (base.merge t.toDocument >>= fun trade =>
    Compiled.Logic.ofDocument l.toDocument >>= fun logic => Except.ok (Strategy.mk trade logic)) = _
  rw [htrade, ok_bind, hlogic]
  rfl

/-! ## Recompiled trees -/

namespace Tree

variable {t : Tree}

theorem mem_conditions_compile {d : Call} :
    d ∈ t.compile.conditions ↔ ∃ entry ∈ t.conditions true, entry.2.compile = d := by
  rw [compile_conditions, List.mem_map]

theorem trimmed_compile (h : ∀ entry ∈ t.conditions true, Text.trim entry.2.method = entry.2.method) :
    ∀ d ∈ t.compile.conditions, d.trimmed = d := by
  intro d hd
  obtain ⟨entry, hentry, rfl⟩ := mem_conditions_compile.mp hd
  exact congrArg (fun method => { entry.2.compile with method }) (h entry hentry)

/-- The outputs that a compiled tree reads are texts, whether they are declared or dangle. -/
theorem names_compiled {s : Selection} {c : Compilation} (h : t.compileWith (some s) = .ok c)
    (hplain : t.EachRef Draft.PlainOutput) : ∀ d ∈ t.compile.conditions, ∀ a ∈ d.args, a.NamesOutput := by
  intro d hd a ha
  obtain ⟨entry, hentry, rfl⟩ := mem_conditions_compile.mp hd
  obtain ⟨o, ho, rfl⟩ := List.mem_map.mp ha
  show (o.toRef entry.2.left).NamesOutput
  cases o with
  | number x => exact ⟨_, rfl⟩
  | ref r =>
      by_cases hkind : r.kind = .indicator
      · have hread : r ∈ (t.series true).map (·.2) := (mem_series_iff (beq_iff_eq.mpr hkind)).mpr ⟨_, hd, ha⟩
        obtain ⟨place, hplace, rfl⟩ := List.mem_map.mp hread
        exact names_of_compileWith h place hplace hkind
      · exact hplain.condition entry hentry _ ho hkind

theorem Drafted.each (h : t.Drafted) : t.Each Condition.Drafted :=
  fun slot c hc g hg k hk => (((h slot).containers c hc).groups g hg).conditions k hk

/-- What is compiled of live conditions with trimmed methods and plain numbers is compiled again from its tree, in
which no threshold is corrected. -/
theorem Drafted.recompiled (h : t.Drafted)
    (hlive : ∀ entry ∈ t.conditions true, entry.2.Reduced ∧ Text.trim entry.2.method = entry.2.method) :
    ∃ t', t.compile.received.decompile = .ok t' ∧ t'.compile = t.compile.received ∧ t'.Tellable := by
  obtain ⟨t', hdecompile, hrestored⟩ := Compiled.Logic.restored h.received_normal
  refine ⟨t', hdecompile, ?_, tellable_of_unclamped fun slot => (hrestored slot).unclamped⟩
  have hself : t'.mapRefs (fun r => r) = t' := PerSlot.ext_get fun slot => by
    rw [mapRefs, PerSlot.get_map, Branch.mapRefs_self]
  rw [← hself, Compiled.Logic.compile_mapRefs hrestored]
  refine Compiled.Logic.mapCalls_self fun c hc => ?_
  rw [Compiled.Logic.conditions_received] at hc
  obtain ⟨d, hd, rfl⟩ := List.mem_map.mp hc
  rw [trimmed_compile (fun entry hentry => (hlive entry hentry).2) d hd]
  obtain ⟨entry, hentry, rfl⟩ := mem_conditions_compile.mp hd
  exact (hlive entry hentry).1.recast

end Tree

/-- Decompiling keeps outputs that are texts. -/
theorem Compiled.Logic.Legible.names {l : Logic} (h : l.Legible) {t : Tree} (hdecompile : l.decompile = .ok t) :
    t.EachRef ValueRef.NamesOutput := by
  intro slot c hc g hg k hk o ho
  obtain ⟨d, hd, hcall⟩ := each_decompiles hdecompile slot c hc g hg k hk
  have hreads := hcall.reads o ho
  cases o with
  | number x => trivial
  | ref r =>
      rcases hreads with hread | ⟨x, rfl⟩
      · exact ((h.conditions d hd).args _ hread).2
      · exact ⟨_, rfl⟩

instance (o : Operand) : Decidable o.Reduced :=
  match o with
  | .ref r => inferInstanceAs (Decidable (r.literalValue = none))
  | .number _ => isTrue trivial

instance (k : Condition) : Decidable k.Reduced :=
  inferInstanceAs (Decidable (∀ o ∈ k.right :: k.upper.toList, o.Reduced))

instance (r : ValueRef) : Decidable (Draft.PlainOutput r) :=
  inferInstanceAs (Decidable (r.kind ≠ .indicator → r.NamesOutput))

/-! ## Clones of sessions -/

namespace Session

def configOf : Document → Document
  | .record ms => Document.member ms "configJson"
  | _ => .null

/-- A session on the strategy that was sent, to send it under the given name. -/
def clone (base : Except Failure Trade) (sent name : Document) : Except Failure Session := do
  ofStrategy (← Strategy.ofDocument base (configOf sent)) name (.text "") none

theorem configOf_payloadOf (s : Session) (name description : String) (logic : Compiled.Logic) :
    configOf (s.payloadOf name description logic) = (⟨s.effectiveTrade, logic⟩ : Strategy).toDocument := rfl

/-- **A clone sends the same strategy.** Whatever was selected, the clone of what was sent sends the same logic and
the same trade settings, numbers compared by value, but for a timeframe of the default length: that one follows the
indicators which the logic reads. -/
theorem clone_resubmits {base : Trade} {s : Session} {sent : Document} (hsent : answer s.payload = .ok sent)
    (htree : s.tree.Drafted) (hplain : s.tree.EachRef Draft.PlainOutput)
    (hlive : ∀ entry ∈ s.tree.conditions true, entry.2.Reduced ∧ Text.trim entry.2.method = entry.2.method)
    (htrade : s.trade.Settled) (hbase : base.Covers s.trade) :
    ∃ copy resent trade, clone (.ok base) sent s.name = .ok copy ∧
      s.tree.compile.extractIndicators = .ok copy.selection ∧
      answer copy.payload = .ok resent ∧
      configOf sent = (⟨s.effectiveTrade, s.tree.compile⟩ : Strategy).toDocument ∧
      configOf resent = (⟨trade, s.tree.compile⟩ : Strategy).toDocument ∧
      (s.effectiveTrade.following copy.selection).Same trade := by
  obtain ⟨name, description, c, hname, -, hcompile, rfl⟩ := answer_payload_eq_ok.mp hsent
  rw [configOf_payloadOf, Tree.logic_of_compileWith hcompile]
  let l := s.tree.compile
  -- the logic is read as it was sent, and decompiled to a tree that compiles to it
  have htrimmed : ∀ d ∈ l.conditions, d.trimmed = d :=
    Tree.trimmed_compile fun entry hentry => (hlive entry hentry).2
  have hnamed : ∀ d ∈ l.conditions, (Text.trim d.method).isEmpty = false := by
    intro d hd
    obtain ⟨entry, hentry, rfl⟩ := Tree.mem_conditions_compile.mp hd
    show (Text.trim entry.2.method).isEmpty = false
    rw [(hlive entry hentry).2, (htree.each.condition entry hentry).method]
  have hread : Compiled.Logic.ofDocument l.toDocument = .ok l.received :=
    htree.reread_compile hnamed (Tree.names_compiled hcompile hplain)
  have hlegible := Compiled.Logic.legible_of_ofDocument hread
  obtain ⟨t, hdecompile, hrecompile, htell⟩ := htree.recompiled hlive
  -- the selection is made from the same references, and the tree compiles with it
  obtain ⟨selection, hextract, hcovers⟩ :=
    Compiled.Logic.extractIndicators_exists fun d hd => (hlegible.conditions d hd).args
  have hkeys : selection.HasKeys := fun i hi => (hcovers.keyed.referable i hi).key_exists
  have hnames : t.EachRef ValueRef.NamesOutput := hlegible.names hdecompile
  obtain ⟨c', hcompile'⟩ := (Tree.compileWith_exists_iff hkeys).mpr
    ⟨htell, hnames.imp fun _ => ValueRef.NamesOutput.hashable, fun entry hentry _ => hnames.series entry hentry⟩
  -- the settings are read as they were sent
  obtain ⟨trade, hmerge, hsame⟩ : ∃ u, base.merge s.effectiveTrade.toDocument = .ok u ∧ s.effectiveTrade.Same u := by
    rw [s.effectiveTrade_eq]
    exact (htrade.following _).reread (hbase.following _)
  let copy : Session :=
    { name := s.name, description := .text "", tree := t, selection, trade, apiKeyId := .null }
  have hcopy : clone (.ok base) (s.payloadOf name description l) s.name = .ok copy := by
    rw [clone, configOf_payloadOf, Strategy.ofDocument_toDocument hmerge hread, ok_bind, ofStrategy, hdecompile, ok_bind, hextract]
    rfl
  refine ⟨copy, copy.payloadOf name "" t.compile, trade.following selection, hcopy, ?_, ?_, rfl, ?_, hsame.following _⟩
  · show l.extractIndicators = .ok selection
    rw [← hextract, Compiled.Logic.extractIndicators, Compiled.Logic.extractIndicators, Extraction.ofLogic,
      Extraction.ofLogic, Compiled.Logic.refs_received]
  · refine answer_payload_eq_ok.mpr ⟨name, "", c', hname, rfl, hcompile', ?_⟩
    rw [Tree.logic_of_compileWith hcompile']
  · rw [configOf_payloadOf, hrecompile, copy.effectiveTrade_eq]
    show Document.record [_, ("logic", l.received.toDocument)] = Document.record [_, ("logic", l.toDocument)]
    rw [Compiled.Logic.toDocument_received htrimmed]

/-- A draft with an average over minutes in front of the hourly indicator that its condition reads. -/
def averaged : Document :=
  let indicator (id code timeframe : String) (length : Int) : Document := .record [("id", .text id),
    ("code", .text code), ("timeframe", .text timeframe), ("input", .text "Close"), ("params", .list [.int length])]
  let condition : Document := .record [
    ("id", .text "low"), ("method", .text "LessThan"), ("left", .text "rsi.Value"), ("right", .int 30)]
  .record [
    ("name", .text "Averaged"),
    ("indicators", .list [indicator "average" "MA" "1m" 20, indicator "rsi" "RSI" "1h" 14]),
    ("logic", .record [("entry.long", .record [("containers", .list [.record [("id", .text "open"),
      ("groups", .list [.record [("id", .text "dip"), ("conditions", .list [condition])]])]])])])]

theorem clone_resubmits_averaged : ∃ d sent copy resent trade,
    Draft.ofDocument (.ok (.ofSettings Draft.quiet)) averaged = .ok d ∧
      answer (ofDraft d (.ofSettings Draft.quiet)).payload = .ok sent ∧
      clone (.ok (.ofSettings Draft.quiet)) sent (.text d.name) = .ok copy ∧ answer copy.payload = .ok resent ∧
      configOf sent = (⟨(ofDraft d (.ofSettings Draft.quiet)).effectiveTrade, d.tree.compile⟩ : Strategy).toDocument ∧
      configOf resent = (⟨trade, d.tree.compile⟩ : Strategy).toDocument := by
  have hrun : (do
      let d ← Draft.ofDocument (.ok (.ofSettings Draft.quiet)) averaged
      let _ ← answer (ofDraft d (.ofSettings Draft.quiet)).payload
      return decide (d.tree.EachRef Draft.PlainOutput ∧ d.trade = none ∧ ∀ entry ∈ d.tree.conditions true,
        entry.2.Reduced ∧ Text.trim entry.2.method = entry.2.method)).toOption = some true := by
    decide +kernel
  obtain ⟨d, hd, hrun⟩ := bind_eq_ok.mp (eq_ok_of_toOption hrun)
  obtain ⟨sent, hsent, hrun⟩ := bind_eq_ok.mp hrun
  obtain ⟨hplain, htrade, hlive⟩ := of_decide_eq_true (Except.ok.inj hrun)
  have hsettings : (ofDraft d (.ofSettings Draft.quiet)).trade = .ofSettings Draft.quiet := by
    rw [ofDraft, htrade]
    rfl
  have hsettled : (ofDraft d (.ofSettings Draft.quiet)).trade.Settled := by
    rw [hsettings]
    exact Trade.default_settled _ _
  have hcovers : (Trade.ofSettings Draft.quiet).Covers (ofDraft d (.ofSettings Draft.quiet)).trade := by
    rw [hsettings]
    exact Trade.covers_self _
  obtain ⟨copy, resent, trade, hcopy, -, hresent, hconfig, hconfig', -⟩ := clone_resubmits hsent
    (Draft.sound_of_ofDocument hd).2 hplain hlive hsettled hcovers
  exact ⟨d, sent, copy, resent, trade, hd, hsent, hcopy, hresent, hconfig, hconfig'⟩

def setting? (config : Document) (key : String) : Option Document :=
  (config.get? "trade").bind (·.get? key)

end Session

end Stratagem
