import Stratagem.Proofs.Draft.Tree
import Stratagem.Proofs.Trade
import Stratagem.Proofs.Tree.Alike

/-!
# Drafts come back from their documents

A draft that was read and written is read again, and nothing of it is lost. A reference that addresses an
indicator of the selection is written by the id of the indicator, so it comes back in the spelling of that
indicator: the column is the same, the text of its timeframe need not be.

It still addresses the same column at the same bars: references with the same key are in the same column, and
what a candle column is told besides its name and its timeframe is not looked at. So the tree that comes back
decides on every snapshot what the tree of the draft decides.
-/

namespace Stratagem

open Document (member displayOr_empty)

/-! ## References -/

/-- A reference whose output is a text. One to a candle column says nothing but the name, the timeframe and the
bars. -/
structure ValueRef.Plain (r : ValueRef) : Prop where
  output : ∃ s, r.output = .text s
  bare : r.kind = .field → r.bare = r

/-- `q` is `r`, or `r` in the spelling of the indicator that stands for it. -/
structure Selection.Restores (s : Selection) (r q : ValueRef) : Prop where
  plain : r.Plain → q = r ∨ ∃ i, s.find r = .ok (some i) ∧ i.calcMode = r.calcMode ∧
    q = { r with indicator := i.code, timeframe := i.timeframe, input := i.input }
  field : r.kind = .field →
    q.kind = .field ∧ q.timeframe = r.timeframe ∧ q.input = r.input ∧ q.window = r.window

theorem Selection.restores_restored {s : Selection}
    (hs : ∀ i ∈ s.indicators, i.calcMode.isEmpty = false → i.normal = i) {r : ValueRef} (hr : r.Admissible) :
    s.Restores r (s.restored r) := by
  by_cases hfield : r.isField = true
  · have hrestored : s.restored r = r.bare := if_pos hfield
    rw [hrestored]
    exact ⟨fun hplain => Or.inl (hplain.bare (eq_of_beq hfield)), fun hkind => ⟨hkind, rfl, rfl, rfl⟩⟩
  · refine ⟨fun hplain => ?_, fun hkind => absurd (beq_iff_eq.mpr hkind) hfield⟩
    obtain ⟨output, houtput⟩ := hplain.output
    have hspelled := hr.spelledOut_eq houtput
    rw [restored, if_neg hfield]
    split
    · rename_i i hfind
      split
      · -- with the calculation mode of the indicator, the reference is written by its id
        rename_i hmode
        have hmode := eq_of_beq hmode
        have hempty : i.calcMode.isEmpty = false := hmode ▸ hr.calcMode
        refine Or.inr ⟨i, hfind, hmode.symm, ?_⟩
        rw [hs i (find_eq_some hfind).2.1 hempty, ValueRef.respelled, hempty, if_neg Bool.false_ne_true, ← hmode]
      · exact Or.inl hspelled
    · exact Or.inl hspelled

/-! ## Drafts -/

/-- Equal, with numbers compared by value. -/
def Trade.Same (t u : Trade) : Prop :=
  ∃ q, u = { t with sizing := { t.sizing with maxPositionQty := q } } ∧
    (q = t.sizing.maxPositionQty ∨ q.equals t.sizing.maxPositionQty = true)

/-- Settled settings are read from their record, numbers compared by value. -/
theorem Trade.Settled.reread {base t : Trade} (h : t.Settled) (hbase : base.Covers t) :
    ∃ u, base.merge t.toDocument = .ok u ∧ t.Same u := by
  obtain ⟨x, hx, hmerge⟩ := h.merge_toDocument hbase
  refine ⟨_, hmerge, .real x, rfl, ?_⟩
  rcases hx with hq | ⟨n, hq, -, hequals⟩
  · exact Or.inl hq.symm
  · rw [hq]
    exact Or.inr (hq ▸ hequals)

namespace Draft

/-- What a draft `d` comes back as. -/
structure Restores (d e : Draft) : Prop where
  name : e.name = d.name
  description : e.description = d.description
  selection : List.Forall₂ (fun i j : Indicator => j.id = i.id ∧ (i.calcMode.isEmpty = false → j = i))
    d.selection.indicators e.selection.indicators
  tree : ∃ f, e.tree.unsigned = (d.tree.mapRefs f).unsigned ∧
    d.tree.EachRef fun r => d.selection.Restores r (f r)
  trade : Option.Rel Trade.Same d.trade e.trade

def readTrade (base : Except Failure Trade) : Document → Except Failure (Option Trade)
  | .null => .ok none
  | raw => do return some (← (← base).merge raw)

theorem ofDocument_eq_ok {base : Except Failure Trade} {raw : Document} {d : Draft} :
    ofDocument base raw = .ok d ↔ ∃ ms, raw = .record ms ∧
      readSelection (member ms "indicators") = .ok d.selection ∧
      readTree d.selection ((member ms "logic").orElse (.record [])) = .ok d.tree ∧
      readTrade base (member ms "trade") = .ok d.trade ∧
      (member ms "name").displayOr "" = .ok d.name ∧ (member ms "description").displayOr "" = .ok d.description := by
  cases raw with
  | record ms =>
      have hunfold : ofDocument base (.record ms) = (do
          let selection ← readSelection (member ms "indicators")
          let name ← (member ms "name").displayOr ""
          let description ← (member ms "description").displayOr ""
          let tree ← readTree selection ((member ms "logic").orElse (.record []))
          let trade ← readTrade base (member ms "trade")
          return { name, description, selection, tree, trade }) := by
        rw [ofDocument, show Wire.record "Draft" (.record ms) = .ok ms from rfl, ok_bind]
        cases member ms "trade" <;> simp only [readTrade, bind_assoc, pure_bind, ok_bind]
      rw [hunfold]
      constructor
      · intro h
        obtain ⟨selection, hselection, h⟩ := bind_eq_ok.mp h
        obtain ⟨name, hname, h⟩ := bind_eq_ok.mp h
        obtain ⟨description, hdescription, h⟩ := bind_eq_ok.mp h
        obtain ⟨tree, htree, h⟩ := bind_eq_ok.mp h
        obtain ⟨trade, htrade, h⟩ := bind_eq_ok.mp h
        cases h
        exact ⟨ms, rfl, hselection, htree, htrade, hname, hdescription⟩
      · rintro ⟨ms', hms, hselection, htree, htrade, hname, hdescription⟩
        cases hms
        rw [hselection, ok_bind, hname, ok_bind, hdescription, ok_bind, htree, ok_bind, htrade]
        rfl
  | _ =>
      constructor
      · intro h
        cases h
      · rintro ⟨ms, hms, -⟩
        cases hms

/-- The members of a written draft. -/
theorem members_toDocument {d : Draft} {doc : Document} (h : d.toDocument = .ok doc) :
    ∃ ms logic, doc = .record ms ∧ writeTree d.selection d.tree = .ok logic ∧
      member ms "name" = .text d.name ∧ member ms "description" = .text d.description ∧
      member ms "indicators" = .list (d.selection.indicators.map writeIndicatorEntry) ∧
      member ms "trade" = (d.trade.map Trade.toDocument).getD .null ∧
      (member ms "logic").orElse (.record []) = logic := by
  obtain ⟨logic, hlogic, h⟩ := bind_eq_ok.mp h
  cases h
  refine ⟨_, logic, rfl, hlogic, ?_⟩
  obtain ⟨branches, -, hbranches⟩ := bind_eq_ok.mp hlogic
  cases hbranches
  have hor : (Document.record branches).orElse (.record []) = .record branches := by
    cases branches <;> rfl
  cases d.trade with
  | none => exact ⟨rfl, rfl, rfl, rfl, hor⟩
  | some t => exact ⟨rfl, rfl, rfl, rfl, hor⟩

/-- Trade settings that were read come back. -/
theorem readTrade_same {settings : Except Failure Settings} {raw : Document} {trade : Option Trade}
    (h : readTrade (Trade.ofSettings <$> settings) raw = .ok trade) :
    ∃ trade', readTrade (Trade.ofSettings <$> settings) ((trade.map Trade.toDocument).getD .null) = .ok trade' ∧
      Option.Rel Trade.Same trade trade' := by
  unfold readTrade at h
  split at h
  · cases h
    exact ⟨none, rfl, .none⟩
  · obtain ⟨base, hbase, h⟩ := bind_eq_ok.mp h
    obtain ⟨t, ht, h⟩ := bind_eq_ok.mp h
    cases h
    cases settings with
    | error f => cases hbase
    | ok s =>
        cases hbase
        obtain ⟨hsettled, hcovers⟩ := Trade.merge_settled (Trade.default_settled s.exchange s.symbol) ht
        -- the settings were merged over the base once, so a second time changes no text
        obtain ⟨u, hmerge, hsame⟩ := hsettled.reread hcovers
        refine ⟨some u, ?_, .some hsame⟩
        obtain ⟨ms, hms, -⟩ := Trade.members_toDocument t
        rw [hms] at hmerge
        rw [Option.map_some, Option.getD_some, hms]
        show (do return some (← (Trade.default s.exchange s.symbol).merge (.record ms))) = _
        rw [hmerge]
        rfl

theorem selection_restored {s : Selection} (hs : ∀ i ∈ s.indicators, i.calcMode.isEmpty = false → i.normal = i) :
    List.Forall₂ (fun i j : Indicator => j.id = i.id ∧ (i.calcMode.isEmpty = false → j = i))
      s.indicators s.normal.indicators :=
  List.forall₂_map_right_iff.mpr (List.forall₂_same.mpr fun i hi => ⟨rfl, hs i hi⟩)

theorem sound_of_ofDocument {base : Except Failure Trade} {raw : Document} {d : Draft}
    (h : ofDocument base raw = .ok d) :
    (∀ i ∈ d.selection.indicators, i.Sound ∧ (i.calcMode.isEmpty = false → i.normal = i)) ∧ d.tree.Drafted := by
  obtain ⟨ms, -, hselection, htree, -⟩ := ofDocument_eq_ok.mp h
  exact ⟨Selection.sound_of_readSelection hselection, readTree_drafted htree⟩

/-- What a draft is read as from its own document. -/
theorem ofDocument_toDocument {base : Except Failure Trade} {doc : Document} {d : Draft} {trade : Option Trade}
    (hsound : d.selection.Sound) (hdrafted : d.tree.Drafted) (hshow : d.tree.EachRef ValueRef.Showable)
    (htrade : readTrade base ((d.trade.map Trade.toDocument).getD .null) = .ok trade)
    (hdoc : d.toDocument = .ok doc) :
    ofDocument base doc = .ok {
      name := d.name
      description := d.description
      selection := d.selection.normal
      tree := (d.tree.mapRefs d.selection.restored).unsigned
      trade } := by
  obtain ⟨ms, logic, rfl, hlogic, hname, hdescription, hindicators, htrade', hor⟩ := members_toDocument hdoc
  refine ofDocument_eq_ok.mpr ⟨ms, rfl, ?_, ?_, ?_, ?_, ?_⟩
  · rw [hindicators]
    exact hsound.reread
  · rw [hor]
    exact readTree_writeTree hsound hdrafted hshow hlogic
  · rw [htrade']
    exact htrade
  · rw [hname, displayOr_empty]
  · rw [hdescription, displayOr_empty]

/-- What a draft that was read is read as from its own document. -/
theorem reread {settings : Except Failure Settings} {raw doc : Document} {d : Draft}
    (h : ofDocument (Trade.ofSettings <$> settings) raw = .ok d) (hshow : d.tree.EachRef ValueRef.Showable)
    (hdoc : d.toDocument = .ok doc) :
    ∃ trade, Option.Rel Trade.Same d.trade trade ∧ ofDocument (Trade.ofSettings <$> settings) doc = .ok {
      name := d.name
      description := d.description
      selection := d.selection.normal
      tree := (d.tree.mapRefs d.selection.restored).unsigned
      trade } := by
  obtain ⟨hs, hdrafted⟩ := sound_of_ofDocument h
  obtain ⟨ms, -, -, -, htrade, -⟩ := ofDocument_eq_ok.mp h
  obtain ⟨trade, hread, hsame⟩ := readTrade_same htrade
  exact ⟨trade, hsame, ofDocument_toDocument (fun i hi => (hs i hi).1) hdrafted hshow hread hdoc⟩

/-- **A draft comes back from its document**, if the outputs that it names can be shown. Names, texts, flags,
thresholds, bars and numbers are those of the draft, and so is every reference, but for the spelling of the indicator
that stands for it. -/
theorem document_restores (settings : Except Failure Settings) {raw doc : Document} {d : Draft}
    (h : ofDocument (Trade.ofSettings <$> settings) raw = .ok d) (hshow : d.tree.EachRef ValueRef.Showable)
    (hdoc : d.toDocument = .ok doc) :
    ∃ e, ofDocument (Trade.ofSettings <$> settings) doc = .ok e ∧ d.Restores e := by
  obtain ⟨hs, hdrafted⟩ := sound_of_ofDocument h
  obtain ⟨trade, hsame, hread⟩ := reread h hshow hdoc
  have hnormal := fun i hi => (hs i hi).2
  refine ⟨_, hread, rfl, rfl, selection_restored hnormal, ⟨d.selection.restored, ?_, ?_⟩, hsame⟩
  · exact Tree.unsigned_unsigned _
  · exact hdrafted.eachRef.imp fun r hr => Selection.restores_restored hnormal hr

/-- A draft with every form of an operand: the id of an indicator, the same indicator in full with its timeframe
spelled otherwise and with another calculation mode, columns of candles, a literal and a number. -/
def everyForm : Document :=
  let rsi (timeframe calcMode : String) : Document := .record [
    ("refType", .text "indicator"), ("indicator", .text "RSI"), ("timeframe", .text timeframe),
    ("input", .text "Close"), ("params", .list [.int 14]), ("offsetRange", .int 1), ("calcMode", .text calcMode)]
  let conditions : List Document := [
    .record [("id", .text "id"), ("method", .text "LessThan"), ("left", .text "rsi.Value"), ("right", .int 30)],
    .record [("id", .text "full"), ("method", .text "GreaterThan"), ("left", rsi "H1" "OnBarClose"),
      ("right", .record [("field", .text "high"), ("timeframe", .text "4h"), ("offset", .list [.int 1, .int 3])])],
    .record [("id", .text "range"), ("method", .text "InRange"), ("left", .text "close"),
      ("right", .record [("refType", .text "Const"), ("input", .text " 3e1 ")]), ("upper", rsi "1h" "OnTick")]]
  .record [
    ("name", .text "Every form"),
    ("indicators", .list [.record [("id", .text "rsi"), ("code", .text "RSI"), ("timeframe", .text "1h"),
      ("input", .text "Close"), ("params", .list [.int 14])]]),
    ("trade", .record [("symbol", .text "BTC"), ("sizing", .record [("leverage", .text "5")])]),
    ("logic", .record [("entry.long", .record [("containers", .list [.record [("id", .text "open"),
      ("groups", .list [.record [("id", .text "dip"), ("conditions", .list conditions)]])]])])])]

def quiet : Settings where
  limits := .default
  log := ⟨"INFO", "logs", false⟩
  exchange := "Binance"
  symbol := ""

theorem document_restores_everyForm : ∃ d doc e,
    ofDocument (.ok (.ofSettings quiet)) everyForm = .ok d ∧ d.tree.EachRef ValueRef.Showable ∧
      d.toDocument = .ok doc ∧ ofDocument (.ok (.ofSettings quiet)) doc = .ok e ∧ d.Restores e := by
  have hrun : (do
      let d ← ofDocument (.ok (.ofSettings quiet)) everyForm
      let _ ← d.toDocument
      return decide (d.tree.EachRef ValueRef.NamesOutput)).toOption = some true := by
    decide +kernel
  obtain ⟨d, hd, hrun⟩ := bind_eq_ok.mp (eq_ok_of_toOption hrun)
  obtain ⟨doc, hdoc, hrun⟩ := bind_eq_ok.mp hrun
  have hnames : d.tree.EachRef ValueRef.NamesOutput := of_decide_eq_true (Except.ok.inj hrun)
  have hshow := hnames.imp fun _ => ValueRef.NamesOutput.showable
  obtain ⟨e, he, hrestores⟩ := document_restores (.ok quiet) hd hshow hdoc
  exact ⟨d, doc, e, hd, hshow, hdoc, he, hrestores⟩

/-- The tree itself does not come back: the timeframe is the text of the selected indicator. -/
theorem everyForm_respelled : ∃ d doc e,
    ofDocument (.ok (.ofSettings quiet)) everyForm = .ok d ∧ d.toDocument = .ok doc ∧
      ofDocument (.ok (.ofSettings quiet)) doc = .ok e ∧ ¬ e.tree.unsigned = d.tree.unsigned := by
  have hrun : (do
      let d ← ofDocument (.ok (.ofSettings quiet)) everyForm
      let doc ← d.toDocument
      let e ← ofDocument (.ok (.ofSettings quiet)) doc
      return decide (e.tree.unsigned = d.tree.unsigned)).toOption = some false := by
    decide +kernel
  obtain ⟨d, hd, hrun⟩ := bind_eq_ok.mp (eq_ok_of_toOption hrun)
  obtain ⟨doc, hdoc, hrun⟩ := bind_eq_ok.mp hrun
  obtain ⟨e, he, hrun⟩ := bind_eq_ok.mp hrun
  exact ⟨d, doc, e, hd, hdoc, he, of_decide_eq_false (Except.ok.inj hrun)⟩

end Draft

/-! ## Meaning -/

namespace ValueRef

theorem readsLike_of_seriesKey {r q : ValueRef} (hwindow : r.window = q.window) (hr : r.isLiteral = false)
    (hq : q.isLiteral = false) (hkey : r.seriesKey = q.seriesKey) : r.ReadsLike q := by
  refine ⟨hwindow, fun s barsBack => ?_⟩
  rw [Snapshot.value, Snapshot.value, hr, hq, hkey, if_neg Bool.false_ne_true, if_neg Bool.false_ne_true]

theorem seriesKey_field {r : ValueRef} (h : r.kind = .field) :
    r.seriesKey = .ok ("field|" ++ Timeframe.normalize r.timeframe ++ "|" ++ r.input) := by
  rw [seriesKey, h]

theorem bare_readsLike {r : ValueRef} (h : r.kind = .field) : r.bare.ReadsLike r := by
  have hliteral : r.isLiteral = false := by
    rw [isLiteral, h]
    rfl
  refine readsLike_of_seriesKey rfl hliteral hliteral ?_
  rw [seriesKey_field h, seriesKey_field (r := r.bare) h]
  rfl

theorem respelled_readsLike {r : ValueRef} {i : Indicator} (hkind : r.kind = .indicator)
    (hkey : i.key = .ok r.indicatorKey) : (r.respelled i).ReadsLike r := by
  obtain ⟨q, -, -, -, hq, hcolumn, -⟩ := Indicator.key_eq_ok hkey
  have hliteral : r.isLiteral = false := by
    rw [isLiteral, hkind]
    rfl
  refine readsLike_of_seriesKey rfl hliteral hliteral (seriesKey_of_indicatorKey hkind hkind ?_ rfl)
  rw [indicatorKey_eq, indicatorKey_eq, ← (indicatorKey_inj hq).1, hcolumn]
  rfl

end ValueRef

theorem Selection.restored_readsLike {s : Selection}
    (hs : ∀ i ∈ s.indicators, i.calcMode.isEmpty = false → i.normal = i) {r : ValueRef} (hr : r.Admissible)
    (houtput : r.NamesOutput) : (s.restored r).ReadsLike r := by
  obtain ⟨output, houtput⟩ := houtput
  have hspelled : r.spelledOut.ReadsLike r := by
    rw [hr.spelledOut_eq houtput]
    exact ⟨rfl, fun _ _ => rfl⟩
  rw [restored]
  split
  · rename_i hfield
    exact ValueRef.bare_readsLike (eq_of_beq hfield)
  · split
    · rename_i i hfind
      split
      · rename_i hmode
        obtain ⟨hkind, hmem, hkey⟩ := find_eq_some hfind
        have hempty : i.calcMode.isEmpty = false := eq_of_beq hmode ▸ hr.calcMode
        rw [hs i hmem hempty]
        exact ValueRef.respelled_readsLike hkind hkey
      · exact hspelled
    · exact hspelled

namespace Draft

/-- **A draft that comes back trades as before.** If each output is named by a text, the tree that comes back and
the tree of the draft answer alike on every snapshot, and are refused alike: the same branches are evaluated,
the same ones pass, and they run the same actions. -/
theorem document_trades_alike (settings : Except Failure Settings) {raw doc : Document} {d : Draft}
    (h : ofDocument (Trade.ofSettings <$> settings) raw = .ok d) (hdoc : d.toDocument = .ok doc)
    (houtput : d.tree.EachRef ValueRef.NamesOutput) :
    ∃ e, ofDocument (Trade.ofSettings <$> settings) doc = .ok e ∧ ∀ s : Snapshot,
      e.tree.compile.evaluate s = (PerSlot.map fun _ => BranchOutcome.unsigned) <$> d.tree.compile.evaluate s := by
  obtain ⟨hs, hdrafted⟩ := sound_of_ofDocument h
  obtain ⟨trade, -, hread⟩ := reread h (houtput.imp fun _ => ValueRef.NamesOutput.showable) hdoc
  refine ⟨_, hread, fun s => Tree.evaluate_mapRefs ?_⟩
  exact (hdrafted.eachRef.and houtput).imp fun r hr =>
    Selection.restored_readsLike (fun i hi => (hs i hi).2) hr.1 hr.2

/-- Quotes on which the first condition of `everyForm` holds and the others do not. -/
def quotes : Snapshot := ⟨[
  ("RSI|1h|Close|Value|14", .list [.int 25, .int 35]), ("field||Close", .list [.int 90])]⟩

theorem document_trades_alike_everyForm : ∃ d doc e out,
    ofDocument (.ok (.ofSettings quiet)) everyForm = .ok d ∧ d.toDocument = .ok doc ∧
      ofDocument (.ok (.ofSettings quiet)) doc = .ok e ∧ e.tree.compile.evaluate quotes = .ok out ∧
      (out.get .entryLong).passed = true := by
  have hrun : (do
      let d ← ofDocument (.ok (.ofSettings quiet)) everyForm
      let _ ← d.toDocument
      let out ← d.tree.compile.evaluate quotes
      return (decide (d.tree.EachRef ValueRef.NamesOutput), (out.get .entryLong).passed)).toOption =
        some (true, true) := by
    decide +kernel
  obtain ⟨d, hd, hrun⟩ := bind_eq_ok.mp (eq_ok_of_toOption hrun)
  obtain ⟨doc, hdoc, hrun⟩ := bind_eq_ok.mp hrun
  obtain ⟨out, hout, hrun⟩ := bind_eq_ok.mp hrun
  obtain ⟨houtput, hpassed⟩ := Prod.mk.inj (Except.ok.inj hrun)
  obtain ⟨e, he, halike⟩ := document_trades_alike (.ok quiet) hd hdoc (of_decide_eq_true houtput)
  refine ⟨d, doc, e, out.map fun _ => BranchOutcome.unsigned, hd, hdoc, he, ?_, ?_⟩
  · rw [halike, hout, map_ok]
  · rw [PerSlot.get_map]
    exact hpassed

end Draft

end Stratagem
