import Stratagem.Proofs.Draft.Answers
import Stratagem.Proofs.Extraction
import Stratagem.Proofs.Retarget

/-!
# A selection made from a strategy covers it

The references of a strategy are collected by their keys: one instance for each key, with every output that a
reference with the key names and no other. So the indicators of the selection have different keys, and each
reference of the decompiled tree, whether it is switched on or not, resolves to the one with its key.
-/

namespace Stratagem

/-! ## What is collected -/

namespace Extraction

/-- What was found so far holds the references `rs`: each instance once, with the outputs that are named. -/
structure Collects (rs : List ValueRef) (es : List Extraction) : Prop where
  nodup : (es.map (·.key)).Nodup
  named : ∀ e ∈ es, e.outputs ≠ []
  read : ∀ e ∈ es, ∀ o ∈ e.outputs, ∃ r ∈ rs, e.key = r.indicatorKey ∧ r.output = .text o
  found : ∀ r ∈ rs, ∃ e ∈ es, e.key = r.indicatorKey ∧ ∃ o ∈ e.outputs, r.output = .text o

theorem map_key_note (r : ValueRef) (output : String) (es : List Extraction) :
    (note r output es).map (·.key) =
      if r.indicatorKey ∈ es.map (·.key) then es.map (·.key) else es.map (·.key) ++ [r.indicatorKey] := by
  induction es with
  | nil => rfl
  | cons e es ih =>
      rw [note]
      by_cases hkey : e.key = r.indicatorKey
      · rw [if_pos (beq_iff_eq.mpr hkey), if_pos (List.mem_map.mpr ⟨e, List.mem_cons_self, hkey⟩)]
        rfl
      · rw [if_neg (by simpa using hkey), List.map_cons, List.map_cons, ih]
        simp only [List.mem_cons, eq_comm.trans (eq_false hkey).to_iff, false_or]
        split <;> rfl

/-- What was found is not lost. -/
theorem exists_note_of_mem {r : ValueRef} {output : String} {es : List Extraction} {e : Extraction} (he : e ∈ es) :
    ∃ e' ∈ note r output es, e'.key = e.key ∧ ∀ o ∈ e.outputs, o ∈ e'.outputs := by
  induction es with
  | nil => cases he
  | cons e' es ih =>
      rw [note]
      split
      · rcases List.mem_cons.mp he with rfl | he
        · refine ⟨_, List.mem_cons_self, rfl, fun o ho => ?_⟩
          dsimp only
          split
          · exact ho
          · exact List.mem_append_left _ ho
        · exact ⟨e, List.mem_cons_of_mem _ he, rfl, fun _ ho => ho⟩
      · rcases List.mem_cons.mp he with rfl | he
        · exact ⟨e, List.mem_cons_self, rfl, fun _ ho => ho⟩
        · obtain ⟨e'', hmem, hsame⟩ := ih he
          exact ⟨e'', List.mem_cons_of_mem _ hmem, hsame⟩

theorem exists_note (r : ValueRef) (output : String) (es : List Extraction) :
    ∃ e ∈ note r output es, e.key = r.indicatorKey ∧ output ∈ e.outputs := by
  induction es with
  | nil => exact ⟨_, List.mem_cons_self, rfl, List.mem_cons_self⟩
  | cons e es ih =>
      rw [note]
      split
      · rename_i hkey
        refine ⟨_, List.mem_cons_self, eq_of_beq hkey, ?_⟩
        dsimp only
        split
        · rename_i hmem
          simpa using hmem
        · exact List.mem_append_right _ List.mem_cons_self
      · obtain ⟨e', hmem, hnamed⟩ := ih
        exact ⟨e', List.mem_cons_of_mem _ hmem, hnamed⟩

theorem collects_nil : Collects [] [] := ⟨List.nodup_nil, nofun, nofun, nofun⟩

theorem Collects.note {rs : List ValueRef} {es : List Extraction} (h : Collects rs es) {r : ValueRef}
    {output : String} (hr : r.output = .text output) : Collects (rs ++ [r]) (note r output es) := by
  have hlast : r ∈ rs ++ [r] := List.mem_append_right _ List.mem_cons_self
  constructor
  · rw [map_key_note]
    split
    · exact h.nodup
    · rename_i hfresh
      exact h.nodup.append (List.nodup_singleton _) (List.disjoint_singleton.mpr hfresh)
  · intro e he
    rcases mem_note he with rfl | ⟨e', he', -, -, hnamed, -⟩
    · exact List.cons_ne_nil _ _
    · exact hnamed (h.named e' he')
  · intro e he o ho
    rcases mem_note he with rfl | ⟨e', he', hkey, -, -, houtputs⟩
    · exact ⟨r, hlast, rfl, List.mem_singleton.mp ho ▸ hr⟩
    · rcases houtputs o ho with ho | ⟨hown, rfl⟩
      · obtain ⟨q, hq, hqkey, hqo⟩ := h.read e' he' o ho
        exact ⟨q, List.mem_append_left _ hq, hkey.trans hqkey, hqo⟩
      · exact ⟨r, hlast, hown, hr⟩
  · intro q hq
    rcases List.mem_append.mp hq with hq | hq
    · obtain ⟨e, he, hkey, o, ho, hqo⟩ := h.found q hq
      obtain ⟨e', he', hsame, hkept⟩ := exists_note_of_mem he
      exact ⟨e', he', hsame.trans hkey, o, hkept o ho, hqo⟩
    · obtain rfl := List.mem_singleton.mp hq
      obtain ⟨e, he, hkey, ho⟩ := exists_note q output es
      exact ⟨e, he, hkey, output, ho, hr⟩

/-! ## Its indicators -/

theorem outputKeys_indicator {e : Extraction} (h : e.outputs ≠ []) (n : Nat) :
    (e.indicator n).outputKeys = e.outputs := by
  obtain ⟨o, os, hos⟩ := List.exists_cons_of_ne_nil h
  simp [Indicator.outputKeys, Indicator.outputs, indicator, hos, Function.comp_def]

theorem indicator_mem {e : Extraction} {es : List Extraction} (h : e ∈ es) (n : Nat) :
    ∃ m, e.indicator m ∈ indicators n es := by
  induction es generalizing n with
  | nil => cases h
  | cons e' es ih =>
      rcases List.mem_cons.mp h with rfl | h
      · exact ⟨n, List.mem_cons_self⟩
      · obtain ⟨m, hm⟩ := ih h (n + 1)
        exact ⟨m, List.mem_cons_of_mem _ hm⟩

theorem map_key_indicators {es : List Extraction} (h : ∀ e ∈ es, ∀ n, (e.indicator n).key = .ok e.key) (n : Nat) :
    (indicators n es).map (·.key) = (es.map (·.key)).map .ok := by
  induction es generalizing n with
  | nil => rfl
  | cons e es ih =>
      rw [indicators, List.map_cons, List.map_cons, List.map_cons, h e List.mem_cons_self,
        ih fun e he => h e (List.mem_cons_of_mem _ he)]

end Extraction

/-! ## Covered strategies -/

/-- The selection has one indicator for each instance that the strategy reads, with the outputs that are read. -/
structure Selection.Covers (s : Selection) (l : Compiled.Logic) : Prop where
  keyed : s.Keyed
  read : ∀ i ∈ s.indicators, ∀ o ∈ i.outputKeys, ∃ c ∈ l.conditions, ∃ r,
    .ref r ∈ c.args ∧ Edit.Addresses r i ∧ r.output = .text o
  found : ∀ c ∈ l.conditions, ∀ r, .ref r ∈ c.args → r.kind = .indicator →
    ∃ i ∈ s.indicators, i.key = .ok r.indicatorKey ∧ i.declares r.output = true

namespace Compiled

theorem Logic.extractIndicators_exists {l : Logic}
    (hlegible : ∀ c ∈ l.conditions, ∀ a ∈ c.args, a.Legible) :
    ∃ s, l.extractIndicators = .ok s ∧ s.Covers l := by
  have hrefs := Extraction.refs_legible hlegible
  obtain ⟨es, hrun, hcovers, hcollects⟩ := Extraction.run_preserves
    (p := fun rs es => Extraction.Covers rs es ∧ Extraction.Collects rs es)
    (fun _ _ r _ h hr houtput => ⟨h.1.note r houtput, h.2.note hr⟩)
    ⟨Extraction.covers_nil, Extraction.collects_nil⟩ fun r hr => (hrefs r hr).2.2
  rw [List.nil_append] at hcovers hcollects
  let s : Selection := ⟨Extraction.indicators 0 es, Extraction.indicators_nodup es⟩
  have hkey : ∀ e ∈ es, ∀ n, (e.indicator n).key = .ok e.key := by
    intro e he n
    obtain ⟨hadmissible, hkind, -⟩ := hrefs _ (hcovers.mem e he)
    rw [Extraction.key_indicator hadmissible hkind, hcovers.key e he]
  refine ⟨s, ?_, ⟨fun i hi => ?_, ?_⟩, fun i hi o ho => ?_, fun c hc r hr hkind => ?_⟩
  · show (Extraction.ofLogic l >>= _) = _
    rw [Extraction.ofLogic, hrun]
    exact s.ofIndicators_indicators
  · obtain ⟨n, e, he, rfl⟩ := Extraction.mem_indicators hi
    obtain ⟨r, hr, -⟩ := bind_eq_ok.mp (hkey e he n)
    exact ⟨⟨r, hr⟩, Extraction.outputs_indicator (hcovers.outputs e he) n⟩
  · have hnodup : (s.indicators.map (·.key)).Nodup := by
      rw [Extraction.map_key_indicators hkey]
      exact hcollects.nodup.map fun _ _ => Except.ok.inj
    exact fun i hi j hj h => List.inj_on_of_nodup_map hnodup hi hj h
  · obtain ⟨n, e, he, rfl⟩ := Extraction.mem_indicators hi
    rw [Extraction.outputKeys_indicator (hcollects.named e he)] at ho
    obtain ⟨r, hr, hrkey, hro⟩ := hcollects.read e he o ho
    obtain ⟨hkind, c, hc, hmem⟩ := Extraction.mem_refs.mp hr
    exact ⟨c, hc, r, hmem, ⟨hkind, (hkey e he n).trans (congrArg Except.ok hrkey)⟩, hro⟩
  · obtain ⟨e, he, hekey, o, ho, hro⟩ := hcollects.found r (Extraction.mem_refs.mpr ⟨hkind, c, hc, hr⟩)
    obtain ⟨n, hmem⟩ := Extraction.indicator_mem he 0
    refine ⟨_, hmem, (hkey e he n).trans (congrArg Except.ok hekey), ?_⟩
    rw [hro]
    exact Indicator.declares_of_mem (Extraction.outputKeys_indicator (hcollects.named e he) n ▸ ho)

/-! ## Decompiled references -/

end Compiled

/-- A reference of the condition is an argument of the call, or made of a number. -/
theorem Call.Decompiles.reads {c : Call} {k : Condition} (h : c.Decompiles k) :
    k.EachRef fun r => .ref r ∈ c.args ∨ ∃ x, r = .ofNumber x "" ValueRef.defaultCalcMode := by
  obtain ⟨left, rest, hargs, hleft, hrest⟩ := h.args
  rw [hargs]
  refine List.forall_mem_cons.mpr ⟨?_, fun o ho => ?_⟩
  · rcases Argument.toLeft_cases hleft with rfl | ⟨x, -, heq⟩
    · exact Or.inl List.mem_cons_self
    · exact Or.inr ⟨x, heq⟩
  · obtain ⟨a, ha, hoperand⟩ := exists_left hrest o ho
    rcases Argument.toOperand_cases hoperand with ⟨x, -, rfl⟩ | ⟨r, rfl, -, rfl⟩
    · trivial
    · exact Or.inl (List.mem_cons_of_mem _ (List.mem_of_mem_take ha))

namespace Compiled

/-- Every condition of a decompiled tree comes from a call, whether it is switched on or not. -/
theorem Logic.each_decompiles {l : Logic} {t : Tree} (h : l.decompile = .ok t) :
    t.Each fun k => ∃ c ∈ l.conditions, c.Decompiles k := by
  intro slot c' hc' g' hg' k hk
  obtain ⟨c, hc, hcontainer⟩ := exists_left (Logic.decompiles h slot).containers c' hc'
  obtain ⟨g, hg, hgroup⟩ := exists_left hcontainer.groups g' hg'
  obtain ⟨d, hd, hcall⟩ := exists_left hgroup.conditions k hk
  exact ⟨d, mem_conditions.mpr ⟨slot, c, hc, g, hg, hd⟩, hcall⟩

end Compiled

/-- The selection answers for a decompiled strategy that it covers. -/
theorem Selection.Covers.resolves {s : Selection} {l : Compiled.Logic} (h : s.Covers l) {t : Tree}
    (hdecompile : l.decompile = .ok t) : t.EachRef fun r => r.kind = .indicator →
      ∃ i ∈ s.indicators, i.declares r.output = true ∧ s.resolve r = .ok (.found (some i) (i.hint r.output)) := by
  intro slot c hc g hg k hk o ho
  obtain ⟨d, hd, hcall⟩ := Compiled.Logic.each_decompiles hdecompile slot c hc g hg k hk
  have hreads := hcall.reads o ho
  cases o with
  | number x => trivial
  | ref r =>
      intro hkind
      have hread : .ref r ∈ d.args := by
        refine hreads.resolve_right ?_
        rintro ⟨x, rfl⟩
        cases hkind
      obtain ⟨i, hi, hkey, hdeclares⟩ := h.found d hd r hread hkind
      exact ⟨i, hi, hdeclares, h.keyed.resolve hi hkind hkey hdeclares⟩

/-- What dangles is a candle column that is not known, if every reference to an indicator is found. -/
theorem Selection.resolve_eq_dangling {s : Selection} {r : ValueRef} {d : Dangling}
    (h : s.resolve r = .ok (.dangling d)) (hkind : r.kind ≠ .indicator) :
    r.kind = .field ∧ Kline.hint? r.input = none ∧ d = .unknownField r.input := by
  rw [Selection.resolve] at h
  split at h
  · cases h
  · split at h
    · cases h
    · cases h
      exact ⟨‹_›, ‹_›, rfl⟩
  · exact absurd ‹_› hkind

namespace Compiled

/-- **A selection made from a strategy covers it.** It is made from any strategy that was read; its indicators have
different keys, and their outputs are those that the strategy reads. Every reference of the decompiled tree to an
indicator resolves, switched on or not, so that what dangles in a session on the strategy is a candle column that
is not known. -/
theorem Logic.extractIndicators_covers {raw : Document} {l : Logic} {t : Tree} (hread : ofDocument raw = .ok l)
    (hdecompile : l.decompile = .ok t) (trade : Trade) (name description : Document) :
    ∃ s, l.extractIndicators = .ok s ∧ s.Covers l ∧
      (t.EachRef fun r => r.kind = .indicator → ∃ i ∈ s.indicators, i.declares r.output = true ∧
        s.resolve r = .ok (.found (some i) (i.hint r.output))) ∧
      Session.ofStrategy ⟨trade, l⟩ name description none =
        .ok { name, description, tree := t, selection := s, trade, apiKeyId := .null } ∧
      ∀ enabledOnly, ∃ ds, t.dangling enabledOnly s = .ok ds ∧
        ∀ d ∈ ds, d.ref.kind = .field ∧ Kline.hint? d.ref.input = none ∧ d.reason = .unknownField d.ref.input := by
  have hlegible := legible_of_ofDocument hread
  obtain ⟨s, hextract, hcovers⟩ := extractIndicators_exists fun c hc => (hlegible.conditions c hc).args
  have hresolves := hcovers.resolves hdecompile
  refine ⟨s, hextract, hcovers, hresolves, ?_, fun enabledOnly => ?_⟩
  · rw [Session.ofStrategy, hdecompile, ok_bind, hextract]
    rfl
  · obtain ⟨ds, hds⟩ : ∃ ds, t.dangling enabledOnly s = .ok ds := by
      refine Tree.dangling_exists_iff.mpr fun entry hentry => ?_
      cases hresolve : s.resolve entry.2 with
      | ok resolution => exact ⟨resolution, rfl⟩
      | error e =>
          have hfound := hresolves.series entry hentry (Selection.isIndicator_of_resolve_error hresolve)
          obtain ⟨i, -, -, hfound⟩ := hfound
          exact ⟨_, hresolve ▸ hfound⟩
    refine ⟨ds, hds, fun d hd => ?_⟩
    obtain ⟨-, hresolve⟩ := (Tree.mem_dangling_iff hds).mp hd
    refine Selection.resolve_eq_dangling hresolve fun hkind => ?_
    obtain ⟨i, -, -, hfound⟩ := hresolves.dangling hds d hd hkind
    rw [hfound] at hresolve
    cases hresolve

/-- Two outputs of one indicator, the second one in a condition that is switched off, beside a column that candles
do not have. -/
def Logic.bands : Document :=
  let band (output : String) : Document := .record [("indicator", .text "BOLL"), ("timeframe", .text "1h"),
    ("input", .text "Close"), ("params", .list [.int 20, .int 2]), ("output", .text output)]
  let compare (method : String) (left right : Document) (enabled : Bool) : Document :=
    .record [("method", .text method), ("args", .list [left, right]), ("enabled", .bool enabled)]
  let group : Document := .record [("conditions", .list [
    compare "CrossUp" (.record [("refType", .text "Field"), ("input", .text "Median")]) (band "Upper") true,
    compare "LessThan" (band "Lower") (.real 30) false])]
  .record [("entry", .record [("short", .record [
    ("containers", .list [.record [("checks", .record [("groups", .list [group])])]])])])]

theorem Logic.extractIndicators_covers_bands : ∃ l t s, ofDocument bands = .ok l ∧ l.decompile = .ok t ∧
    l.extractIndicators = .ok s ∧ s.Covers l ∧ s.indicators.map (·.outputKeys) = [["Upper", "Lower"]] ∧
    ∃ d, t.dangling false s = .ok [d] ∧ d.reason = .unknownField "MEDIAN" := by
  have hrun : (do
      let l ← ofDocument bands
      let t ← l.decompile
      let s ← l.extractIndicators
      let ds ← t.dangling false s
      return (s.indicators.map Indicator.outputKeys, ds.map DanglingOperand.reason)).toOption =
        some ([["Upper", "Lower"]], [Dangling.unknownField "MEDIAN"]) := by
    decide +kernel
  obtain ⟨l, hl, hrun⟩ := bind_eq_ok.mp (eq_ok_of_toOption hrun)
  obtain ⟨t, ht, hrun⟩ := bind_eq_ok.mp hrun
  obtain ⟨s, hextract, hcovers, -, -, hdangling⟩ :=
    extractIndicators_covers hl ht (.default "" "") (.text "") (.text "")
  rw [hextract, ok_bind] at hrun
  obtain ⟨ds, hds, hrun⟩ := bind_eq_ok.mp hrun
  obtain ⟨houtputs, hreasons⟩ := Prod.mk.inj (Except.ok.inj hrun)
  obtain ⟨d, rfl, hreason⟩ := List.map_eq_singleton_iff.mp hreasons
  exact ⟨l, t, s, hl, ht, hextract, hcovers, houtputs, d, hds, hreason⟩

end Compiled

end Stratagem
