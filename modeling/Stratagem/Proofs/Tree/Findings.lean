import Stratagem.Proofs.Session.Removal
import Stratagem.Proofs.Tree.Walk

/-!
# What a compilation reports

A tree has a list of levels and a list of operands, both with what is switched off. The findings on a tree are read
off these two: one for each live level that is empty or has a threshold out of range, one for each live operand that
points at nothing and one for each selected indicator that no live operand addresses.
-/

namespace Stratagem

/-! ## Operands and indicators -/

namespace Diagnostic

def IsDangling (s : Selection) (entry : Path × ValueRef) (d : Diagnostic) : Prop :=
  ∃ reason column, s.resolve entry.2 = .ok (.dangling reason) ∧ entry.2.seriesKey = .ok column ∧
    d = .dangling entry.1.text column reason.reason reason.message

def IsUnused (i : Indicator) (d : Diagnostic) : Prop := ∃ key, i.key = .ok key ∧ d = .unused i.id i.label key

end Diagnostic

namespace Tree

variable {t : Tree} {s : Selection}

def liveOperands (t : Tree) : List (Path × ValueRef) := (livePlaces t.places).flatMap conditionSeries

theorem series_true (t : Tree) : t.series true = t.liveOperands := by
  rw [series, conditions_true, liveOperands]

theorem ofDangling_listed {ds : List DanglingOperand} {found : List Diagnostic} (hds : t.dangling true s = .ok ds)
    (hfound : ds.mapM Diagnostic.ofDangling = .ok found) :
    List.Forall₂ (Diagnostic.IsDangling s) (t.liveOperands.filter fun entry => s.Dangles entry.2) found := by
  rw [← series_true]
  refine forall₂_trans ?_ (dangling_listed hds) (mapM_eq_ok.mp hfound)
  rintro ⟨path, r⟩ d diagnostic ⟨rfl, rfl, hresolve⟩ hdiagnostic
  obtain ⟨column, hcolumn, heq⟩ := bind_eq_ok.mp hdiagnostic
  cases heq
  exact ⟨d.reason, column, hresolve, hcolumn, rfl⟩

theorem addresses_of_alike {r q : ValueRef} {i : Indicator} (h : r.alike q = true) (hr : Edit.Addresses r i) :
    Edit.Addresses q i := by
  have hparts := ValueRef.parts_of_alike h
  have hkind := congrArg ValueRef.kind hparts
  have hkey := congrArg ValueRef.indicatorKey hparts
  exact ⟨hkind.symm.trans hr.1, hr.2.trans (congrArg Except.ok hkey)⟩

/-- Nothing gets lost when repetitions are dropped. -/
theorem addressed_iff {refs : List ValueRef} (hrefs : t.usedOutputs = .ok refs) (i : Indicator) :
    (∀ r ∈ refs, ¬ Edit.Addresses r i) ↔ ∀ entry ∈ t.liveOperands, ¬ Edit.Addresses entry.2 i := by
  have hunlike : ∀ r q : ValueRef, r.alike q = true → ¬ Edit.Addresses q i → ¬ Edit.Addresses r i :=
    fun r q halike hq hr => hq (addresses_of_alike halike hr)
  rw [forall_mem_usedOutputs hunlike hrefs, ← series_true]
  refine forall₂_congr fun entry _ => ⟨fun h haddresses => ?_, fun h _ => h⟩
  exact h (beq_iff_eq.mpr haddresses.1) haddresses

theorem ofUnused_listed {refs : List ValueRef} {unread : List Indicator} {found : List Diagnostic}
    (hrefs : t.usedOutputs = .ok refs) (hunread : unreadAmong refs s.indicators = .ok unread)
    (hfound : unread.mapM Diagnostic.ofUnused = .ok found) :
    List.Forall₂ Diagnostic.IsUnused
      (s.indicators.filter fun i => ∀ entry ∈ t.liveOperands, ¬ Edit.Addresses entry.2 i) found := by
  have heq := unreadAmong_eq_filter hunread
  simp only [addressed_iff hrefs] at heq
  rw [← heq]
  refine (mapM_eq_ok.mp hfound).imp fun i d hd => ?_
  obtain ⟨key, hkey, hd⟩ := bind_eq_ok.mp hd
  cases hd
  exact ⟨key, hkey, rfl⟩

/-- **Compilation reports what there is to report.** With a selection whose indicators can be referred to, a tree is
compiled exactly if no threshold that has to be corrected is too long to be written, no output is a list or a record,
and live operands name outputs of indicators by texts. Then the strategy is the one that is compiled without the
selection, and the diagnostics are the findings on the live levels, a dangling reference for each live operand that
points at nothing, and an unused indicator for each that no live operand addresses: none is missing, none is repeated,
and there are no others. -/
theorem compileWith_reports (hs : s.HasKeys) :
    ((∃ c, t.compileWith (some s) = .ok c) ↔ t.Tellable ∧ t.EachRef ValueRef.Hashable ∧
      ∀ entry ∈ t.liveOperands, entry.2.kind = .indicator → entry.2.NamesOutput) ∧
    ∀ c, t.compileWith (some s) = .ok c → c.logic = t.compile ∧ ∃ dangling unused,
      c.diagnostics = t.levels.filterMap Level.finding ++ dangling ++ unused ∧
      List.Forall₂ (Diagnostic.IsDangling s) (t.liveOperands.filter fun entry => s.Dangles entry.2) dangling ∧
      List.Forall₂ Diagnostic.IsUnused
        (s.indicators.filter fun i => ∀ entry ∈ t.liveOperands, ¬ Edit.Addresses entry.2 i) unused := by
  constructor
  · rw [← series_true]
    exact compileWith_exists_iff hs
  · intro c hc
    refine ⟨logic_of_compileWith hc, ?_⟩
    obtain ⟨levels, ds, dangling, refs, unread, unused, hlevels, hds, hdangling, hrefs, hunread, hunused, rfl⟩ :=
      compileWith_eq_ok.mp hc
    obtain ⟨-, rfl⟩ := ofLevels_eq_ok.mp hlevels
    refine ⟨dangling, unused, ?_, ofDangling_listed hds hdangling, ofUnused_listed hrefs hunread hunused⟩
    exact (List.append_assoc _ _ _).symm

/-- A branch with thresholds out of range, an empty group and a column that does not exist. A group, a container and the
other branches have faults as well and are switched off. -/
def littered : Tree :=
  let low : Condition :=
    ⟨"low", "LessThan", .hourlyStrength, .ref { ValueRef.hourlyClose with input := "Nothing" }, none, true, false⟩
  let crowd : Group := ⟨"crowd", "", [low], true, false, 4⟩
  let blank : Group := ⟨"blank", "", [], true, false, 1⟩
  let off : Group := ⟨"off", "", [], false, false, -1⟩
  let branch : Branch := {
    containers := [⟨"open", "", [crowd, blank, off], true, false, 1⟩, ⟨"shut", "", [blank], false, false, 9⟩]
    enabled := true
    minPass := 1
    onPass := { ActionSet.makeTrade "Long" with minPass := 3 } }
  PerSlot.ofFn fun slot => { branch with enabled := slot == .entryLong }

def halfUsed : Selection :=
  ⟨[Session.crossing [12, 26, 9] "Value" "Signal", Selection.strength "rsi" "OnTick"], by decide⟩

theorem compileWith_reports_littered : halfUsed.HasKeys ∧ ∃ c, littered.compileWith (some halfUsed) = .ok c ∧
    c.logic = littered.compile ∧ c.diagnostics.map (·.code) = ["THRESHOLD_OUT_OF_RANGE", "THRESHOLD_OUT_OF_RANGE",
      "EMPTY_REQUIRED_FIELD", "DANGLING_REFERENCE", "UNUSED_INDICATOR"] := by
  have hs : halfUsed.HasKeys :=
    List.forall_mem_cons.mpr ⟨⟨_, rfl⟩, List.forall_mem_singleton.mpr ⟨_, rfl⟩⟩
  have hnames : littered.EachRef ValueRef.NamesOutput := by decide +kernel
  have hlive : ∀ entry ∈ littered.liveOperands, entry.2.kind = .indicator → entry.2.NamesOutput := by decide +kernel
  obtain ⟨hanswers, hreports⟩ := compileWith_reports (t := littered) hs
  have htell : littered.Tellable := by decide +kernel
  obtain ⟨c, hc⟩ := hanswers.mpr ⟨htell, hnames.imp fun _ => ValueRef.NamesOutput.hashable, hlive⟩
  have hcodes : (do
      let c ← littered.compileWith (some halfUsed)
      return c.diagnostics.map Diagnostic.code).toOption = some ["THRESHOLD_OUT_OF_RANGE", "THRESHOLD_OUT_OF_RANGE",
        "EMPTY_REQUIRED_FIELD", "DANGLING_REFERENCE", "UNUSED_INDICATOR"] := by
    decide +kernel
  rw [hc] at hcodes
  exact ⟨hs, c, hc, (hreports c hc).1, Option.some.inj hcodes⟩

end Tree

end Stratagem
