import Stratagem.Proofs.Selection
import Stratagem.Proofs.Tree.Refs
import Stratagem.Session

/-!
# References follow an edited indicator

An edit of an indicator exchanges it in the selection and points every reference to it at what it has become.
Where no two indicators have one key, a reference that resolved before the edit resolves after it: to the edited
indicator if it resolved to that one, and to what it resolved to otherwise.
-/

namespace Stratagem

/-! ## Keys that one indicator has -/

namespace Selection

variable {s s' : Selection} {i old new : Indicator} {r : ValueRef} {hint : Document}

/-- Every indicator can be referred to, and no other has its key. -/
structure Keyed (s : Selection) : Prop where
  referable : ∀ i ∈ s.indicators, i.Referable
  key : ∀ i ∈ s.indicators, ∀ j ∈ s.indicators, i.key = j.key → i = j

/-- The indicator with the key of a reference is the one that is found. -/
theorem Keyed.find (h : s.Keyed) (hi : i ∈ s.indicators) (hkind : r.kind = .indicator)
    (hkey : i.key = .ok r.indicatorKey) : s.find r = .ok (some i) := by
  obtain ⟨pre, j, post, hsplit, hj, -, hfind⟩ :=
    findKey_of_mem (fun k hk => (h.referable k hk).key_exists) hi hkey
  have hmem : j ∈ s.indicators := by
    rw [hsplit]
    exact List.mem_append_right _ List.mem_cons_self
  obtain rfl : j = i := h.key j hmem i hi (hj.trans hkey.symm)
  rw [Selection.find, ValueRef.isIndicator, hkind]
  exact hfind

theorem Keyed.resolve (h : s.Keyed) (hi : i ∈ s.indicators) (hkind : r.kind = .indicator)
    (hkey : i.key = .ok r.indicatorKey) (hdeclares : i.declares r.output = true) :
    s.resolve r = .ok (.found (some i) (i.hint r.output)) := by
  rw [Selection.resolve, hkind]
  dsimp only
  rw [h.find hi hkind hkey, ok_bind]
  dsimp only
  rw [hdeclares]
  rfl

theorem replace_eq_ok (h : s.replace new = .ok s') : s'.indicators = exchange new s.indicators := by
  rw [Selection.replace] at h
  split at h
  · cases h
  · obtain ⟨u, -, h⟩ := bind_eq_ok.mp h
    cases h
    rfl

/-- The members after an exchange: the new one, and those of another id. -/
theorem mem_exchange (hold : old ∈ s.indicators) (hid : old.id = new.id) :
    i ∈ exchange new s.indicators ↔ i = new ∨ i ∈ s.indicators ∧ i.id ≠ new.id := by
  rw [exchange, List.mem_map]
  constructor
  · rintro ⟨j, hj, rfl⟩
    by_cases hjid : j.id = new.id
    · exact Or.inl (if_pos (by simpa using hjid))
    · rw [if_neg (by simpa using hjid)]
      exact Or.inr ⟨hj, hjid⟩
  · rintro (rfl | ⟨hi, hne⟩)
    · exact ⟨old, hold, if_pos (by simpa using hid)⟩
    · exact ⟨i, hi, if_neg (by simpa using hne)⟩

theorem mem_of_get? {id : String} (h : s.get? id = some i) : i ∈ s.indicators ∧ i.id = id :=
  ⟨List.mem_of_find?_eq_some h, by simpa using List.find?_some h⟩

/-- The keys are apart after an exchange if the new one is that of no other indicator. -/
theorem Keyed.exchange (h : s.Keyed) (hnew : new.Referable)
    (hapart : ∀ i ∈ s.indicators, i.id ≠ new.id → i.key ≠ new.key) (hold : old ∈ s.indicators)
    (hid : old.id = new.id) (hs' : s'.indicators = Selection.exchange new s.indicators) : s'.Keyed := by
  constructor
  · intro i hi
    rw [hs', mem_exchange hold hid] at hi
    rcases hi with rfl | ⟨hi, -⟩
    · exact hnew
    · exact h.referable i hi
  · intro i hi j hj hkeys
    rw [hs', mem_exchange hold hid] at hi hj
    rcases hi with rfl | ⟨hi, hine⟩
    · rcases hj with rfl | ⟨hj, hjne⟩
      · rfl
      · exact absurd hkeys.symm (hapart j hj hjne)
    · rcases hj with rfl | ⟨hj, -⟩
      · exact absurd hkeys (hapart i hi hine)
      · exact h.key i hi j hj hkeys

end Selection

/-! ## Redirected references -/

def Window.bars (w : Window) : Int × Int := (w.low, w.high)

theorem Window.bars_of_ofInts {low high : Int} {w : Window} (h : Window.ofInts low high = .ok w) :
    w.bars = (low, high) := by
  rw [ofInts] at h
  split at h
  · exact absurd h (bind_ne_ok fun _ => bind_throw_ne_ok)
  · rename_i hsign
    split at h
    · cases h
      have hnonneg : 0 ≤ low ∧ 0 ≤ high := by simpa using hsign
      simp [bars, hnonneg.1, hnonneg.2]
    · exact absurd h (bind_ne_ok fun _ => bind_throw_ne_ok)

/-- The calculation mode of a reference that names none. -/
def Indicator.mode (i : Indicator) : String :=
  if i.calcMode.isEmpty then ValueRef.defaultCalcMode else i.calcMode

theorem Indicator.ref_defaults {i : Indicator} {output : Document} {r : ValueRef} (h : i.ref output = .ok r) :
    r.window.bars = i.offset ∧ r.calcMode = i.mode := by
  obtain ⟨window, hwindow, -, rfl⟩ := ValueRef.make_eq_ok.mp h
  exact ⟨Window.bars_of_ofInts hwindow, rfl⟩

namespace Edit

variable {old new : Indicator}

/-- The output that a reference to `new` names in place of a given one: the same, or the first if it is gone. -/
def keptOutput (new : Indicator) (output : Document) : Document :=
  if new.declares output then output else .text new.output.key

theorem keptOutput_declared (new : Indicator) (output : Document) :
    ∃ key ∈ new.outputKeys, keptOutput new output = .text key := by
  rw [keptOutput]
  split
  · rename_i hdeclares
    obtain ⟨key, hkey, heq⟩ := List.any_eq_true.mp hdeclares
    exact ⟨key, hkey, eq_of_beq heq⟩
  · exact ⟨new.output.key, List.mem_cons_self, rfl⟩

def Addresses (r : ValueRef) (i : Indicator) : Prop := r.kind = .indicator ∧ i.key = .ok r.indicatorKey

instance (r : ValueRef) (i : Indicator) : Decidable (Addresses r i) :=
  decidable_of_iff (r.kind = .indicator ∧ i.key.toOption = some r.indicatorKey) <| by
    refine and_congr_right fun _ => ⟨eq_ok_of_toOption, fun h => ?_⟩
    rw [h]
    rfl

/-- What a reference to `old` becomes: the reference that `new` makes to the output that is kept, its window and its
calculation mode aside. The window of `old` and its mode, as it is written, are exchanged for those of `new`; any other
window or mode stays. -/
structure Redirected (old new : Indicator) (r q : ValueRef) : Prop where
  addresses : Addresses q new
  output : q.output = keptOutput new r.output
  declared : new.declares q.output = true
  made : ∃ own, new.ref q.output = .ok own ∧ q = { own with window := q.window, calcMode := q.calcMode }
  bars : q.window.bars = if r.window.bars = old.offset then new.offset else r.window.bars
  mode : q.calcMode = if r.calcMode = old.calcMode then new.mode else r.calcMode

theorem redirect_exists (old : Indicator) (hnew : new.Referable) (r : ValueRef) :
    ∃ q, redirect old new r = .ok q ∧ Redirected old new r q := by
  obtain ⟨key, hkey, hkept⟩ := keptOutput_declared new r.output
  obtain ⟨q, hq, hkind, houtput, hqkey⟩ := hnew.ref_output hkey
  obtain ⟨hbars, hmode⟩ := Indicator.ref_defaults hq
  have hdeclared : new.declares q.output = true := by
    rw [houtput]
    exact Indicator.declares_of_mem hkey
  have hmade : new.ref q.output = .ok q := by rw [houtput, hq]
  have hredirect : redirect old new r = .ok { q with
      window := if r.window.bars = old.offset then q.window else r.window
      calcMode := if r.calcMode = old.calcMode then q.calcMode else r.calcMode } := by
    rw [redirect, show (if new.declares r.output then r.output else .text new.output.key) = _ from hkept, hq,
      ok_bind, Window.bars]
    dsimp only
    split <;> split <;> rfl
  refine ⟨_, hredirect, ⟨hkind, hqkey⟩, houtput.trans hkept.symm, hdeclared, ⟨q, hmade, rfl⟩, ?_, ?_⟩
  · dsimp only
    split
    · exact hbars
    · rfl
  · dsimp only
    rw [hmode]

theorem matches?_exists {i : Indicator} (hi : ∃ key, i.key = .ok key) (r : ValueRef) : ∃ b, i.matches? r = .ok b := by
  obtain ⟨key, hkey⟩ := hi
  rw [Indicator.matches?, hkey]
  split <;> exact ⟨_, rfl⟩

theorem matches?_iff {i : Indicator} {r : ValueRef} {b : Bool} (h : i.matches? r = .ok b) :
    b = true ↔ Addresses r i := by
  rw [Indicator.matches?] at h
  by_cases hkind : r.kind = .indicator
  · rw [if_pos (by simp [ValueRef.isIndicator, hkind])] at h
    obtain ⟨key, hkey, h⟩ := bind_eq_ok.mp h
    cases h
    rw [Addresses, hkey, Except.ok.injEq, beq_iff_eq, and_iff_right hkind]
    exact eq_comm
  · rw [if_neg (by simpa [ValueRef.isIndicator] using hkind)] at h
    cases h
    simp [Addresses, hkind]

theorem matches?_eq (hold : old.Referable) (r : ValueRef) :
    ∃ b, old.matches? r = .ok b ∧ (b = true ↔ Addresses r old) := by
  obtain ⟨b, hb⟩ := matches?_exists hold.key_exists r
  exact ⟨b, hb, matches?_iff hb⟩

/-- Only references to the edited indicator are redirected. -/
theorem retargetRef_exists (hold : old.Referable) (hnew : new.Referable) (r : ValueRef) :
    ∃ q, retargetRef old new r = .ok q ∧ (¬ Addresses r old → q = r) ∧
      (Addresses r old → Redirected old new r q) := by
  obtain ⟨b, hb, hiff⟩ := matches?_eq hold r
  rw [retargetRef, hb, ok_bind]
  cases b with
  | false =>
      have hno : ¬ Addresses r old := fun h => Bool.false_ne_true (hiff.mpr h)
      exact ⟨r, rfl, fun _ => rfl, fun h => absurd h hno⟩
  | true =>
      obtain ⟨q, hq, hredirected⟩ := redirect_exists old hnew r
      exact ⟨q, hq, fun hno => absurd (hiff.mp rfl) hno, fun _ => hredirected⟩

/-! ## Retargeted trees -/

section Levels

variable {f : ValueRef → ValueRef}

theorem retargetOperand_eq (h : ∀ r, retargetRef old new r = .ok (f r)) (o : Operand) :
    retargetOperand old new o = .ok (o.mapRef f) := by
  cases o with
  | ref r => rw [retargetOperand, h, map_ok, Operand.mapRef]
  | number x => rfl

theorem retargetCondition_eq (h : ∀ r, retargetRef old new r = .ok (f r)) (c : Condition) :
    retargetCondition old new c = .ok (c.mapRefs f) := by
  have hupper : c.upper.mapM (retargetOperand old new) = .ok (c.upper.map (Operand.mapRef f)) := by
    cases c.upper with
    | none => rfl
    | some o =>
        rw [Option.mapM_some, retargetOperand_eq h]
        rfl
  rw [retargetCondition, h, ok_bind, retargetOperand_eq h, ok_bind, hupper, ok_bind, pure_eq_ok,
    Condition.mapRefs]

theorem retargetGroup_eq (h : ∀ r, retargetRef old new r = .ok (f r)) (g : Group) :
    retargetGroup old new g = .ok (g.mapRefs f) := by
  rw [retargetGroup, mapM_ok fun c _ => retargetCondition_eq h c]
  rfl

theorem retargetContainer_eq (h : ∀ r, retargetRef old new r = .ok (f r)) (c : Container) :
    retargetContainer old new c = .ok (c.mapRefs f) := by
  rw [retargetContainer, mapM_ok fun g _ => retargetGroup_eq h g]
  rfl

theorem retargetBranch_eq (h : ∀ r, retargetRef old new r = .ok (f r)) (b : Branch) :
    retargetBranch old new b = .ok (b.mapRefs f) := by
  rw [retargetBranch, mapM_ok fun c _ => retargetContainer_eq h c]
  rfl

/-- A change of each reference is a change of the tree. -/
theorem retargetTree_eq (h : ∀ r, retargetRef old new r = .ok (f r)) (t : Tree) :
    retargetTree old new t = .ok (t.mapRefs f) := by
  refine PerSlot.ofFnM_eq_ok.mpr fun slot => ?_
  rw [retargetBranch_eq h, Tree.mapRefs, PerSlot.get_map]

end Levels

end Edit

/-! ## Edited sessions -/

namespace Session

open Edit (keptOutput Addresses)

variable {s s' : Session} {old new : Indicator}

theorem updateIndicator_eq_ok (h : s.updateIndicator new = .ok s') : ∃ old selection tree,
    s.selection.get? new.id = some old ∧ s.selection.replace new = .ok selection ∧
      Edit.retargetTree old new s.tree = .ok tree ∧ s' = { s with selection, tree } := by
  obtain ⟨old, hold, h⟩ := bind_eq_ok.mp h
  obtain ⟨selection, hselection, h⟩ := bind_eq_ok.mp h
  obtain ⟨tree, htree, h⟩ := bind_eq_ok.mp h
  cases h
  rw [selected] at hold
  split at hold
  · cases hold
    exact ⟨_, selection, tree, ‹_›, hselection, htree, rfl⟩
  · cases hold

/-- **An edited indicator keeps its references.** The tree changes in its references only, whether they are
switched on or not. One that resolved to the indicator before the edit resolves to what it has become, by its
output or, if that is gone, by the first one; any other that resolved is the same and resolves to the same. -/
theorem updateIndicator_resolves (h : s.updateIndicator new = .ok s') (hs : s.selection.Keyed)
    (hnew : new.Referable) (hapart : ∀ i ∈ s.selection.indicators, i.id ≠ new.id → i.key ≠ new.key) :
    ∃ old f, s.selection.get? new.id = some old ∧ s'.tree = s.tree.mapRefs f ∧
      ∀ r found hint, s.selection.resolve r = .ok (.found found hint) →
        (found = some old → (f r).output = keptOutput new r.output ∧
          s'.selection.resolve (f r) = .ok (.found (some new) (new.hint (f r).output))) ∧
        (found ≠ some old → f r = r ∧ s'.selection.resolve (f r) = .ok (.found found hint)) := by
  obtain ⟨old, selection, tree, hget, hreplace, htree, rfl⟩ := updateIndicator_eq_ok h
  obtain ⟨hold, hid⟩ := Selection.mem_of_get? hget
  have hmembers := Selection.replace_eq_ok hreplace
  have hkeyed : selection.Keyed := hs.exchange hnew hapart hold hid hmembers
  have hmem : ∀ i, i ∈ selection.indicators ↔ i = new ∨ i ∈ s.selection.indicators ∧ i.id ≠ new.id := by
    intro i
    rw [hmembers, Selection.mem_exchange hold hid]
  choose f hf hother hown using Edit.retargetRef_exists (hs.referable old hold) hnew
  rw [Edit.retargetTree_eq hf] at htree
  cases htree
  refine ⟨old, f, hget, rfl, fun r found hint hresolve => ⟨?_, fun hne => ?_⟩⟩
  · rintro rfl
    obtain ⟨hkind, -, hkey, -, -⟩ := Selection.resolve_eq_found hresolve
    obtain ⟨⟨hkind', hkey'⟩, houtput⟩ := hown r ⟨hkind, hkey⟩
    obtain ⟨output, hdeclared, hkept⟩ := Edit.keptOutput_declared new r.output
    refine ⟨houtput, hkeyed.resolve ((hmem new).mpr (Or.inl rfl)) hkind' hkey' ?_⟩
    rw [houtput, hkept]
    exact Indicator.declares_of_mem hdeclared
  · cases found with
    | none =>
        obtain ⟨hkind, hsame⟩ := Selection.resolve_eq_found_none hresolve
        have hself : f r = r := hother r fun haddresses => hkind haddresses.1
        rw [hself]
        exact ⟨rfl, hsame _⟩
    | some i =>
        obtain ⟨hkind, hi, hkey, hdeclares, rfl⟩ := Selection.resolve_eq_found hresolve
        have hio : i ≠ old := fun heq => hne (congrArg some heq)
        have hself : f r = r := by
          refine hother r fun haddresses => hio ?_
          exact hs.key i hi old hold (hkey.trans haddresses.2.symm)
        have hine : i.id ≠ new.id := fun heq => hio (Selection.eq_of_id hi hold (heq.trans hid.symm))
        rw [hself]
        exact ⟨rfl, hkeyed.resolve ((hmem i).mpr (Or.inr ⟨hi, hine⟩)) hkind hkey hdeclares⟩

/-- Two lines that cross, read at the bar before the current one. -/
def crossing (params : List Float) (output other : String) : Indicator where
  id := "cross"
  code := "MACD"
  timeframe := "4h"
  input := "Close"
  params
  output := ⟨output, ""⟩
  otherOutputs := [⟨other, ""⟩]
  offset := (1, 1)
  calcMode := ValueRef.defaultCalcMode

def faster : Indicator := crossing [5, 35, 5] "Fast" "Slow"

def signal : ValueRef where
  kind := .indicator
  indicator := "MACD"
  timeframe := "4h"
  input := "Close"
  params := [12, 26, 9]
  output := .text "Signal"
  window := ⟨1, 1, by decide⟩
  calcMode := ValueRef.defaultCalcMode

def level : ValueRef where
  kind := .indicator
  indicator := "RSI"
  timeframe := "1h"
  input := "Close"
  params := [14]
  output := .text ValueRef.defaultOutput
  window := .current
  calcMode := "OnTick"

/-- A group that is switched off and compares outputs of two indicators. -/
def idleGroup : Group where
  id := "idle"
  name := ""
  conditions := [⟨"cross", "CrossUp", signal, .ref level, none, true, false⟩]
  enabled := false
  required := false
  minPass := 1

def watching : Session where
  name := .text ""
  description := .text ""
  tree := Tree.empty.set .exitShort {
    containers := [{ Container.fresh "close" "" with groups := [idleGroup] }]
    enabled := true
    minPass := 1
    onPass := .makeTrade "CloseShort" }
  selection := ⟨[crossing [12, 26, 9] "Value" "Signal", Selection.strength "level" "OnBarClose"], by decide⟩
  trade := .default "" ""
  apiKeyId := .null

theorem updateIndicator_resolves_crossing : ∃ s', watching.updateIndicator faster = .ok s' ∧
    ∃ f, s'.tree = watching.tree.mapRefs f ∧
      s'.selection.resolve (f signal) = .ok (.found (some faster) (.text "Fast")) ∧ f level = level ∧
      s'.selection.resolve level = .ok (.found (some (Selection.strength "level" "OnBarClose")) (.text "Value")) := by
  have hlevel : (Selection.strength "level" "OnBarClose").Referable :=
    ⟨⟨_, rfl⟩, List.forall_mem_singleton.mpr rfl⟩
  have hcrossing : (crossing [12, 26, 9] "Value" "Signal").Referable :=
    ⟨⟨_, rfl⟩, List.forall_mem_cons.mpr ⟨rfl, List.forall_mem_singleton.mpr rfl⟩⟩
  have hfaster : faster.Referable := ⟨⟨_, rfl⟩, List.forall_mem_cons.mpr ⟨rfl, List.forall_mem_singleton.mpr rfl⟩⟩
  have hkeys : ((watching.selection.indicators ++ [faster]).map fun i => i.key.toOption).Nodup := by
    decide +kernel
  rw [List.map_append, List.nodup_append] at hkeys
  have hkeyed : watching.selection.Keyed :=
    ⟨List.forall_mem_cons.mpr ⟨hcrossing, List.forall_mem_singleton.mpr hlevel⟩, fun i hi j hj h =>
      List.inj_on_of_nodup_map hkeys.1 hi hj (congrArg Except.toOption h)⟩
  have hapart : ∀ i ∈ watching.selection.indicators, i.id ≠ faster.id → i.key ≠ faster.key := fun i hi _ h =>
    hkeys.2.2 _ (List.mem_map_of_mem hi) _ List.mem_cons_self (congrArg Except.toOption h)
  have hrun : (watching.updateIndicator faster).toOption.isSome = true := by decide +kernel
  cases hupdate : watching.updateIndicator faster with
  | error f =>
      rw [hupdate] at hrun
      cases hrun
  | ok s' =>
      obtain ⟨old, f, hget, htree, hresolves⟩ := updateIndicator_resolves hupdate hkeyed hfaster hapart
      have hold : crossing [12, 26, 9] "Value" "Signal" = old := Option.some.inj hget
      have hsignal : watching.selection.resolve signal =
          .ok (.found (some (crossing [12, 26, 9] "Value" "Signal")) (.text "Signal")) :=
        eq_ok_of_toOption (by decide +kernel)
      have hother : watching.selection.resolve level =
          .ok (.found (some (Selection.strength "level" "OnBarClose")) (.text "Value")) :=
        eq_ok_of_toOption (by decide +kernel)
      obtain ⟨houtput, hnow⟩ := (hresolves _ _ _ hsignal).1 (congrArg some hold)
      obtain ⟨hself, hsame⟩ := (hresolves _ _ _ hother).2 (by
        rw [← hold]
        exact fun heq => absurd (congrArg Indicator.id (Option.some.inj heq)) (by decide))
      have hgone : (f signal).output = .text "Fast" := houtput
      rw [hgone] at hnow
      rw [hself] at hsame
      exact ⟨s', rfl, f, htree, hnow, hself, hsame⟩

end Session

end Stratagem
