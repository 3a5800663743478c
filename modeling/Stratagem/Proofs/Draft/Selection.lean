import Stratagem.Draft
import Stratagem.Proofs.Compiled.Wire
import Stratagem.Proofs.Tree.Refs
import Stratagem.Proofs.ValueRef.Key

/-!
# Selected indicators come back from drafts

A draft writes every setting of its indicators. Reading trims the texts, takes the default for an empty
calculation mode and drops the signs of zeros, so what comes back is the indicator in `normal` form; ids and
their order stay.
-/

namespace Stratagem

open Document (member displayOr_text_eq displayOr_empty isEmpty_orElse)
open ValueRef (unsignedZero)

/-! ## Indicators -/

theorem Output.reread {o : Output} (h : o.key.isEmpty = false) : Output.ofDocument o.toDocument = .ok o := by
  show ((Document.text o.key).displayOr "" >>= fun key => (Document.text o.hint).displayOr "" >>= Output.make key) = _
  rw [displayOr_empty, displayOr_empty, ok_bind, ok_bind, Output.make, h]
  rfl

theorem Output.key_of_make {key hint : String} {o : Output} (h : Output.make key hint = .ok o) :
    o.key.isEmpty = false := by
  rw [Output.make] at h
  split at h
  · cases h
  · rename_i hkey
    cases h
    exact Bool.eq_false_of_not_eq_true hkey

theorem Output.key_of_ofDocument (raw : Document) (o : Output) (h : Output.ofDocument raw = .ok o) :
    o.key.isEmpty = false := by
  unfold Output.ofDocument at h
  split at h
  · obtain ⟨key, -, h⟩ := bind_eq_ok.mp h
    obtain ⟨hint, -, h⟩ := bind_eq_ok.mp h
    exact key_of_make h
  · obtain ⟨key, -, h⟩ := bind_eq_ok.mp h
    exact key_of_make h

namespace Indicator

def normal (i : Indicator) : Indicator := { i with
  code := Text.trim i.code
  timeframe := Text.trim i.timeframe
  input := Text.trim i.input
  params := i.params.map unsignedZero
  calcMode := Text.trim (if i.calcMode.isEmpty then ValueRef.defaultCalcMode else i.calcMode) }

/-- What a reader asks for. -/
structure Sound (i : Indicator) : Prop where
  id : i.id.isEmpty = false
  code : (Text.trim i.code).isEmpty = false
  outputs : ∀ o ∈ i.outputs, o.key.isEmpty = false

theorem readOutputs_outputs {i : Indicator} (h : ∀ o ∈ i.outputs, o.key.isEmpty = false) (named : Document) :
    readOutputs i.outputsDocument named = .ok (i.output, i.otherOutputs) := by
  have houtputs : (i.outputs.map Output.toDocument).mapM Output.ofDocument = .ok i.outputs := by
    have hmap := mapM_reread fun o ho => Output.reread (h o ho)
    rwa [List.map_id'] at hmap
  show ((i.outputs.map Output.toDocument).mapM Output.ofDocument >>= _) = _
  rw [houtputs]
  rfl

theorem list_orElse (xs : List Document) : (Document.list xs).orElse (.list []) = .list xs := by
  cases xs <;> rfl

/-- The members of a written indicator. -/
theorem members_entry (i : Indicator) : ∃ ms, Draft.writeIndicatorEntry i = .record ms ∧
    member ms "config" = .null ∧ member ms "indicator" = .null ∧ member ms "output" = .null ∧
    member ms "id" = .text i.id ∧ member ms "code" = .text i.code ∧
    member ms "timeframe" = .text i.timeframe ∧ member ms "input" = .text i.input ∧
    member ms "params" = .list (i.params.map .ofReal) ∧ member ms "outputs" = i.outputsDocument ∧
    member ms "offsetRange" = .list [.int i.offset.1, .int i.offset.2] ∧
    member ms "calcMode" = .text i.calcMode :=
  ⟨_, rfl, rfl, rfl, rfl, rfl, rfl, rfl, rfl, rfl, rfl, rfl, rfl⟩

/-- Putting a failure at the id of an indicator changes no answer. -/
theorem placedAt_eq_ok {α : Type} {id : Document} {run : Except Failure α} {a : α} :
    placedAt id run = .ok a ↔ run = .ok a := by
  cases run with
  | ok b => exact Iff.rfl
  | error f =>
      rw [placedAt]
      split
      · exact iff_of_false bind_throw_ne_ok nofun
      · exact Iff.rfl

theorem Sound.reread {i : Indicator} (h : i.Sound) : ofDocument (Draft.writeIndicatorEntry i) = .ok i.normal := by
  have hparams : (i.params.map Document.ofReal).mapM Document.toReal = .ok (i.params.map unsignedZero) := by
    rw [List.mapM_map]
    exact mapM_ok fun x _ => ValueRef.toReal_ofReal x
  have hoffset : readOffset (.list [.int i.offset.1, .int i.offset.2]) = .ok (.int i.offset.1, .int i.offset.2) := rfl
  obtain ⟨ms, hentry, hconfig, hindicator, houtput, hid, hcode, htimeframe, hinput, hps, houtputs, hwindow,
    hmode⟩ := members_entry i
  rw [hentry, ofDocument, hconfig]
  dsimp only
  rw [hindicator, hcode, show Document.null.orElse (.text i.code) = .text i.code from rfl, displayOr_empty, ok_bind]
  refine placedAt_eq_ok.mpr ?_
  unfold readParts
  dsimp only
  rw [houtput, hid, htimeframe, hinput, hps, houtputs, hwindow, hmode, readOutputs_outputs h.outputs, ok_bind]
  dsimp only
  rw [hoffset, ok_bind]
  dsimp only
  rw [displayOr_empty, ok_bind, displayOr_empty, map_ok, ok_bind, displayOr_empty, map_ok, ok_bind, list_orElse,
    Document.items, ok_bind, displayOr_text_eq, map_ok, ok_bind, h.id, if_neg Bool.false_ne_true, h.code,
    if_neg Bool.false_ne_true, hparams, ok_bind, map_map_self ValueRef.unsignedZero_unsignedZero]
  rfl

theorem keys_of_readOutputs {raw named : Document} {output : Output} {others : List Output}
    (h : readOutputs raw named = .ok (output, others)) : ∀ o ∈ output :: others, o.key.isEmpty = false := by
  obtain ⟨items, -, h⟩ := bind_eq_ok.mp h
  obtain ⟨outputs, houtputs, h⟩ := bind_eq_ok.mp h
  split at h
  · cases h
    exact forall_of_mapM Output.key_of_ofDocument houtputs
  · obtain ⟨key, -, h⟩ := bind_eq_ok.mp h
    obtain ⟨o, ho, h⟩ := bind_eq_ok.mp h
    cases h
    exact List.forall_mem_singleton.mpr (Output.key_of_make ho)

theorem trimmed_of_map {run : Except Failure String} {s : String} (h : Text.trim <$> run = .ok s) :
    ∃ raw, s = Text.trim raw := by
  obtain ⟨raw, -, h⟩ := bind_eq_ok.mp (bind_pure_comp Text.trim run ▸ h)
  cases h
  exact ⟨raw, rfl⟩

/-- What was read is sound, and in normal form unless its calculation mode was blank. -/
theorem sound_of_readParts {code : String} {ms config : List (String × Document)} {i : Indicator}
    (h : readParts (Text.trim code) ms config = .ok i) :
    i.Sound ∧ (i.calcMode.isEmpty = false → i.normal = i) := by
  unfold readParts at h
  dsimp only at h
  obtain ⟨⟨output, others⟩, houtputs, h⟩ := bind_eq_ok.mp h
  obtain ⟨⟨low, high⟩, -, h⟩ := bind_eq_ok.mp h
  obtain ⟨id, -, h⟩ := bind_eq_ok.mp h
  obtain ⟨timeframe, htimeframe, h⟩ := bind_eq_ok.mp h
  obtain ⟨input, hinput, h⟩ := bind_eq_ok.mp h
  obtain ⟨items, -, h⟩ := bind_eq_ok.mp h
  obtain ⟨calcMode, hcalcMode, h⟩ := bind_eq_ok.mp h
  obtain ⟨rawTimeframe, rfl⟩ := trimmed_of_map htimeframe
  obtain ⟨rawInput, rfl⟩ := trimmed_of_map hinput
  obtain ⟨rawMode, rfl⟩ := trimmed_of_map hcalcMode
  split at h
  · cases h
  · rename_i hid
    split at h
    · cases h
    · rename_i hcode
      obtain ⟨params, -, h⟩ := bind_eq_ok.mp h
      obtain ⟨lo, -, h⟩ := bind_eq_ok.mp h
      obtain ⟨hi, -, h⟩ := bind_eq_ok.mp h
      cases h
      refine ⟨⟨Bool.eq_false_of_not_eq_true hid, ?_, keys_of_readOutputs houtputs⟩, fun hmode => ?_⟩
      · dsimp only
        rw [Text.trim_trim]
        exact Bool.eq_false_of_not_eq_true hcode
      · unfold normal
        dsimp only at hmode ⊢
        rw [hmode, if_neg Bool.false_ne_true, Text.trim_trim, Text.trim_trim, Text.trim_trim, Text.trim_trim,
          map_map_self ValueRef.unsignedZero_unsignedZero]

theorem sound_of_ofDocument (raw : Document) (i : Indicator) (h : ofDocument raw = .ok i) :
    i.Sound ∧ (i.calcMode.isEmpty = false → i.normal = i) := by
  cases raw with
  | record ms =>
      obtain ⟨code, -, h⟩ := bind_eq_ok.mp h
      exact sound_of_readParts (placedAt_eq_ok.mp h)
  | _ => cases h

/-! ## References to indicators -/

/-- The key of an indicator is that of a reference to it, whose window is the one of the indicator. -/
theorem key_eq_ok {i : Indicator} {key : String} (h : i.key = .ok key) :
    ∃ r window, Window.ofInts i.offset.1 i.offset.2 = .ok window ∧ i.ref .null = .ok r ∧ r.indicatorKey = key ∧
      r.column = "|".intercalate [i.code, Timeframe.normalize i.timeframe, i.input] ∧
      r.params = i.params.map unsignedZero := by
  obtain ⟨r, hr, h⟩ := bind_eq_ok.mp h
  cases h
  obtain ⟨window, hwindow, -, heq⟩ := ValueRef.make_eq_ok.mp hr
  refine ⟨r, window, hwindow, hr, rfl, ?_, ?_⟩
  · rw [← heq]
    rfl
  · rw [← heq]
    rfl

/-- The reference to an output of an indicator in normal form. -/
theorem Sound.ref_normal {i : Indicator} (h : i.Sound) {window : Window}
    (hwindow : Window.ofInts i.offset.1 i.offset.2 = .ok window) {output : Document}
    (houtput : output.isEmpty = false) :
    i.normal.ref output = .ok {
      kind := .indicator
      indicator := i.normal.code
      timeframe := i.normal.timeframe
      input := i.normal.input
      params := i.normal.params
      output
      window
      calcMode := if i.normal.calcMode.isEmpty then ValueRef.defaultCalcMode else i.normal.calcMode } := by
  refine ValueRef.make_eq_ok.mpr ⟨window, hwindow, h.code, ?_⟩
  have hout : (output.orElse (.text i.normal.output.key)).orElse (.text ValueRef.defaultOutput) = output := by
    rw [Document.orElse, Document.orElse, houtput, if_neg Bool.false_ne_true, houtput,
      if_neg Bool.false_ne_true]
  rw [ValueRef.normal, hout]
  show ValueRef.mk _ _ _ _ (i.normal.params.map unsignedZero) _ _ _ = _
  rw [show i.normal.params = i.params.map unsignedZero from rfl,
    map_map_self ValueRef.unsignedZero_unsignedZero]
  rfl

end Indicator

/-! ## Selections -/

namespace Selection

def Sound (s : Selection) : Prop := ∀ i ∈ s.indicators, i.Sound

def normal (s : Selection) : Selection where
  indicators := s.indicators.map Indicator.normal
  nodup := by
    rw [List.map_map]
    exact s.nodup

theorem repeatedId?_eq (seen : List String) (is : List Indicator) :
    repeatedId? seen is = Node.repeatedId? seen (is.map (·.id)) := by
  induction is generalizing seen with
  | nil => rfl
  | cons i is ih => rw [List.map_cons, repeatedId?, Node.repeatedId?, ih]

theorem ofIndicators_indicators (s : Selection) : ofIndicators s.indicators = .ok s := by
  have hnone : repeatedId? [] s.indicators = none := by
    rw [repeatedId?_eq, Node.repeatedId?_of_nodup [] s.nodup fun _ _ => List.not_mem_nil]
  unfold ofIndicators
  split
  · rename_i id hid
    rw [hnone] at hid
    cases hid
  · rfl

theorem indicators_of_ofIndicators {is : List Indicator} {s : Selection} (h : ofIndicators is = .ok s) :
    s.indicators = is := by
  unfold ofIndicators at h
  split at h
  · cases h
  · cases h
    rfl

/-- **A selection comes back from a draft in normal form.** -/
theorem Sound.reread {s : Selection} (h : s.Sound) :
    Draft.readSelection (.list (s.indicators.map Draft.writeIndicatorEntry)) = .ok s.normal := by
  have hread : (s.indicators.map Draft.writeIndicatorEntry).mapM Indicator.ofDocument =
      .ok s.normal.indicators := mapM_reread fun i hi => (h i hi).reread
  rw [Draft.readSelection, Indicator.list_orElse]
  dsimp only
  rw [ofDocument, Indicator.list_orElse, Document.items, ok_bind, hread, ok_bind, ofIndicators_indicators]
  rfl

theorem sound_of_ofDocument {raw : Document} {s : Selection} (h : ofDocument raw = .ok s) :
    ∀ i ∈ s.indicators, i.Sound ∧ (i.calcMode.isEmpty = false → i.normal = i) := by
  obtain ⟨items, -, h⟩ := bind_eq_ok.mp h
  obtain ⟨is, his, h⟩ := bind_eq_ok.mp h
  rw [indicators_of_ofIndicators (placed_eq_ok.mp h)]
  exact forall_of_mapM Indicator.sound_of_ofDocument his

theorem sound_of_readSelection {raw : Document} {s : Selection} (h : Draft.readSelection raw = .ok s) :
    ∀ i ∈ s.indicators, i.Sound ∧ (i.calcMode.isEmpty = false → i.normal = i) := by
  unfold Draft.readSelection at h
  split at h
  · exact sound_of_ofDocument h
  · cases h

/-! ## Looking indicators up -/

theorem findKey_eq_some {key : String} {is : List Indicator} {i : Indicator}
    (h : findKey key is = .ok (some i)) : i ∈ is ∧ i.key = .ok key := by
  induction is with
  | nil => cases h
  | cons j is ih =>
      obtain ⟨k, hk, h⟩ := bind_eq_ok.mp h
      split at h
      · rename_i heq
        cases h
        exact ⟨List.mem_cons_self, by rw [hk, eq_of_beq heq]⟩
      · obtain ⟨hmem, hkey⟩ := ih h
        exact ⟨List.mem_cons_of_mem _ hmem, hkey⟩

theorem find_eq_some {s : Selection} {r : ValueRef} {i : Indicator} (h : s.find r = .ok (some i)) :
    r.kind = .indicator ∧ i ∈ s.indicators ∧ i.key = .ok r.indicatorKey := by
  rw [find] at h
  split at h
  · rename_i hkind
    exact ⟨eq_of_beq hkind, findKey_eq_some h⟩
  · cases h

/-- An indicator is found by its own id. -/
theorem get?_of_mem {s : Selection} {i : Indicator} (h : i ∈ s.indicators) : s.get? i.id = some i := by
  rw [get?]
  have hnodup := s.nodup
  generalize s.indicators = is at h hnodup
  induction is with
  | nil => cases h
  | cons j is ih =>
      obtain ⟨hj, his⟩ := List.nodup_cons.mp hnodup
      rcases List.mem_cons.mp h with rfl | hmem
      · exact List.find?_cons_of_pos (by simp)
      · have hne : j.id ≠ i.id := fun heq => hj (List.mem_map.mpr ⟨i, hmem, heq.symm⟩)
        rw [List.find?_cons_of_neg (by simpa using hne)]
        exact ih hmem his

end Selection

end Stratagem
