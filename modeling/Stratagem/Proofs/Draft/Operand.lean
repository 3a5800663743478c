import Stratagem.Proofs.Draft.Selection
import Stratagem.Proofs.Tree.Refs

/-!
# Operands come back from drafts

What is written for a reference is read as the reference that `Selection.restored` names. A candle column keeps
its name, timeframe and window; an indicator of the selection lends its spelling; any other reference is
written out and comes back as it was.
-/

namespace Stratagem

open Document (lookup member displayOr_empty)

namespace ValueRef

def bare (r : ValueRef) : ValueRef :=
  { r with indicator := "", params := [], output := .text defaultOutput, calcMode := defaultCalcMode }

def respelled (i : Indicator) (r : ValueRef) : ValueRef := { r with
  indicator := i.code
  timeframe := i.timeframe
  input := i.input
  calcMode := if i.calcMode.isEmpty then defaultCalcMode else i.calcMode }

end ValueRef

/-- The reference that comes back from a draft. -/
def Selection.restored (s : Selection) (r : ValueRef) : ValueRef :=
  if r.isField then r.bare
  else match s.find r with
    | .ok (some i) => if r.calcMode == i.calcMode then r.respelled i.normal else r.spelledOut
    | _ => r.spelledOut

namespace Draft

/-! ## Windows -/

theorem readOffset_writeOffset (w : Window) : readOffset (writeOffset w) = .ok (w.low, w.high) := by
  rw [writeOffset]
  by_cases h : w.low = w.high
  · rw [if_pos (by simpa using h), h]
    rfl
  · rw [if_neg (by simpa using h)]
    rfl

theorem writeOffset_ne_null (w : Window) : writeOffset w ≠ .null := by
  rw [writeOffset]
  split <;> exact nofun

theorem withOffset_eq (r : ValueRef) (w : Window) : r.withOffset w.low w.high = .ok { r with window := w } := by
  rw [ValueRef.withOffset, Window.ofInts_ofNat]
  rfl

/-! ## Candle columns -/

/-- The members of a written candle column. -/
theorem members_writeField (r : ValueRef) : ∃ ms, writeField r = .record ms ∧
    lookup ms "refType" = none ∧ lookup ms "indicator" = none ∧ lookup ms "field" = some (.text r.input) ∧
    (member ms "timeframe").displayOr "" = .ok r.timeframe ∧
    readOffset (member ms "offset") = .ok (r.window.low, r.window.high) := by
  refine ⟨_, rfl, ?_⟩
  have htimeframe : r.timeframe.isEmpty = true → ((.null : Document)).displayOr "" = .ok r.timeframe := fun h =>
    congrArg Except.ok (String.isEmpty_iff.mp h).symm
  have hwindow : r.window = .current →
      readOffset .null = .ok ((r.window.low : Int), (r.window.high : Int)) := fun h => by
    rw [h]
    rfl
  unfold offsetMember
  by_cases ht : r.timeframe.isEmpty = true <;> by_cases hw : r.window = .current
  · rw [if_pos ht, if_pos hw]
    exact ⟨rfl, rfl, rfl, htimeframe ht, hwindow hw⟩
  · rw [if_pos ht, if_neg hw]
    exact ⟨rfl, rfl, rfl, htimeframe ht, readOffset_writeOffset r.window⟩
  · rw [if_neg ht, if_pos hw]
    exact ⟨rfl, rfl, rfl, displayOr_empty _, hwindow hw⟩
  · rw [if_neg ht, if_neg hw]
    exact ⟨rfl, rfl, rfl, displayOr_empty _, readOffset_writeOffset r.window⟩

theorem readOperand_writeField {r : ValueRef} (h : r.Admissible) (hkind : r.kind = .field) (s : Selection)
    (place : String) : readOperand s place (writeField r) = .ok (.ref r.bare) := by
  obtain ⟨ms, hms, href, hindicator, hfield, htimeframe, hoffset⟩ := members_writeField r
  have hmake : ValueRef.field r.input r.timeframe 0 ValueRef.defaultCalcMode =
      .ok { r.bare with window := .current } := by
    have haccepts := h.accepts
    have hinput := h.input
    rw [hkind] at haccepts hinput
    refine ValueRef.make_eq_ok.mpr ⟨.current, rfl, ?_, ?_⟩
    · rw [hinput]
      exact haccepts
    · rw [ValueRef.normal, hinput, ValueRef.bare, hkind]
      rfl
  rw [hms, readOperand, readRecord, href, hindicator, hfield]
  dsimp only [Option.isSome]
  rw [if_neg Bool.false_ne_true]
  refine placed_eq_ok.mpr ?_
  rw [readField, hoffset, ok_bind]
  dsimp only
  rw [Document.display, ok_bind, htimeframe, ok_bind, hmake, ok_bind, withOffset_eq]
  rfl

/-! ## Indicators -/

theorem members_writeIndicator (i : Indicator) (r : ValueRef) : ∃ ms, writeIndicator i r = .record ms ∧
    lookup ms "refType" = none ∧ lookup ms "indicator" = some (.text i.id) ∧ member ms "output" = r.output ∧
    member ms "offset" =
      if ((r.window.low : Int), (r.window.high : Int)) = i.offset then .null else writeOffset r.window := by
  refine ⟨_, rfl, ?_⟩
  by_cases hw : ((r.window.low : Int), (r.window.high : Int)) = i.offset
  · rw [if_pos hw, if_pos hw]
    exact ⟨rfl, rfl, rfl, rfl⟩
  · rw [if_neg hw, if_neg hw]
    exact ⟨rfl, rfl, rfl, rfl⟩

/-- An indicator stands for a reference with its key: the parameters are those of the reference. -/
theorem params_of_find {s : Selection} {r : ValueRef} {i : Indicator} (hr : r.Admissible)
    (h : s.find r = .ok (some i)) : i.params.map ValueRef.unsignedZero = r.params := by
  obtain ⟨-, -, hkey⟩ := Selection.find_eq_some h
  obtain ⟨q, -, -, -, hq, -, hparams⟩ := Indicator.key_eq_ok hkey
  have hsame := ValueRef.params_of_paramsText (ValueRef.indicatorKey_inj hq).2
  rw [← hparams, ← hr.params, ← hsame, hparams, map_map_self ValueRef.unsignedZero_unsignedZero]

theorem readOperand_writeIndicator {s : Selection} (hs : s.Sound) {r : ValueRef} (hr : r.Admissible)
    {i : Indicator} (h : s.find r = .ok (some i)) (place : String) :
    readOperand s.normal place (writeIndicator i r) = .ok (.ref (r.respelled i.normal)) := by
  obtain ⟨hkind, hmem, hkey⟩ := Selection.find_eq_some h
  obtain ⟨-, window, hwindow, -⟩ := Indicator.key_eq_ok hkey
  obtain ⟨ms, hms, href, hindicator, houtput, hoffset⟩ := members_writeIndicator i r
  have hget : s.normal.get? i.normal.id = some i.normal :=
    Selection.get?_of_mem (List.mem_map.mpr ⟨i, hmem, rfl⟩)
  have hparams : i.normal.params = r.params := params_of_find hr h
  have hmade := (hs i hmem).ref_normal hwindow hr.output
  rw [hms, readOperand, readRecord, href, hindicator]
  dsimp only [Option.isSome]
  rw [if_neg Bool.false_ne_true]
  refine placed_eq_ok.mpr ?_
  have hread : readIndicator s.normal place i.normal.id r.output (member ms "offset") =
      .ok (r.respelled i.normal) := by
    rw [readIndicator, hget]
    dsimp only
    rw [hmade, ok_bind, hoffset, hparams, ← hkind]
    -- a window is left out where it is that of the indicator, which the reader falls back on
    by_cases hw : ((r.window.low : Int), (r.window.high : Int)) = i.offset
    · rw [← hw, Window.ofInts_ofNat] at hwindow
      cases hwindow
      rw [if_pos hw]
      dsimp only
      rw [pure_eq_ok, ValueRef.respelled]
    · rw [if_neg hw]
      split
      · rename_i hnull
        exact absurd hnull (writeOffset_ne_null r.window)
      · rw [readOffset_writeOffset, ok_bind]
        dsimp only
        rw [withOffset_eq, ValueRef.respelled]
  have hid : (Document.text i.id).display = .ok i.normal.id := rfl
  rw [hid, ok_bind, houtput, hread, ok_bind, pure_eq_ok]

/-! ## References -/

theorem readOperand_toDocument {r : ValueRef} (h : r.Admissible) (hr : r.Showable) (s : Selection)
    (place : String) : readOperand s place r.toDocument = .ok (.ref r.spelledOut) := by
  obtain ⟨ms, hms, href⟩ : ∃ ms, r.toDocument = .record ms ∧ (lookup ms "refType").isSome = true :=
    ⟨_, rfl, rfl⟩
  have hread := h.reread hr
  rw [hms] at hread ⊢
  rw [readOperand, readRecord, if_pos href, hread]
  rfl

/-- **An operand comes back from what is written for it.** -/
theorem readOperand_writeRef {s : Selection} (hs : s.Sound) {r : ValueRef} (hr : r.Admissible)
    (houtput : r.Showable) {doc : Document} (h : writeRef s r = .ok doc) (place : String) :
    readOperand s.normal place doc = .ok (.ref (s.restored r)) := by
  rw [writeRef] at h
  rw [Selection.restored]
  by_cases hfield : r.isField = true
  · rw [if_pos hfield] at h ⊢
    cases h
    exact readOperand_writeField hr (eq_of_beq hfield) _ place
  · rw [if_neg hfield] at h ⊢
    obtain ⟨found, hfind, h⟩ := bind_eq_ok.mp h
    rw [hfind]
    cases found with
    | none =>
        cases h
        exact readOperand_toDocument hr houtput _ place
    | some i =>
        dsimp only at h ⊢
        by_cases hmode : (r.calcMode == i.calcMode) = true
        · rw [if_pos hmode] at h ⊢
          cases h
          exact readOperand_writeIndicator hs hr hfind place
        · rw [if_neg hmode] at h ⊢
          cases h
          exact readOperand_toDocument hr houtput _ place

/-! ## What was read is admissible -/

theorem withOffset_admissible {r q : ValueRef} (hr : r.Admissible) {low high : Int}
    (h : r.withOffset low high = .ok q) : q.Admissible := by
  obtain ⟨window, -, h⟩ := bind_eq_ok.mp h
  cases h
  exact ⟨hr.accepts, hr.input, hr.params, hr.output, hr.calcMode⟩

theorem readIndicator_admissible {s : Selection} {place id : String} {output offset : Document} {r : ValueRef}
    (h : readIndicator s place id output offset = .ok r) : r.Admissible := by
  rw [readIndicator] at h
  split at h
  · cases h
  · obtain ⟨q, hq, h⟩ := bind_eq_ok.mp h
    have hadmissible : q.Admissible := ValueRef.make_admissible hq
    split at h
    · cases h
      exact hadmissible
    · obtain ⟨⟨low, high⟩, -, h⟩ := bind_eq_ok.mp h
      exact withOffset_admissible hadmissible h

theorem readField_admissible {ms : List (String × Document)} {name : Document} {r : ValueRef}
    (h : readField ms name = .ok r) : r.Admissible := by
  obtain ⟨⟨low, high⟩, -, h⟩ := bind_eq_ok.mp h
  obtain ⟨field, -, h⟩ := bind_eq_ok.mp h
  obtain ⟨timeframe, -, h⟩ := bind_eq_ok.mp h
  obtain ⟨q, hq, h⟩ := bind_eq_ok.mp h
  exact withOffset_admissible (ValueRef.make_admissible hq) h

section

variable {p : ValueRef → Prop}

theorem of_map_ref {run : Except Failure ValueRef} (hrun : ∀ r, run = .ok r → p r) {o : Operand}
    (h : .ref <$> run = .ok o) : o.EachRef p := by
  cases run with
  | error f => cases h
  | ok r =>
      cases h
      exact hrun r rfl

/-- An operand is a number, or what one of the readers of references makes of it. -/
theorem readOperand_eachRef {s : Selection} {place : String} {raw : Document} {o : Operand}
    (hindicator : ∀ id output offset r, readIndicator s place id output offset = .ok r → p r)
    (hcolumn : ∀ name r, ValueRef.field name "" 0 ValueRef.defaultCalcMode = .ok r → p r)
    (hfield : ∀ ms name r, readField ms name = .ok r → p r)
    (hrecord : ∀ ms r, ValueRef.ofDocument (.record ms) = .ok r → p r)
    (h : readOperand s place raw = .ok o) : o.EachRef p := by
  cases raw with
  | int n =>
      cases hx : (Document.int n).toReal with
      | error f =>
          rw [readOperand, hx] at h
          cases h
      | ok x =>
          rw [readOperand, hx] at h
          cases h
          trivial
  | real x =>
      cases h
      trivial
  | text t =>
      rw [readOperand, readText] at h
      dsimp only at h
      split at h
      · cases h
        trivial
      · split at h
        · exact of_map_ref (hindicator _ _ _) h
        · split at h
          · exact of_map_ref (hcolumn _) h
          · cases h
  | record ms =>
      rw [readOperand, readRecord] at h
      split at h
      · exact of_map_ref (hrecord ms) h
      · split at h
        · obtain ⟨id, -, h⟩ := bind_eq_ok.mp (placed_eq_ok.mp h)
          obtain ⟨r, hr, h⟩ := bind_eq_ok.mp h
          cases h
          exact hindicator _ _ _ r hr
        · exact of_map_ref (hfield ms _) (placed_eq_ok.mp h)
        · exact absurd h bind_throw_ne_ok
  | bool b => cases h
  | null => exact absurd h bind_throw_ne_ok
  | list xs => exact absurd h bind_throw_ne_ok

end

theorem readOperand_admissible {s : Selection} {place : String} {raw : Document} {o : Operand}
    (h : readOperand s place raw = .ok o) : o.EachRef ValueRef.Admissible :=
  readOperand_eachRef (fun _ _ _ _ => readIndicator_admissible) (fun _ _ => ValueRef.make_admissible)
    (fun _ _ _ => readField_admissible) (fun _ _ hr => (ValueRef.ofDocument_admissible hr).1) h

end Draft

end Stratagem
