import Stratagem.Proofs.Draft.Selection
import Stratagem.Proofs.Writable
import Stratagem.Selection

/-!
# Selected indicators answer for their references

A reference carries the key of its indicator and is resolved at the first selected indicator with that key.
The signature that keeps duplicates out says more than the key: indicators that differ in their windows or
calculation modes may have one key, and then the first of them answers for all.
-/

namespace Stratagem

/-! ## Indicators -/

namespace Indicator

/-- What references to an indicator ask for: they can be made, and each output has a name. -/
structure Referable (i : Indicator) : Prop where
  ref : ∃ r, i.ref .null = .ok r
  outputs : ∀ o ∈ i.outputs, o.key.isEmpty = false

/-- The reference to a declared output has the key of the indicator. -/
theorem Referable.ref_output {i : Indicator} (h : i.Referable) {o : String} (ho : o ∈ i.outputKeys) :
    ∃ r, i.ref (.text o) = .ok r ∧ r.kind = .indicator ∧ r.output = .text o ∧ i.key = .ok r.indicatorKey := by
  obtain ⟨output, houtput, rfl⟩ := List.mem_map.mp ho
  obtain ⟨r, hr⟩ := h.ref
  obtain ⟨window, hwindow, haccepts, rfl⟩ := ValueRef.make_eq_ok.mp hr
  have hkey : (Document.text output.key).isEmpty = false := h.outputs output houtput
  refine ⟨_, ValueRef.make_eq_ok.mpr ⟨window, hwindow, haccepts, rfl⟩, rfl, ?_, bind_eq_ok.mpr ⟨_, hr, rfl⟩⟩
  show ((Document.text output.key).orElse _).orElse _ = _
  rw [Document.orElse, Document.orElse, hkey, if_neg Bool.false_ne_true, hkey, if_neg Bool.false_ne_true]

theorem Referable.key_exists {i : Indicator} (h : i.Referable) : ∃ key, i.key = .ok key := by
  obtain ⟨r, hr⟩ := h.ref
  exact ⟨r.indicatorKey, bind_eq_ok.mpr ⟨r, hr, rfl⟩⟩

theorem declares_of_mem {i : Indicator} {o : String} (ho : o ∈ i.outputKeys) : i.declares (.text o) = true :=
  List.any_eq_true.mpr ⟨o, ho, beq_self_eq_true (Document.text o)⟩

/-- The two indicators are written in one way, but for blanks around the texts and the case of the timeframe. -/
structure Alike (i j : Indicator) : Prop where
  code : Text.trim i.code = Text.trim j.code
  timeframe : Text.lower (Text.trim i.timeframe) = Text.lower (Text.trim j.timeframe)
  input : Text.trim i.input = Text.trim j.input

/-- What a reference may ask for in its own way. -/
structure SameSettings (i j : Indicator) : Prop where
  offset : i.offset = j.offset
  calcMode : Text.trim i.calcMode = Text.trim j.calcMode

/-- Indicators with one key have the same parameters, so their settings are what is left to tell those apart that are
written alike. -/
theorem Alike.signature {i j : Indicator} (h : i.Alike j) (hsame : i.SameSettings j) {key : String}
    (hi : i.key = .ok key) (hj : j.key = .ok key) : i.signature = j.signature := by
  obtain ⟨r, -, -, -, hr, -, hrparams⟩ := key_eq_ok hi
  obtain ⟨q, -, -, -, hq, -, hqparams⟩ := key_eq_ok hj
  have hparams : ValueRef.paramsText i.params = ValueRef.paramsText j.params := by
    have hkeys := (ValueRef.indicatorKey_inj (hr.trans hq.symm)).2
    rwa [ValueRef.paramsKey, ValueRef.paramsKey, hrparams, hqparams, ValueRef.paramsText_unsignedZero,
      ValueRef.paramsText_unsignedZero] at hkeys
  rw [Indicator.signature, Indicator.signature, h.code, h.timeframe, h.input, hsame.offset, hsame.calcMode, hparams]

end Indicator

/-! ## Selections -/

namespace Selection

variable {s s' : Selection} {i j : Indicator}

theorem ne_of_findSignature {id signature : String} {is : List Indicator}
    (h : findSignature id signature is = .ok none) : ∀ j ∈ is, j.signature = .ok signature → j.id = id := by
  induction is with
  | nil => nofun
  | cons k is ih =>
      rw [findSignature] at h
      by_cases hid : k.id = id
      · rw [if_pos (beq_iff_eq.mpr hid)] at h
        exact List.forall_mem_cons.mpr ⟨fun _ => hid, ih h⟩
      · rw [if_neg (mt beq_iff_eq.mp hid)] at h
        obtain ⟨text, htext, h⟩ := bind_eq_ok.mp h
        by_cases heq : text = signature
        · rw [if_pos (beq_iff_eq.mpr heq)] at h
          cases h
        · rw [if_neg (mt beq_iff_eq.mp heq)] at h
          refine List.forall_mem_cons.mpr ⟨fun hsignature => ?_, ih h⟩
          exact absurd (Except.ok.inj (htext.symm.trans hsignature)) heq

theorem id_of_refuseDuplicate {u : Unit} (h : s.refuseDuplicate i = .ok u) :
    ∀ j ∈ s.indicators, j.signature = i.signature → j.id = i.id := by
  obtain ⟨found, hfound, h⟩ := bind_eq_ok.mp h
  obtain ⟨signature, hsignature, hfound⟩ := bind_eq_ok.mp hfound
  cases found with
  | some j => exact absurd h bind_throw_ne_ok
  | none => exact fun j hj heq => ne_of_findSignature hfound j hj (heq.trans hsignature)

/-- An indicator is selected once, and any two with one signature are the same. -/
structure Distinct (s : Selection) : Prop where
  referable : ∀ i ∈ s.indicators, i.Referable
  signature : ∀ i ∈ s.indicators, ∀ j ∈ s.indicators, i.signature = j.signature → i.id = j.id

theorem eq_of_id (hi : i ∈ s.indicators) (hj : j ∈ s.indicators) (h : i.id = j.id) : i = j :=
  List.inj_on_of_nodup_map s.nodup hi hj h

/-- A selection of known indicators and one that was compared with them. -/
theorem Distinct.join (h : s.Distinct) (hi : i.Referable) {u : Unit} (hrefuse : s.refuseDuplicate i = .ok u)
    (hmem : ∀ j ∈ s'.indicators, j = i ∨ j ∈ s.indicators) : s'.Distinct := by
  have hfresh := id_of_refuseDuplicate hrefuse
  constructor
  · intro j hj
    rcases hmem j hj with rfl | hold
    · exact hi
    · exact h.referable j hold
  · intro j hj k hk hsignature
    rcases hmem j hj with rfl | hjold
    · rcases hmem k hk with rfl | hkold
      · rfl
      · exact (hfresh k hkold hsignature.symm).symm
    · rcases hmem k hk with rfl | hkold
      · exact hfresh j hjold hsignature
      · exact h.signature j hjold k hkold hsignature

theorem Distinct.add (h : s.Distinct) (hi : i.Referable) (hrun : s.add i = .ok s') : s'.Distinct := by
  obtain ⟨u, hrefuse, hrun⟩ := bind_eq_ok.mp hrun
  refine h.join hi hrefuse fun j hj => ?_
  rw [indicators_of_ofIndicators hrun] at hj
  exact List.mem_cons.mp hj

theorem Distinct.replace (h : s.Distinct) (hi : i.Referable) (hrun : s.replace i = .ok s') : s'.Distinct := by
  rw [Selection.replace] at hrun
  split at hrun
  · cases hrun
  · obtain ⟨u, hrefuse, hrun⟩ := bind_eq_ok.mp hrun
    cases hrun
    refine h.join hi hrefuse fun j hj => ?_
    obtain ⟨k, hk, rfl⟩ := List.mem_map.mp hj
    split
    · exact Or.inl rfl
    · exact Or.inr hk

theorem Distinct.remove (h : s.Distinct) (id : String) : (s.remove id).Distinct := by
  constructor
  · intro i hi
    exact h.referable i (List.mem_of_mem_filter hi)
  · intro i hi j hj
    exact h.signature i (List.mem_of_mem_filter hi) j (List.mem_of_mem_filter hj)

/-- A selection that was made from the empty one, change by change. -/
inductive Edited : Selection → Prop
  | empty : Edited Selection.empty
  | add {s s' : Selection} {i : Indicator} : Edited s → i.Referable → s.add i = .ok s' → Edited s'
  | replace {s s' : Selection} {i : Indicator} : Edited s → i.Referable → s.replace i = .ok s' → Edited s'
  | remove {s : Selection} (id : String) : Edited s → Edited (s.remove id)

theorem Edited.distinct (h : s.Edited) : s.Distinct := by
  induction h with
  | empty => exact ⟨nofun, nofun⟩
  | add _ hi hrun ih => exact ih.add hi hrun
  | replace _ hi hrun ih => exact ih.replace hi hrun
  | remove id _ ih => exact ih.remove id

/-! ## Resolving -/

/-- If every indicator has a key, the first one with the key of a member is found. -/
theorem findKey_of_mem {is : List Indicator} {key : String} (hkeys : ∀ i ∈ is, ∃ key, i.key = .ok key)
    (hi : i ∈ is) (hkey : i.key = .ok key) : ∃ pre j post, is = pre ++ j :: post ∧ j.key = .ok key ∧
      (∀ k ∈ pre, k.key ≠ .ok key) ∧ findKey key is = .ok (some j) := by
  induction is with
  | nil => cases hi
  | cons k is ih =>
      obtain ⟨⟨key', hkey'⟩, hkeys⟩ := List.forall_mem_cons.mp hkeys
      by_cases heq : key' = key
      · rw [heq] at hkey'
        refine ⟨[], k, is, rfl, hkey', nofun, ?_⟩
        rw [findKey, hkey', ok_bind, if_pos (beq_self_eq_true key)]
        rfl
      · have hne : k.key ≠ .ok key := by
          rw [hkey']
          exact fun h => heq (Except.ok.inj h)
        have hi : i ∈ is := (List.mem_cons.mp hi).resolve_left fun h => hne (h ▸ hkey)
        obtain ⟨pre, j, post, rfl, hj, hpre, hfind⟩ := ih hkeys hi
        refine ⟨k :: pre, j, post, rfl, hj, List.forall_mem_cons.mpr ⟨hne, hpre⟩, ?_⟩
        rw [findKey, hkey', ok_bind, if_neg (by simpa using heq)]
        exact hfind

def HasKeys (s : Selection) : Prop := ∀ i ∈ s.indicators, ∃ key, i.key = .ok key

theorem findKey_exists {is : List Indicator} (hkeys : ∀ i ∈ is, ∃ key, i.key = .ok key) (key : String) :
    ∃ found, findKey key is = .ok found := by
  induction is with
  | nil => exact ⟨none, rfl⟩
  | cons i is ih =>
      obtain ⟨⟨k, hk⟩, hrest⟩ := List.forall_mem_cons.mp hkeys
      rw [findKey, hk, ok_bind]
      split
      · exact ⟨some i, rfl⟩
      · exact ih hrest

theorem find_exists (hs : s.HasKeys) (r : ValueRef) :
    ∃ found, s.find r = .ok found := by
  rw [find]
  split
  · exact findKey_exists hs _
  · exact ⟨none, rfl⟩

/-- A reference is looked up if every indicator has a key. An output that is not declared has to be shown. -/
theorem resolve_exists (hs : s.HasKeys) {r : ValueRef} (hr : r.output.Writable) :
    ∃ resolution, s.resolve r = .ok resolution := by
  rw [resolve]
  split
  · exact ⟨_, rfl⟩
  · split <;> exact ⟨_, rfl⟩
  · obtain ⟨found, hfound⟩ := find_exists hs r
    rw [hfound, ok_bind]
    cases found with
    | none => exact ⟨_, rfl⟩
    | some i =>
        dsimp only
        split
        · exact ⟨_, rfl⟩
        · exact bind_pure_exists_iff.mpr ((Document.display_writesIf _).exists_ok hr)

def Dangles (s : Selection) (r : ValueRef) : Prop := ∃ d, s.resolve r = .ok (.dangling d)

instance (s : Selection) (r : ValueRef) : Decidable (s.Dangles r) :=
  match h : s.resolve r with
  | .ok (.dangling d) => isTrue ⟨d, h⟩
  | .ok (.found _ _) | .error _ => isFalse fun ⟨d, hd⟩ => by rw [h] at hd; cases hd

/-- A reference that resolves to an indicator has its key and names one of its outputs. -/
theorem resolve_eq_found {r : ValueRef} {hint : Document} (h : s.resolve r = .ok (.found (some i) hint)) :
    r.kind = .indicator ∧ i ∈ s.indicators ∧ i.key = .ok r.indicatorKey ∧ i.declares r.output = true ∧
      hint = i.hint r.output := by
  rw [resolve] at h
  split at h
  · cases h
  · split at h <;> cases h
  · obtain ⟨found, hfind, h⟩ := bind_eq_ok.mp h
    cases found with
    | none => cases h
    | some j =>
        dsimp only at h
        split at h
        · cases h
          obtain ⟨hkind, hmem, hkey⟩ := find_eq_some hfind
          exact ⟨hkind, hmem, hkey, ‹_›, rfl⟩
        · obtain ⟨shown, -, h⟩ := bind_eq_ok.mp h
          cases h

/-- What is no reference to an indicator resolves without the selection. -/
theorem resolve_eq_found_none {r : ValueRef} {hint : Document} (h : s.resolve r = .ok (.found none hint)) :
    r.kind ≠ .indicator ∧ ∀ s' : Selection, s'.resolve r = .ok (.found none hint) := by
  have hkind : r.kind ≠ .indicator := by
    intro hkind
    rw [resolve, hkind] at h
    obtain ⟨found, -, h⟩ := bind_eq_ok.mp h
    cases found with
    | none => cases h
    | some j =>
        dsimp only at h
        split at h
        · cases h
        · obtain ⟨shown, -, h⟩ := bind_eq_ok.mp h
          cases h
  refine ⟨hkind, fun s' => ?_⟩
  rw [← h, resolve, resolve]
  cases hr : r.kind with
  | literal => rfl
  | field => rfl
  | indicator => exact absurd hr hkind

/-- **A selected indicator answers for its references**, or the first one with its key does. Where those with one key
are written alike, that is the indicator itself or one that differs from it in its window or its calculation mode. -/
theorem resolve_ref (h : s.Edited) (hi : i ∈ s.indicators) (halike : ∀ k ∈ s.indicators, k.key = i.key → k.Alike i)
    {o : String} (ho : o ∈ i.outputKeys) :
    ∃ r pre j post, i.ref (.text o) = .ok r ∧ s.indicators = pre ++ j :: post ∧
      j.key = i.key ∧ (∀ k ∈ pre, k.key ≠ i.key) ∧
      (j = i ∧ s.resolve r = .ok (.found (some i) (i.hint (.text o))) ∨
        ¬ j.SameSettings i ∧ s.resolve r = .ok (if j.declares (.text o) then .found (some j) (j.hint (.text o))
          else .dangling (.outputNotDeclared j o))) := by
  have hdistinct := h.distinct
  obtain ⟨r, hr, hkind, houtput, hkey⟩ := (hdistinct.referable i hi).ref_output ho
  obtain ⟨pre, j, post, hsplit, hj, hpre, hfind⟩ :=
    findKey_of_mem (fun k hk => (hdistinct.referable k hk).key_exists) hi hkey
  have hmem : j ∈ s.indicators := by
    rw [hsplit]
    exact List.mem_append_right _ List.mem_cons_self
  have hresolve : s.resolve r = .ok (if j.declares (.text o) then .found (some j) (j.hint (.text o))
      else .dangling (.outputNotDeclared j o)) := by
    have hfound : s.find r = .ok (some j) := by
      rw [find, ValueRef.isIndicator, hkind]
      exact hfind
    rw [resolve, hkind]
    dsimp only
    rw [hfound, ok_bind, houtput]
    dsimp only
    split <;> rfl
  refine ⟨r, pre, j, post, hr, hsplit, hj.trans hkey.symm, fun k hk => hkey ▸ hpre k hk, ?_⟩
  by_cases hsame : j.SameSettings i
  · have hsignature := (halike j hmem (hj.trans hkey.symm)).signature hsame hj hkey
    obtain rfl := eq_of_id hmem hi (hdistinct.signature j hmem i hi hsignature)
    rw [Indicator.declares_of_mem ho] at hresolve
    exact Or.inl ⟨rfl, hresolve⟩
  · exact Or.inr ⟨hsame, hresolve⟩

def strength (id calcMode : String) : Indicator where
  id
  code := "RSI"
  timeframe := "1h"
  input := "Close"
  params := [14]
  output := ⟨ValueRef.defaultOutput, ""⟩
  otherOutputs := []
  offset := (0, 0)
  calcMode

def modes : Selection := ⟨[strength "tick" "OnTick", strength "bar" "OnBarClose"], by decide⟩

theorem edited_modes : modes.Edited := by
  have hreferable : ∀ id calcMode, (strength id calcMode).Referable := fun id calcMode =>
    ⟨⟨_, rfl⟩, List.forall_mem_singleton.mpr rfl⟩
  have hbar : empty.add (strength "bar" "OnBarClose") = .ok ⟨[strength "bar" "OnBarClose"], by decide⟩ := rfl
  have htick : Selection.add ⟨[strength "bar" "OnBarClose"], by decide⟩ (strength "tick" "OnTick") = .ok modes :=
    eq_ok_of_toOption (by decide +kernel)
  exact (Edited.empty.add (hreferable _ _) hbar).add (hreferable _ _) htick

theorem resolve_ref_tick : modes.Edited ∧ strength "tick" "OnTick" ∈ modes.indicators ∧
    (∀ k ∈ modes.indicators, k.key = (strength "tick" "OnTick").key → k.Alike (strength "tick" "OnTick")) ∧
    "Value" ∈ (strength "tick" "OnTick").outputKeys ∧
    ∃ r, (strength "tick" "OnTick").ref (.text "Value") = .ok r ∧
      modes.resolve r = .ok (.found (some (strength "tick" "OnTick")) (.text "Value")) := by
  have hmem : strength "tick" "OnTick" ∈ modes.indicators := List.mem_cons_self
  have hdeclared : "Value" ∈ (strength "tick" "OnTick").outputKeys := List.mem_cons_self
  have halike : ∀ k ∈ modes.indicators, k.key = (strength "tick" "OnTick").key → k.Alike (strength "tick" "OnTick") :=
    List.forall_mem_cons.mpr ⟨fun _ => ⟨rfl, rfl, rfl⟩, List.forall_mem_singleton.mpr fun _ => ⟨rfl, rfl, rfl⟩⟩
  refine ⟨edited_modes, hmem, halike, hdeclared, ?_⟩
  obtain ⟨r, pre, j, post, hr, hsplit, -, hpre, hanswer⟩ := resolve_ref edited_modes hmem halike hdeclared
  -- nothing stands in front of the newest
  cases pre with
  | nil =>
      cases hsplit
      rcases hanswer with ⟨-, hresolve⟩ | ⟨hdiffers, -⟩
      · exact ⟨r, hr, hresolve⟩
      · exact absurd ⟨rfl, rfl⟩ hdiffers
  | cons k pre =>
      obtain ⟨rfl, -⟩ := List.cons.inj hsplit
      exact absurd rfl (hpre _ List.mem_cons_self)

/-- The one that is calculated once a bar does not answer for its own reference. -/
theorem not_resolved_bar : modes.Edited ∧ strength "bar" "OnBarClose" ∈ modes.indicators ∧
    "Value" ∈ (strength "bar" "OnBarClose").outputKeys ∧
    ∃ r, (strength "bar" "OnBarClose").ref (.text "Value") = .ok r ∧
      ∀ hint, modes.resolve r ≠ .ok (.found (some (strength "bar" "OnBarClose")) hint) := by
  have hrun : (do
      let r ← (strength "bar" "OnBarClose").ref (.text "Value")
      modes.resolve r).toOption = some (.found (some (strength "tick" "OnTick")) (.text "Value")) := by
    decide +kernel
  obtain ⟨r, hr, hresolve⟩ := bind_eq_ok.mp (eq_ok_of_toOption hrun)
  refine ⟨edited_modes, by decide, List.mem_cons_self, r, hr, fun hint hself => ?_⟩
  rw [hresolve, Except.ok.injEq, Resolution.found.injEq, Option.some.injEq] at hself
  exact absurd (congrArg Indicator.id hself.1) (by decide)

end Selection

end Stratagem
