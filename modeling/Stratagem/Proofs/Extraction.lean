import Stratagem.Proofs.Compiled.Restored
import Stratagem.Proofs.Draft.RoundTrip
import Stratagem.Session

/-!
# Selections made from compiled strategies

The selection holds one indicator for each key, in the spelling of the first reference with that key. So a draft
that is written with this selection brings a reference back in the spelling of the first reference that has its
key, if the two have one calculation mode, and as it was otherwise.
-/

namespace Stratagem

namespace Extraction

/-! ## Noting references -/

/-- The reference that the instance with the key was found at. -/
def first? (key : String) (es : List Extraction) : Option ValueRef :=
  (es.find? (·.key == key)).map (·.ref)

/-- What was found so far stands for the references `rs`. -/
structure Covers (rs : List ValueRef) (es : List Extraction) : Prop where
  first : ∀ key, first? key es = rs.find? (·.indicatorKey == key)
  key : ∀ e ∈ es, e.key = e.ref.indicatorKey
  mem : ∀ e ∈ es, e.ref ∈ rs
  outputs : ∀ e ∈ es, ∀ o ∈ e.outputs, o.isEmpty = false

theorem first?_cons (key : String) (e : Extraction) (es : List Extraction) :
    first? key (e :: es) = if e.key == key then some e.ref else first? key es := by
  rw [first?, List.find?_cons]
  cases e.key == key <;> rfl

theorem first?_note (key : String) (r : ValueRef) (output : String) (es : List Extraction) :
    first? key (note r output es) = (first? key es).or (if r.indicatorKey == key then some r else none) := by
  induction es with
  | nil => exact first?_cons _ _ _
  | cons e es ih =>
      rw [note, first?_cons key e es]
      by_cases hr : (e.key == r.indicatorKey) = true
      · -- the reference has the key of the entry, so it is found at the entry or not at all
        rw [if_pos hr, first?_cons, eq_of_beq hr]
        split
        · rfl
        · rw [Option.or_none]
      · rw [if_neg hr, first?_cons, ih]
        split <;> rfl

/-- An entry is new, or it was there before, perhaps without the output if it has the key of the reference. -/
theorem mem_note {r : ValueRef} {output : String} {es : List Extraction} {e : Extraction}
    (h : e ∈ note r output es) : e = ⟨r.indicatorKey, r, [output]⟩ ∨
      ∃ e' ∈ es, e.key = e'.key ∧ e.ref = e'.ref ∧ (e'.outputs ≠ [] → e.outputs ≠ []) ∧
        ∀ o ∈ e.outputs, o ∈ e'.outputs ∨ e.key = r.indicatorKey ∧ o = output := by
  induction es with
  | nil => exact Or.inl (List.mem_singleton.mp h)
  | cons e' es ih =>
      rw [note] at h
      split at h
      · rename_i hkey
        rcases List.mem_cons.mp h with rfl | h
        · refine Or.inr ⟨e', List.mem_cons_self, rfl, rfl, ?_, ?_⟩
          all_goals
            dsimp only
            split
          · exact id
          · exact fun _ => List.append_ne_nil_of_right_ne_nil _ (List.cons_ne_nil _ _)
          · exact fun o ho => Or.inl ho
          · exact fun o ho => (List.mem_append.mp ho).imp_right fun ho =>
              ⟨eq_of_beq hkey, List.mem_singleton.mp ho⟩
        · exact Or.inr ⟨e, List.mem_cons_of_mem _ h, rfl, rfl, id, fun _ ho => Or.inl ho⟩
      · rcases List.mem_cons.mp h with rfl | h
        · exact Or.inr ⟨e, List.mem_cons_self, rfl, rfl, id, fun _ ho => Or.inl ho⟩
        · rcases ih h with heq | ⟨e'', hmem, hsame⟩
          · exact Or.inl heq
          · exact Or.inr ⟨e'', List.mem_cons_of_mem _ hmem, hsame⟩

theorem Covers.note {rs : List ValueRef} {es : List Extraction} (h : Covers rs es) (r : ValueRef)
    {output : String} (houtput : output.isEmpty = false) : Covers (rs ++ [r]) (note r output es) := by
  refine ⟨fun key => ?_, fun e he => ?_, fun e he => ?_, fun e he o ho => ?_⟩
  · rw [first?_note, h.first, List.find?_append, List.find?_singleton]
  · rcases mem_note he with rfl | ⟨e', he', hkey, href, -⟩
    · rfl
    · rw [hkey, href, h.key e' he']
  · rcases mem_note he with rfl | ⟨e', he', -, href, -⟩
    · exact List.mem_append_right _ List.mem_cons_self
    · rw [href]
      exact List.mem_append_left _ (h.mem e' he')
  · rcases mem_note he with rfl | ⟨e', he', -, -, -, houtputs⟩
    · rwa [List.mem_singleton.mp ho]
    · rcases houtputs o ho with ho | ⟨-, rfl⟩
      · exact h.outputs e' he' o ho
      · exact houtput

theorem covers_nil : Covers [] [] := ⟨fun _ => rfl, nofun, nofun, nofun⟩

/-- What outlasts a reference that is noted outlasts a run over references. -/
theorem run_preserves {p : List ValueRef → List Extraction → Prop}
    (hnote : ∀ done es r output, p done es → r.output = .text output → output.isEmpty = false →
      p (done ++ [r]) (note r output es)) {rs done : List ValueRef} {es : List Extraction} (h : p done es)
    (hrs : ∀ r ∈ rs, ∃ output : String, output.isEmpty = false ∧ r.output = .text output) :
    ∃ es', rs.foldlM (fun found r => do return note r (← r.outputText) found) es =
      (.ok es' : Except Failure _) ∧ p (done ++ rs) es' := by
  -- on the references that are left: what was done grows by each of them
  induction rs generalizing done es with
  | nil => exact ⟨es, rfl, by rwa [List.append_nil]⟩
  | cons r rs ih =>
      obtain ⟨output, houtput, hr⟩ := hrs r List.mem_cons_self
      obtain ⟨es', hrun, hp⟩ :=
        ih (hnote done es r output h hr houtput) fun q hq => hrs q (List.mem_cons_of_mem _ hq)
      refine ⟨es', ?_, by rwa [List.append_assoc] at hp⟩
      rw [List.foldlM_cons, ValueRef.outputText, hr]
      exact hrun

/-! ## Their indicators -/

theorem indicators_map_id (n : Nat) (es : List Extraction) :
    (indicators n es).map (·.id) = (List.range' n es.length).map fun n => "loaded-" ++ ordinal n := by
  induction es generalizing n with
  | nil => rfl
  | cons e es ih => rw [indicators, List.map_cons, ih, List.length_cons, List.range'_succ, List.map_cons]; rfl

theorem indicators_nodup (es : List Extraction) : ((indicators 0 es).map (·.id)).Nodup := by
  rw [indicators_map_id]
  exact (List.nodup_range' 1).map (append_ordinal_injective _)

theorem mem_indicators {n : Nat} {es : List Extraction} {i : Indicator} (h : i ∈ indicators n es) :
    ∃ m, ∃ e ∈ es, i = e.indicator m := by
  induction es generalizing n with
  | nil => cases h
  | cons e es ih =>
      rcases List.mem_cons.mp h with rfl | h
      · exact ⟨n, e, List.mem_cons_self, rfl⟩
      · obtain ⟨m, e', he', heq⟩ := ih h
        exact ⟨m, e', List.mem_cons_of_mem _ he', heq⟩

/-- An indicator has the key of the reference that it is made from. -/
theorem key_indicator {e : Extraction} (h : e.ref.Admissible) (hkind : e.ref.kind = .indicator) (n : Nat) :
    (e.indicator n).key = .ok e.ref.indicatorKey := by
  have haccepts := h.accepts
  rw [hkind] at haccepts
  have href : (e.indicator n).ref .null = .ok _ :=
    ValueRef.make_eq_ok.mpr ⟨e.ref.window, Window.ofInts_ofNat _, haccepts, rfl⟩
  rw [Indicator.key, href]
  show Except.ok ("|".intercalate [_, _, _, ValueRef.paramsText (e.ref.params.map ValueRef.unsignedZero)]) = _
  rw [h.params]
  rfl

/-- The first instance with a key is found by the key. -/
theorem findKey_indicators {es : List Extraction} (hkey : ∀ e ∈ es, e.key = e.ref.indicatorKey)
    (hes : ∀ e ∈ es, e.ref.Admissible ∧ e.ref.kind = .indicator) (key : String) (n : Nat) :
    ∃ m, Selection.findKey key (indicators n es) = .ok ((es.find? (·.key == key)).map (indicator m)) := by
  induction es generalizing n with
  | nil => exact ⟨0, rfl⟩
  | cons e es ih =>
      obtain ⟨hadmissible, hkind⟩ := hes e List.mem_cons_self
      rw [indicators, Selection.findKey, key_indicator hadmissible hkind, ok_bind, ← hkey e List.mem_cons_self,
        List.find?_cons]
      cases e.key == key with
      | true => exact ⟨n, rfl⟩
      | false =>
          exact ih (fun e he => hkey e (List.mem_cons_of_mem _ he))
            (fun e he => hes e (List.mem_cons_of_mem _ he)) (n + 1)

theorem outputs_indicator {e : Extraction} (houtputs : ∀ o ∈ e.outputs, o.isEmpty = false) (n : Nat) :
    ∀ o ∈ (e.indicator n).outputs, o.key.isEmpty = false := by
  refine List.forall_mem_cons.mpr ⟨?_, fun o ho => ?_⟩
  · show (e.outputs.headD ValueRef.defaultOutput).isEmpty = false
    cases hout : e.outputs with
    | nil => rfl
    | cons o os =>
        rw [hout] at houtputs
        exact houtputs o List.mem_cons_self
  · obtain ⟨key, hkey, rfl⟩ := List.mem_map.mp ho
    exact houtputs key (List.mem_of_mem_drop hkey)

theorem sound_indicator {e : Extraction} (hcode : (Text.trim e.ref.indicator).isEmpty = false)
    (houtputs : ∀ o ∈ e.outputs, o.isEmpty = false) (n : Nat) : (e.indicator n).Sound :=
  ⟨isEmpty_append rfl _, hcode, outputs_indicator houtputs n⟩

/-! ## The references of a strategy -/

theorem mem_refs {l : Compiled.Logic} {r : ValueRef} :
    r ∈ refs l ↔ r.kind = .indicator ∧ ∃ c ∈ l.conditions, .ref r ∈ c.args := by
  rw [refs, List.mem_flatMap]
  constructor
  · rintro ⟨c, hc, hr⟩
    obtain ⟨a, ha, hsome⟩ := List.mem_filterMap.mp hr
    cases a with
    | ref q =>
        dsimp only at hsome
        split at hsome
        · rename_i hkind
          cases hsome
          exact ⟨eq_of_beq hkind, c, hc, ha⟩
        · cases hsome
    | _ => cases hsome
  · rintro ⟨hkind, c, hc, hr⟩
    exact ⟨c, hc, List.mem_filterMap.mpr ⟨.ref r, hr, if_pos (beq_iff_eq.mpr hkind)⟩⟩

theorem refs_legible {l : Compiled.Logic} (hlegible : ∀ c ∈ l.conditions, ∀ a ∈ c.args, a.Legible) :
    ∀ r ∈ refs l, r.Admissible ∧ r.kind = .indicator ∧
      ∃ output : String, output.isEmpty = false ∧ r.output = .text output := by
  intro r hr
  obtain ⟨hkind, c, hc, hmem⟩ := mem_refs.mp hr
  obtain ⟨hadmissible, output, houtput⟩ := hlegible c hc _ hmem
  have hempty := hadmissible.output
  rw [houtput] at hempty
  exact ⟨hadmissible, hkind, output, hempty, houtput⟩

end Extraction

/-- The indicator has the parts of the reference. -/
structure Indicator.Spelled (q : ValueRef) (i : Indicator) : Prop where
  code : i.code = q.indicator
  timeframe : i.timeframe = q.timeframe
  input : i.input = q.input
  calcMode : i.calcMode = q.calcMode

/-- The first reference of the strategy to the indicator that a reference addresses. -/
def Compiled.Logic.original? (l : Logic) (r : ValueRef) : Option ValueRef :=
  if r.isIndicator then (Extraction.refs l).find? (·.indicatorKey == r.indicatorKey) else none

/-- The reference in the spelling of the first one with its key and its calculation mode. -/
def Compiled.Logic.respell (l : Logic) (r : ValueRef) : ValueRef :=
  match l.original? r with
  | some q =>
    if r.calcMode == q.calcMode then { r with
      indicator := Text.trim q.indicator
      timeframe := Text.trim q.timeframe
      input := Text.trim q.input
      calcMode := Text.trim r.calcMode }
    else r
  | none => r

/-- The selection is made from the strategy. -/
structure Selection.StandsFor (s : Selection) (l : Compiled.Logic) : Prop where
  sound : s.Sound
  find : ∀ r, ∃ found, s.find r = .ok found ∧ Option.Rel Indicator.Spelled (l.original? r) found

theorem Compiled.Logic.extractIndicators_standsFor {l : Logic}
    (hlegible : ∀ c ∈ l.conditions, ∀ a ∈ c.args, a.Legible)
    (hcode : ∀ r ∈ Extraction.refs l, (Text.trim r.indicator).isEmpty = false) :
    ∃ s, l.extractIndicators = .ok s ∧ s.StandsFor l := by
  have hrefs := Extraction.refs_legible hlegible
  obtain ⟨es, hrun, hcovers⟩ := Extraction.run_preserves
    (fun _ _ r _ h _ houtput => h.note r houtput) Extraction.covers_nil fun r hr => (hrefs r hr).2.2
  rw [List.nil_append] at hcovers
  let s : Selection := ⟨Extraction.indicators 0 es, Extraction.indicators_nodup es⟩
  refine ⟨s, ?_, fun i hi => ?_, fun r => ?_⟩
  · show (Extraction.ofLogic l >>= _) = _
    rw [Extraction.ofLogic, hrun]
    exact s.ofIndicators_indicators
  · obtain ⟨n, e, he, rfl⟩ := Extraction.mem_indicators hi
    exact Extraction.sound_indicator (hcode _ (hcovers.mem e he)) (hcovers.outputs e he) n
  · rw [Selection.find, original?]
    split
    · obtain ⟨n, hfind⟩ := Extraction.findKey_indicators hcovers.key
        (fun e he => ⟨(hrefs _ (hcovers.mem e he)).1, (hrefs _ (hcovers.mem e he)).2.1⟩) r.indicatorKey 0
      refine ⟨_, hfind, ?_⟩
      rw [← hcovers.first, Extraction.first?]
      cases es.find? (·.key == r.indicatorKey) with
      | none => exact .none
      | some e => exact .some ⟨rfl, rfl, rfl, rfl⟩
    · exact ⟨none, rfl, .none⟩

/-! ## References through a draft -/

/-- A reference that loses nothing in a draft: its output is a text, one to a candle column says nothing but the
name, the timeframe and the bars, and one to an indicator has names that are not blank. -/
structure ValueRef.Tidy (r : ValueRef) : Prop extends r.Plain where
  code : r.kind = .indicator → (Text.trim r.indicator).isEmpty = false
  calcMode : r.kind = .indicator → (Text.trim r.calcMode).isEmpty = false

/-- **A reference comes back from a draft in the first spelling of its indicator.** -/
theorem Selection.StandsFor.restored {s : Selection} {l : Compiled.Logic} (h : s.StandsFor l) {r : ValueRef}
    (hr : r.Admissible) (htidy : r.Tidy) : s.restored r = l.respell r := by
  obtain ⟨output, houtput⟩ := htidy.output
  have hspelled := hr.spelledOut_eq houtput
  obtain ⟨found, hfind, hrel⟩ := h.find r
  rw [Selection.restored, Compiled.Logic.respell]
  by_cases hfield : r.isField = true
  · have hkind := eq_of_beq hfield
    have hnone : l.original? r = none := by
      rw [Compiled.Logic.original?, ValueRef.isIndicator, hkind]
      rfl
    rw [if_pos hfield, hnone, htidy.bare hkind]
  · rw [if_neg hfield, hfind]
    generalize l.original? r = q? at hrel
    cases hrel with
    | none => exact hspelled
    | some hq =>
        rename_i q i
        dsimp only
        rw [hq.calcMode]
        by_cases hmode : (r.calcMode == q.calcMode) = true
        · have hkind : r.kind = .indicator := (Selection.find_eq_some hfind).1
          have hcalc : i.calcMode = r.calcMode := hq.calcMode.trans (eq_of_beq hmode).symm
          rw [if_pos hmode, if_pos hmode, ValueRef.respelled, Indicator.normal, hcalc, hr.calcMode,
            if_neg Bool.false_ne_true, htidy.calcMode hkind, if_neg Bool.false_ne_true, hq.code, hq.timeframe,
            hq.input]
        · rw [if_neg hmode, if_neg hmode, hspelled]

end Stratagem
