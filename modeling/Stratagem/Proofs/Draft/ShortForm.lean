import Stratagem.Proofs.Draft.Operand
import Stratagem.Proofs.Selection

/-!
# Operands in short form

A draft names an output of a selected indicator by the id, a point and the output, or by the id alone. Whatever is a
number is read as one, and any other text is trimmed and cut at its first point. So the short forms reach an indicator
just if its id holds no point and is not changed by trimming.
-/

namespace Stratagem

/-! ## Trimming around a point -/

namespace Text

theorem dropWhile_append_cons {α : Type} {p : α → Bool} {c : α} (hc : p c = false) (before after : List α) :
    (before ++ c :: after).dropWhile p = before.dropWhile p ++ c :: after := by
  induction before with
  | nil => exact List.dropWhile_cons_of_neg (by simp [hc])
  | cons b before ih =>
      rw [List.cons_append, List.dropWhile_cons, List.dropWhile_cons]
      split
      · exact ih
      · rfl

def trimEnd (s : String) : String := String.ofList (s.toList.rdropWhile isBlank)

theorem trimEnd_eq_self {s : String} (h : ∀ c ∈ s.toList.getLast?, isBlank c = false) : trimEnd s = s := by
  have hstays : s.toList.rdropWhile isBlank = s.toList := by
    refine List.rdropWhile_eq_self_iff.mpr fun hne => ?_
    rw [h _ (List.getLast?_eq_getLast_of_ne_nil hne)]
    exact Bool.false_ne_true
  rw [trimEnd, hstays, String.ofList_toList]

/-- A point shields what stands before it from trimming at the end, and what stands after it from trimming at the
front. -/
theorem trimChars_append_point (before after : List Char) :
    trimChars (before ++ '.' :: after) = before.dropWhile isBlank ++ '.' :: after.rdropWhile isBlank := by
  have hpoint : isBlank '.' = false := rfl
  rw [trimChars_eq, dropWhile_append_cons hpoint, List.rdropWhile, List.reverse_append, List.reverse_cons,
    List.append_assoc, List.singleton_append, dropWhile_append_cons hpoint, List.reverse_append, List.reverse_cons,
    List.reverse_reverse, List.append_assoc, List.singleton_append, List.rdropWhile]

end Text

namespace Draft

open Text (Bare isBlank trim trimEnd trimChars)

/-! ## Cutting at the first point -/

theorem ne_point_of_not_mem {cs : List Char} (h : '.' ∉ cs) : ∀ c ∈ cs, (c != '.') = true :=
  fun _ hc => bne_iff_ne.mpr fun heq => h (heq ▸ hc)

theorem splitPoint_of_not_mem {cs : List Char} (h : '.' ∉ cs) : splitPoint cs = (String.ofList cs, "") := by
  have htake : cs.takeWhile (· != '.') = cs := List.takeWhile_eq_self_iff.mpr (ne_point_of_not_mem h)
  have hdrop : cs.dropWhile (· != '.') = [] := List.dropWhile_eq_nil_iff.mpr (ne_point_of_not_mem h)
  rw [splitPoint, htake, hdrop]
  rfl

theorem splitPoint_append {before after : List Char} (h : '.' ∉ before) :
    splitPoint (before ++ '.' :: after) = (String.ofList before, String.ofList after) := by
  have hpoint : ∀ c ∈ ('.' :: after).head?, (c != '.') = false := by
    rintro c ⟨⟩
    rfl
  obtain ⟨htake, hdrop⟩ := Number.run_append (ne_point_of_not_mem h) hpoint
  rw [splitPoint, htake, hdrop, List.drop_one, List.tail_cons]

theorem point_not_mem_splitPoint (cs : List Char) : '.' ∉ (splitPoint cs).1.toList := by
  rw [splitPoint, String.toList_ofList]
  intro hmem
  have hne := List.mem_takeWhile_imp hmem
  cases hne

/-- An id that stays as it is in front of a point. -/
structure Leads (id : String) : Prop where
  front : ∀ c ∈ id.toList.head?, isBlank c = false
  point : '.' ∉ id.toList

/-- An id that stays as it is on its own. -/
structure Stands (id : String) : Prop where
  bare : Bare id.toList
  point : '.' ∉ id.toList

theorem Stands.splitPoint {id : String} (h : Stands id) : splitPoint (trim id).toList = (id, "") := by
  rw [h.bare.trim, splitPoint_of_not_mem h.point, String.ofList_toList]

/-- An id that is not cut off as it is does not stand on its own. -/
theorem stands_of_splitPoint {id : String} (h : (splitPoint (trim id).toList).1 = id) : Stands id := by
  have hpoint : '.' ∉ id.toList := h ▸ point_not_mem_splitPoint _
  have hnone : '.' ∉ (trim id).toList := by
    rw [trim, String.toList_ofList]
    exact fun hmem => hpoint (Text.mem_of_mem_trimChars hmem)
  rw [splitPoint_of_not_mem hnone, String.ofList_toList] at h
  exact ⟨h ▸ Text.bare_trim id, hpoint⟩

theorem toList_trim_output (id output : String) : (trim (id ++ "." ++ output)).toList =
    id.toList.dropWhile isBlank ++ '.' :: output.toList.rdropWhile isBlank := by
  have hchars : (id ++ "." ++ output).toList = id.toList ++ '.' :: output.toList := by simp
  rw [trim, String.toList_ofList, hchars, Text.trimChars_append_point]

theorem Leads.splitPoint {id : String} (h : Leads id) (output : String) :
    splitPoint (trim (id ++ "." ++ output)).toList = (id, trimEnd output) := by
  have hstays : id.toList.dropWhile isBlank = id.toList := by
    cases hid : id.toList with
    | nil => rfl
    | cons c cs => exact List.dropWhile_cons_of_neg (by simp [h.front c (by rw [hid]; rfl)])
  rw [toList_trim_output, hstays, splitPoint_append h.point, String.ofList_toList, trimEnd]

theorem leads_of_splitPoint {id output : String} (h : (splitPoint (trim (id ++ "." ++ output)).toList).1 = id) :
    Leads id := by
  have hpoint : '.' ∉ id.toList := h ▸ point_not_mem_splitPoint _
  have hnone : '.' ∉ id.toList.dropWhile isBlank := fun hmem => hpoint ((List.dropWhile_suffix isBlank).subset hmem)
  rw [toList_trim_output, splitPoint_append hnone, ← String.toList_inj, String.toList_ofList] at h
  refine ⟨fun c hc => ?_, hpoint⟩
  have hhead := List.head?_dropWhile_not isBlank id.toList
  rw [h, Option.mem_def.mp hc] at hhead
  exact hhead

/-! ## Looking an id up -/

section Lookup

variable {s : Selection} {i : Indicator} {place raw : String}

theorem readOperand_number {x : Float} (h : Number.readReal? (trim raw) = some x) :
    readOperand s place (.text raw) = .ok (.number x) := by
  rw [readOperand, readText]
  dsimp only
  rw [h]

/-- A text that starts with the id of a selected indicator and goes on with a point is read as the output after it. -/
theorem readOperand_of_split (hi : i ∈ s.indicators) (hnumber : Number.readReal? (trim raw) = none) {output : String}
    (hsplit : splitPoint (trim raw).toList = (i.id, output)) {r : ValueRef} (hr : i.ref (.text output) = .ok r) :
    readOperand s place (.text raw) = .ok (.ref r) := by
  have hcontains : s.contains i.id = true := List.any_eq_true.mpr ⟨i, hi, beq_self_eq_true i.id⟩
  rw [readOperand, readText]
  dsimp only
  rw [hnumber, hsplit]
  dsimp only
  rw [if_pos hcontains, readIndicator, Selection.get?_of_mem hi]
  dsimp only
  rw [hr]
  rfl

/-- Whoever has another id is not removed. -/
theorem kept_of_ne {id other : String} (h : other ≠ id) :
    (fun j : Indicator => j.id != id && j.id == other) = fun j => j.id == other := by
  funext j
  by_cases hj : j.id = other <;> simp [hj, h]

theorem contains_remove {id other : String} (h : other ≠ id) : (s.remove id).contains other = s.contains other := by
  rw [Selection.contains, Selection.remove, List.any_filter, kept_of_ne h, Selection.contains]

theorem get?_remove {id other : String} (h : other ≠ id) : (s.remove id).get? other = s.get? other := by
  rw [Selection.get?, Selection.remove, List.find?_filter]
  simp only [Bool.decide_and, Bool.decide_eq_true]
  rw [kept_of_ne h, Selection.get?]

/-- Any other text is read as though the indicator was not selected. -/
theorem readOperand_remove {id : String} (h : (splitPoint (trim raw).toList).1 ≠ id) :
    readOperand s place (.text raw) = readOperand (s.remove id) place (.text raw) := by
  rw [readOperand, readOperand, readText, readText]
  dsimp only
  rw [contains_remove h, readIndicator, readIndicator, get?_remove h]

/-- Whether a reference can be made does not depend on the output. -/
theorem ref_exists {r : ValueRef} (hr : i.ref .null = .ok r) (output : Document) : ∃ q, i.ref output = .ok q := by
  obtain ⟨window, hwindow, haccepts, -⟩ := ValueRef.make_eq_ok.mp hr
  exact ⟨_, ValueRef.make_eq_ok.mpr ⟨window, hwindow, haccepts, rfl⟩⟩

/-- **The short forms of an indicator.** They reach it if its id stands where the text is cut and the text is no number.
If the id does not stand there, the text is read as though the indicator was not selected. -/
theorem readOperand_shortForms (hi : i ∈ s.indicators) (href : ∃ r, i.ref .null = .ok r) (place : String) :
    (∀ raw x, Number.readReal? (trim raw) = some x → readOperand s place (.text raw) = .ok (.number x)) ∧
      (Number.readReal? (trim i.id) = none → Stands i.id →
        ∃ r, i.ref .null = .ok r ∧ readOperand s place (.text i.id) = .ok (.ref r)) ∧
      (¬ Stands i.id → readOperand s place (.text i.id) = readOperand (s.remove i.id) place (.text i.id)) ∧
      ∀ o ∈ i.outputKeys,
        (Number.readReal? (trim (i.id ++ "." ++ o)) = none → Leads i.id →
          ∃ r, i.ref (.text (trimEnd o)) = .ok r ∧
            readOperand s place (.text (i.id ++ "." ++ o)) = .ok (.ref r)) ∧
        (¬ Leads i.id → readOperand s place (.text (i.id ++ "." ++ o)) =
          readOperand (s.remove i.id) place (.text (i.id ++ "." ++ o))) ∧
        ((∀ c ∈ o.toList.getLast?, isBlank c = false) → trimEnd o = o) := by
  obtain ⟨r, hr⟩ := href
  refine ⟨fun raw x => readOperand_number, ?_, ?_, fun o _ => ⟨?_, ?_, Text.trimEnd_eq_self⟩⟩
  · intro hnumber hstands
    -- an empty output stands for the default one
    have hdefault : i.ref (.text "") = .ok r := hr
    exact ⟨r, hr, readOperand_of_split hi hnumber hstands.splitPoint hdefault⟩
  · exact fun hnot => readOperand_remove fun heq => hnot (stands_of_splitPoint heq)
  · intro hnumber hleads
    obtain ⟨q, hq⟩ := ref_exists hr (.text (trimEnd o))
    exact ⟨q, hq, readOperand_of_split hi hnumber (hleads.splitPoint o) hq⟩
  · exact fun hnot => readOperand_remove fun heq => hnot (leads_of_splitPoint heq)

end Lookup

def plain (id code : String) (output : Output) (otherOutputs : List Output) : Indicator where
  id
  code
  timeframe := ""
  input := ""
  params := []
  output
  otherOutputs
  offset := (0, 0)
  calcMode := ValueRef.defaultCalcMode

/-- A number for an id, an id with a point, one with blanks around it, and one that stands as it is. -/
def oddlyNamed : Selection :=
  ⟨[plain "30" "RSI" ⟨"Value", "Value"⟩ [], plain "ma.fast" "MA" ⟨"Value", "Value"⟩ [],
    plain " rsi " "RSI" ⟨"Value", "Value"⟩ [], plain "cross" "MACD" ⟨"Line", ""⟩ [⟨"Signal", ""⟩]], by decide⟩

def oddlyNamedDocument : Document := .list [
  .record [("id", .text "30"), ("code", .text "RSI")],
  .record [("id", .text "ma.fast"), ("code", .text "MA")],
  .record [("id", .text " rsi "), ("code", .text "RSI")],
  .record [("id", .text "cross"), ("code", .text "MACD"), ("outputs", .list [.text "Line", .text "Signal"])]]

theorem ofDocument_oddlyNamed : Selection.ofDocument oddlyNamedDocument = .ok oddlyNamed := rfl

theorem readOperand_shortForms_cross : ∃ i ∈ oddlyNamed.indicators, i.id = "cross" ∧ "Signal" ∈ i.outputKeys ∧
    (∃ r, i.ref .null = .ok r ∧ readOperand oddlyNamed "operand" (.text "cross") = .ok (.ref r)) ∧
    ∃ r, i.ref (.text "Signal") = .ok r ∧ readOperand oddlyNamed "operand" (.text "cross.Signal") = .ok (.ref r) := by
  have hi : plain "cross" "MACD" ⟨"Line", ""⟩ [⟨"Signal", ""⟩] ∈ oddlyNamed.indicators := by decide
  obtain ⟨-, hbare, -, houtputs⟩ := readOperand_shortForms hi ⟨_, rfl⟩ "operand"
  have hsignal : "Signal" ∈ (plain "cross" "MACD" ⟨"Line", ""⟩ [⟨"Signal", ""⟩]).outputKeys := by decide
  obtain ⟨hreached, -, hend⟩ := houtputs "Signal" hsignal
  have hleads : Leads "cross" := ⟨by simp [isBlank], by decide⟩
  have hstands : Stands "cross" := ⟨⟨hleads.front, by simp [isBlank]⟩, hleads.point⟩
  refine ⟨_, hi, rfl, hsignal, hbare rfl hstands, ?_⟩
  rw [← hend (by simp [isBlank])]
  exact hreached rfl hleads

/-- The other three are not reached by their ids. -/
theorem not_reached_oddlyNamed : Selection.ofDocument oddlyNamedDocument = .ok oddlyNamed ∧
    ∀ id ∈ ["30", "ma.fast", " rsi "], ∃ i ∈ oddlyNamed.indicators, i.id = id ∧
      ∃ r, i.ref .null = .ok r ∧ readOperand oddlyNamed "operand" (.text id) ≠ .ok (.ref r) := by
  refine ⟨ofDocument_oddlyNamed, List.forall_mem_cons.mpr ⟨?_, List.forall_mem_cons.mpr ⟨?_,
    List.forall_mem_singleton.mpr ?_⟩⟩⟩
  · refine ⟨plain "30" "RSI" ⟨"Value", "Value"⟩ [], by decide, rfl, _, rfl, ?_⟩
    obtain ⟨x, hx⟩ : ∃ x, Number.readReal? (trim "30") = some x := ⟨_, rfl⟩
    have hread : readOperand oddlyNamed "operand" (.text "30") = .ok (.number x) := readOperand_number hx
    rw [hread]
    exact nofun
  · refine ⟨plain "ma.fast" "MA" ⟨"Value", "Value"⟩ [], by decide, rfl, _, rfl, ?_⟩
    exact nofun
  · refine ⟨plain " rsi " "RSI" ⟨"Value", "Value"⟩ [], by decide, rfl, _, rfl, ?_⟩
    exact nofun

end Draft

end Stratagem
