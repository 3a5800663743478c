import Mathlib
import Stratagem.Proofs.Number.Text
import Stratagem.Proofs.Sequencing
import Stratagem.Proofs.Text
import Stratagem.Selection

/-!
# Spellings of a timeframe

A label is a count and a unit, in either order, with letters of either case and blanks wherever one likes.
Reading a label undoes all of this: the blanks go, the letters become small and the count comes first, so that all
spellings have one normal form. References are known by that form, and a reference whose timeframe is spelled
otherwise is the same one, for its keys and for every selection.
-/

namespace Stratagem

namespace Timeframe

open Text

/-! ## Spellings -/

/-- Letters change their case, and white space of ASCII is put in. -/
inductive Respelled : List Char → List Char → Prop
  | nil : Respelled [] []
  | char {c d : Char} {cs ds : List Char} : c.toLower = d.toLower → Respelled cs ds → Respelled (c :: cs) (d :: ds)
  | blank {c : Char} {cs ds : List Char} : c.toNat < 0x80 → isBlank c = true → Respelled cs ds →
      Respelled cs (c :: ds)

/-- The label says the count and the unit, in either order. -/
def Spells (count unit label : String) : Prop :=
  Respelled (count ++ unit).toList label.toList ∨ Respelled (unit ++ count).toList label.toList

/-! ## Characters -/

theorem ascii_of_isAlpha {c : Char} (h : c.isAlpha = true) : c.toNat < 0x80 := by
  simp only [Char.isAlpha, Char.isUpper, Char.isLower, Bool.or_eq_true, Bool.and_eq_true, decide_eq_true_eq,
    UInt32.le_iff_toNat_le, ge_iff_le] at h
  change (65 ≤ c.toNat ∧ c.toNat ≤ 90) ∨ (97 ≤ c.toNat ∧ c.toNat ≤ 122) at h
  omega

theorem ascii_of_isDigit {c : Char} (h : c.isDigit = true) : c.toNat < 0x80 := by
  have hbounds := Number.toNat_of_isDigit h
  omega

/-- Only capitals change, and they are ASCII before and after. -/
theorem ascii_toLower {c : Char} : c.toLower.toNat < 0x80 ↔ c.toNat < 0x80 := by
  by_cases h : c.toNat < 0x80
  · exact iff_of_true (forall_ascii (p := fun c => c.toLower.toNat < 0x80) (by decide +kernel) h) h
  · have hsame : c.toLower = c := by
      rw [Char.toLower, dif_neg]
      rintro ⟨-, hle⟩
      have : c.toNat ≤ 90 := hle
      omega
    rw [hsame]

theorem isBlank_toLower {c : Char} (h : c.toNat < 0x80) : isBlank c.toLower = isBlank c :=
  forall_ascii (p := fun c => isBlank c.toLower = isBlank c) (by decide +kernel) h

theorem toLower_toLower {c : Char} (h : c.toNat < 0x80) : c.toLower.toLower = c.toLower :=
  forall_ascii (p := fun c => c.toLower.toLower = c.toLower) (by decide +kernel) h

theorem of_isAlpha {c : Char} (h : c.isAlpha = true) : isBlank c = false ∧ isUnitLetter c.toLower = true :=
  forall_ascii (p := fun c => c.isAlpha = true → isBlank c = false ∧ isUnitLetter c.toLower = true)
    (by decide +kernel) (ascii_of_isAlpha h) h

theorem of_isDigit {c : Char} (h : c.isDigit = true) :
    isBlank c = false ∧ c.toLower = c ∧ isUnitLetter c = false :=
  forall_ascii (p := fun c => c.isDigit = true → isBlank c = false ∧ c.toLower = c ∧ isUnitLetter c = false)
    (by decide +kernel) (ascii_of_isDigit h) h

/-! ## Blanks and case -/

/-- Of the small letters of a label without its blanks nothing depends on the spelling. -/
theorem Respelled.folded {cs ds : List Char} (h : Respelled cs ds)
    (hcs : ∀ c ∈ cs, c.toNat < 0x80 ∧ isBlank c = false) :
    (∀ d ∈ ds, d.toNat < 0x80) ∧ (ds.filter fun d => !isBlank d).map Char.toLower = cs.map Char.toLower := by
  induction h with
  | nil => exact ⟨nofun, rfl⟩
  | @char c d cs ds hcd _ ih =>
      obtain ⟨⟨hc, hblank⟩, hcs⟩ := List.forall_mem_cons.mp hcs
      obtain ⟨hds, hfold⟩ := ih hcs
      have hd : d.toNat < 0x80 := by
        rw [← ascii_toLower, ← hcd]
        exact ascii_toLower.mpr hc
      have hvisible : isBlank d = false := by
        rw [← isBlank_toLower hd, ← hcd, isBlank_toLower hc, hblank]
      refine ⟨List.forall_mem_cons.mpr ⟨hd, hds⟩, ?_⟩
      rw [List.filter_cons_of_pos (by simpa using hvisible), List.map_cons, List.map_cons, hfold, hcd]
  | @blank c cs ds hc hblank _ ih =>
      obtain ⟨hds, hfold⟩ := ih hcs
      refine ⟨List.forall_mem_cons.mpr ⟨hc, hds⟩, ?_⟩
      rw [List.filter_cons_of_neg (by simpa using hblank), hfold]

theorem toList_lower {s : String} (h : ∀ c ∈ s.toList, c.toNat < 0x80) :
    (lower s).toList = s.toList.map Char.toLower := by
  rw [lower, String.toList_ofList, lowerChars_ascii h]

/-- Trimming does nothing that taking out the blanks does not do. -/
theorem toList_squeeze_lower_trim {label : String} (h : ∀ c ∈ label.toList, c.toNat < 0x80) :
    (squeeze (lower (trim label))).toList = (label.toList.filter fun c => !isBlank c).map Char.toLower := by
  have hkeep : ∀ cs : List Char, (∀ c ∈ cs, c.toNat < 0x80) →
      (cs.map Char.toLower).filter (fun c => !isBlank c) = (cs.filter fun c => !isBlank c).map Char.toLower := by
    intro cs hcs
    rw [List.filter_map]
    congr 1
    refine List.filter_congr fun c hc => ?_
    rw [Function.comp_apply, isBlank_toLower (hcs c hc)]
  have htrim : ∀ c ∈ (trim label).toList, c.toNat < 0x80 := by
    intro c hc
    rw [trim, String.toList_ofList] at hc
    exact h c (mem_of_mem_trimChars hc)
  rw [squeeze, String.toList_ofList, toList_lower htrim, hkeep _ htrim, trim, String.toList_ofList,
    filter_trimChars]

/-! ## The count first -/

section CountFirst

variable {count unit : List Char}

/-- A label that begins with its count stays. -/
theorem countFirst_count (hne : count ≠ []) (hcount : ∀ c ∈ count, isUnitLetter c = false) (unit : List Char) :
    countFirst (count ++ unit) = count ++ unit := by
  have hhead : ∀ c ∈ (count ++ unit).head?, isUnitLetter c = false := by
    intro c hc
    rw [List.head?_append_of_ne_nil _ hne] at hc
    exact hcount c (List.mem_of_mem_head? hc)
  have hnone : ([] ++ (count ++ unit)).takeWhile isUnitLetter = [] := (Number.run_append nofun hhead).1
  rw [List.nil_append] at hnone
  rw [countFirst, hnone]
  rfl

/-- A label that begins with its unit is turned round. -/
theorem countFirst_unit (hne : count ≠ []) (hunit : ∀ c ∈ unit, isUnitLetter c = true)
    (hcount : ∀ c ∈ count, isUnitLetter c = false ∧ isDecimalDigit c = true) :
    countFirst (unit ++ count) = count ++ unit := by
  obtain ⟨htake, hdrop⟩ := Number.run_append hunit fun c hc => (hcount c (List.mem_of_mem_head? hc)).1
  have hdigits : count.all isDecimalDigit = true := List.all_eq_true.mpr fun c hc => (hcount c hc).2
  have hfilled : count.isEmpty = false := by simpa using hne
  rw [countFirst, htake, hdrop, hdigits, hfilled]
  cases unit with
  | nil => exact (List.append_nil count).symm
  | cons u unit => rfl

end CountFirst

/-! ## Normal forms -/

/-- A count of digits, at least one, and a unit of letters. -/
structure Proper (count unit : String) : Prop where
  ne_empty : count ≠ ""
  digits : ∀ c ∈ count.toList, c.isDigit = true
  letters : ∀ c ∈ unit.toList, c.isAlpha = true

namespace Proper

variable {count unit label : String}

theorem visible (h : Proper count unit) :
    (∀ c ∈ (count ++ unit).toList, c.toNat < 0x80 ∧ isBlank c = false) ∧
      ∀ c ∈ (unit ++ count).toList, c.toNat < 0x80 ∧ isBlank c = false := by
  have hcount : ∀ c ∈ count.toList, c.toNat < 0x80 ∧ isBlank c = false := fun c hc =>
    ⟨ascii_of_isDigit (h.digits c hc), (of_isDigit (h.digits c hc)).1⟩
  have hunit : ∀ c ∈ unit.toList, c.toNat < 0x80 ∧ isBlank c = false := fun c hc =>
    ⟨ascii_of_isAlpha (h.letters c hc), (of_isAlpha (h.letters c hc)).1⟩
  rw [String.toList_append, String.toList_append, List.forall_mem_append, List.forall_mem_append]
  exact ⟨⟨hcount, hunit⟩, hunit, hcount⟩

theorem toList_count (h : Proper count unit) : count.toList.map Char.toLower = count.toList :=
  (List.map_congr_left fun c hc => (of_isDigit (h.digits c hc)).2.1).trans (List.map_id _)

theorem toList_lower (h : Proper count unit) :
    (lower (count ++ unit)).toList = count.toList ++ unit.toList.map Char.toLower := by
  rw [Timeframe.toList_lower fun c hc => (h.visible.1 c hc).1, String.toList_append, List.map_append,
    h.toList_count]

/-- All spellings have one normal form: the count, then the unit in small letters. -/
theorem normalize_of_spells (h : Proper count unit) (hlabel : Spells count unit label) :
    normalize label = lower (count ++ unit) := by
  have hcount : ∀ c ∈ count.toList, isUnitLetter c = false ∧ isDecimalDigit c = true := fun c hc =>
    ⟨(of_isDigit (h.digits c hc)).2.2, Number.isDecimalDigit_of_isDigit (h.digits c hc)⟩
  have hunit : ∀ c ∈ unit.toList.map Char.toLower, isUnitLetter c = true := by
    rw [List.forall_mem_map]
    exact fun c hc => (of_isAlpha (h.letters c hc)).2
  have hne : count.toList ≠ [] := fun hnil => h.ne_empty (String.toList_eq_nil_iff.mp hnil)
  have hcountFirst : countFirst (squeeze (lower (trim label))).toList =
      count.toList ++ unit.toList.map Char.toLower := by
    rcases hlabel with hlabel | hlabel
    · obtain ⟨hascii, hfolded⟩ := hlabel.folded h.visible.1
      rw [toList_squeeze_lower_trim hascii, hfolded, String.toList_append, List.map_append, h.toList_count]
      exact countFirst_count hne (fun c hc => (hcount c hc).1) _
    · obtain ⟨hascii, hfolded⟩ := hlabel.folded h.visible.2
      rw [toList_squeeze_lower_trim hascii, hfolded, String.toList_append, List.map_append, h.toList_count]
      exact countFirst_unit hne hunit hcount
  rw [normalize, hcountFirst, ← h.toList_lower, String.ofList_toList]

/-- The normal form is a spelling. -/
theorem spells_lower (h : Proper count unit) : Spells count unit (lower (count ++ unit)) := by
  have hsmall : ∀ cs : List Char, (∀ c ∈ cs, c.toNat < 0x80) → Respelled cs (cs.map Char.toLower) := by
    intro cs hcs
    induction cs with
    | nil => exact .nil
    | cons c cs ih =>
        obtain ⟨hc, hcs⟩ := List.forall_mem_cons.mp hcs
        exact .char (toLower_toLower hc).symm (ih hcs)
  have hascii : ∀ c ∈ (count ++ unit).toList, c.toNat < 0x80 := fun c hc => (h.visible.1 c hc).1
  left
  rw [Timeframe.toList_lower hascii]
  exact hsmall _ hascii

end Proper

end Timeframe

/-! ## References -/

namespace ValueRef

variable {t t' : String}

theorem indicatorKey_timeframe (r : ValueRef) (h : Timeframe.normalize t = Timeframe.normalize t') :
    { r with timeframe := t }.indicatorKey = { r with timeframe := t' }.indicatorKey := by
  rw [indicatorKey, indicatorKey, h]
  rfl

theorem seriesKey_timeframe (r : ValueRef) (h : Timeframe.normalize t = Timeframe.normalize t') :
    { r with timeframe := t }.seriesKey = { r with timeframe := t' }.seriesKey := by
  unfold seriesKey
  dsimp only
  rw [h]
  rfl

end ValueRef

theorem Selection.resolve_timeframe (s : Selection) (r : ValueRef) {t t' : String}
    (h : Timeframe.normalize t = Timeframe.normalize t') :
    s.resolve { r with timeframe := t } = s.resolve { r with timeframe := t' } := by
  have hkey := r.indicatorKey_timeframe h
  have hfind : s.find { r with timeframe := t } = s.find { r with timeframe := t' } := by
    unfold find
    rw [hkey]
    rfl
  unfold resolve
  rw [hkey, hfind]

namespace Timeframe

/-- **The spelling of a timeframe is immaterial.** Every label that says the count and the unit, in either order and
case and with blanks anywhere, has the count and the small unit for its normal form, and that is its own normal
form. References that differ in such labels have the same keys and resolve alike in every selection. -/
theorem normalize_spelling {count unit : String} (h : Proper count unit) :
    (∀ label, Spells count unit label → normalize label = Text.lower (count ++ unit)) ∧
    normalize (Text.lower (count ++ unit)) = Text.lower (count ++ unit) ∧
    ∀ (r : ValueRef) (t t' : String), Spells count unit t → Spells count unit t' →
      { r with timeframe := t }.indicatorKey = { r with timeframe := t' }.indicatorKey ∧
      { r with timeframe := t }.seriesKey = { r with timeframe := t' }.seriesKey ∧
      ∀ s : Selection, s.resolve { r with timeframe := t } = s.resolve { r with timeframe := t' } := by
  refine ⟨fun label hlabel => h.normalize_of_spells hlabel, h.normalize_of_spells h.spells_lower, ?_⟩
  intro r t t' ht ht'
  have hsame : normalize t = normalize t' := (h.normalize_of_spells ht).trans (h.normalize_of_spells ht').symm
  exact ⟨r.indicatorKey_timeframe hsame, r.seriesKey_timeframe hsame, fun s => s.resolve_timeframe r hsame⟩

def quarterly (timeframe : String) : ValueRef :=
  ⟨.indicator, "RSI", timeframe, "Close", [14], .text "Value", .current, "OnBarClose"⟩

theorem normalize_spelling_quarterly :
    let rsi : Indicator := ⟨"rsi", "RSI", "M15", "Close", [14], ⟨"Value", "Strength"⟩, [], (0, 0), "OnBarClose"⟩
    let s : Selection := ⟨[rsi], by decide⟩
    Proper "15" "M" ∧ Spells "15" "M" " m\t15" ∧ Spells "15" "M" "1 5M" ∧ normalize " m\t15" = "15m" ∧
      normalize "15m" = "15m" ∧ (quarterly " m\t15").indicatorKey = (quarterly "1 5M").indicatorKey ∧
      (quarterly " m\t15").seriesKey = (quarterly "1 5M").seriesKey ∧
      s.resolve (quarterly " m\t15") = .ok (.found (some rsi) (.text "Strength")) := by
  intro rsi s
  have hproper : Proper "15" "M" :=
    ⟨by decide, List.all_eq_true.mp (by decide), List.all_eq_true.mp (by decide)⟩
  have hunit : Spells "15" "M" " m\t15" := by
    right
    show Respelled ['M', '1', '5'] [' ', 'm', '\t', '1', '5']
    exact .blank (by decide) (by decide) (.char rfl (.blank (by decide) (by decide) (.char rfl (.char rfl .nil))))
  have hcount : Spells "15" "M" "1 5M" := by
    left
    show Respelled ['1', '5', 'M'] ['1', ' ', '5', 'M']
    exact .char rfl (.blank (by decide) (by decide) (.char rfl (.char rfl .nil)))
  obtain ⟨hnormalize, hfixed, halike⟩ := normalize_spelling hproper
  obtain ⟨hindicator, hseries, hresolve⟩ := halike (quarterly "") _ _ hunit hcount
  have hlower : Text.lower ("15" ++ "M") = "15m" := by decide +kernel
  rw [hlower] at hnormalize hfixed
  have hfound : s.resolve (quarterly "1 5M") = .ok (.found (some rsi) (.text "Strength")) :=
    eq_ok_of_toOption (by decide +kernel)
  exact ⟨hproper, hunit, hcount, hnormalize _ hunit, hfixed, hindicator, hseries, (hresolve s).trans hfound⟩

end Timeframe

end Stratagem
