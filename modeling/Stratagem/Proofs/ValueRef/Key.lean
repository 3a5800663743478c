import Stratagem.Proofs.ValueRef.Wire

/-!
# Keys of references

A key joins its parts with bars. The parameters are the last part and hold no bar, so references with the same
key have the same parameters, and what stands in front is the same text, wherever its own bars are. The
identity of a column is made of these two and the output, so it is the same as well.
-/

namespace Stratagem

namespace ValueRef

/-! ## Joined parts -/

/-- The last separator parts a list in two. -/
theorem append_cons_inj_of_not_mem {α : Type} {a : α} {xs ys xs' ys' : List α}
    (h : xs ++ a :: ys = xs' ++ a :: ys') (hys : a ∉ ys) (hys' : a ∉ ys') : xs = xs' ∧ ys = ys' := by
  rcases List.append_eq_append_iff.mp h with ⟨zs, hxs, hzs⟩ | ⟨zs, hxs, hzs⟩
  · cases zs with
    | nil =>
        rw [List.append_nil] at hxs
        cases hzs
        exact ⟨hxs.symm, rfl⟩
    | cons z zs =>
        cases hzs
        exact absurd (List.mem_append_right _ List.mem_cons_self) hys
  · cases zs with
    | nil =>
        rw [List.append_nil] at hxs
        cases hzs
        exact ⟨hxs, rfl⟩
    | cons z zs =>
        cases hzs
        exact absurd (List.mem_append_right _ List.mem_cons_self) hys'

/-- So does the first. -/
theorem cons_append_inj_of_not_mem {α : Type} {a : α} {xs ys xs' ys' : List α}
    (h : xs ++ a :: ys = xs' ++ a :: ys') (hxs : a ∉ xs) (hxs' : a ∉ xs') : xs = xs' ∧ ys = ys' := by
  have hreverse : ys.reverse ++ a :: xs.reverse = ys'.reverse ++ a :: xs'.reverse := by
    simpa using congrArg List.reverse h
  obtain ⟨hys, hxs⟩ := append_cons_inj_of_not_mem hreverse (by simpa using hxs) (by simpa using hxs')
  exact ⟨List.reverse_injective hxs, List.reverse_injective hys⟩

/-! ## Parameters -/

theorem unsignedZero_congr {x y : Float} (h : Number.Same x y) : unsignedZero x = unsignedZero y := by
  rcases h.eq_or_zero with rfl | ⟨hx, hy⟩
  · rfl
  · rw [unsignedZero, unsignedZero, if_pos hx, if_pos hy]

theorem unsignedZero_of_briefText {x y : Float} (h : Number.briefText x = Number.briefText y) :
    unsignedZero x = unsignedZero y := by
  obtain ⟨z, hz, hx⟩ := Number.readReal?_briefText x
  obtain ⟨w, hw, hy⟩ := Number.readReal?_briefText y
  rw [h, hw] at hz
  cases hz
  rw [← unsignedZero_congr hx, unsignedZero_congr hy]

/-- A text has no sign for zero. -/
theorem briefText_unsignedZero (x : Float) : Number.briefText (unsignedZero x) = Number.briefText x := by
  by_cases hx : (x == 0) = true
  · obtain ⟨s, hs⟩ := Number.unpack_of_beq_zero hx
    have hzero : unsignedZero x = 0 := if_pos hx
    have htext : Number.briefText 0 = "0" := rfl
    rw [hzero, htext, Number.briefText, Number.integral?_of_unpack_zero hs]
    rfl
  · have hself : unsignedZero x = x := if_neg hx
    rw [hself]

theorem paramsText_unsignedZero (params : List Float) :
    paramsText (params.map unsignedZero) = paramsText params := by
  rw [paramsText, paramsText, List.map_map]
  exact congrArg _ (List.map_congr_left fun x _ => briefText_unsignedZero x)

def paramChars (params : List Float) : List (List Char) :=
  params.map fun x => (Number.briefText x).toList

theorem toList_paramsText (params : List Float) :
    (paramsText params).toList = [','].intercalate (paramChars params) := by
  rw [paramsText, String.toList_intercalate, List.map_map]
  rfl

theorem comma_not_mem (params : List Float) : ∀ cs ∈ paramChars params, ',' ∉ cs := by
  intro cs hcs hmem
  obtain ⟨x, -, rfl⟩ := List.mem_map.mp hcs
  cases Number.isWritten_briefText x ',' hmem

theorem bar_not_mem (params : List Float) : '|' ∉ (paramsText params).toList := by
  rw [toList_paramsText]
  induction params with
  | nil => exact List.not_mem_nil
  | cons x xs ih =>
      have hx : '|' ∉ (Number.briefText x).toList := fun hmem => by
        cases Number.isWritten_briefText x '|' hmem
      cases xs with
      | nil =>
          rw [paramChars, List.map_singleton, List.intercalate_singleton]
          exact hx
      | cons y ys =>
          rw [paramChars, List.map_cons, List.map_cons, List.intercalate_cons_cons]
          simp only [List.mem_append, not_or]
          exact ⟨⟨hx, by decide⟩, ih⟩

theorem paramChars_inj {xs ys : List Float} (h : paramChars xs = paramChars ys) :
    xs.map unsignedZero = ys.map unsignedZero := by
  induction xs generalizing ys with
  | nil =>
      rw [List.map_eq_nil_iff.mp h.symm]
  | cons x xs ih =>
      cases ys with
      | nil => cases h
      | cons y ys =>
          obtain ⟨hxy, hrest⟩ := List.cons.inj h
          rw [List.map_cons, List.map_cons, unsignedZero_of_briefText (String.toList_inj.mp hxy), ih hrest]

/-- A text without characters is that of no parameters, since every number has some. -/
theorem eq_nil_of_paramChars {xs : List Float} (h : [','].intercalate (paramChars xs) = []) : xs = [] := by
  cases xs with
  | nil => rfl
  | cons x xs =>
      have hnil : (Number.briefText x).toList = [] := by
        cases xs with
        | nil => rwa [paramChars, List.map_singleton, List.intercalate_singleton] at h
        | cons y ys =>
            rw [paramChars, List.map_cons, List.map_cons, List.intercalate_cons_cons, List.append_assoc,
              List.append_eq_nil_iff] at h
            exact h.1
      have hempty := isEmpty_briefText x
      rw [String.toList_eq_nil_iff.mp hnil] at hempty
      cases hempty

/-- Parameters with the same text are the same, up to the sign of zeros. -/
theorem params_of_paramsText {xs ys : List Float} (h : paramsText xs = paramsText ys) :
    xs.map unsignedZero = ys.map unsignedZero := by
  have hchars : [','].intercalate (paramChars xs) = [','].intercalate (paramChars ys) := by
    rw [← toList_paramsText, ← toList_paramsText, h]
  by_cases hxs : xs = []
  · rw [hxs] at hchars ⊢
    rw [eq_nil_of_paramChars hchars.symm]
  · have hys : ys ≠ [] := by
      rintro rfl
      exact hxs (eq_nil_of_paramChars hchars)
    -- no number has a comma in its text, so the texts come apart at the commas
    apply paramChars_inj
    have hsplit := congrArg (List.splitOn ',') hchars
    rwa [List.splitOn_intercalate ',' (comma_not_mem xs) (by simpa [paramChars] using hxs),
      List.splitOn_intercalate ',' (comma_not_mem ys) (by simpa [paramChars] using hys)] at hsplit

/-! ## Keys -/

/-- What stands in front of the parameters. -/
def column (r : ValueRef) : String :=
  "|".intercalate [r.indicator, Timeframe.normalize r.timeframe, r.input]

theorem indicatorKey_eq (r : ValueRef) : r.indicatorKey = r.column ++ "|" ++ r.paramsKey := rfl

/-- A key has two parts that it is made of. -/
theorem indicatorKey_inj {r q : ValueRef} (h : r.indicatorKey = q.indicatorKey) :
    r.column = q.column ∧ r.paramsKey = q.paramsKey := by
  have hchars : r.column.toList ++ '|' :: r.paramsKey.toList = q.column.toList ++ '|' :: q.paramsKey.toList := by
    have hlist := congrArg String.toList h
    rwa [indicatorKey_eq, indicatorKey_eq, String.toList_append, String.toList_append, String.toList_append,
      String.toList_append, List.append_assoc, List.append_assoc] at hlist
  obtain ⟨hcolumn, hparams⟩ := append_cons_inj_of_not_mem hchars (bar_not_mem r.params) (bar_not_mem q.params)
  exact ⟨String.toList_inj.mp hcolumn, String.toList_inj.mp hparams⟩

theorem seriesKey_indicator {r : ValueRef} (h : r.kind = .indicator) :
    r.seriesKey = do return r.column ++ "|" ++ (← r.outputText) ++ "|" ++ r.paramsKey := by
  rw [seriesKey, h]
  rfl

/-- Outputs of the same name of indicators with the same key are the same column. -/
theorem seriesKey_of_indicatorKey {r q : ValueRef} (hr : r.kind = .indicator) (hq : q.kind = .indicator)
    (hkey : r.indicatorKey = q.indicatorKey) (hout : r.output = q.output) : r.seriesKey = q.seriesKey := by
  obtain ⟨hcolumn, hparams⟩ := indicatorKey_inj hkey
  rw [seriesKey_indicator hr, seriesKey_indicator hq, hcolumn, hparams, outputText, outputText, hout]

end ValueRef

end Stratagem
