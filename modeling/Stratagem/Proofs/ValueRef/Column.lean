import Stratagem.Proofs.Draft.Answers
import Stratagem.Proofs.Number.Order
import Stratagem.Evaluate

/-!
# Columns and their keys

The key of a column joins its parts with bars. A literal holds none, and what stands behind the last bar of an indicator
is its parameters. So keys tell columns apart as far as the parts in front of the output hold no bar themselves.
-/

namespace Stratagem

/-! ## The bar is no part of a number -/

namespace Number

open Text (isDecimalDigit)

theorem mem_dropWhile {α : Type} {p : α → Bool} {a : α} (ha : p a = false) {xs : List α} (h : a ∈ xs) :
    a ∈ xs.dropWhile p := by
  rw [← List.takeWhile_append_dropWhile (p := p) (l := xs)] at h
  rcases List.mem_append.mp h with h | h
  · rw [List.mem_takeWhile_imp h] at ha
    cases ha
  · exact h

variable {cs : List Char}

theorem bar_mem_trimNumber (h : '|' ∈ cs) : '|' ∈ trimNumber cs := by
  have hblank : isNumberBlank '|' = false := rfl
  exact List.mem_reverse.mpr (mem_dropWhile hblank (List.mem_reverse.mpr (mem_dropWhile hblank h)))

theorem bar_mem_dropSeparators (h : '|' ∈ cs) (after : Bool) : '|' ∈ dropSeparators after cs := by
  induction cs generalizing after with
  | nil => cases h
  | cons c cs ih =>
      rw [dropSeparators]
      rcases List.mem_cons.mp h with rfl | h
      · have hother : ('|' == '_') = false := rfl
        rw [hother, Bool.false_and, Bool.false_and, if_neg Bool.false_ne_true]
        exact List.mem_cons_self
      · split
        · exact ih h _
        · exact List.mem_cons_of_mem _ (ih h _)

theorem bar_mem_splitSign (h : '|' ∈ cs) : '|' ∈ (splitSign cs).2 := by
  unfold splitSign
  split
  · exact (List.mem_cons.mp h).resolve_left (by decide)
  · exact (List.mem_cons.mp h).resolve_left (by decide)
  · exact h

theorem readExponent?_of_bar (h : '|' ∈ cs) : readExponent? cs = none := by
  cases cs with
  | nil => cases h
  | cons c cs =>
      rw [readExponent?]
      split
      · rename_i hletter
        have hcs : '|' ∈ cs := (List.mem_cons.mp h).resolve_left (by rintro rfl; cases hletter)
        have hall : (splitSign cs).2.all isDecimalDigit = false :=
          List.all_eq_false.mpr ⟨'|', bar_mem_splitSign hcs, by decide⟩
        simp [hall]
      · rfl

theorem readDecimal?_of_bar (h : '|' ∈ cs) : readDecimal? cs = none := by
  have hdigit : isDecimalDigit '|' = false := rfl
  have hrest : '|' ∈ cs.dropWhile isDecimalDigit := mem_dropWhile hdigit h
  rw [readDecimal?, List.span_eq_takeWhile_dropWhile]
  dsimp only
  split
  · rename_i rest hpoint
    rw [hpoint] at hrest
    have hbar : '|' ∈ (rest.span isDecimalDigit).2 := by
      rw [List.span_eq_takeWhile_dropWhile]
      exact mem_dropWhile hdigit ((List.mem_cons.mp hrest).resolve_left (by decide))
    rw [readExponent?_of_bar hbar]
    split <;> rfl
  · rw [readExponent?_of_bar hrest]
    split <;> rfl

theorem readUnsigned?_of_bar (h : '|' ∈ cs) : readUnsigned? cs = none := by
  have hname : ∀ name : String, '|' ∉ name.toList → (String.ofList (cs.map Char.toLower) == name) = false := by
    rintro name hbar
    refine beq_eq_false_iff_ne.mpr ?_
    rintro rfl
    rw [String.toList_ofList] at hbar
    exact hbar (List.mem_map.mpr ⟨'|', h, rfl⟩)
  rw [readUnsigned?, hname "inf" (by decide), hname "infinity" (by decide), hname "nan" (by decide),
    readDecimal?_of_bar h]
  rfl

theorem bar_not_mem_of_readReal? {text : String} (h : (readReal? text).isSome = true) : '|' ∉ text.toList := by
  intro hbar
  have hunsigned := readUnsigned?_of_bar (bar_mem_splitSign (bar_mem_dropSeparators (bar_mem_trimNumber hbar) false))
  rw [readReal?] at h
  dsimp only at h
  rw [hunsigned] at h
  cases h

end Number

namespace ValueRef

/-! ## Columns -/

/-- Two references address one column. Literals are told apart by their texts, and parameters by their values. -/
def SameColumn (r q : ValueRef) : Prop :=
  r.kind = q.kind ∧ match r.kind with
    | .literal => r.input = q.input
    | .field => Timeframe.normalize r.timeframe = Timeframe.normalize q.timeframe ∧ r.input = q.input
    | .indicator => r.indicator = q.indicator ∧ Timeframe.normalize r.timeframe = Timeframe.normalize q.timeframe ∧
        r.input = q.input ∧ r.output = q.output ∧ List.Forall₂ (fun x y => (x == y) = true) r.params q.params

instance (r q : ValueRef) : Decidable (r.SameColumn q) :=
  match hr : r.kind with
  | .literal => decidable_of_iff (r.kind = q.kind ∧ r.input = q.input) (by rw [SameColumn, hr])
  | .field => decidable_of_iff (r.kind = q.kind ∧
      Timeframe.normalize r.timeframe = Timeframe.normalize q.timeframe ∧ r.input = q.input) (by rw [SameColumn, hr])
  | .indicator => decidable_of_iff (r.kind = q.kind ∧ r.indicator = q.indicator ∧
      Timeframe.normalize r.timeframe = Timeframe.normalize q.timeframe ∧ r.input = q.input ∧ r.output = q.output ∧
      List.Forall₂ (fun x y => (x == y) = true) r.params q.params) (by rw [SameColumn, hr])

/-- A reference as it is made, without a parameter that is no number. The output of an indicator is a text. -/
structure Proper (r : ValueRef) : Prop where
  admissible : r.Admissible
  names : r.kind = .indicator → r.NamesOutput
  params : ∀ x ∈ r.params, x.isNaN = false

/-- No bar in what stands in front of the output. -/
structure Barless (r : ValueRef) : Prop where
  code : r.kind = .indicator → '|' ∉ r.indicator.toList
  timeframe : '|' ∉ (Timeframe.normalize r.timeframe).toList
  input : '|' ∉ r.input.toList

variable {r q : ValueRef}

/-! ## Keys as lists of characters -/

theorem seriesKey_literal (h : r.kind = .literal) : r.seriesKey = .ok ("const|" ++ r.input) := by
  rw [seriesKey, h]

theorem seriesKey_output (h : r.kind = .indicator) {output : String} (houtput : r.output = .text output) :
    r.seriesKey = .ok (r.column ++ "|" ++ output ++ "|" ++ r.paramsKey) := by
  rw [seriesKey_indicator h, outputText, houtput]
  rfl

theorem column_chars (r : ValueRef) : r.column.toList =
    r.indicator.toList ++ '|' :: ((Timeframe.normalize r.timeframe).toList ++ '|' :: r.input.toList) := by
  have hcolumn : r.column = r.indicator ++ "|" ++ Timeframe.normalize r.timeframe ++ "|" ++ r.input := rfl
  rw [hcolumn]
  simp

theorem literal_chars (h : r.kind = .literal) {key : String} (hkey : r.seriesKey = .ok key) :
    key.toList = "const".toList ++ '|' :: r.input.toList := by
  rw [seriesKey_literal h, Except.ok.injEq] at hkey
  rw [← hkey, String.toList_append]
  rfl

theorem field_chars (h : r.kind = .field) {key : String} (hkey : r.seriesKey = .ok key) : key.toList =
    "field".toList ++ '|' :: ((Timeframe.normalize r.timeframe).toList ++ '|' :: r.input.toList) := by
  rw [seriesKey_field h, Except.ok.injEq] at hkey
  rw [← hkey]
  simp

theorem indicator_chars (h : r.kind = .indicator) {output key : String} (houtput : r.output = .text output)
    (hkey : r.seriesKey = .ok key) :
    key.toList = (r.column.toList ++ '|' :: output.toList) ++ '|' :: r.paramsKey.toList := by
  rw [seriesKey_output h houtput, Except.ok.injEq] at hkey
  rw [← hkey]
  simp

/-- The parts of an indicator's key from the front. -/
theorem indicator_chars_front (h : r.kind = .indicator) {output key : String} (houtput : r.output = .text output)
    (hkey : r.seriesKey = .ok key) : key.toList = r.indicator.toList ++ '|' ::
      ((Timeframe.normalize r.timeframe).toList ++ '|' ::
        (r.input.toList ++ '|' :: (output.toList ++ '|' :: r.paramsKey.toList))) := by
  rw [indicator_chars h houtput hkey, column_chars]
  simp

/-! ## Keys of different kinds -/

/-- The text of a literal is a number. -/
theorem Admissible.bar_not_mem_literal (h : r.Admissible) (hkind : r.kind = .literal) : '|' ∉ r.input.toList := by
  have haccepts := h.accepts
  rw [hkind] at haccepts
  exact Number.bar_not_mem_of_readReal? haccepts

theorem literal_ne_field (hr : r.kind = .literal) (hq : q.kind = .field) : r.seriesKey ≠ q.seriesKey := by
  intro hkeys
  have hkey := seriesKey_literal hr
  have hchars := (literal_chars hr hkey).symm.trans (field_chars hq (hkeys ▸ hkey))
  cases hchars

theorem literal_ne_indicator (hr : r.Proper) (hrkind : r.kind = .literal) (hq : q.Proper)
    (hqkind : q.kind = .indicator) : r.seriesKey ≠ q.seriesKey := by
  intro hkeys
  obtain ⟨output, houtput⟩ := hq.names hqkind
  have hkey := seriesKey_literal hrkind
  have hchars := (literal_chars hrkind hkey).symm.trans (indicator_chars hqkind houtput (hkeys ▸ hkey))
  -- what stands in front of the parameters has a bar
  obtain ⟨hfront, -⟩ :=
    append_cons_inj_of_not_mem hchars (hr.admissible.bar_not_mem_literal hrkind) (bar_not_mem q.params)
  have hbar : '|' ∈ "const".toList := hfront ▸ List.mem_append_right _ List.mem_cons_self
  exact absurd hbar (by decide)

theorem field_ne_indicator (hr : r.Barless) (hrkind : r.kind = .field) (hq : q.Proper) (hqbars : q.Barless)
    (hqkind : q.kind = .indicator) : r.seriesKey ≠ q.seriesKey := by
  intro hkeys
  obtain ⟨output, houtput⟩ := hq.names hqkind
  have hkey := seriesKey_field hrkind
  have hchars := (field_chars hrkind hkey).symm.trans (indicator_chars_front hqkind houtput (hkeys ▸ hkey))
  obtain ⟨-, hchars⟩ := cons_append_inj_of_not_mem hchars (by decide) (hqbars.code hqkind)
  obtain ⟨-, hinput⟩ := cons_append_inj_of_not_mem hchars hr.timeframe hqbars.timeframe
  exact hr.input (hinput ▸ List.mem_append_right _ List.mem_cons_self)

/-! ## Keys of one kind -/

theorem field_parts (hr : r.Barless) (hrkind : r.kind = .field) (hq : q.Barless) (hqkind : q.kind = .field)
    (hkeys : r.seriesKey = q.seriesKey) :
    Timeframe.normalize r.timeframe = Timeframe.normalize q.timeframe ∧ r.input = q.input := by
  have hkey := seriesKey_field hrkind
  have hchars := (field_chars hrkind hkey).symm.trans (field_chars hqkind (hkeys ▸ hkey))
  obtain ⟨-, hchars⟩ := cons_append_inj_of_not_mem hchars (by decide) (by decide)
  obtain ⟨htimeframe, hinput⟩ := cons_append_inj_of_not_mem hchars hr.timeframe hq.timeframe
  exact ⟨String.toList_inj.mp htimeframe, String.toList_inj.mp hinput⟩

/-- Parameters are the same by value if their texts are. -/
theorem paramsKey_eq_iff (hr : r.Proper) (hq : q.Proper) :
    r.paramsKey = q.paramsKey ↔ List.Forall₂ (fun x y => (x == y) = true) r.params q.params := by
  constructor
  · intro h
    have hparams := params_of_paramsText h
    rw [hr.admissible.params, hq.admissible.params] at hparams
    rw [← hparams, List.forall₂_same]
    exact fun x hx => Number.beq_self (hr.params x hx)
  · intro h
    have htexts : r.params.map Number.briefText = q.params.map Number.briefText := by
      refine List.forall₂_eq_eq_eq ▸ ?_
      rw [List.forall₂_map_left_iff, List.forall₂_map_right_iff]
      exact h.imp fun x y hxy => (Number.same_of_beq hxy).briefText
    rw [paramsKey, paramsKey, paramsText, paramsText, htexts]

theorem indicator_parts (hr : r.Proper) (hrbars : r.Barless) (hrkind : r.kind = .indicator) (hq : q.Proper)
    (hqbars : q.Barless) (hqkind : q.kind = .indicator) (hkeys : r.seriesKey = q.seriesKey) :
    r.indicator = q.indicator ∧ Timeframe.normalize r.timeframe = Timeframe.normalize q.timeframe ∧
      r.input = q.input ∧ r.output = q.output ∧ r.paramsKey = q.paramsKey := by
  obtain ⟨output, houtput⟩ := hr.names hrkind
  obtain ⟨output', houtput'⟩ := hq.names hqkind
  have hkey := seriesKey_output hrkind houtput
  have hchars := (indicator_chars_front hrkind houtput hkey).symm.trans
    (indicator_chars_front hqkind houtput' (hkeys ▸ hkey))
  -- the parts in front of the output come off at the front, and the parameters at the end
  obtain ⟨hcode, hchars⟩ := cons_append_inj_of_not_mem hchars (hrbars.code hrkind) (hqbars.code hqkind)
  obtain ⟨htimeframe, hchars⟩ := cons_append_inj_of_not_mem hchars hrbars.timeframe hqbars.timeframe
  obtain ⟨hinput, hchars⟩ := cons_append_inj_of_not_mem hchars hrbars.input hqbars.input
  obtain ⟨houtputs, hparams⟩ := append_cons_inj_of_not_mem hchars (bar_not_mem r.params) (bar_not_mem q.params)
  rw [houtput, houtput', String.toList_inj.mp houtputs]
  exact ⟨String.toList_inj.mp hcode, String.toList_inj.mp htimeframe, String.toList_inj.mp hinput, rfl,
    String.toList_inj.mp hparams⟩

/-! ## Keys tell columns apart -/

/-- References to one column have one key. -/
theorem SameColumn.seriesKey (h : r.SameColumn q) (hr : r.Proper) (hq : q.Proper) : r.seriesKey = q.seriesKey := by
  obtain ⟨hkind, hparts⟩ := h
  cases hrkind : r.kind with
  | literal =>
      rw [hrkind] at hparts
      rw [seriesKey_literal hrkind, seriesKey_literal (hkind ▸ hrkind), hparts]
  | field =>
      rw [hrkind] at hparts
      rw [seriesKey_field hrkind, seriesKey_field (hkind ▸ hrkind), hparts.1, hparts.2]
  | indicator =>
      rw [hrkind] at hparts
      obtain ⟨hcode, htimeframe, hinput, houtput, hparams⟩ := hparts
      rw [seriesKey_indicator hrkind, seriesKey_indicator (hkind ▸ hrkind), column, column, outputText, outputText,
        hcode, htimeframe, hinput, houtput, (paramsKey_eq_iff hr hq).mpr hparams]

/-- One of the two is a literal, or neither has a bar in front of its output. -/
def ToldApart (r q : ValueRef) : Prop := r.kind = .literal ∨ q.kind = .literal ∨ r.Barless ∧ q.Barless

theorem ToldApart.barless (h : r.ToldApart q) (hr : r.kind ≠ .literal) (hq : q.kind ≠ .literal) :
    r.Barless ∧ q.Barless :=
  (h.resolve_left hr).resolve_left hq

theorem kind_of_seriesKey (hr : r.Proper) (hq : q.Proper) (hapart : r.ToldApart q)
    (hkeys : r.seriesKey = q.seriesKey) : r.kind = q.kind := by
  cases hrkind : r.kind with
  | literal =>
      cases hqkind : q.kind with
      | literal => rfl
      | field => exact absurd hkeys (literal_ne_field hrkind hqkind)
      | indicator => exact absurd hkeys (literal_ne_indicator hr hrkind hq hqkind)
  | field =>
      cases hqkind : q.kind with
      | literal => exact absurd hkeys.symm (literal_ne_field hqkind hrkind)
      | field => rfl
      | indicator =>
          obtain ⟨hrbars, hqbars⟩ := hapart.barless (by rw [hrkind]; decide) (by rw [hqkind]; decide)
          exact absurd hkeys (field_ne_indicator hrbars hrkind hq hqbars hqkind)
  | indicator =>
      cases hqkind : q.kind with
      | literal => exact absurd hkeys.symm (literal_ne_indicator hq hqkind hr hrkind)
      | field =>
          obtain ⟨hrbars, hqbars⟩ := hapart.barless (by rw [hrkind]; decide) (by rw [hqkind]; decide)
          exact absurd hkeys.symm (field_ne_indicator hqbars hqkind hr hrbars hrkind)
      | indicator => rfl

/-- References with one key address one column, if they are told apart by their bars. -/
theorem sameColumn_of_seriesKey (hr : r.Proper) (hq : q.Proper) (hapart : r.ToldApart q)
    (hkeys : r.seriesKey = q.seriesKey) : r.SameColumn q := by
  have hkind := kind_of_seriesKey hr hq hapart hkeys
  refine ⟨hkind, ?_⟩
  cases hrkind : r.kind with
  | literal =>
      rw [seriesKey_literal hrkind, seriesKey_literal (hkind ▸ hrkind), Except.ok.injEq] at hkeys
      exact (String.append_right_inj _).mp hkeys
  | field =>
      have hqkind : q.kind = .field := hkind ▸ hrkind
      obtain ⟨hrbars, hqbars⟩ := hapart.barless (by rw [hrkind]; decide) (by rw [hqkind]; decide)
      exact field_parts hrbars hrkind hqbars hqkind hkeys
  | indicator =>
      have hqkind : q.kind = .indicator := hkind ▸ hrkind
      obtain ⟨hrbars, hqbars⟩ := hapart.barless (by rw [hrkind]; decide) (by rw [hqkind]; decide)
      obtain ⟨hcode, htimeframe, hinput, houtput, hparams⟩ :=
        indicator_parts hr hrbars hrkind hq hqbars hqkind hkeys
      exact ⟨hcode, htimeframe, hinput, houtput, (paramsKey_eq_iff hr hq).mp hparams⟩

end ValueRef

/-! ## Snapshots of references -/

namespace Snapshot

open ValueRef (Proper SameColumn ToldApart)

def readColumn (column : Document) (barsBack : Nat) : Except Failure (Option Float) :=
  match column with
  | .null => .ok none
  | d => do read (← itemAt d barsBack)

theorem value_eq {s : Snapshot} {r : ValueRef} (hr : r.kind ≠ .literal) {key : String} (hkey : r.seriesKey = .ok key)
    (barsBack : Nat) : s.value r barsBack =
      match s.series.lookup key with
      | none => .ok none
      | some column => readColumn column barsBack := by
  have hliteral : ¬ r.isLiteral = true := fun h => hr (eq_of_beq h)
  rw [value, if_neg hliteral, hkey, ok_bind]
  cases s.series.lookup key with
  | none => rfl
  | some column => cases column <;> rfl

theorem lookup_insert_of_ne {ms : List (String × Document)} {key other : String} (h : other ≠ key) (d : Document) :
    (Document.insert ms key d).lookup other = ms.lookup other := by
  induction ms with
  | nil =>
      have hother : (other == key) = false := beq_eq_false_iff_ne.mpr h
      rw [Document.insert, List.lookup_cons, hother]
  | cons entry ms ih =>
      obtain ⟨k, v⟩ := entry
      rw [Document.insert]
      split
      · rename_i hk
        have hother : (other == key) = false := beq_eq_false_iff_ne.mpr h
        rw [List.lookup_cons, List.lookup_cons, eq_of_beq hk, hother]
      · rw [List.lookup_cons, List.lookup_cons, ih]

/-- A further reference puts its column in the place of the one with its key. -/
theorem ofRefs_append {values : List (ValueRef × Document)} {s : Snapshot} (hs : ofRefs values = .ok s) {r : ValueRef}
    {key : String} (hkey : r.seriesKey = .ok key) (column : Document) :
    ofRefs (values ++ [(r, column)]) = .ok ⟨Document.insert s.series key column⟩ := by
  obtain ⟨series, hseries, h⟩ := bind_eq_ok.mp hs
  cases h
  rw [ofRefs, List.foldlM_append, hseries, ok_bind, List.foldlM_cons, hkey]
  rfl

/-- The column that is listed for a reference, the last one if there are several. -/
def columnOf (values : List (ValueRef × Document)) (r : ValueRef) : Option Document :=
  ((values.filter fun entry => r.SameColumn entry.1).getLast?).map (·.2)

theorem columnOf_append (values : List (ValueRef × Document)) (r q : ValueRef) (column : Document) :
    columnOf (values ++ [(q, column)]) r = if r.SameColumn q then some column else columnOf values r := by
  rw [columnOf, List.filter_append, List.filter_singleton]
  by_cases hsame : r.SameColumn q
  · rw [decide_eq_true hsame, if_pos hsame, cond_true, List.getLast?_concat]
    rfl
  · rw [decide_eq_false hsame, if_neg hsame, cond_false, List.append_nil, columnOf]

/-- A snapshot of references holds under the key of a reference what is listed for its column. -/
theorem lookup_ofRefs {r : ValueRef} (hr : r.Proper) {key : String} (hkey : r.seriesKey = .ok key)
    {values : List (ValueRef × Document)} (hvalues : ∀ entry ∈ values, entry.1.Proper ∧ r.ToldApart entry.1) :
    ∃ s, ofRefs values = .ok s ∧ s.series.lookup key = columnOf values r := by
  -- the induction goes from the end, as the last column that is listed for a key stays
  induction values using List.reverseRecOn with
  | nil => exact ⟨⟨[]⟩, rfl, rfl⟩
  | append_singleton values entry ih =>
      obtain ⟨s, hs, hlookup⟩ := ih fun e he => hvalues e (List.mem_append_left _ he)
      obtain ⟨q, column⟩ := entry
      obtain ⟨hq, hapart⟩ := hvalues (q, column) (List.mem_append_right _ (List.mem_singleton.mpr rfl))
      obtain ⟨other, hother⟩ := q.seriesKey_exists_iff.mpr hq.names
      refine ⟨_, ofRefs_append hs hother column, ?_⟩
      rw [columnOf_append]
      by_cases hsame : r.SameColumn q
      · have hsamekey : key = other := Except.ok.inj (hkey.symm.trans ((hsame.seriesKey hr hq).trans hother))
        rw [if_pos hsame, hsamekey]
        exact Document.lookup_insert s.series other column
      · have hne : key ≠ other := by
          rintro rfl
          exact hsame (ValueRef.sameColumn_of_seriesKey hr hq hapart (hkey.trans hother.symm))
        rw [if_neg hsame, ← hlookup]
        exact lookup_insert_of_ne hne column

end Snapshot

/-- **A key is the identity of a column.** Proper references have keys. They have one key if they address one column,
and only if they do, where one is a literal or neither has a bar in front of its output. So a snapshot of references
that are told apart in this way feeds each what is listed for its own column, and nothing else. -/
theorem ValueRef.seriesKey_identifies {r q : ValueRef} (hr : r.Proper) (hq : q.Proper) :
    (∃ key, r.seriesKey = .ok key) ∧ (r.SameColumn q → r.seriesKey = q.seriesKey) ∧
      (r.ToldApart q → (r.seriesKey = q.seriesKey ↔ r.SameColumn q)) ∧
      ∀ values : List (ValueRef × Document), (∀ entry ∈ values, entry.1.Proper ∧ r.ToldApart entry.1) →
        r.kind ≠ .literal → ∃ s, Snapshot.ofRefs values = .ok s ∧ ∀ barsBack,
          s.value r barsBack = match Snapshot.columnOf values r with
            | none => .ok none
            | some column => Snapshot.readColumn column barsBack := by
  obtain ⟨key, hkey⟩ := r.seriesKey_exists_iff.mpr hr.names
  refine ⟨⟨key, hkey⟩, fun hsame => hsame.seriesKey hr hq, fun hapart =>
    ⟨sameColumn_of_seriesKey hr hq hapart, fun hsame => hsame.seriesKey hr hq⟩, fun values hvalues hkind => ?_⟩
  obtain ⟨s, hs, hlookup⟩ := Snapshot.lookup_ofRefs hr hkey hvalues
  refine ⟨s, hs, fun barsBack => ?_⟩
  rw [Snapshot.value_eq hkind hkey, hlookup]

namespace ValueRef

def strengthOf (timeframe : String) (length : Float) : ValueRef where
  kind := .indicator
  indicator := "RSI"
  timeframe
  input := "Close"
  params := [length]
  output := .text defaultOutput
  window := .current
  calcMode := defaultCalcMode

theorem proper_strengthOf {length : Float} (hzero : unsignedZero length = length) (hnumber : length.isNaN = false)
    (timeframe : String) : (strengthOf timeframe length).Proper :=
  ⟨⟨rfl, rfl, congrArg (fun x => [x]) hzero, rfl, rfl⟩, fun _ => ⟨_, rfl⟩, List.forall_mem_singleton.mpr hnumber⟩

theorem barless_strengthOf {timeframe : String} (h : '|' ∉ (Timeframe.normalize timeframe).toList) (length : Float) :
    (strengthOf timeframe length).Barless :=
  ⟨fun _ => show '|' ∉ "RSI".toList by decide, h, show '|' ∉ "Close".toList by decide⟩

/-- What is listed for one spelling of a timeframe is read by way of another. -/
theorem seriesKey_identifies_spelled : (strengthOf "1h" 14).Proper ∧ (strengthOf "1h" 21).Proper ∧
    (strengthOf "1h" 14).seriesKey ≠ (strengthOf "1h" 21).seriesKey ∧
    ∃ s, Snapshot.ofRefs [(strengthOf "H1" 14, .list [.int 20]), (strengthOf "1h" 21, .list [.int 70])] = .ok s ∧
      s.value (strengthOf "1h" 14) 0 = Snapshot.readColumn (.list [.int 20]) 0 := by
  have hfast : ∀ timeframe, (strengthOf timeframe 14).Proper :=
    proper_strengthOf (by decide +kernel) (by decide +kernel)
  have hslow : ∀ timeframe, (strengthOf timeframe 21).Proper :=
    proper_strengthOf (by decide +kernel) (by decide +kernel)
  have hhour : ∀ length, (strengthOf "1h" length).Barless := barless_strengthOf (by decide +kernel)
  have hspelled : (strengthOf "H1" 14).Barless := barless_strengthOf (by decide +kernel) 14
  obtain ⟨-, -, hdiffers, hfeeds⟩ := seriesKey_identifies (hfast "1h") (hslow "1h")
  have hvalues : ∀ entry ∈ [(strengthOf "H1" 14, Document.list [.int 20]), (strengthOf "1h" 21, .list [.int 70])],
      entry.1.Proper ∧ (strengthOf "1h" 14).ToldApart entry.1 :=
    List.forall_mem_cons.mpr ⟨⟨hfast "H1", Or.inr (Or.inr ⟨hhour 14, hspelled⟩)⟩,
      List.forall_mem_singleton.mpr ⟨hslow "1h", Or.inr (Or.inr ⟨hhour 14, hhour 21⟩)⟩⟩
  obtain ⟨s, hs, hreads⟩ := hfeeds _ hvalues (by decide)
  refine ⟨hfast "1h", hslow "1h", fun hkeys => ?_, s, hs, ?_⟩
  · have hcolumn := (hdiffers (Or.inr (Or.inr ⟨hhour 14, hhour 21⟩))).mp hkeys
    exact absurd hcolumn (by decide +kernel)
  · have hlisted : Snapshot.columnOf
        [(strengthOf "H1" 14, Document.list [.int 20]), (strengthOf "1h" 21, .list [.int 70])] (strengthOf "1h" 14) =
        some (.list [.int 20]) := by
      decide +kernel
    rw [hreads, hlisted]

/-- A bar in the input and a bar in the output can be written alike. -/
theorem seriesKey_barred : ∃ r q,
    make .indicator "A" "1h" "x|y" [14] (.text "z") 0 0 "" = .ok r ∧
      make .indicator "A" "1h" "x" [14] (.text "y|z") 0 0 "" = .ok q ∧
      r.seriesKey = q.seriesKey ∧ ¬ r.SameColumn q :=
  ⟨_, _, rfl, rfl, rfl, by decide +kernel⟩

end ValueRef

end Stratagem
