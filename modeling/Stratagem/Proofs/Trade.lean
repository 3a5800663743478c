import Stratagem.Proofs.Number.RoundTrip
import Stratagem.Proofs.Sequencing
import Stratagem.Trade

/-!
# Trade settings come back from their records

Merging leaves settings `Settled`: every number is a double or has one, and every text is in the form that
another merge would give it. The record of settled settings overrides whatever base it is merged over; only a
text that is empty leaves the one of the base.
-/

namespace Stratagem

open Document (member)

namespace Number

def IsDouble (n : Int) : Prop := ∃ x, ofInt? n = some x ∧ truncate? x = some n

/-- The double that the number is read as. -/
def StandsFor (x : Float) (q : Number) : Prop :=
  q = .real x ∨ ∃ n, q = .int n ∧ ofInt? n = some x ∧ (real x).equals q = true

end Number

namespace PositionMode

theorem normalize_cases (raw : String) :
    normalize raw = "" ∨ normalize raw = cross ∨ normalize raw = isolated ∨ normalize raw = raw := by
  unfold normalize
  dsimp only
  split
  · exact Or.inl rfl
  · split
    · exact Or.inr (Or.inl rfl)
    · split
      · exact Or.inr (Or.inr (Or.inl rfl))
      · split
        · exact Or.inr (Or.inl rfl)
        · exact Or.inr (Or.inr (Or.inr rfl))

theorem normalize_normalize (raw : String) : normalize (normalize raw) = normalize raw := by
  rcases normalize_cases raw with h | h | h | h
  · rw [h]
    rfl
  · rw [h]
    rfl
  · rw [h]
    rfl
  · rw [h, h]

end PositionMode

/-! ## Members -/

namespace Document

theorem lenientInteger_int {n : Int} (h : Number.IsDouble n) : (Document.int n).lenientInteger = some n := by
  obtain ⟨x, hx, htruncate⟩ := h
  have hread : (Document.int n).trimmed.toReal = .ok x := by
    show (Number.ofInt? n).elim (refuse .realTooLarge) Except.ok = .ok x
    rw [hx]
    rfl
  rw [lenientInteger, hread]
  exact htruncate

theorem isDouble_of_lenientInteger {d : Document} {n : Int} (h : d.lenientInteger = some n) :
    Number.IsDouble n := by
  unfold lenientInteger at h
  split at h
  · cases h
  · split at h
    · exact Number.ofInt?_truncate h
    · cases h

theorem lenientReal_standsFor {x : Float} {q : Number} (h : Number.StandsFor x q) :
    (Document.ofNumber q).lenientReal = .ok (some x) := by
  rcases h with rfl | ⟨n, rfl, hx, -⟩
  · rfl
  · have hread : (Document.int n).trimmed.toReal = .ok x := by
      show (Number.ofInt? n).elim (refuse .realTooLarge) Except.ok = .ok x
      rw [hx]
      rfl
    rw [ofNumber, lenientReal, hread]
    rfl

end Document

namespace Trade

theorem mergeText_text {ms : List (String × Document)} {key base s : String} (h : member ms key = .text s)
    (hempty : s.isEmpty = true → base = s) : mergeText ms key base = .ok s := by
  rw [mergeText, h]
  show Except.ok (if s.isEmpty = true then base else s) = .ok s
  by_cases hs : s.isEmpty = true
  · rw [if_pos hs, hempty hs]
  · rw [if_neg hs]

theorem mergeText_of_isEmpty {ms : List (String × Document)} {key base s : String}
    (h : mergeText ms key base = .ok s) (hs : s.isEmpty = true) : base = s := by
  obtain ⟨read, -, h⟩ := bind_eq_ok.mp h
  cases read with
  | none => exact Except.ok.inj h
  | some raw =>
      cases Except.ok.inj h
      by_cases hraw : raw.isEmpty = true
      · rw [if_pos hraw]
      · rw [if_neg hraw] at hs
        exact absurd hs hraw

theorem mergeReal_real {ms : List (String × Document)} {key : String} {base x : Float}
    (h : member ms key = .real x) : mergeReal ms key base = .ok x := by
  rw [mergeReal, h]
  rfl

theorem mergeNumber_standsFor {ms : List (String × Document)} {key : String} {base q : Number} {x : Float}
    (h : member ms key = .ofNumber q) (hx : Number.StandsFor x q) : mergeNumber ms key base = .ok (.real x) := by
  rw [mergeNumber, h, Document.lenientReal_standsFor hx]
  rfl

theorem mergeInteger_int {ms : List (String × Document)} {key : String} {base n : Int}
    (h : member ms key = .int n) (hn : Number.IsDouble n) : mergeInteger ms key base = n := by
  rw [mergeInteger, h, Document.lenientInteger_int hn]
  rfl

theorem mergeInteger_isDouble {ms : List (String × Document)} {key : String} {base : Int}
    (h : Number.IsDouble base) : Number.IsDouble (mergeInteger ms key base) := by
  unfold mergeInteger
  cases hread : (member ms key).lenientInteger with
  | none => exact h
  | some n => exact Document.isDouble_of_lenientInteger hread

/-- The number is the one of the base, or a double. -/
theorem mergeNumber_eq_ok {ms : List (String × Document)} {key : String} {base q : Number}
    (h : mergeNumber ms key base = .ok q) : q = base ∨ ∃ x, q = .real x := by
  unfold mergeNumber at h
  obtain ⟨x?, -, hq⟩ := bind_eq_ok.mp h
  cases hq
  cases x? with
  | none => exact Or.inl rfl
  | some x => exact Or.inr ⟨x, rfl⟩

theorem mergePositionMode_normal {ms : List (String × Document)} {base mode : String}
    (hbase : PositionMode.normalize base = base ∧ base.isEmpty = false)
    (h : mergePositionMode ms base = .ok mode) :
    PositionMode.normalize mode = mode ∧ mode.isEmpty = false := by
  unfold mergePositionMode at h
  obtain ⟨raw, -, hmode⟩ := bind_eq_ok.mp h
  simp only [pure_eq_ok, Except.ok.injEq] at hmode
  subst hmode
  split
  · exact hbase
  · rename_i hne
    exact ⟨PositionMode.normalize_normalize raw, Bool.eq_false_iff.mpr hne⟩

theorem mergePositionMode_text {ms : List (String × Document)} {base mode : String}
    (h : member ms "positionMode" = .text mode) (hmode : PositionMode.normalize mode = mode)
    (hne : mode.isEmpty = false) : mergePositionMode ms base = .ok mode := by
  rw [mergePositionMode, h, Document.textOrEmpty, ok_bind, hmode]
  dsimp only
  rw [if_neg (Bool.eq_false_iff.mp hne)]
  rfl

end Trade

/-! ## Sizing and risk -/

namespace Sizing

/-- What a merge leaves of the sizing. -/
structure Settled (s : Sizing) : Prop where
  orderQty : ¬ s.orderQty ≤ 0
  maxPositionQty : ∃ x, Number.StandsFor x s.maxPositionQty ∧ (Number.real x).le (.int 0) = false
  leverage : Number.IsDouble s.leverage ∧ ¬ s.leverage < 1

theorem checked_eq_ok {s s' : Sizing} : s.checked = .ok s' ↔
    s' = s ∧ ¬ s.orderQty ≤ 0 ∧ s.maxPositionQty.le (.int 0) = false ∧ ¬ s.leverage < 1 := by
  unfold checked
  split
  · rename_i h
    simp [h]
  · split
    · rename_i h
      simp [h]
    · split
      · rename_i h
        simp [h]
      · rename_i hqty hmax hlev
        simp [hqty, hmax, hlev, eq_comm]

theorem default_settled : default.Settled where
  orderQty := by decide
  maxPositionQty := ⟨10, Or.inr ⟨10, rfl, rfl, rfl⟩, rfl⟩
  leverage := ⟨⟨100, rfl, rfl⟩, by decide⟩

end Sizing

namespace Trade

/-- A sizing that was merged has what its members say, and is in range. -/
theorem mergeSizing_eq_ok {base s : Sizing} {ms : List (String × Document)} (h : mergeSizing base ms = .ok s) :
    mergeReal ms "orderQty" base.orderQty = .ok s.orderQty ∧
    mergeNumber ms "maxPositionQty" base.maxPositionQty = .ok s.maxPositionQty ∧
    s.leverage = mergeInteger ms "leverage" base.leverage ∧ s.checked = .ok s := by
  unfold mergeSizing at h
  obtain ⟨qty, hqty, h⟩ := bind_eq_ok.mp h
  obtain ⟨most, hmost, h⟩ := bind_eq_ok.mp h
  obtain ⟨rfl, hrange⟩ := Sizing.checked_eq_ok.mp h
  exact ⟨hqty, hmost, rfl, h⟩

theorem mergeSizing_settled {base s : Sizing} {ms : List (String × Document)} (hbase : base.Settled)
    (h : mergeSizing base ms = .ok s) : s.Settled := by
  obtain ⟨-, hmost, hlev, hchecked⟩ := mergeSizing_eq_ok h
  obtain ⟨-, hqty, hpositive, hleverage⟩ := Sizing.checked_eq_ok.mp hchecked
  refine ⟨hqty, ?_, hlev ▸ mergeInteger_isDouble hbase.leverage.1, hleverage⟩
  rcases mergeNumber_eq_ok hmost with hkept | ⟨x, hx⟩
  · rw [hkept]
    exact hbase.maxPositionQty
  · rw [hx] at hpositive ⊢
    exact ⟨x, Or.inl rfl, hpositive⟩

theorem mergeSizing_toDocument (base : Sizing) {s : Sizing} (h : s.Settled) :
    ∃ ms x, s.toDocument = .record ms ∧ Number.StandsFor x s.maxPositionQty ∧
      mergeSizing base ms = .ok { s with maxPositionQty := .real x } := by
  obtain ⟨x, hx, hpositive⟩ := h.maxPositionQty
  refine ⟨_, x, rfl, hx, ?_⟩
  rw [mergeSizing, mergeReal_real rfl, ok_bind, mergeNumber_standsFor rfl hx, ok_bind,
    mergeInteger_int rfl h.leverage.1]
  exact Sizing.checked_eq_ok.mpr ⟨rfl, h.orderQty, hpositive, h.leverage.2⟩

theorem mergeRisk_toDocument (base r : Risk) :
    ∃ ms trailing, r.toDocument = .record ms ∧ subsection ms "trailing" "trade.risk.trailing" = .ok trailing ∧
      mergeRisk base ms trailing = .ok r := by
  refine ⟨_, _, rfl, rfl, ?_⟩
  rfl

/-! ## Settled settings -/

structure Settled (t : Trade) : Prop where
  timeframe : Number.IsDouble t.timeframeSec ∧ ¬ t.timeframeSec ≤ 0
  positionMode : PositionMode.normalize t.positionMode = t.positionMode ∧ t.positionMode.isEmpty = false
  sizing : t.sizing.Settled

/-- Texts that are empty are those of the base. -/
structure Covers (base t : Trade) : Prop where
  exchange : t.exchange.isEmpty = true → base.exchange = t.exchange
  symbol : t.symbol.isEmpty = true → base.symbol = t.symbol
  openConflictPolicy : t.openConflictPolicy.isEmpty = true → base.openConflictPolicy = t.openConflictPolicy

theorem covers_self (t : Trade) : t.Covers t :=
  ⟨fun _ => rfl, fun _ => rfl, fun _ => rfl⟩

/-- The settings of a new strategy are settled. -/
theorem default_settled (exchange symbol : String) : (Trade.default exchange symbol).Settled := by
  have htimeframe : Number.IsDouble Timeframe.defaultSeconds ∧ ¬ Timeframe.defaultSeconds ≤ 0 :=
    ⟨⟨60, rfl, rfl⟩, by decide⟩
  have hmode : PositionMode.normalize PositionMode.cross = PositionMode.cross ∧
      PositionMode.cross.isEmpty = false :=
    ⟨rfl, rfl⟩
  exact ⟨htimeframe, hmode, Sizing.default_settled⟩

theorem checked_eq_ok {t t' : Trade} : t.checked = .ok t' ↔ t' = t ∧ ¬ t.timeframeSec ≤ 0 := by
  unfold checked
  split
  · rename_i h
    simp [h]
  · rename_i h
    simp [h, eq_comm]

/-- The members that the record of the settings has. -/
theorem members_toDocument (t : Trade) : ∃ ms, t.toDocument = .record ms ∧
    member ms "exchange" = .text t.exchange ∧ member ms "symbol" = .text t.symbol ∧
    member ms "timeframeSec" = .int t.timeframeSec ∧ member ms "positionMode" = .text t.positionMode ∧
    member ms "openConflictPolicy" = .text t.openConflictPolicy ∧
    member ms "sizing" = t.sizing.toDocument ∧ member ms "risk" = t.risk.toDocument :=
  ⟨_, rfl, rfl, rfl, rfl, rfl, rfl, rfl, rfl⟩

theorem subsection_record {ms sub : List (String × Document)} {key what : String}
    (h : member ms key = .record sub) : subsection ms key what = .ok sub := by
  rw [subsection, h]
  rfl

theorem merge_record (base : Trade) {ms : List (String × Document)} (h : ms ≠ []) :
    base.merge (.record ms) = base.mergeMembers ms := by
  cases ms with
  | nil => exact absurd rfl h
  | cons m ms => rfl

/-- **The record of settled settings overrides a base.** The most that may be held is a double afterwards. -/
theorem Settled.merge_toDocument {base t : Trade} (h : t.Settled) (hbase : base.Covers t) :
    ∃ x, Number.StandsFor x t.sizing.maxPositionQty ∧
      base.merge t.toDocument = .ok { t with sizing := { t.sizing with maxPositionQty := .real x } } := by
  obtain ⟨ms, hms, hexchange, hsymbol, htimeframe, hmode, hpolicy, hsizing, hrisk⟩ := members_toDocument t
  obtain ⟨sizing, x, hsizing', hx, hmergeSizing⟩ := mergeSizing_toDocument base.sizing h.sizing
  obtain ⟨risk, trailing, hrisk', htrailing, hmergeRisk⟩ := mergeRisk_toDocument base.risk t.risk
  refine ⟨x, hx, ?_⟩
  -- a record without members would stand for nothing, and leave the base as it is
  have hne : ms ≠ [] := by
    rintro rfl
    cases hexchange
  rw [hms, merge_record base hne, mergeMembers, subsection_record (hsizing.trans hsizing'), ok_bind,
    subsection_record (hrisk.trans hrisk'), ok_bind, htrailing, ok_bind, placed_eq_ok,
    mergeText_text hexchange hbase.exchange, ok_bind, mergeText_text hsymbol hbase.symbol, ok_bind,
    mergePositionMode_text hmode h.positionMode.1 h.positionMode.2, ok_bind,
    mergeText_text hpolicy hbase.openConflictPolicy, ok_bind, hmergeSizing, ok_bind, hmergeRisk, ok_bind,
    checked_eq_ok, mergeInteger_int htimeframe h.timeframe.1]
  exact ⟨rfl, h.timeframe.2⟩

/-- What the members of a record make of a base. -/
structure MergedWith (base : Trade) (ms : List (String × Document)) (t : Trade) : Prop where
  exchange : mergeText ms "exchange" base.exchange = .ok t.exchange
  symbol : mergeText ms "symbol" base.symbol = .ok t.symbol
  timeframe : t.timeframeSec = mergeInteger ms "timeframeSec" base.timeframeSec ∧ ¬ t.timeframeSec ≤ 0
  positionMode : mergePositionMode ms base.positionMode = .ok t.positionMode
  openConflictPolicy : mergeText ms "openConflictPolicy" base.openConflictPolicy = .ok t.openConflictPolicy
  sizing : ∃ sub, subsection ms "sizing" "trade.sizing" = .ok sub ∧ mergeSizing base.sizing sub = .ok t.sizing
  risk : ∃ sub trailing, subsection ms "risk" "trade.risk" = .ok sub ∧
    subsection sub "trailing" "trade.risk.trailing" = .ok trailing ∧ mergeRisk base.risk sub trailing = .ok t.risk

/-- Merging leaves the base as it is for a document that stands for nothing, and else takes the members of a record. -/
theorem merge_cases {base t : Trade} {d : Document} (h : base.merge d = .ok t) :
    d.isEmpty = true ∧ t = base ∨ ∃ ms, d = .record ms ∧ base.MergedWith ms t := by
  unfold merge at h
  split at h
  · rename_i hempty
    cases h
    exact Or.inl ⟨hempty, rfl⟩
  · obtain ⟨ms, hms, h⟩ := bind_eq_ok.mp h
    unfold mergeMembers at h
    obtain ⟨sizing, hsizing, h⟩ := bind_eq_ok.mp h
    obtain ⟨risk, hrisk, h⟩ := bind_eq_ok.mp h
    obtain ⟨trailing, htrailing, h⟩ := bind_eq_ok.mp h
    obtain ⟨exchange, hexchange, h⟩ := bind_eq_ok.mp (placed_eq_ok.mp h)
    obtain ⟨symbol, hsymbol, h⟩ := bind_eq_ok.mp h
    obtain ⟨mode, hmode, h⟩ := bind_eq_ok.mp h
    obtain ⟨policy, hpolicy, h⟩ := bind_eq_ok.mp h
    obtain ⟨size, hsize, h⟩ := bind_eq_ok.mp h
    obtain ⟨limits, hlimits, h⟩ := bind_eq_ok.mp h
    obtain ⟨rfl, hpositive⟩ := checked_eq_ok.mp h
    cases d with
    | record members =>
        cases hms
        exact Or.inr ⟨ms, rfl, hexchange, hsymbol, ⟨rfl, hpositive⟩, hmode, hpolicy, ⟨sizing, hsizing, hsize⟩,
          ⟨risk, trailing, hrisk, htrailing, hlimits⟩⟩
    | _ => cases hms

/-- What is merged over settled settings is settled. -/
theorem merge_settled {base t : Trade} {d : Document} (hbase : base.Settled) (h : base.merge d = .ok t) :
    t.Settled ∧ base.Covers t := by
  rcases merge_cases h with ⟨-, rfl⟩ | ⟨ms, -, hmerged⟩
  · exact ⟨hbase, covers_self _⟩
  · obtain ⟨sub, -, hsize⟩ := hmerged.sizing
    constructor
    · exact ⟨⟨hmerged.timeframe.1 ▸ mergeInteger_isDouble hbase.timeframe.1, hmerged.timeframe.2⟩,
        mergePositionMode_normal hbase.positionMode hmerged.positionMode, mergeSizing_settled hbase.sizing hsize⟩
    · exact ⟨mergeText_of_isEmpty hmerged.exchange, mergeText_of_isEmpty hmerged.symbol,
        mergeText_of_isEmpty hmerged.openConflictPolicy⟩

/-- Settings that were reached from the given ones by merging. -/
inductive Merged (base : Trade) : Trade → Prop
  | base : Merged base base
  | merge {t u : Trade} {d : Document} : Merged base t → t.merge d = .ok u → Merged base u

theorem Covers.trans {t u v : Trade} (h : t.Covers u) (h' : u.Covers v) : t.Covers v := by
  have hchain : ∀ a b c : String, (b.isEmpty = true → a = b) → (c.isEmpty = true → b = c) →
      c.isEmpty = true → a = c := by
    intro a b c hab hbc hc
    have hb := hbc hc
    exact (hab (hb ▸ hc)).trans hb
  exact ⟨hchain _ _ _ h.exchange h'.exchange, hchain _ _ _ h.symbol h'.symbol,
    hchain _ _ _ h.openConflictPolicy h'.openConflictPolicy⟩

/-- All that is merged over settled settings, one record after another, is settled. -/
theorem Merged.settled {base t : Trade} (hbase : base.Settled) (h : Merged base t) :
    t.Settled ∧ base.Covers t := by
  induction h with
  | base => exact ⟨hbase, covers_self _⟩
  | merge _ hmerge ih =>
      obtain ⟨hsettled, hcovers⟩ := merge_settled ih.1 hmerge
      exact ⟨hsettled, ih.2.trans hcovers⟩

end Trade

end Stratagem
