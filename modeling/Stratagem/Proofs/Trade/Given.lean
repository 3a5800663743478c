import Stratagem.Proofs.Draft.RoundTrip
import Stratagem.Proofs.Number.Order
import Stratagem.Proofs.Trade

/-!
# Settings that were given

A record that is merged gives a setting, if it holds a value for it that can be read, and else leaves it as it was. So
after any number of records the setting is the last one given. What a merge accepts is in range, except for sizes that
are no numbers: those are not at most zero, so they are accepted, and they stay until another size is given.

The record of settings that merging led to says all there is to say: no text of it is empty, every number of it is
read as it was, and a position mode is known or kept. So it means the same over any base, and what is loaded equals
what was saved, unless it holds what is no number, which equals nothing.
-/

namespace Stratagem

open Document (member lookup)

/-- What is given first counts where nothing is given after it. -/
theorem getLast?_filterMap_cons {α β : Type} (given : α → Option β) (a : α) (as : List α) (base : β) :
    ((a :: as).filterMap given).getLast?.getD base = (as.filterMap given).getLast?.getD ((given a).getD base) := by
  rw [List.filterMap_cons]
  cases given a with
  | none => rfl
  | some b => rw [List.getLast?_cons, Option.getD_some, Option.getD_some]

namespace Trade

/-! ## One record -/

def givenSize (key : String) (d : Document) : Option Float :=
  ((d.get? "sizing").bind (·.get? key)).bind fun v => v.lenientReal.toOption.join

def givenTimeframe (d : Document) : Option Int :=
  (d.get? "timeframeSec").bind Document.lenientInteger

theorem get?_of_isEmpty {d : Document} (h : d.isEmpty = true) (key : String) : d.get? key = none := by
  cases d with
  | record ms =>
      rw [Document.isEmpty, List.isEmpty_iff] at h
      rw [h]
      rfl
  | _ => rfl

theorem lookup_subsection {ms sub : List (String × Document)} {key what : String}
    (h : subsection ms key what = .ok sub) (name : String) : (lookup ms key).bind (·.get? name) = lookup sub name := by
  rw [subsection, member] at h
  cases hvalue : lookup ms key with
  | none =>
      rw [hvalue] at h
      cases h
      rfl
  | some d =>
      rw [hvalue, Option.getD_some] at h
      cases d <;> cases h <;> rfl

theorem lenientReal_member {ms : List (String × Document)} {key : String} {o : Option Float}
    (h : (member ms key).lenientReal = .ok o) : ((lookup ms key).bind fun v => v.lenientReal.toOption.join) = o := by
  rw [member] at h
  cases hvalue : lookup ms key with
  | none =>
      rw [hvalue] at h
      cases h
      rfl
  | some d =>
      rw [hvalue, Option.getD_some] at h
      rw [Option.bind_some, h]
      rfl

theorem lenientInteger_member (ms : List (String × Document)) (key : String) :
    (member ms key).lenientInteger = (lookup ms key).bind Document.lenientInteger := by
  rw [member]
  cases lookup ms key <;> rfl

/-- A merge takes what is given, and leaves the rest. -/
theorem merge_given {base t : Trade} {d : Document} (h : base.merge d = .ok t) :
    t.timeframeSec = (givenTimeframe d).getD base.timeframeSec ∧
    t.sizing.orderQty = (givenSize "orderQty" d).getD base.sizing.orderQty ∧
    t.sizing.maxPositionQty =
      ((givenSize "maxPositionQty" d).map Number.real).getD base.sizing.maxPositionQty := by
  rcases merge_cases h with ⟨hempty, rfl⟩ | ⟨ms, rfl, hmerged⟩
  · simp only [givenTimeframe, givenSize, get?_of_isEmpty hempty, Option.bind_none, Option.map_none, Option.getD_none,
      and_self]
  · obtain ⟨sub, hsub, hsizing⟩ := hmerged.sizing
    obtain ⟨hqty, hmost, -, -⟩ := mergeSizing_eq_ok hsizing
    obtain ⟨qty?, hqty, hqty'⟩ := bind_eq_ok.mp hqty
    obtain ⟨most?, hmost, hmost'⟩ := bind_eq_ok.mp hmost
    have hsize : ∀ {key o}, (member sub key).lenientReal = .ok o → givenSize key (.record ms) = o := by
      intro key o ho
      rw [givenSize, Document.get?, lookup_subsection hsub, lenientReal_member ho]
    refine ⟨?_, ?_, ?_⟩
    · rw [hmerged.timeframe.1, mergeInteger, lenientInteger_member]
      rfl
    · rw [hsize hqty]
      exact (Except.ok.inj hqty').symm
    · rw [hsize hmost]
      exact (Except.ok.inj hmost').symm

/-! ## One record after another -/

def mergeAll (base : Trade) (ds : List Document) : Except Failure Trade :=
  ds.foldlM merge base

theorem mergeAll_cons {base t : Trade} {d : Document} {ds : List Document} :
    mergeAll base (d :: ds) = .ok t ↔ ∃ u, base.merge d = .ok u ∧ u.mergeAll ds = .ok t := by
  rw [mergeAll, List.foldlM_cons, bind_eq_ok]
  rfl

theorem mergeAll_concat {base t : Trade} {d : Document} {ds : List Document} :
    mergeAll base (ds ++ [d]) = .ok t ↔ ∃ u, mergeAll base ds = .ok u ∧ u.merge d = .ok t := by
  have hone : ∀ u : Trade, [d].foldlM merge u = u.merge d := by
    intro u
    rw [List.foldlM_cons]
    cases u.merge d <;> rfl
  rw [mergeAll, List.foldlM_append, bind_eq_ok]
  simp only [hone]
  rfl

/-- What merging reaches is what records lead to, one after another. -/
theorem merged_iff {base t : Trade} : Merged base t ↔ ∃ ds, mergeAll base ds = .ok t := by
  constructor
  · intro h
    induction h with
    | base => exact ⟨[], rfl⟩
    | merge _ hmerge ih =>
        obtain ⟨ds, hds⟩ := ih
        exact ⟨ds ++ [_], mergeAll_concat.mpr ⟨_, hds, hmerge⟩⟩
  · rintro ⟨ds, h⟩
    induction ds using List.reverseRecOn generalizing t with
    | nil =>
        cases h
        exact .base
    | append_singleton ds d ih =>
        obtain ⟨u, hu, hmerge⟩ := mergeAll_concat.mp h
        exact .merge (ih hu) hmerge

/-- If a merge takes a setting from what is given, then of many records the last one that gives it counts. -/
theorem mergeAll_given {α : Type} {setting : Trade → α} {given : Document → Option α}
    (hmerge : ∀ {base t d}, merge base d = .ok t → setting t = (given d).getD (setting base)) {base t : Trade}
    {ds : List Document} (h : mergeAll base ds = .ok t) :
    setting t = (ds.filterMap given).getLast?.getD (setting base) := by
  induction ds generalizing base with
  | nil =>
      cases h
      rfl
  | cons d ds ih =>
      obtain ⟨u, hu, hrest⟩ := mergeAll_cons.mp h
      rw [ih hrest, hmerge hu, getLast?_filterMap_cons]

def lastSize (key : String) (ds : List Document) : Option Float :=
  (ds.filterMap (givenSize key)).getLast?

/-- **Settings of a new strategy stay in range, one record after another, as long as the sizes are numbers.** The last
size given decides: one that is no number is not refused, since it is not at most zero, but it does not exceed zero
either. -/
theorem mergeAll_tradable {exchange symbol : String} {ds : List Document} {t : Trade}
    (h : mergeAll (default exchange symbol) ds = .ok t) :
    (0 < t.sizing.orderQty ↔ ∀ x ∈ lastSize "orderQty" ds, x.isNaN = false) ∧
    ((Number.int 0).lt t.sizing.maxPositionQty = true ↔ ∀ x ∈ lastSize "maxPositionQty" ds, x.isNaN = false) ∧
    1 ≤ t.sizing.leverage ∧ 0 < t.timeframeSec := by
  have hsettled := ((merged_iff.mpr ⟨ds, h⟩).settled (default_settled exchange symbol)).1
  refine ⟨?_, ?_, Int.not_lt.mp hsettled.sizing.leverage.2, Int.not_le.mp hsettled.timeframe.2⟩
  · have hqty := mergeAll_given (fun h => (merge_given h).2.1) h
    rw [Number.lt_iff_of_not_le hsettled.sizing.orderQty (by decide +kernel), hqty, ← lastSize]
    cases lastSize "orderQty" ds with
    | none =>
        have hdefault : Sizing.default.orderQty.isNaN = false := by decide +kernel
        exact iff_of_true hdefault nofun
    | some x => simp
  · have hmost := mergeAll_given (fun h => (merge_given h).2.2) h
    rw [← List.map_filterMap, List.getLast?_map, ← lastSize] at hmost
    cases hlast : lastSize "maxPositionQty" ds with
    | none =>
        have hdefault : (Number.int 0).lt Sizing.default.maxPositionQty = true := by decide +kernel
        rw [hmost, hlast]
        exact iff_of_true hdefault nofun
    | some x =>
        rw [hlast, Option.map_some, Option.getD_some] at hmost
        obtain ⟨y, hy | ⟨n, hn, -⟩, hpositive⟩ := hsettled.sizing.maxPositionQty
        · obtain rfl : x = y := Number.real.inj (hmost.symm.trans hy)
          rw [hmost, Number.int_lt_real hpositive]
          simp
        · cases hn.symm.trans hmost

/-- Sizes in several spellings. The last quantity is blank, and the last bound is no number. -/
def respelled : List Document :=
  let sized (sizing : List (String × Document)) : Document := .record [("sizing", .record sizing)]
  [sized [("orderQty", .text " 2.5e-1 "), ("maxPositionQty", .text "12_000"), ("leverage", .text "7.9")],
    .record [("timeframeSec", .text "300"), ("symbol", .null)],
    sized [("orderQty", .text ""), ("maxPositionQty", .text "nan"), ("leverage", .null)]]

theorem mergeAll_tradable_respelled : ∃ t, mergeAll (default "bitget" "BTC/USDT") respelled = .ok t ∧
    0 < t.sizing.orderQty ∧ (Number.int 0).lt t.sizing.maxPositionQty = false ∧ 1 ≤ t.sizing.leverage ∧
    0 < t.timeframeSec := by
  have hrun : (mergeAll (default "bitget" "BTC/USDT") respelled).toOption.isSome = true := by decide +kernel
  obtain ⟨t, ht⟩ := Option.isSome_iff_exists.mp hrun
  have hmerged := eq_ok_of_toOption ht
  obtain ⟨hqty, hmost, hleverage, htimeframe⟩ := mergeAll_tradable hmerged
  have hnumber : ∀ x ∈ lastSize "orderQty" respelled, x.isNaN = false := by decide +kernel
  have hnone : ¬ ∀ x ∈ lastSize "maxPositionQty" respelled, x.isNaN = false := by decide +kernel
  exact ⟨t, hmerged, hqty.mpr hnumber, Bool.eq_false_iff.mpr (mt hmost.mp hnone), hleverage, htimeframe⟩

end Trade

/-! ## Equality by value -/

namespace Sizing

def isNumeric (s : Sizing) : Bool := !s.orderQty.isNaN && s.maxPositionQty.isNumber

def equals (a b : Sizing) : Bool :=
  a.orderQty == b.orderQty && a.maxPositionQty.equals b.maxPositionQty && a.leverage == b.leverage

end Sizing

namespace TrailingStop

def isNumeric (t : TrailingStop) : Bool := !t.activationProfitPct.isNaN && !t.closeOnDrawdownPct.isNaN

def equals (a b : TrailingStop) : Bool :=
  a.enabled == b.enabled && a.activationProfitPct == b.activationProfitPct &&
    a.closeOnDrawdownPct == b.closeOnDrawdownPct

theorem equals_self {t : TrailingStop} (h : t.isNumeric = true) : t.equals t = true := by
  rw [isNumeric, Bool.and_eq_true, Bool.not_eq_true', Bool.not_eq_true'] at h
  rw [equals, Number.beq_self h.1, Number.beq_self h.2, BEq.rfl]
  rfl

end TrailingStop

namespace Risk

def isNumeric (r : Risk) : Bool := !r.takeProfitPct.isNaN && !r.stopLossPct.isNaN && r.trailing.isNumeric

def equals (a b : Risk) : Bool :=
  a.takeProfitPct == b.takeProfitPct && a.stopLossPct == b.stopLossPct && a.trailing.equals b.trailing

theorem equals_self {r : Risk} (h : r.isNumeric = true) : r.equals r = true := by
  rw [isNumeric, Bool.and_eq_true, Bool.and_eq_true, Bool.not_eq_true', Bool.not_eq_true'] at h
  rw [equals, Number.beq_self h.1.1, Number.beq_self h.1.2, TrailingStop.equals_self h.2]
  rfl

end Risk

namespace Trade

def isNumeric (t : Trade) : Bool := t.sizing.isNumeric && t.risk.isNumeric

/-- Whether the settings are equal, numbers compared by value. -/
def equals (a b : Trade) : Bool :=
  a.exchange == b.exchange && a.symbol == b.symbol && a.timeframeSec == b.timeframeSec &&
    a.positionMode == b.positionMode && a.openConflictPolicy == b.openConflictPolicy &&
    a.sizing.equals b.sizing && a.risk.equals b.risk

theorem Same.equals {t u : Trade} (h : t.Same u) (hnumeric : t.isNumeric = true) : u.equals t = true := by
  obtain ⟨q, rfl, hq⟩ := h
  rw [isNumeric, Bool.and_eq_true, Sizing.isNumeric, Bool.and_eq_true, Bool.not_eq_true'] at hnumeric
  obtain ⟨⟨hqty, hmost⟩, hrisk⟩ := hnumeric
  have hmost' : q.equals t.sizing.maxPositionQty = true := by
    rcases hq with rfl | hq
    · exact Number.equals_self hmost
    · exact hq
  simp [Trade.equals, Sizing.equals, Number.beq_self hqty, hmost', Risk.equals_self hrisk]

/-! ## Saved settings -/

/-- Merging over settings with texts leaves settings with texts, which cover any base. -/
theorem Merged.covers {exchange symbol : String} {t : Trade} (h : Merged (default exchange symbol) t)
    (hexchange : exchange.isEmpty = false) (hsymbol : symbol.isEmpty = false) (base : Trade) : base.Covers t := by
  obtain ⟨-, hcovers⟩ := h.settled (default_settled exchange symbol)
  have hpolicy : giveUp.isEmpty = false := by decide
  have hfull : ∀ {a b : String}, a.isEmpty = false → (b.isEmpty = true → a = b) → ¬ b.isEmpty = true := by
    intro a b ha hab hb
    rw [hab hb, hb] at ha
    cases ha
  exact ⟨fun hb => absurd hb (hfull hexchange hcovers.exchange), fun hb => absurd hb (hfull hsymbol hcovers.symbol),
    fun hb => absurd hb (hfull hpolicy hcovers.openConflictPolicy)⟩

/-- **Saved settings are loaded unchanged over any base.** -/
theorem mergeAll_reloads {exchange symbol : String} {ds : List Document} {t : Trade}
    (hexchange : exchange.isEmpty = false) (hsymbol : symbol.isEmpty = false)
    (h : mergeAll (default exchange symbol) ds = .ok t) (base : Trade) :
    ∃ u, base.merge t.toDocument = .ok u ∧ t.Same u ∧ (t.isNumeric = true → u.equals t = true) := by
  have hmerged := merged_iff.mpr ⟨ds, h⟩
  obtain ⟨hsettled, -⟩ := hmerged.settled (default_settled exchange symbol)
  obtain ⟨u, hu, hsame⟩ := hsettled.reread (hmerged.covers hexchange hsymbol base)
  exact ⟨u, hu, hsame, hsame.equals⟩

/-- Settings with a position mode of their own, and a bound that stays a whole number. -/
def portfolio : List Document :=
  [.record [("positionMode", .text " Portfolio "), ("openConflictPolicy", .text "Wait"), ("timeframeSec", .text "9e2")],
    .record [("sizing", .record [("orderQty", .text "inf"), ("leverage", .text "7.9")]),
      ("risk", .record [("stopLossPct", .int (-3)), ("trailing", .record [("enabled", .text "on")])])]]

def elsewhere : Trade where
  exchange := "okx"
  symbol := "ETH/USDT"
  timeframeSec := 300
  positionMode := PositionMode.isolated
  openConflictPolicy := ""
  sizing := ⟨2, .real 5, 3⟩
  risk := ⟨0, 0, ⟨false, 0, 0⟩⟩

theorem mergeAll_reloads_portfolio : ∃ t u, mergeAll (default "bitget" "BTC/USDT") portfolio = .ok t ∧
    elsewhere.merge t.toDocument = .ok u ∧ u.equals t = true ∧ t.equals elsewhere = false := by
  have hrun : ((mergeAll (default "bitget" "BTC/USDT") portfolio).toOption.any fun t =>
      t.isNumeric && !t.equals elsewhere) = true := by
    decide +kernel
  obtain ⟨t, ht, hnumeric⟩ := (Option.any_eq_true _ _).mp hrun
  rw [Bool.and_eq_true, Bool.not_eq_true'] at hnumeric
  have hmerged := eq_ok_of_toOption ht
  obtain ⟨u, hu, -, hequals⟩ := mergeAll_reloads (by decide) (by decide) hmerged elsewhere
  exact ⟨t, u, hmerged, hu, hequals hnumeric.1, hnumeric.2⟩

end Trade

end Stratagem
