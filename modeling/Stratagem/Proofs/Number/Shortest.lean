import Stratagem.Number.Double
import Stratagem.Proofs.Number.Rounding

/-!
# Shortest digits round to their double

The shortest decimal of a double lies in the interval of the double. Seventeen digits suffice: the grid of
seventeen digits is finer than the interval is wide.
-/

namespace Stratagem.Number

/-! ## Ratios -/

def Ratio.value (r : Ratio) : ℚ := r.num / r.den

section Ratio

variable {base : Nat}

theorem Ratio.scaled_den_pos (hb : 0 < base) (n : Nat) (k : Int) : 0 < (Ratio.scaled base n k).den := by
  unfold Ratio.scaled
  split
  · exact Nat.one_pos
  · exact Nat.pow_pos hb

theorem Ratio.scaled_value (base n : Nat) (k : Int) :
    (Ratio.scaled base n k).value = n * (base : ℚ) ^ k := by
  unfold Ratio.scaled
  split
  · rename_i hk
    show ((n * base ^ k.toNat : ℕ) : ℚ) / (1 : ℕ) = _
    rw [← Int.toNat_of_nonneg hk, zpow_natCast, Int.toNat_natCast]
    push_cast
    rw [div_one]
  · rename_i hk
    show (n : ℚ) / ((base ^ (-k).toNat : ℕ) : ℚ) = _
    have hneg : k = -((-k).toNat : Int) := by omega
    rw [hneg, zpow_neg, zpow_natCast, neg_neg, Int.toNat_natCast]
    push_cast
    rw [div_eq_mul_inv]

theorem Ratio.le_iff {a b : Ratio} (ha : 0 < a.den) (hb : 0 < b.den) :
    a.le b = true ↔ a.value ≤ b.value := by
  have haq : (0 : ℚ) < a.den := by exact_mod_cast ha
  have hbq : (0 : ℚ) < b.den := by exact_mod_cast hb
  rw [Ratio.le, decide_eq_true_eq, Ratio.value, Ratio.value, div_le_div_iff₀ haq hbq]
  norm_cast

theorem Ratio.lt_iff {a b : Ratio} (ha : 0 < a.den) (hb : 0 < b.den) :
    a.lt b = true ↔ a.value < b.value := by
  have haq : (0 : ℚ) < a.den := by exact_mod_cast ha
  have hbq : (0 : ℚ) < b.den := by exact_mod_cast hb
  rw [Ratio.lt, decide_eq_true_eq, Ratio.value, Ratio.value, div_lt_div_iff₀ haq hbq]
  norm_cast

end Ratio

/-! ## The interval -/

section Interval

variable {m : Nat} {e : Int}

theorem roundingInterval_low (hm : 0 < m) : (roundingInterval m e).low.value = (m - lowGap m e) * 2 ^ e := by
  have hshift : (2 : ℚ) ^ (e - 2) = 2 ^ e / 4 := by
    rw [zpow_sub₀ two_ne_zero]
    norm_num
  unfold roundingInterval lowGap
  dsimp only
  rw [Ratio.scaled_value]
  by_cases h : m = 2 ^ 52 ∧ e ≠ -1074
  · have hcond : (m == Nat.pow 2 52 && e != -1074) = true := by
      rw [Bool.and_eq_true, beq_iff_eq, bne_iff_ne]
      exact h
    rw [if_pos h, if_pos hcond, Nat.cast_sub (by omega)]
    push_cast
    rw [hshift]
    ring
  · have hcond : ¬ (m == Nat.pow 2 52 && e != -1074) = true := by
      rw [Bool.and_eq_true, beq_iff_eq, bne_iff_ne]
      exact h
    rw [if_neg h, if_neg hcond, Nat.cast_sub (by omega)]
    push_cast
    rw [hshift]
    ring

theorem roundingInterval_high : (roundingInterval m e).high.value = (m + 1 / 2) * 2 ^ e := by
  have hshift : (2 : ℚ) ^ (e - 2) = 2 ^ e / 4 := by
    rw [zpow_sub₀ two_ne_zero]
    norm_num
  unfold roundingInterval
  dsimp only
  rw [Ratio.scaled_value]
  push_cast
  rw [hshift]
  ring

/-- The interval holds what rounds to the double. -/
theorem contains_iff (hm : 0 < m) {r : Ratio} (hr : 0 < r.den) :
    (roundingInterval m e).contains r = true ↔ RoundsTo m e r.value := by
  have hlow : 0 < (roundingInterval m e).low.den := Ratio.scaled_den_pos (by norm_num) _ _
  have hhigh : 0 < (roundingInterval m e).high.den := Ratio.scaled_den_pos (by norm_num) _ _
  unfold Interval.contains
  rw [show (roundingInterval m e).closed = (m % 2 == 0) from rfl]
  split
  · rename_i heven
    rw [Bool.and_eq_true, Ratio.le_iff hlow hr, Ratio.le_iff hr hhigh, roundingInterval_low hm,
      roundingInterval_high]
    rw [beq_iff_eq] at heven
    exact ⟨fun h => ⟨h.1, h.2, fun hodd => by omega⟩, fun h => ⟨h.low, h.high⟩⟩
  · rename_i hodd
    rw [Bool.and_eq_true, Ratio.lt_iff hlow hr, Ratio.lt_iff hr hhigh, roundingInterval_low hm,
      roundingInterval_high]
    rw [beq_iff_eq] at hodd
    exact ⟨fun h => ⟨h.1.le, h.2.le, fun _ => h⟩, fun h => h.strict (by omega)⟩

end Interval

/-! ## The search -/

section Search

variable {m : Nat} {e k : Int} {r : Ratio}

theorem ten_zpow_pos (k : Int) : (0 : ℚ) < 10 ^ k := zpow_pos (by norm_num) k

/-- How many units of the grid lie below the value. -/
def unitsBelow (r : Ratio) (k : Int) : Nat :=
  r.num * (Ratio.scaled 10 1 k).den / (r.den * (Ratio.scaled 10 1 k).num)

/-- The value lies between two neighbours on the grid. -/
theorem unitsBelow_bounds (hr : 0 < r.den) (k : Int) :
    (unitsBelow r k : ℚ) * 10 ^ k ≤ r.value ∧ r.value < (unitsBelow r k + 1) * 10 ^ k := by
  have hunit : ((Ratio.scaled 10 1 k).num : ℚ) / (Ratio.scaled 10 1 k).den = 10 ^ k := by
    have hvalue := Ratio.scaled_value 10 1 k
    rw [Nat.cast_one, one_mul] at hvalue
    exact hvalue
  have hden : (0 : ℚ) < (Ratio.scaled 10 1 k).den := by
    exact_mod_cast Ratio.scaled_den_pos (by norm_num) 1 k
  have hnum : (0 : ℚ) < (Ratio.scaled 10 1 k).num := by
    rw [div_eq_iff hden.ne'] at hunit
    rw [hunit]
    exact mul_pos (ten_zpow_pos k) hden
  have hrq : (0 : ℚ) < r.den := by exact_mod_cast hr
  have hd : 0 < r.den * (Ratio.scaled 10 1 k).num := Nat.mul_pos hr (by exact_mod_cast hnum)
  have hlow := Nat.div_mul_le_self (r.num * (Ratio.scaled 10 1 k).den)
    (r.den * (Ratio.scaled 10 1 k).num)
  have hhigh := Nat.lt_div_mul_add hd (a := r.num * (Ratio.scaled 10 1 k).den)
  have hlowq : (unitsBelow r k : ℚ) * (r.den * (Ratio.scaled 10 1 k).num) ≤
      r.num * (Ratio.scaled 10 1 k).den := by exact_mod_cast hlow
  have hhighq : (r.num : ℚ) * (Ratio.scaled 10 1 k).den <
      (unitsBelow r k + 1) * (r.den * (Ratio.scaled 10 1 k).num) := by
    rw [add_one_mul]
    exact_mod_cast hhigh
  rw [← hunit, Ratio.value]
  constructor
  · rw [le_div_iff₀ hrq, mul_div_assoc', div_mul_eq_mul_div, div_le_iff₀ hden]
    linarith
  · rw [div_lt_iff₀ hrq, mul_div_assoc', div_mul_eq_mul_div, lt_div_iff₀ hden]
    linarith

/-- What is taken is one of the neighbours, and in the interval. -/
theorem gridPoint?_eq_some {i : Interval} {d : Decimal} (h : gridPoint? r i k = some d) :
    d.exponent = k ∧ d.digits ≤ unitsBelow r k + 1 ∧ i.contains (Ratio.scaled 10 d.digits k) = true := by
  unfold gridPoint? at h
  dsimp only at h
  rw [← unitsBelow] at h
  generalize unitsBelow r k = below at h ⊢
  split at h
  · rename_i hboth
    simp only [Bool.and_eq_true] at hboth
    obtain ⟨⟨-, hbelow⟩, habove⟩ := hboth
    obtain rfl := Option.some.inj h
    refine ⟨rfl, ?_, ?_⟩
    · dsimp only
      split_ifs <;> omega
    · dsimp only
      split_ifs
      · exact hbelow
      · exact habove
      · rcases Nat.mod_two_eq_zero_or_one below with heven | hodd
        · rw [heven]
          exact hbelow
        · rw [hodd]
          exact habove
  · split at h
    · rename_i hbelow
      obtain rfl := Option.some.inj h
      exact ⟨rfl, Nat.le_succ below, (Bool.and_eq_true_iff.mp hbelow).2⟩
    · split at h
      · rename_i habove
        obtain rfl := Option.some.inj h
        exact ⟨rfl, le_rfl, habove⟩
      · cases h

theorem gridPoint?_eq_none {i : Interval} (h : gridPoint? r i k = none) (hzero : unitsBelow r k ≠ 0) :
    i.contains (Ratio.scaled 10 (unitsBelow r k) k) = false ∧
      i.contains (Ratio.scaled 10 (unitsBelow r k + 1) k) = false := by
  unfold gridPoint? at h
  dsimp only at h
  rw [← unitsBelow] at h
  generalize unitsBelow r k = below at h hzero ⊢
  split at h
  · cases h
  · split at h
    · cases h
    · rename_i hbelow
      split at h
      · cases h
      · rename_i habove
        rw [bne_iff_ne.mpr hzero, Bool.true_and] at hbelow
        exact ⟨by simpa using hbelow, by simpa using habove⟩

/-- The interval is wider than the sixteenth decimal place of the double. -/
theorem width_lt (hc : Canonical m e) : (m : ℚ) * 2 ^ e < (lowGap m e + 1 / 2) * 2 ^ e * 10 ^ 16 := by
  have hm : (m : ℚ) < (lowGap m e + 1 / 2) * 10 ^ 16 := by
    have hlt : (m : ℚ) < 2 ^ 53 := by exact_mod_cast hc.lt
    rw [lowGap]
    split
    · rename_i h
      rw [h.1]
      norm_num
    · linarith
  have hmul := mul_lt_mul_of_pos_right hm (two_zpow_pos e)
  linarith

theorem not_contains {n : Nat} (hm : 0 < m)
    (h : (roundingInterval m e).contains (Ratio.scaled 10 n k) = false) :
    ¬ RoundsTo m e (n * 10 ^ k) := by
  intro hround
  have hvalue := Ratio.scaled_value 10 n k
  push_cast at hvalue
  rw [← hvalue, ← contains_iff hm (Ratio.scaled_den_pos (by norm_num) n k), h] at hround
  cases hround

/-- A grid as fine as the sixteenth place has a point in the interval. -/
theorem gridPoint?_isSome (hc : Canonical m e) (hk : (10 : ℚ) ^ k * 10 ^ 16 ≤ m * 2 ^ e) :
    (gridPoint? (Ratio.scaled 2 m e) (roundingInterval m e) k).isSome = true := by
  have hden : 0 < (Ratio.scaled 2 m e).den := Ratio.scaled_den_pos (by norm_num) m e
  obtain ⟨hbelow, habove⟩ := unitsBelow_bounds hden k
  rw [Ratio.scaled_value, Nat.cast_ofNat] at hbelow habove
  cases h : gridPoint? (Ratio.scaled 2 m e) (roundingInterval m e) k with
  | some d => rfl
  | none =>
      exfalso
      have hzero : unitsBelow (Ratio.scaled 2 m e) k ≠ 0 := by
        intro hzero
        rw [hzero] at habove
        have := ten_zpow_pos k
        push_cast at habove
        linarith
      -- were both neighbours outside, the interval would lie between them
      obtain ⟨hin, hin'⟩ := gridPoint?_eq_none h hzero
      generalize unitsBelow (Ratio.scaled 2 m e) k = n at hbelow habove hin hin'
      have hpos := two_zpow_pos e
      have hgap := lowGap_pos m e
      have hlow : (n : ℚ) * 10 ^ k ≤ (m - lowGap m e) * 2 ^ e := by
        by_contra hlt
        refine not_contains hc.pos hin (roundsTo_of_lt (not_le.mp hlt) ?_)
        linarith
      have hhigh : (m + 1 / 2) * 2 ^ e ≤ (n + 1 : ℚ) * 10 ^ k := by
        by_contra hlt
        refine not_contains hc.pos hin' (roundsTo_of_lt ?_ ?_)
        · have := mul_pos hgap hpos
          push_cast
          linarith
        · push_cast
          exact not_le.mp hlt
      have hwidth := width_lt hc
      linarith

/-- The search ends at its first hit, at the latest with the last number of digits. -/
theorem searchDigits_eq_some {i : Interval} {leading : Int} (remaining : Nat) (count : Int)
    (h : (gridPoint? r i (leading - (count + remaining) + 1)).isSome = true) :
    ∃ d c, count ≤ c ∧ c ≤ count + remaining ∧ gridPoint? r i (leading - c + 1) = some d ∧
      searchDigits r i leading (remaining + 1) count = some d := by
  induction remaining generalizing count with
  | zero =>
      rw [Nat.cast_zero, add_zero] at h
      obtain ⟨d, hd⟩ := Option.isSome_iff_exists.mp h
      refine ⟨d, count, le_rfl, by omega, hd, ?_⟩
      rw [searchDigits, hd]
      rfl
  | succ n ih =>
      cases hd : gridPoint? r i (leading - count + 1) with
      | some d =>
          refine ⟨d, count, le_rfl, by omega, hd, ?_⟩
          rw [searchDigits, hd]
          rfl
      | none =>
          obtain ⟨d, c, hlow, hhigh, hpoint, hsearch⟩ := ih (count + 1) (by
            rw [← h]
            push_cast
            ring_nf)
          refine ⟨d, c, by omega, by push_cast; omega, hpoint, ?_⟩
          rw [searchDigits, hd]
          exact hsearch

/-! ## The leading digit -/

/-- Powers of two between powers of ten, over the exponents of doubles; all exponents are shifted, so that
none is negative. -/
theorem two_pow_bounds {i : Nat} (hi : i < 2098) :
    10 ^ ((i * 30103 + 7669378) / 100000 - 1) * 2 ^ 1074 ≤ 2 ^ i * 10 ^ 400 ∧
      2 ^ (i + 1) * 10 ^ 400 < 10 ^ ((i * 30103 + 7669378) / 100000 + 2) * 2 ^ 1074 := by
  have hall : (List.range 2098).all (fun i => decide
      (10 ^ ((i * 30103 + 7669378) / 100000 - 1) * 2 ^ 1074 ≤ 2 ^ i * 10 ^ 400 ∧
        2 ^ (i + 1) * 10 ^ 400 < 10 ^ ((i * 30103 + 7669378) / 100000 + 2) * 2 ^ 1074)) = true := by
    decide +kernel
  exact of_decide_eq_true (List.all_eq_true.mp hall i (List.mem_range.mpr hi))

/-- The guess of the leading exponent is one off at most. -/
theorem guess_bounds {l : Int} (hlow : -1074 ≤ l) (hhigh : l < 1024) :
    (10 : ℚ) ^ ((l * 30103).fdiv 100000 - 1) ≤ 2 ^ l ∧
      (2 : ℚ) ^ (l + 1) < 10 ^ ((l * 30103).fdiv 100000 + 2) := by
  obtain ⟨i, hi⟩ : ∃ i : Nat, l = i - 1074 := ⟨(l + 1074).toNat, by omega⟩
  obtain ⟨hle, hlt⟩ := two_pow_bounds (i := i) (by omega)
  -- 7669378 is 400 * 100000 - 1074 * 30103
  rw [Int.fdiv_eq_ediv_of_nonneg _ (by norm_num)]
  generalize hg : (i * 30103 + 7669378) / 100000 = g at hle hlt
  have hfdiv : l * 30103 / 100000 = g - 400 := by omega
  have hpos : 1 ≤ g := by omega
  rw [hfdiv, hi]
  have h1074 : (0 : ℚ) < 2 ^ 1074 := by positivity
  have h400 : (0 : ℚ) < 10 ^ 400 := by positivity
  constructor
  · have hq : (10 : ℚ) ^ (g - 1) * 2 ^ 1074 ≤ 2 ^ i * 10 ^ 400 := by exact_mod_cast hle
    rw [show (g : Int) - 400 - 1 = (g - 1 : ℕ) - (400 : ℕ) by omega, zpow_sub₀ (by norm_num),
      zpow_sub₀ two_ne_zero, zpow_natCast, zpow_natCast, zpow_natCast, zpow_ofNat,
      div_le_div_iff₀ h400 h1074]
    exact hq
  · have hq : (2 : ℚ) ^ (i + 1) * 10 ^ 400 < 10 ^ (g + 2) * 2 ^ 1074 := by exact_mod_cast hlt
    rw [show (g : Int) - 400 + 2 = (g + 2 : ℕ) - (400 : ℕ) by omega, zpow_sub₀ (by norm_num),
      show (i : Int) - 1074 + 1 = (i + 1 : ℕ) - (1074 : ℕ) by omega, zpow_sub₀ two_ne_zero,
      zpow_natCast, zpow_natCast, zpow_natCast, zpow_natCast, div_lt_div_iff₀ h1074 h400]
    exact hq

/-- The leading digit stands at the exponent. -/
theorem leadingExponent_bounds (hc : Canonical m e) :
    (10 : ℚ) ^ leadingExponent m e ≤ m * 2 ^ e ∧ (m : ℚ) * 2 ^ e < 10 ^ (leadingExponent m e + 1) := by
  have hlog : m.log2 < 53 := (Nat.log2_lt hc.pos.ne').mpr hc.lt
  have hlow := hc.low
  have hhigh := hc.high
  obtain ⟨hle, hlt⟩ := guess_bounds (l := m.log2 + e) (by omega) (by omega)
  have hm : (2 : ℚ) ^ (m.log2 + e : Int) ≤ m * 2 ^ e := by
    have h := totalExponent_le hc.pos.ne' (le_refl ((m : ℚ) * 2 ^ e))
    rwa [Float.Model.totalExponent, show (m.log2 : Int) + 1 + e - 1 = m.log2 + e by ring] at h
  have hm' : (m : ℚ) * 2 ^ e < 2 ^ (m.log2 + e + 1 : Int) := by
    have h := lt_totalExponent (M := m) (E := e)
      (mul_lt_mul_of_pos_right (lt_add_one (m : ℚ)) (two_zpow_pos e))
    rwa [Float.Model.totalExponent, show (m.log2 : Int) + 1 + e = m.log2 + e + 1 by ring] at h
  unfold leadingExponent
  dsimp only
  generalize ((m.log2 + e) * 30103).fdiv 100000 = guess at hle hlt
  have hden : 0 < (Ratio.scaled 2 m e).den := Ratio.scaled_den_pos (by norm_num) m e
  have hvalue : ∀ k, (Ratio.scaled 10 1 k).value = 10 ^ k := fun k => by
    rw [Ratio.scaled_value, Nat.cast_one, one_mul, Nat.cast_ofNat]
  have hunit : ∀ k, 0 < (Ratio.scaled 10 1 k).den := Ratio.scaled_den_pos (by norm_num) 1
  split
  · rename_i habove
    rw [Ratio.le_iff (hunit _) hden, hvalue, Ratio.scaled_value, Nat.cast_ofNat] at habove
    refine ⟨habove, (hm'.trans hlt).trans_le (le_of_eq ?_)⟩
    ring_nf
  · rename_i habove
    rw [Ratio.le_iff (hunit _) hden, hvalue, Ratio.scaled_value, Nat.cast_ofNat] at habove
    split
    · rename_i hbelow
      rw [Ratio.lt_iff hden (hunit _), hvalue, Ratio.scaled_value, Nat.cast_ofNat] at hbelow
      refine ⟨hle.trans hm, ?_⟩
      rwa [sub_add_cancel]
    · rename_i hbelow
      rw [Ratio.lt_iff hden (hunit _), hvalue, Ratio.scaled_value, Nat.cast_ofNat] at hbelow
      exact ⟨not_lt.mp hbelow, not_le.mp habove⟩

/-- **The shortest decimal of a double rounds to it**, and has seventeen digits at most. -/
theorem roundsTo_shortest (hc : Canonical m e) :
    RoundsTo m e ((shortest m e).digits * 10 ^ (shortest m e).exponent) ∧
      (shortest m e).digits ≤ 10 ^ 17 := by
  obtain ⟨hlow, hhigh⟩ := leadingExponent_bounds hc
  generalize hl : leadingExponent m e = l at hlow hhigh
  have hlast : (gridPoint? (Ratio.scaled 2 m e) (roundingInterval m e) (l - (1 + (16 : ℕ)) + 1)).isSome =
      true := by
    refine gridPoint?_isSome hc (le_trans (le_of_eq ?_) hlow)
    rw [← zpow_natCast, ← zpow_add₀ (by norm_num)]
    congr 1
    push_cast
    ring
  obtain ⟨d, c, hlowc, hhighc, hpoint, hsearch⟩ := searchDigits_eq_some 16 1 hlast
  have hshortest : shortest m e = d := by
    unfold shortest
    rw [hl, hsearch]
    rfl
  obtain ⟨hexponent, hdigits, hin⟩ := gridPoint?_eq_some hpoint
  rw [hshortest]
  constructor
  · rw [contains_iff hc.pos (Ratio.scaled_den_pos (by norm_num) _ _), Ratio.scaled_value,
      Nat.cast_ofNat] at hin
    rw [hexponent]
    exact hin
  · obtain ⟨hbelow, -⟩ := unitsBelow_bounds (Ratio.scaled_den_pos (by norm_num) m e)
      (r := Ratio.scaled 2 m e) (l - c + 1)
    rw [Ratio.scaled_value, Nat.cast_ofNat] at hbelow
    generalize unitsBelow (Ratio.scaled 2 m e) (l - c + 1) = n at hdigits hbelow
    have hunits : (n : ℚ) < 10 ^ (17 : Int) := by
      refine lt_of_mul_lt_mul_right ?_ (ten_zpow_pos (l - c + 1)).le
      calc (n : ℚ) * 10 ^ (l - c + 1) ≤ m * 2 ^ e := hbelow
        _ < 10 ^ (l + 1) := hhigh
        _ ≤ 10 ^ (17 + (l - c + 1)) := zpow_le_zpow_right₀ (by norm_num) (by omega)
        _ = 10 ^ (17 : Int) * 10 ^ (l - c + 1) := zpow_add₀ (by norm_num) _ _
    have hnat : n < 10 ^ 17 := by exact_mod_cast hunits
    omega

end Search

end Stratagem.Number
