import Mathlib.Algebra.Order.Field.Power
import Mathlib.Data.Nat.Log
import Mathlib.Data.Rat.Cast.Order
import Mathlib.Tactic.FieldSimp
import Mathlib.Tactic.Linarith
import Mathlib.Tactic.NormNum
import Mathlib.Tactic.Ring

/-!
# Rounding to a double

A quotient is rounded by its whole part, the next bit and whether anything follows. `Represents` says which
rationals these three stand for, and halving keeps it. From this comes what the rounding of a double is
for: whatever lies in the interval `RoundsTo` of a double is rounded to that double.
-/

namespace Stratagem.Number

open Float.Model UnpackedFloat

/-! ## Mantissas with two more bits -/

/-- The rationals that a mantissa with its round bit and its sticky bit stands for. -/
def Represents (em : ExtendedMantissa) (z : ℚ) : Prop :=
  match em.roundBit, em.stickyBit with
  | false, false => z = em.mantissa
  | false, true => em.mantissa < z ∧ z < em.mantissa + 1 / 2
  | true, false => z = em.mantissa + 1 / 2
  | true, true => em.mantissa + 1 / 2 < z ∧ z < em.mantissa + 1

section Represents

variable {em : ExtendedMantissa} {z : ℚ}

theorem Represents.bounds (h : Represents em z) : (em.mantissa : ℚ) ≤ z ∧ z < em.mantissa + 1 := by
  obtain ⟨m, r, s⟩ := em
  cases r <;> cases s <;> simp only [Represents] at h ⊢
  · constructor <;> linarith
  · constructor <;> linarith
  · constructor <;> linarith
  · constructor <;> linarith

/-- Dropping a bit halves the number. -/
theorem Represents.halve (h : Represents em z) : Represents em.shiftRightOne (z / 2) := by
  obtain ⟨m, r, s⟩ := em
  have hsplit : (m : ℚ) = 2 * (m / 2 : ℕ) + (m % 2 : ℕ) := by
    exact_mod_cast (Nat.div_add_mod m 2).symm
  rcases Nat.mod_two_eq_zero_or_one m with hm | hm <;> rw [hm] at hsplit <;> push_cast at hsplit <;>
    cases r <;> cases s <;> simp only [Represents] at h <;>
    simp only [Represents, ExtendedMantissa.shiftRightOne, hm, bne_self_eq_false, Bool.or_false,
      Bool.or_true, Nat.reduceBneDiff]
  all_goals first
    | linarith
    | constructor <;> linarith

theorem Represents.shift (h : Represents em z) (n : Nat) : Represents (em >>> n) (z / 2 ^ n) := by
  show Represents (n.repeat ExtendedMantissa.shiftRightOne em) (z / 2 ^ n)
  induction n with
  | zero =>
      rw [pow_zero, div_one]
      exact h
  | succ n ih =>
      have hhalf := ih.halve
      rw [div_div, ← pow_succ] at hhalf
      exact hhalf

theorem represents_exact (m : Nat) :
    Represents (ExtendedMantissa.ofMantissaAndAccuracy m .exact) m := rfl

/-- A quotient is its whole part and the place of the rest. -/
theorem represents_quotient (n : Nat) {d : Nat} (hd : 0 < d) :
    Represents (ExtendedMantissa.ofMantissaAndAccuracy (n / d) (accuracyOfFraction (n % d) d))
      ((n : ℚ) / d) := by
  have hdq : (0 : ℚ) < d := by exact_mod_cast hd
  have hlt : (n % d : ℕ) < d := Nat.mod_lt n hd
  have hltq : ((n % d : ℕ) : ℚ) < d := by exact_mod_cast hlt
  have hz : (n : ℚ) / d = (n / d : ℕ) + (n % d : ℕ) / d := by
    have hsplit : (n : ℚ) = d * (n / d : ℕ) + (n % d : ℕ) := by
      exact_mod_cast (Nat.div_add_mod n d).symm
    field_simp
    linarith
  rw [hz]
  generalize n / d = q
  generalize n % d = r at hlt hltq
  unfold accuracyOfFraction
  by_cases h0 : r = 0
  · rw [if_pos h0, h0, Nat.cast_zero, zero_div, add_zero]
    exact represents_exact q
  · have hr : (0 : ℚ) < (r : ℚ) / d := div_pos (by exact_mod_cast Nat.pos_of_ne_zero h0) hdq
    rw [if_neg h0]
    cases hc : compare (2 * r) d with
    | lt =>
        have h2 : (2 * r : ℚ) < d := by exact_mod_cast Nat.compare_eq_lt.mp hc
        have hhalf : (r : ℚ) / d < 1 / 2 := by
          rw [div_lt_iff₀ hdq]
          linarith
        show (q : ℚ) < q + r / d ∧ (q : ℚ) + r / d < q + 1 / 2
        constructor <;> linarith
    | eq =>
        have h2 : (2 * r : ℚ) = d := by exact_mod_cast Nat.compare_eq_eq.mp hc
        have hhalf : (r : ℚ) / d = 1 / 2 := by
          rw [div_eq_iff hdq.ne']
          linarith
        show (q : ℚ) + r / d = q + 1 / 2
        rw [hhalf]
    | gt =>
        have h2 : (d : ℚ) < 2 * r := by exact_mod_cast Nat.compare_eq_gt.mp hc
        have hhalf : 1 / 2 < (r : ℚ) / d := by
          rw [lt_div_iff₀ hdq]
          linarith
        have hone : (r : ℚ) / d < 1 := by
          rw [div_lt_iff₀ hdq]
          linarith
        show (q : ℚ) + 1 / 2 < q + r / d ∧ (q : ℚ) + r / d < q + 1
        constructor <;> linarith

/-- The mantissa is rounded to what is nearest, and to what is even if two are equally near. -/
theorem Represents.rounded (h : Represents em z) {n : Nat} (hlow : (n : ℚ) - 1 / 2 ≤ z)
    (hhigh : z ≤ n + 1 / 2) (hodd : n % 2 = 1 → (n : ℚ) - 1 / 2 < z ∧ z < n + 1 / 2) :
    em.roundedMantissa = n := by
  obtain ⟨m, r, s⟩ := em
  cases r <;> cases s <;> simp only [Represents] at h
  · show m = n
    have h1 : (m : ℚ) < n + 1 := by linarith
    have h2 : (n : ℚ) < m + 1 := by linarith
    norm_cast at h1 h2
    omega
  · show m = n
    have h1 : (m : ℚ) < n + 1 := by linarith
    have h2 : (n : ℚ) < m + 1 := by linarith
    norm_cast at h1 h2
    omega
  · show m + m % 2 = n
    have h1 : (m : ℚ) ≤ n := by linarith
    have h2 : (n : ℚ) ≤ m + 1 := by linarith
    norm_cast at h1 h2
    -- a tie lies at an end of the interval, which an odd number does not reach
    have heven : n % 2 = 0 := by
      rcases Nat.mod_two_eq_zero_or_one n with h0 | h0
      · exact h0
      · obtain ⟨h3, h4⟩ := hodd h0
        have h5 : (m : ℚ) < n := by linarith
        have h6 : (n : ℚ) < m + 1 := by linarith
        norm_cast at h5 h6
        omega
    omega
  · show m + 1 = n
    have h1 : (m : ℚ) < n := by linarith
    have h2 : (n : ℚ) < m + 2 := by linarith
    norm_cast at h1 h2
    omega

end Represents

/-! ## The interval of a double -/

/-- The mantissa and the exponent of a finite double. -/
structure Canonical (m : Nat) (e : Int) : Prop where
  pos : 0 < m
  lt : m < 2 ^ 53
  low : -1074 ≤ e
  high : e ≤ 971
  normal : 2 ^ 52 ≤ m ∨ e = -1074

/-- How far below the double lies the end of its interval, in units of its last place: half as far if the
double below it is half as far. -/
def lowGap (m : Nat) (e : Int) : ℚ := if m = 2 ^ 52 ∧ e ≠ -1074 then 1 / 4 else 1 / 2

theorem lowGap_pos (m : Nat) (e : Int) : 0 < lowGap m e := by
  rw [lowGap]
  split <;> norm_num

theorem lowGap_le (m : Nat) (e : Int) : lowGap m e ≤ 1 / 2 := by
  rw [lowGap]
  split <;> norm_num

/-- What rounds to the double. The ends of the interval belong to an even mantissa. -/
structure RoundsTo (m : Nat) (e : Int) (x : ℚ) : Prop where
  low : (m - lowGap m e) * 2 ^ e ≤ x
  high : x ≤ (m + 1 / 2) * 2 ^ e
  strict : m % 2 = 1 → (m - lowGap m e) * 2 ^ e < x ∧ x < (m + 1 / 2) * 2 ^ e

section RoundsTo

variable {m : Nat} {e : Int} {x : ℚ}

theorem two_zpow_pos (k : Int) : (0 : ℚ) < 2 ^ k := zpow_pos (by norm_num) k

theorem roundsTo_of_lt (hlow : (m - lowGap m e) * 2 ^ e < x) (hhigh : x < (m + 1 / 2) * 2 ^ e) :
    RoundsTo m e x :=
  ⟨hlow.le, hhigh.le, fun _ => ⟨hlow, hhigh⟩⟩

/-- A double rounds to itself. -/
theorem RoundsTo.self : RoundsTo m e (m * 2 ^ e) := by
  have hpos := two_zpow_pos e
  have hgap := lowGap_pos m e
  apply roundsTo_of_lt
  · exact mul_lt_mul_of_pos_right (by linarith) hpos
  · exact mul_lt_mul_of_pos_right (by linarith) hpos

theorem Canonical.log2 (h : Canonical m e) : Format.binary64.targetExponent (totalExponent m e) = e := by
  obtain ⟨hpos, hlt, hlow, -, hnormal⟩ := h
  have hle : m.log2 < 53 := (Nat.log2_lt hpos.ne').mpr hlt
  show max ((m.log2 : Int) + 1 + e - 53) (-1074) = e
  rcases hnormal with hn | rfl
  · have hge : 52 ≤ m.log2 := (Nat.le_log2 hpos.ne').mpr hn
    omega
  · omega

theorem RoundsTo.lt_pow (h : RoundsTo m e x) (hc : Canonical m e) : x < (2 : ℚ) ^ (53 + e) := by
  have hm : (m : ℚ) + 1 ≤ 2 ^ 53 := by exact_mod_cast hc.lt
  calc x ≤ (m + 1 / 2) * 2 ^ e := h.high
    _ < 2 ^ 53 * 2 ^ e := mul_lt_mul_of_pos_right (by linarith) (two_zpow_pos e)
    _ = 2 ^ (53 + e) := by rw [zpow_add₀ two_ne_zero]; rfl

theorem RoundsTo.pow_lt (h : RoundsTo m e x) (hm : 2 ^ 52 < m) : (2 : ℚ) ^ (52 + e) < x := by
  have hmq : (2 : ℚ) ^ 52 + 1 ≤ m := by exact_mod_cast hm
  have hgap := lowGap_le m e
  calc (2 : ℚ) ^ (52 + e) = 2 ^ 52 * 2 ^ e := by rw [zpow_add₀ two_ne_zero]; rfl
    _ < (m - lowGap m e) * 2 ^ e := mul_lt_mul_of_pos_right (by linarith) (two_zpow_pos e)
    _ ≤ x := h.low

theorem RoundsTo.pow_lt_of_normal (h : RoundsTo m e x) (hm : 2 ^ 52 ≤ m) : (2 : ℚ) ^ (51 + e) < x := by
  have hmq : (2 : ℚ) ^ 52 ≤ m := by exact_mod_cast hm
  have hgap := lowGap_le m e
  calc (2 : ℚ) ^ (51 + e) = 2 ^ 51 * 2 ^ e := by rw [zpow_add₀ two_ne_zero]; rfl
    _ < (m - lowGap m e) * 2 ^ e := mul_lt_mul_of_pos_right (by linarith) (two_zpow_pos e)
    _ ≤ x := h.low

theorem lt_of_zpow_lt {a b : Int} (h : (2 : ℚ) ^ a < 2 ^ b) : a < b :=
  (zpow_lt_zpow_iff_right₀ one_lt_two).mp h

/-- A mantissa with an exponent stands for numbers below the power of its total exponent. -/
theorem lt_totalExponent {M : Nat} {E : Int} (hhigh : x < (M + 1) * (2 : ℚ) ^ E) :
    x < 2 ^ totalExponent M E := by
  have hM : (M : ℚ) + 1 ≤ 2 ^ (M.log2 + 1) := by exact_mod_cast Nat.lt_log2_self
  calc x < (M + 1) * 2 ^ E := hhigh
    _ ≤ 2 ^ (M.log2 + 1) * 2 ^ E := mul_le_mul_of_nonneg_right hM (two_zpow_pos E).le
    _ = 2 ^ totalExponent M E := by
        rw [totalExponent, zpow_add₀ two_ne_zero]
        norm_cast

theorem totalExponent_le {M : Nat} {E : Int} (hM : M ≠ 0) (hlow : M * (2 : ℚ) ^ E ≤ x) :
    (2 : ℚ) ^ (totalExponent M E - 1) ≤ x := by
  have hlog : (2 : ℚ) ^ M.log2 ≤ M := by exact_mod_cast Nat.log2_self_le hM
  calc (2 : ℚ) ^ (totalExponent M E - 1) = 2 ^ M.log2 * 2 ^ E := by
        rw [totalExponent, show (M.log2 : Int) + 1 + E - 1 = M.log2 + E by ring,
          zpow_add₀ two_ne_zero]
        norm_cast
    _ ≤ M * 2 ^ E := mul_le_mul_of_nonneg_right hlog (two_zpow_pos E).le
    _ ≤ x := hlow

theorem targetExponent_eq (t : Int) : Format.binary64.targetExponent t = max (t - 53) (-1074) := rfl

/-- The exponent that a number of the interval is rounded at is that of the double, or the one below if the
number lies below a power of two. -/
theorem RoundsTo.target (h : RoundsTo m e x) (hc : Canonical m e) {M : Nat} {E : Int}
    (hE : E ≤ Format.binary64.targetExponent (totalExponent M E))
    (hlow : M * (2 : ℚ) ^ E ≤ x) (hhigh : x < (M + 1) * (2 : ℚ) ^ E) :
    Format.binary64.targetExponent (totalExponent M E) = e ∨
      m = 2 ^ 52 ∧ -1074 < e ∧ x < 2 ^ (52 + e) ∧
        Format.binary64.targetExponent (totalExponent M E) = e - 1 := by
  have hhi := lt_totalExponent hhigh
  have hupper : totalExponent M E - 53 ≤ e := by
    by_cases hM : M = 0
    · have hzero : totalExponent M E = 1 + E := by rw [hM]; rfl
      have hlowe := hc.low
      rw [targetExponent_eq, hzero] at hE
      omega
    · have hlt := lt_of_zpow_lt ((totalExponent_le hM hlow).trans_lt (h.lt_pow hc))
      omega
  have hlowe := hc.low
  rw [targetExponent_eq]
  rcases hc.normal with hnormal | hsub
  · rcases hnormal.lt_or_eq with hm | hm
    · have hlt := lt_of_zpow_lt ((h.pow_lt hm).trans hhi)
      left
      omega
    · have hlt := lt_of_zpow_lt ((h.pow_lt_of_normal hnormal).trans hhi)
      by_cases ht : totalExponent M E - 53 = e
      · left
        omega
      · by_cases he : e = -1074
        · left
          omega
        · right
          have hle : totalExponent M E ≤ 52 + e := by omega
          have hpow : (2 : ℚ) ^ totalExponent M E ≤ 2 ^ (52 + e) :=
            zpow_le_zpow_right₀ one_le_two hle
          exact ⟨hm.symm, by omega, hhi.trans_le hpow, by omega⟩
  · left
    omega

/-- At the exponent of the double, its mantissa is what is nearest. -/
theorem RoundsTo.rounded (h : RoundsTo m e x) {em : ExtendedMantissa} {y : ℚ} (hy : Represents em y)
    (hx : x = y * 2 ^ e) : em.roundedMantissa = m := by
  have hpos := two_zpow_pos e
  have hgap := lowGap_le m e
  have hlow : (m : ℚ) - lowGap m e ≤ y := le_of_mul_le_mul_right (hx ▸ h.low) hpos
  have hhigh : y ≤ m + 1 / 2 := le_of_mul_le_mul_right (hx ▸ h.high) hpos
  refine hy.rounded (by linarith) hhigh fun hodd => ?_
  obtain ⟨hlt, hlt'⟩ := h.strict hodd
  have hstrict : (m : ℚ) - lowGap m e < y := lt_of_mul_lt_mul_right (hx ▸ hlt) hpos.le
  exact ⟨by linarith, lt_of_mul_lt_mul_right (hx ▸ hlt') hpos.le⟩

/-- At the exponent below, the number is rounded up to the power of two that the double is. -/
theorem RoundsTo.rounded_below (h : RoundsTo m e x) (hm : m = 2 ^ 52) (he : -1074 < e)
    (hlt : x < (2 : ℚ) ^ (52 + e)) {em : ExtendedMantissa} {y : ℚ} (hy : Represents em y)
    (hx : x = y * 2 ^ (e - 1)) : em.roundedMantissa = 2 ^ 53 := by
  have hpos := two_zpow_pos (e - 1)
  have hdouble : (2 : ℚ) ^ e = 2 * 2 ^ (e - 1) := by
    rw [← zpow_one_add₀ two_ne_zero, add_sub_cancel]
  have hlow : (2 : ℚ) ^ 53 - 1 / 2 ≤ y := by
    have hle := h.low
    rw [lowGap, if_pos ⟨hm, he.ne'⟩, hm, hx, hdouble] at hle
    refine le_of_mul_le_mul_right (le_trans (le_of_eq ?_) hle) hpos
    push_cast
    ring
  have hhigh : y < (2 : ℚ) ^ 53 := by
    rw [zpow_add₀ two_ne_zero, hx, hdouble] at hlt
    refine lt_of_mul_lt_mul_right (hlt.trans_le (le_of_eq ?_)) hpos.le
    norm_cast
    ring
  refine hy.rounded (by push_cast; linarith) (by push_cast; linarith) fun hodd => ?_
  exact absurd hodd (by norm_num)

/-- Rounding shifts to the target exponent, rounds the mantissa, and shifts again in case that overflowed. -/
theorem roundWithAccuracy_eq (s : Sign) {M r : Nat} {E T : Int} {acc : Accuracy} (hpos : 0 < m)
    (hT : E + ((Format.binary64.targetExponent (totalExponent M E) - E).toNat : Int) = T)
    (hr : (ExtendedMantissa.ofMantissaAndAccuracy M acc >>>
      (Format.binary64.targetExponent (totalExponent M E) - E).toNat).roundedMantissa = r)
    (hm : (ExtendedMantissa.ofMantissaAndAccuracy r .exact >>>
      (Format.binary64.targetExponent (totalExponent r T) - T).toNat).mantissa = m)
    (he : T + ((Format.binary64.targetExponent (totalExponent r T) - T).toNat : Int) = e) :
    roundWithAccuracy .binary64 s M E acc = .finite s m e hpos := by
  subst hT hr hm he
  exact dif_neg hpos.ne'

/-- **Whatever lies in the interval of a double rounds to it.** -/
theorem RoundsTo.round (h : RoundsTo m e x) (hc : Canonical m e) (s : Sign) {M : Nat} {E : Int}
    {acc : Accuracy} {z : ℚ} (hz : Represents (.ofMantissaAndAccuracy M acc) z) (hx : x = z * 2 ^ E)
    (hE : E ≤ Format.binary64.targetExponent (totalExponent M E)) :
    roundWithAccuracy .binary64 s M E acc = .finite s m e hc.pos := by
  have hM : (ExtendedMantissa.ofMantissaAndAccuracy M acc).mantissa = M := by
    rcases acc with _ | _ | _ | _ <;> rfl
  obtain ⟨hMlow, hMhigh⟩ := hz.bounds
  rw [hM] at hMlow hMhigh
  have htarget := h.target hc hE (hx ▸ mul_le_mul_of_nonneg_right hMlow (two_zpow_pos E).le)
    (hx ▸ mul_lt_mul_of_pos_right hMhigh (two_zpow_pos E))
  generalize hT : Format.binary64.targetExponent (totalExponent M E) = T at hE htarget
  have hk : E + ((T - E).toNat : Int) = T := by omega
  have hshift := hz.shift (T - E).toNat
  -- the shifted mantissa stands for the number in units of the target exponent
  have hunit : x = z / 2 ^ (T - E).toNat * 2 ^ T := by
    have hpow : (2 : ℚ) ^ T = 2 ^ E * 2 ^ (T - E).toNat := by
      rw [← zpow_natCast, ← zpow_add₀ two_ne_zero, hk]
    rw [hx, hpow]
    field_simp
  generalize z / 2 ^ (T - E).toNat = y at hshift hunit
  rcases htarget with rfl | ⟨hm, he, hlt, rfl⟩
  · refine roundWithAccuracy_eq s hc.pos (T := T) (r := m) ?_ ?_ ?_ ?_
    · rw [hT, hk]
    · rw [hT, h.rounded hshift hunit]
    · rw [hc.log2, sub_self]
      rfl
    · rw [hc.log2, sub_self]
      exact add_zero T
  · -- rounding overflows the mantissa, and shifting once more brings it to the exponent of the double
    have hlog : Format.binary64.targetExponent (totalExponent (2 ^ 53) (e - 1)) = e := by
      rw [totalExponent, Nat.log2_two_pow, targetExponent_eq]
      omega
    have hone : (e - (e - 1)).toNat = 1 := by omega
    refine roundWithAccuracy_eq s hc.pos (T := e - 1) (r := 2 ^ 53) ?_ ?_ ?_ ?_
    · rw [hT, hk]
    · rw [hT, h.rounded_below hm he hlt hshift hunit]
    · rw [hlog, hone, hm]
      rfl
    · rw [hlog, hone]
      omega

end RoundsTo

end Stratagem.Number
