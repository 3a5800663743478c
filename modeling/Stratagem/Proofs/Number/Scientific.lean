import Stratagem.Number
import Stratagem.Proofs.Number.Rounding

/-!
# Decimals read as doubles

Every finite double is unpacked to canonical parts, and canonical parts come back from the bits that they
are packed to. A product and a quotient are rounded on their exact value. So a decimal that lies in the interval
of a double is read as that double, whichever way its power of ten is applied.
-/

namespace Stratagem.Number

open Float.Model UnpackedFloat

theorem toNat_implicit (f : BitVec 52) : (1#1 ++ f).toNat = 2 ^ 52 + f.toNat := by
  rw [BitVec.toNat_append, ← Nat.shiftLeft_add_eq_or_of_lt f.isLt]
  rfl

theorem toNat_pos_of_ne_zero {n : Nat} {v : BitVec n} (h : v ≠ 0#n) : 0 < v.toNat := by
  refine Nat.pos_of_ne_zero fun hzero => h (BitVec.eq_of_toNat_eq ?_)
  rw [hzero, BitVec.toNat_zero]

theorem toNat_lt_of_ne_ones {c : BitVec 11} (h : c ≠ -1#11) : c.toNat < 2047 := by
  have hlt := c.isLt
  have hne : c.toNat ≠ 2047 := fun heq => h (BitVec.eq_of_toNat_eq heq)
  omega

theorem canonical_normal (f : BitVec 52) {c : BitVec 11} (hzero : c ≠ 0#11) (hones : c ≠ -1#11) :
    Canonical (1#1 ++ f).toNat (c.toNat - 1075) := by
  have hf := f.isLt
  have hpos := toNat_pos_of_ne_zero hzero
  have hlt := toNat_lt_of_ne_ones hones
  rw [toNat_implicit]
  constructor <;> omega

theorem canonical_subnormal {f : BitVec 52} (hf : f ≠ 0#52) : Canonical f.toNat (0 - 1075 + 1) := by
  have hlt := f.isLt
  have hpos := toNat_pos_of_ne_zero hf
  constructor <;> omega

/-- What is unpacked from bits is in their three components. -/
theorem unpack_of_components {b : BitVec Format.binary64.numBits} {s : Sign} {c : BitVec 11} {f : BitVec 52}
    (hs : Sign.ofBitVec (unpackSign b) = s) (hc : unpackExponent b = c) (hf : unpackMantissa b = f)
    (hones : c ≠ -1#11) :
    UnpackedFloat.unpack .binary64 b =
      if c = 0#11 then
        if hf : f = 0#52 then .zero s
        else .finite s f.toNat (c.toNat - 1075 + 1) (toNat_pos_of_ne_zero hf)
      else .finite s (1#1 ++ f).toNat (c.toNat - 1075) (by rw [toNat_implicit]; omega) := by
  subst hs hc hf
  exact if_neg hones

/-- The parts of a finite double are canonical. -/
theorem canonical_of_unpack {b : BitVec Format.binary64.numBits} {s : Sign} {m : Nat} {e : Int}
    {hm : 0 < m} (h : UnpackedFloat.unpack .binary64 b = .finite s m e hm) : Canonical m e := by
  obtain ⟨c, hc⟩ : ∃ c : BitVec 11, unpackExponent b = c := ⟨_, rfl⟩
  obtain ⟨f, hf⟩ : ∃ f : BitVec 52, unpackMantissa b = f := ⟨_, rfl⟩
  by_cases hones : c = -1#11
  · have hspecial : UnpackedFloat.unpack .binary64 b =
        if unpackMantissa b = 0#52 then .infinity (Sign.ofBitVec (unpackSign b)) else .notANumber :=
      if_pos (hc.trans hones)
    rw [hspecial, hf] at h
    by_cases hzero : f = 0#52
    · rw [if_pos hzero] at h
      cases h
    · rw [if_neg hzero] at h
      cases h
  · rw [unpack_of_components rfl hc hf hones] at h
    by_cases hzero : c = 0#11
    · rw [if_pos hzero, hzero] at h
      by_cases hnone : f = 0#52
      · rw [dif_pos hnone] at h
        cases h
      · rw [dif_neg hnone] at h
        cases h
        exact canonical_subnormal hnone
    · rw [if_neg hzero] at h
      cases h
      exact canonical_normal f hzero hones

theorem unpackSign_packComponents (s : Sign) (c : BitVec 11) (f : BitVec 52) :
    unpackSign (packComponents .binary64 s c f) = s.toBitVec := by
  ext i hi
  have hzero : i = 0 := by omega
  subst hzero
  delta unpackSign packComponents BitVec.extractLsb
  rw [BitVec.getElem_cast, BitVec.getElem_extractLsb']
  show ((s.toBitVec ++ c) ++ f).getLsbD 63 = s.toBitVec[0]
  rw [BitVec.getLsbD_append, if_neg (by decide), BitVec.getLsbD_append, if_neg (by decide)]
  rfl

theorem ofBitVec_toBitVec (s : Sign) : Sign.ofBitVec s.toBitVec = s := by
  cases s <;> rfl

theorem unpack_packComponents (s : Sign) {c : BitVec 11} {f : BitVec 52} (hones : c ≠ -1#11) :
    UnpackedFloat.unpack .binary64 (packComponents .binary64 s c f) =
      if c = 0#11 then
        if hf : f = 0#52 then .zero s
        else .finite s f.toNat (c.toNat - 1075 + 1) (toNat_pos_of_ne_zero hf)
      else .finite s (1#1 ++ f).toNat (c.toNat - 1075) (by rw [toNat_implicit]; omega) := by
  refine unpack_of_components ?_ unpackExponent_packComponents unpackMantissa_packComponents hones
  rw [unpackSign_packComponents, ofBitVec_toBitVec]

theorem finite_congr {s : Sign} {m n : Nat} {e k : Int} {hm : 0 < m} {hn : 0 < n} (h : m = n) (he : e = k) :
    UnpackedFloat.finite s m e hm = .finite s n k hn := by
  subst h he
  rfl

/-- Canonical parts come back from their bits. -/
theorem unpack_pack {m : Nat} {e : Int} (s : Sign) (h : Canonical m e) :
    (Float.Model.pack (.finite s m e h.pos)).unpack = .finite s m e h.pos := by
  show UnpackedFloat.unpack .binary64 (UnpackedFloat.pack .binary64 (.finite s m e h.pos)) = _
  obtain ⟨hpos, hlt, hlow, hhigh, hnormal⟩ := h
  have hlog : m.log2 < 53 := (Nat.log2_lt hpos.ne').mpr hlt
  have hbias : (e + Format.binary64.exponentBias + 52).toNat = (e + 1075).toNat := by
    rw [show (Format.binary64.exponentBias : Int) = 1023 from rfl, add_assoc]
    rfl
  have hfits : ¬ 2 ^ 11 ≤ (e + 1075).toNat + 1 := by omega
  show UnpackedFloat.unpack .binary64 (if 2 ^ 11 ≤ (e + Format.binary64.exponentBias + 52).toNat + 1
    then _ else if m.log2 + 1 = 53 then packComponents .binary64 s
      (BitVec.ofNat 11 (e + Format.binary64.exponentBias + 52).toNat) (BitVec.ofNat 52 m)
      else packComponents .binary64 s 0#11 (BitVec.ofNat 52 m)) = _
  rw [hbias, if_neg hfits]
  by_cases hm : 2 ^ 52 ≤ m
  · have hge : 52 ≤ m.log2 := (Nat.le_log2 hpos.ne').mpr hm
    have hc : (BitVec.ofNat 11 (e + 1075).toNat).toNat = (e + 1075).toNat := by
      rw [BitVec.toNat_ofNat]
      exact Nat.mod_eq_of_lt (by omega)
    have hzero : BitVec.ofNat 11 (e + 1075).toNat ≠ 0#11 := fun heq => by
      rw [heq, BitVec.toNat_zero] at hc
      omega
    have hones : BitVec.ofNat 11 (e + 1075).toNat ≠ -1#11 := fun heq => by
      rw [heq] at hc
      have : (-1#11 : BitVec 11).toNat = 2047 := rfl
      omega
    rw [if_pos (by omega), unpack_packComponents s hones, if_neg hzero]
    have hmantissa : (1#1 ++ BitVec.ofNat 52 m).toNat = m := by
      rw [toNat_implicit, BitVec.toNat_ofNat]
      omega
    exact finite_congr hmantissa (by omega)
  · have he : e = -1074 := hnormal.resolve_left hm
    have hf : (BitVec.ofNat 52 m).toNat = m := by
      rw [BitVec.toNat_ofNat]
      exact Nat.mod_eq_of_lt (by omega)
    have hne : BitVec.ofNat 52 m ≠ 0#52 := fun heq => by
      rw [heq, BitVec.toNat_zero] at hf
      omega
    have hlog52 : m.log2 < 52 := (Nat.log2_lt hpos.ne').mpr (by omega)
    rw [if_neg (by omega), unpack_packComponents s (by decide), if_pos rfl, dif_neg hne]
    exact finite_congr hf he.symm

open Float.Model UnpackedFloat

/-! ## Products and quotients -/

section Operations

variable {m : Nat} {e : Int} {x : ℚ}

/-- A mantissa of 53 bits or more is not rounded below its own exponent. -/
theorem le_targetExponent {M : Nat} {E : Int} (h : 2 ^ 52 ≤ M) :
    E ≤ Format.binary64.targetExponent (totalExponent M E) := by
  have hlog : 52 ≤ M.log2 := (Nat.le_log2 (by omega)).mpr h
  rw [targetExponent_eq, totalExponent]
  omega

theorem RoundsTo.mul (h : RoundsTo m e x) (hc : Canonical m e) {m₁ m₂ : Nat} {e₁ e₂ : Int}
    {hm₁ : 0 < m₁} {hm₂ : 0 < m₂} (hx : x = m₁ * 2 ^ e₁ * (m₂ * 2 ^ e₂)) (hbits : 2 ^ 52 ≤ m₁ * m₂) :
    UnpackedFloat.mul .binary64 (.finite .positive m₁ e₁ hm₁) (.finite .positive m₂ e₂ hm₂) =
      .finite .positive m e hc.pos := by
  refine h.round hc .positive (represents_exact (m₁ * m₂)) ?_ (le_targetExponent hbits)
  rw [hx, zpow_add₀ two_ne_zero, Nat.cast_mul]
  ring

/-- The quotient has 53 bits, or its exponent is that of the smallest doubles. -/
theorem le_targetExponent_div {q : Nat} {E : Int} {y : ℚ} (t₁ t₂ : Int)
    (hE : E ≤ Format.binary64.targetExponent (t₁ - t₂)) (hlow : (2 : ℚ) ^ (t₁ - 1) ≤ y * 2 ^ t₂)
    (hhigh : y < (q + 1) * 2 ^ E) : E ≤ Format.binary64.targetExponent (totalExponent q E) := by
  rw [targetExponent_eq] at hE
  by_cases hsmall : E ≤ -1074
  · rw [targetExponent_eq]
    omega
  · refine le_targetExponent ?_
    have hy : (2 : ℚ) ^ (t₁ - 1 - t₂) ≤ y := by
      rw [zpow_sub₀ two_ne_zero]
      exact (div_le_iff₀ (two_zpow_pos t₂)).mpr hlow
    have hpow : (2 : ℚ) ^ (52 + E) ≤ 2 ^ (t₁ - 1 - t₂) := zpow_le_zpow_right₀ one_le_two (by omega)
    have hq : (2 : ℚ) ^ 52 * 2 ^ E < (q + 1) * 2 ^ E := by
      calc (2 : ℚ) ^ 52 * 2 ^ E = 2 ^ (52 + E) := by rw [zpow_add₀ two_ne_zero]; rfl
        _ ≤ y := hpow.trans hy
        _ < (q + 1) * 2 ^ E := hhigh
    have hlt := lt_of_mul_lt_mul_right hq (two_zpow_pos E).le
    norm_cast at hlt
    omega

theorem RoundsTo.div (h : RoundsTo m e x) (hc : Canonical m e) {m₁ m₂ : Nat} {e₁ e₂ : Int}
    {hm₁ : 0 < m₁} {hm₂ : 0 < m₂} (hx : x = m₁ * 2 ^ e₁ / (m₂ * 2 ^ e₂)) :
    UnpackedFloat.div .binary64 (.finite .positive m₁ e₁ hm₁) (.finite .positive m₂ e₂ hm₂) =
      .finite .positive m e hc.pos := by
  have hm₂q : (0 : ℚ) < m₂ := by exact_mod_cast hm₂
  generalize hE : min (e₁ - e₂)
    (Format.binary64.targetExponent (totalExponent m₁ e₁ - totalExponent m₂ e₂)) = E
  generalize hn : m₁ <<< (e₁ - e₂ - E).toNat = n
  have hdiv : UnpackedFloat.div .binary64 (.finite .positive m₁ e₁ hm₁) (.finite .positive m₂ e₂ hm₂) =
      roundWithAccuracy .binary64 .positive (n / m₂) E (accuracyOfFraction (n % m₂) m₂) := by
    subst hn hE
    rfl
  -- the dividend is shifted by as much as its exponent is lowered
  have hvalue : x = (n : ℚ) / m₂ * 2 ^ E := by
    have hshift : ((e₁ - e₂ - E).toNat : Int) = e₁ - e₂ - E := by omega
    have hpow : (2 : ℚ) ^ e₁ = 2 ^ (e₁ - e₂ - E).toNat * 2 ^ E * 2 ^ e₂ := by
      rw [← zpow_natCast, ← zpow_add₀ two_ne_zero, ← zpow_add₀ two_ne_zero, hshift]
      congr 1
      ring
    have hpos := two_zpow_pos e₂
    rw [hx, ← hn, Nat.shiftLeft_eq, hpow]
    push_cast
    field_simp
  rw [hdiv]
  refine h.round hc .positive (represents_quotient n hm₂) hvalue ?_
  refine le_targetExponent_div (y := x) (totalExponent m₁ e₁) (totalExponent m₂ e₂) (by omega) ?_ ?_
  · have hlow : (2 : ℚ) ^ (totalExponent m₁ e₁ - 1) ≤ m₁ * 2 ^ e₁ := totalExponent_le hm₁.ne' le_rfl
    have hhigh : (m₂ : ℚ) * 2 ^ e₂ < 2 ^ totalExponent m₂ e₂ :=
      lt_totalExponent (mul_lt_mul_of_pos_right (by linarith) (two_zpow_pos e₂))
    have hpos : 0 < (m₂ : ℚ) * 2 ^ e₂ := mul_pos hm₂q (two_zpow_pos e₂)
    have hxpos : 0 ≤ x := by
      rw [hx]
      exact div_nonneg (mul_nonneg (Nat.cast_nonneg m₁) (two_zpow_pos e₁).le) hpos.le
    calc (2 : ℚ) ^ (totalExponent m₁ e₁ - 1) ≤ m₁ * 2 ^ e₁ := hlow
      _ = x * (m₂ * 2 ^ e₂) := by rw [hx, div_mul_cancel₀ _ hpos.ne']
      _ ≤ x * 2 ^ totalExponent m₂ e₂ := mul_le_mul_of_nonneg_left hhigh.le hxpos
  · obtain ⟨-, hlt⟩ := (represents_quotient n hm₂).bounds
    rw [hvalue]
    have hmantissa : (ExtendedMantissa.ofMantissaAndAccuracy (n / m₂)
        (accuracyOfFraction (n % m₂) m₂)).mantissa = n / m₂ := by
      rcases accuracyOfFraction (n % m₂) m₂ with _ | _ | _ | _ <;> rfl
    rw [hmantissa] at hlt
    exact mul_lt_mul_of_pos_right hlt (two_zpow_pos E)

end Operations

/-! ## Powers of ten -/

/-- A positive double of full length and its exact value. -/
structure Exactly (u : UnpackedFloat) (x : ℚ) : Prop where
  finite : ∃ m e, ∃ hm : 0 < m, u = .finite .positive m e hm ∧ x = m * 2 ^ e ∧ 2 ^ 52 ≤ m

theorem RoundsTo.mul_exactly {m : Nat} {e : Int} {x y : ℚ} {u v : UnpackedFloat} (h : RoundsTo m e (x * y))
    (hc : Canonical m e) (hu : Exactly u x) (hv : Exactly v y) :
    u.mul .binary64 v = .finite .positive m e hc.pos := by
  obtain ⟨m₁, e₁, hm₁, rfl, rfl, hlong⟩ := hu
  obtain ⟨m₂, e₂, hm₂, rfl, rfl, -⟩ := hv
  exact h.mul hc rfl (hlong.trans (Nat.le_mul_of_pos_right m₁ hm₂))

theorem RoundsTo.div_exactly {m : Nat} {e : Int} {x y : ℚ} {u v : UnpackedFloat} (h : RoundsTo m e (x / y))
    (hc : Canonical m e) (hu : Exactly u x) (hv : Exactly v y) :
    u.div .binary64 v = .finite .positive m e hc.pos := by
  obtain ⟨m₁, e₁, hm₁, rfl, rfl, -⟩ := hu
  obtain ⟨m₂, e₂, hm₂, rfl, rfl, -⟩ := hv
  exact h.div hc rfl

/-- A whole number of 53 bits at most is a double. -/
theorem exactly_toFloat {n : Nat} (hpos : 0 < n) (hn : n < 2 ^ 53) :
    Exactly n.toUInt64.toFloat.toModel.unpack n := by
  have hlog : n.log2 < 53 := (Nat.log2_lt hpos.ne').mpr hn
  generalize hk : 52 - n.log2 = k
  have hlow : 2 ^ 52 ≤ n * 2 ^ k := by
    calc 2 ^ 52 = 2 ^ n.log2 * 2 ^ k := by rw [← pow_add]; congr 1; omega
      _ ≤ n * 2 ^ k := Nat.mul_le_mul_right _ (Nat.log2_self_le hpos.ne')
  have hhigh : n * 2 ^ k < 2 ^ 53 := by
    calc n * 2 ^ k < 2 ^ (n.log2 + 1) * 2 ^ k :=
          Nat.mul_lt_mul_of_pos_right Nat.lt_log2_self (by positivity)
      _ = 2 ^ 53 := by rw [← pow_add]; congr 1; omega
  have hc : Canonical (n * 2 ^ k) (-k) := by
    constructor <;> omega
  have hvalue : (n : ℚ) = (n * 2 ^ k : ℕ) * 2 ^ (-(k : Int)) := by
    rw [zpow_neg, zpow_natCast]
    push_cast
    field_simp
  refine ⟨n * 2 ^ k, -k, hc.pos, ?_, hvalue, hlow⟩
  have hto : n.toUInt64.toFloat.toModel =
      Float.Model.pack (UnpackedFloat.normalize .binary64 (n : Int) 0 .positive) := by
    show Float.Model.pack (UnpackedFloat.normalize .binary64 (n.toUInt64.toNat : Int) 0 .positive) = _
    rw [show n.toUInt64.toNat = n from Nat.mod_eq_of_lt (by omega)]
  have htarget : (0 - Format.binary64.targetExponent (totalExponent n 0)).toNat = k := by
    rw [targetExponent_eq, totalExponent]
    omega
  have hround : UnpackedFloat.normalize .binary64 (n : Int) 0 .positive =
      roundWithAccuracy .binary64 .positive (n * 2 ^ k) (-k) .exact := by
    have hcompare : compare (n : Int) 0 = .gt := Int.compare_eq_gt.mpr (by omega)
    unfold UnpackedFloat.normalize
    rw [hcompare]
    show roundWithAccuracy .binary64 .positive
      (n <<< (0 - Format.binary64.targetExponent (totalExponent n 0)).toNat)
      (0 - (0 - Format.binary64.targetExponent (totalExponent n 0)).toNat) .exact = _
    rw [htarget, Nat.shiftLeft_eq, zero_sub]
  rw [hto, hround, RoundsTo.self.round hc .positive (represents_exact _) rfl (le_targetExponent hlow)]
  exact unpack_pack .positive hc

def isExactly (n : Nat) : UnpackedFloat → Bool
  | .finite .positive m e _ => -60 ≤ e && m * 2 ^ (e + 60).toNat == n * 2 ^ 60 && 2 ^ 52 ≤ m
  | _ => false

theorem exactly_of_isExactly {u : UnpackedFloat} {n : Nat} (h : isExactly n u = true) : Exactly u n := by
  cases u with
  | notANumber => cases h
  | infinity s => cases h
  | zero s => cases h
  | finite s m e hm =>
      cases s with
      | negative => cases h
      | positive =>
          have hparts : ((-60 ≤ e ∧ m * 2 ^ (e + 60).toNat = n * 2 ^ 60) ∧ 2 ^ 52 ≤ m) := by
            simpa only [Bool.and_eq_true, decide_eq_true_eq, beq_iff_eq] using
              show (decide (-60 ≤ e) && m * 2 ^ (e + 60).toNat == n * 2 ^ 60 && decide (2 ^ 52 ≤ m)) = true
                from h
          obtain ⟨⟨he, hvalue⟩, hlong⟩ := hparts
          refine ⟨m, e, hm, rfl, ?_, hlong⟩
          have hpow : (2 : ℚ) ^ (e + 60).toNat = 2 ^ e * 2 ^ 60 := by
            rw [← zpow_natCast, show ((e + 60).toNat : Int) = e + 60 by omega, zpow_add₀ two_ne_zero]
            rfl
          have hq : (m : ℚ) * 2 ^ (e + 60).toNat = n * 2 ^ 60 := by exact_mod_cast hvalue
          rw [hpow, ← mul_assoc] at hq
          exact (mul_right_cancel₀ (by norm_num) hq).symm

theorem isExactly_powersOfTen : ∀ i : Fin 23,
    isExactly (10 ^ i.val) (Float.exactlyRepresentablePowersOfTen[i]).toModel.unpack = true := by
  decide

/-! ## Reading -/

theorem zpow_natAbs {k : Int} (a : ℚ) (h : 0 ≤ k) : a ^ k = a ^ k.natAbs := by
  rw [← zpow_natCast, Int.natAbs_of_nonneg h]

theorem zpow_natAbs_of_neg {k : Int} (a : ℚ) (h : k < 0) : a ^ k = (a ^ k.natAbs)⁻¹ := by
  rw [← zpow_natCast, ← zpow_neg, Int.ofNat_natAbs_of_nonpos h.le, neg_neg]

section Reading

variable {m n : Nat} {e k : Int}

/-- By the parts, if the numbers are not small. -/
theorem RoundsTo.unpacked (h : RoundsTo m e (n * 10 ^ k)) (hc : Canonical m e) (hn : 0 < n)
    (hhigh : k ≤ 2 ^ 11) (hlow : -(2 ^ 11 : Int) ≤ k + n.log2) :
    UnpackedFloat.ofScientific .binary64 n k = .finite .positive m e hc.pos := by
  have hlarge : ¬ k > 2 ^ Format.binary64.exponentBits := by
    show ¬ k > 2 ^ 11
    omega
  have hsmall : ¬ k < -((2 ^ Format.binary64.exponentBits : Int) + n.log2) := by
    show ¬ k < -((2 ^ 11 : Int) + n.log2)
    omega
  delta UnpackedFloat.ofScientific
  rw [dif_neg hn.ne', if_neg hlarge, if_neg hsmall]
  by_cases hk : 0 ≤ k
  · rw [if_pos hk]
    refine h.mul hc ?_ ?_
    · rw [zpow_natAbs 10 hk, show k.natAbs = k.toNat by omega, Nat.shiftLeft_eq, zpow_neg]
      show _ = ((n * 2 ^ 53 : ℕ) : ℚ) * ((2 : ℚ) ^ 53)⁻¹ * _
      push_cast
      field_simp
    · show 2 ^ 52 ≤ n <<< 53 * 10 ^ k.toNat
      rw [Nat.shiftLeft_eq]
      calc 2 ^ 52 ≤ n * 2 ^ 53 := by omega
        _ ≤ n * 2 ^ 53 * 10 ^ k.toNat := Nat.le_mul_of_pos_right _ (by positivity)
  · rw [if_neg hk]
    refine h.div hc ?_
    rw [zpow_natAbs_of_neg 10 (by omega), show k.natAbs = (-k).toNat by omega]
    push_cast
    field_simp

/-- A decimal in the interval of a double is read as it. -/
theorem RoundsTo.scientific (h : RoundsTo m e (n * 10 ^ k)) (hc : Canonical m e) (hn : 0 < n)
    (hhigh : k ≤ 2 ^ 11) (hlow : -(2 ^ 11 : Int) ≤ k + n.log2) :
    (Float.ofScientific n (k < 0) k.natAbs).toModel.unpack = .finite .positive m e hc.pos := by
  delta Float.ofScientific
  by_cases hfast : n < 2 ^ 53 ∧ k.natAbs ≤ 22
  · rw [dif_pos hfast]
    obtain ⟨hn53, hk22⟩ := hfast
    have hu := exactly_toFloat hn hn53
    have hv := exactly_of_isExactly (isExactly_powersOfTen ⟨k.natAbs, by omega⟩)
    push_cast at hv
    by_cases hk : k < 0
    · rw [if_pos (decide_eq_true hk)]
      rw [zpow_natAbs_of_neg 10 hk, ← div_eq_mul_inv] at h
      have hdiv := h.div_exactly hc hu hv
      show (Float.Model.pack (UnpackedFloat.div .binary64 _ _)).unpack = _
      rw [← unpack_pack .positive hc, ← hdiv]
      rfl
    · rw [if_neg (by simpa using hk)]
      rw [zpow_natAbs 10 (by omega)] at h
      have hmul := h.mul_exactly hc hu hv
      show (Float.Model.pack (UnpackedFloat.mul .binary64 _ _)).unpack = _
      rw [← unpack_pack .positive hc, ← hmul]
      rfl
  · rw [dif_neg hfast]
    show (Float.Model.pack (UnpackedFloat.ofScientific .binary64 n _)).unpack = _
    have hk : (if decide (k < 0) = true then Int.negOfNat k.natAbs else Int.ofNat k.natAbs) = k := by
      split
      · rename_i hneg
        have hlt := of_decide_eq_true hneg
        rw [Int.negOfNat_eq]
        show -(k.natAbs : Int) = k
        omega
      · rename_i hneg
        exact Int.natAbs_of_nonneg (not_lt.mp fun hlt => hneg (decide_eq_true hlt))
    rw [hk, h.unpacked hc hn hhigh hlow]
    exact unpack_pack .positive hc

/-- The decimal logarithm of a power of two, rounded down. -/
theorem log10_two_pow {l : Nat} (hl : l < 1200) : 10 ^ (l * 30103 / 100000) ≤ 2 ^ l ∧
    2 ^ (l + 1) ≤ 20 * 10 ^ (l * 30103 / 100000) := by
  have hall : (List.range 1200).all (fun l => decide (10 ^ (l * 30103 / 100000) ≤ 2 ^ l ∧
      2 ^ (l + 1) ≤ 20 * 10 ^ (l * 30103 / 100000))) = true := by
    decide +kernel
  exact of_decide_eq_true (List.all_eq_true.mp hall l (List.mem_range.mpr hl))

theorem RoundsTo.lt_ten (h : RoundsTo m e (n * 10 ^ k)) (hc : Canonical m e) :
    (n * 10 ^ k : ℚ) < 10 ^ (309 : Int) := by
  have he := hc.high
  calc (n * 10 ^ k : ℚ) < 2 ^ (53 + e) := h.lt_pow hc
    _ ≤ 2 ^ (1024 : Int) := zpow_le_zpow_right₀ one_le_two (by omega)
    _ ≤ 10 ^ (309 : Int) := by exact_mod_cast show 2 ^ 1024 ≤ 10 ^ 309 by decide +kernel

theorem RoundsTo.ten_lt (h : RoundsTo m e (n * 10 ^ k)) (hc : Canonical m e) :
    (10 : ℚ) ^ (-325 : Int) < n * 10 ^ k := by
  have hlow := hc.low
  have hm : (1 : ℚ) ≤ m := by exact_mod_cast hc.pos
  have hgap := lowGap_le m e
  have hten : (2 : ℚ) * 2 ^ 1074 < 10 ^ 325 := by
    exact_mod_cast show 2 * 2 ^ 1074 < 10 ^ 325 by decide +kernel
  calc (10 : ℚ) ^ (-325 : Int) = (10 ^ 325)⁻¹ := by rw [zpow_neg]; rfl
    _ < (2 * 2 ^ 1074)⁻¹ := inv_strictAnti₀ (by positivity) hten
    _ = 1 / 2 * 2 ^ (-1074 : Int) := by rw [zpow_neg, mul_inv, one_div]; rfl
    _ ≤ 1 / 2 * 2 ^ e := mul_le_mul_of_nonneg_left (zpow_le_zpow_right₀ one_le_two hlow) (by norm_num)
    _ ≤ (m - lowGap m e) * 2 ^ e := mul_le_mul_of_nonneg_right (by linarith) (two_zpow_pos e).le
    _ ≤ n * 10 ^ k := h.low

/-- **A decimal in the interval of a double is read as that double.** -/
theorem RoundsTo.decimal (h : RoundsTo m e (n * 10 ^ k)) (hc : Canonical m e) (hn : 0 < n)
    (hlog : n.log2 < 1200) : (ofDecimal n k).toModel.unpack = .finite .positive m e hc.pos := by
  obtain ⟨hten, htwenty⟩ := log10_two_pow hlog
  have hle : n.log2 * 30103 / 100000 ≤ n.log2 := by omega
  generalize hg : n.log2 * 30103 / 100000 = g at hten htwenty hle
  have hlow : ((10 ^ g : ℕ) : ℚ) ≤ n := by exact_mod_cast hten.trans (Nat.log2_self_le hn.ne')
  have hhigh : (n : ℚ) < (20 * 10 ^ g : ℕ) := by exact_mod_cast Nat.lt_log2_self.trans_le htwenty
  push_cast at hlow hhigh
  have hpos : (0 : ℚ) < 10 ^ k := zpow_pos (by norm_num) k
  have hupper : k + g < 309 := by
    refine (zpow_lt_zpow_iff_right₀ (show (1 : ℚ) < 10 by norm_num)).mp ?_
    calc (10 : ℚ) ^ (k + g) = 10 ^ g * 10 ^ k := by
          rw [zpow_add₀ (by norm_num), zpow_natCast, mul_comm]
      _ ≤ n * 10 ^ k := mul_le_mul_of_nonneg_right hlow hpos.le
      _ < 10 ^ (309 : Int) := h.lt_ten hc
  have hlower : -325 < k + g + 2 := by
    refine (zpow_lt_zpow_iff_right₀ (show (1 : ℚ) < 10 by norm_num)).mp ?_
    calc (10 : ℚ) ^ (-325 : Int) < n * 10 ^ k := h.ten_lt hc
      _ ≤ 20 * 10 ^ g * 10 ^ k := mul_le_mul_of_nonneg_right hhigh.le hpos.le
      _ ≤ 100 * 10 ^ g * 10 ^ k := by gcongr; norm_num
      _ = 10 ^ (k + g + 2) := by
          rw [zpow_add₀ (by norm_num), zpow_add₀ (by norm_num), zpow_natCast]
          norm_num
          ring
  have hdecimal : ofDecimal n k = Float.ofScientific n (k < 0) k.natAbs := by
    unfold ofDecimal
    simp only [hg, exponentBound]
    rw [if_neg, if_neg]
    · omega
    · simp only [Bool.or_eq_true, beq_iff_eq, decide_eq_true_eq]
      omega
  rw [hdecimal]
  exact h.scientific hc hn (by omega) (by omega)

end Reading

end Stratagem.Number
