import Mathlib
import Stratagem.Proofs.Number.Same
import Stratagem.Proofs.Number.Scientific
import Stratagem.Proofs.Number.Shortest
import Stratagem.Proofs.Number.Text

/-!
# The text of a double reads back

The shortest digits of a double lie in its interval, and a whole double is its digits. Either way the text
is read as the double that was written. A double is its parts, so doubles that are the same differ in the sign of
zero at most; the whole part of a double is a double again, and a whole double is its whole part.
-/

namespace Stratagem.Number

open Float.Model UnpackedFloat

section Finite

variable {m : Nat} {e : Int}

/-- A text of a decimal in the interval of a double, read. -/
theorem readReal?_decimal (hc : Canonical m e) {n : Nat} {k : Int} (h : RoundsTo m e (n * 10 ^ k))
    (hlog : n.log2 < 1200) (s : Sign) {cs : List Char} (hcs : ∀ c ∈ cs, isNumeral c = true)
    (hhead : ∃ c r, cs = c :: r ∧ c.isDigit = true) (hread : readDecimal? cs = some (n, k)) :
    ∃ y, readReal? (String.ofList (signText s ++ cs)) = some y ∧
      y.toModel.unpack = .finite s m e hc.pos := by
  obtain ⟨c, cs, rfl, hc0⟩ := hhead
  have hn : 0 < n := by
    refine Nat.pos_of_ne_zero fun hzero => ?_
    have hlow := h.ten_lt hc
    rw [hzero, Nat.cast_zero, zero_mul] at hlow
    exact absurd hlow (by norm_num)
  refine ⟨_, readReal?_signText hc0 (List.forall_mem_cons.mp hcs).2 hread s, ?_⟩
  have hy := h.decimal hc hn hlog
  cases s with
  | positive => exact hy
  | negative =>
      show (Float.Model.pack (UnpackedFloat.neg (ofDecimal n k).toModel.unpack)).unpack = _
      rw [hy]
      exact unpack_pack .negative hc

/-- The shortest text of a double is read back. -/
theorem readReal?_render {x : Float} {s : Sign} {hm : 0 < m} (hx : x.toModel.unpack = .finite s m e hm) :
    ∃ y, readReal? (render plain x) = some y ∧ y.toModel.unpack = .finite s m e hm := by
  have hc : Canonical m e := canonical_of_unpack hx
  obtain ⟨hround, hdigits⟩ := roundsTo_shortest hc
  unfold render
  rw [hx]
  dsimp only
  generalize shortest m e = d at hround hdigits
  obtain ⟨hne, j, hsplit⟩ := dropTrailingZeros_append (digitsOf_ne_nil d.digits)
  generalize dropTrailingZeros (digitsOf d.digits) = ds at hne hsplit
  have hds : ∀ c ∈ ds, c.isDigit = true := fun c hc =>
    isDigit_digitsOf (n := d.digits) (by rw [hsplit]; exact List.mem_append_left _ hc)
  have hvalue : d.digits = natOfDigits ds * 10 ^ j := by
    calc d.digits = natOfDigits (digitsOf d.digits) := (natOfDigits_digitsOf d.digits).symm
      _ = natOfDigits ds * 10 ^ j := by
          rw [hsplit, natOfDigits_append_zeros]
  have hlen : (digitsOf d.digits).length = ds.length + j := by
    rw [hsplit, List.length_append, length_zeros]
  obtain ⟨n, hn, hread⟩ := readDecimal?_place hds hne (d.exponent + (digitsOf d.digits).length - 1)
  refine readReal?_decimal hc ?_ ?_ s (isNumeral_place hds _) (place_eq_cons hds hne _) hread
  · have hexponent : d.exponent + ((digitsOf d.digits).length : Int) - 1 + 1 - ds.length - n =
        d.exponent + j - n := by
      rw [hlen]
      push_cast
      ring
    have hten : (10 : ℚ) ^ (d.exponent + j - n) = 10 ^ d.exponent * 10 ^ j / 10 ^ n := by
      rw [zpow_sub₀ (by norm_num), zpow_add₀ (by norm_num), zpow_natCast, zpow_natCast]
    rw [hvalue] at hround
    rw [hexponent, hten]
    push_cast at hround ⊢
    refine cast (congrArg (RoundsTo m e) ?_) hround
    field_simp
  · have hle : natOfDigits ds * 10 ^ n ≤ 10 ^ 17 * 10 ^ 17 := by
      refine Nat.mul_le_mul (le_trans ?_ hdigits) (Nat.pow_le_pow_right (by norm_num) hn)
      rw [hvalue]
      exact Nat.le_mul_of_pos_right _ (by positivity)
    rcases Nat.eq_zero_or_pos (natOfDigits ds * 10 ^ n) with hzero | hpos
    · rw [hzero, Nat.log2_zero]
      norm_num
    · have hlog := (Nat.log2_lt (k := 120) hpos.ne').mpr (hle.trans_lt (by norm_num))
      omega

/-- The text of a whole number is read back. -/
theorem readReal?_whole (hc : Canonical m e) (s : Sign) {n : Nat} (hn : (n : ℚ) = m * 2 ^ e) :
    ∃ y, readReal? (decimal (s.apply n)) = some y ∧ y.toModel.unpack = .finite s m e hc.pos := by
  have hpos : 0 < n := by
    have hq : (0 : ℚ) < n := hn ▸ mul_pos (by exact_mod_cast hc.pos) (two_zpow_pos e)
    exact_mod_cast hq
  have htext : decimal (s.apply n) = String.ofList (signText s ++ digitsOf n) := by
    unfold decimal
    cases s with
    | positive =>
        show String.ofList ((if (n : Int) < 0 then ['-'] else []) ++ digitsOf (n : Int).natAbs) = _
        rw [if_neg (by omega), Int.natAbs_natCast]
        rfl
    | negative =>
        show String.ofList ((if -(n : Int) < 0 then ['-'] else []) ++ digitsOf (-(n : Int)).natAbs) = _
        rw [if_pos (by omega), Int.natAbs_neg, Int.natAbs_natCast]
        rfl
  have hround : RoundsTo m e (n * 10 ^ (0 : Int)) := by
    rw [zpow_zero, mul_one, hn]
    exact RoundsTo.self
  have hlog : n.log2 < 1200 := by
    have hle : (2 : ℚ) ^ n.log2 ≤ n := by exact_mod_cast Nat.log2_self_le hpos.ne'
    have hlt : (n : ℚ) < 2 ^ (53 + e) := hn ▸ RoundsTo.self.lt_pow hc
    rw [← zpow_natCast] at hle
    have hexponent := lt_of_zpow_lt (hle.trans_lt hlt)
    have hhigh := hc.high
    omega
  have hread : readDecimal? (digitsOf n) = some (n, 0) := by
    have h := readDecimal?_whole (fun _ => isDigit_digitsOf) (digitsOf_ne_nil n) endsDigits_nil nofun
    rw [List.append_nil, natOfDigits_digitsOf] at h
    exact h
  rw [htext]
  refine readReal?_decimal hc hround hlog s (fun c hc => isNumeral_of_isDigit (isDigit_digitsOf hc)) ?_ hread
  obtain ⟨c, cs, hcs⟩ := List.exists_cons_of_ne_nil (digitsOf_ne_nil n)
  exact ⟨c, cs, hcs, isDigit_digitsOf (n := n) (hcs ▸ List.mem_cons_self)⟩

/-- A whole double has its whole number for a value. -/
theorem integral?_finite {x : Float} {s : Sign} {hm : 0 < m} (hx : x.toModel.unpack = .finite s m e hm)
    {k : Int} (h : integral? x = some k) : ∃ n : Nat, k = s.apply n ∧ (n : ℚ) = m * 2 ^ e := by
  unfold integral? isIntegral truncate? at h
  rw [hx] at h
  dsimp only at h
  split at h
  · rename_i hwhole
    by_cases he : 0 ≤ e
    · rw [if_pos he] at h
      refine ⟨m * Nat.pow 2 e.toNat, (Option.some.inj h).symm, ?_⟩
      obtain ⟨j, rfl⟩ := Int.eq_ofNat_of_zero_le he
      rw [Int.toNat_natCast, zpow_natCast, Nat.cast_mul]
      congr 1
      exact Nat.cast_pow 2 j
    · rw [if_neg he] at h
      refine ⟨m / Nat.pow 2 (-e).toNat, (Option.some.inj h).symm, ?_⟩
      rw [Bool.or_eq_true, decide_eq_true_eq, beq_iff_eq] at hwhole
      have hdiv := Nat.div_mul_cancel (Nat.dvd_of_mod_eq_zero (hwhole.resolve_left he))
      have hneg : e = -((-e).toNat : Int) := by omega
      generalize (-e).toNat = j at hdiv hneg
      have hq : ((m / 2 ^ j : ℕ) : ℚ) * 2 ^ j = m := by exact_mod_cast hdiv
      rw [hneg, zpow_neg, zpow_natCast, ← hq]
      show ((m / 2 ^ j : ℕ) : ℚ) = _
      field_simp
  · cases h

end Finite

theorem readReal?_nan : readReal? "nan" = some notANumber := rfl

theorem readReal?_zero : readReal? "0" = some 0 := rfl

theorem readReal?_infinity : readReal? "inf" = some infinity ∧ readReal? "-inf" = some (-infinity) :=
  ⟨rfl, rfl⟩

/-- **The text of a double reads back as the same double**, no number as such. -/
theorem readReal?_briefText (x : Float) : ∃ y, readReal? (briefText x) = some y ∧ Same y x := by
  cases hx : x.toModel.unpack with
  | notANumber =>
      refine ⟨notANumber, ?_, Or.inl hx.symm⟩
      have htext : briefText x = "nan" := by
        simp only [briefText, integral?, isIntegral, render, hx]
        rfl
      rw [htext, readReal?_nan]
  | infinity s =>
      cases s with
      | positive =>
          refine ⟨infinity, ?_, Or.inl hx.symm⟩
          have htext : briefText x = "inf" := by
            simp only [briefText, integral?, isIntegral, render, hx]
            rfl
          rw [htext, readReal?_infinity.1]
      | negative =>
          refine ⟨-infinity, ?_, Or.inl hx.symm⟩
          have htext : briefText x = "-inf" := by
            simp only [briefText, integral?, isIntegral, render, hx]
            rfl
          rw [htext, readReal?_infinity.2]
  | zero s =>
      refine ⟨0, ?_, Or.inr ⟨⟨.positive, rfl⟩, s, hx⟩⟩
      have htext : briefText x = "0" := by
        simp only [briefText, integral?, isIntegral, truncate?, hx]
        rfl
      rw [htext, readReal?_zero]
  | finite s m e hm =>
      unfold briefText
      cases hk : integral? x with
      | none =>
          obtain ⟨y, hy, heq⟩ := readReal?_render hx
          exact ⟨y, hy, Or.inl (heq.trans hx.symm)⟩
      | some k =>
          obtain ⟨n, rfl, hn⟩ := integral?_finite hx hk
          obtain ⟨y, hy, heq⟩ := readReal?_whole (canonical_of_unpack hx) s hn
          exact ⟨y, hy, Or.inl (heq.trans hx.symm)⟩

open Float.Model UnpackedFloat

/-! ## Parts -/

theorem eq_of_unpack {x y : Float} (h : x.toModel.unpack = y.toModel.unpack) : x = y := by
  have hbits : x.toModel.toBits.toBitVec = y.toModel.toBits.toBitVec :=
    (unpack_inj_of_valid x.toModel.valid y.toModel.valid).mp h
  exact Float.toBits_inj.mp (UInt64.toBitVec_inj.mp hbits)

theorem beq_zero_of_unpack {x : Float} {s : Sign} (h : x.toModel.unpack = .zero s) : (x == 0) = true := by
  show x.toModel.unpack.beq (.zero .positive) = true
  rw [h]
  cases s <;> rfl

theorem unpack_of_beq_zero {x : Float} (h : (x == 0) = true) : ∃ s, x.toModel.unpack = .zero s := by
  have hbeq : x.toModel.unpack.beq (.zero .positive) = true := h
  obtain ⟨-, -, heq | ⟨heq, -⟩ | ⟨heq, -⟩⟩ := (beq_iff_ne_notANumber_and_eq _ _).mp hbeq
  · exact ⟨_, heq⟩
  · exact ⟨_, heq⟩
  · exact ⟨_, heq⟩

/-- The sign of zero is all that the same doubles may differ in. -/
theorem Same.eq_or_zero {x y : Float} (h : Same x y) : x = y ∨ (x == 0) = true ∧ (y == 0) = true := by
  rcases h with h | ⟨⟨s, hx⟩, t, hy⟩
  · exact Or.inl (eq_of_unpack h)
  · exact Or.inr ⟨beq_zero_of_unpack hx, beq_zero_of_unpack hy⟩

/-! ## Whole numbers -/

section Whole

variable {m n : Nat} {e : Int}

theorem whole_pos (hc : Canonical m e) (hn : (n : ℚ) = m * 2 ^ e) : 0 < n := by
  have hq : (0 : ℚ) < n := hn ▸ mul_pos (by exact_mod_cast hc.pos) (two_zpow_pos e)
  exact_mod_cast hq

theorem ofNat_unpack (hc : Canonical m e) (hn : (n : ℚ) = m * 2 ^ e) :
    (Float.ofNat n).toModel.unpack = .finite .positive m e hc.pos := by
  have hround : RoundsTo m e (n * 10 ^ (0 : Int)) := by
    rw [zpow_zero, mul_one, hn]
    exact RoundsTo.self
  exact hround.scientific hc (whole_pos hc hn) (by norm_num) (by omega)

theorem ofInt_unpack (hc : Canonical m e) (s : Sign) (hn : (n : ℚ) = m * 2 ^ e) :
    (Float.ofInt (s.apply n)).toModel.unpack = .finite s m e hc.pos := by
  have hnat := ofNat_unpack hc hn
  cases s with
  | positive => exact hnat
  | negative =>
      obtain ⟨k, rfl⟩ := Nat.exists_eq_add_one_of_ne_zero (whole_pos hc hn).ne'
      show (Float.Model.pack (UnpackedFloat.neg (Float.ofNat (k + 1)).toModel.unpack)).unpack = _
      rw [hnat]
      exact unpack_pack .negative hc

/-- A whole number that some double is has that double. -/
theorem ofInt?_unpack (hc : Canonical m e) (s : Sign) (hn : (n : ℚ) = m * 2 ^ e) :
    ∃ y, ofInt? (s.apply n) = some y ∧ y.toModel.unpack = .finite s m e hc.pos := by
  have hunpack := ofInt_unpack hc s hn
  refine ⟨Float.ofInt (s.apply n), if_neg ?_, hunpack⟩
  show ¬ (Float.ofInt (s.apply n)).toModel.unpack.isInf = true
  rw [hunpack]
  exact Bool.false_ne_true

/-- The whole part of a whole double is what it is. -/
theorem truncate?_finite {x : Float} {s : Sign} (hc : Canonical m e)
    (hx : x.toModel.unpack = .finite s m e hc.pos) (hn : (n : ℚ) = m * 2 ^ e) :
    truncate? x = some (s.apply n) := by
  have hwhole : (if 0 ≤ e then m * 2 ^ e.toNat else m / 2 ^ (-e).toNat) = n := by
    by_cases he : 0 ≤ e
    · obtain ⟨j, rfl⟩ := Int.eq_ofNat_of_zero_le he
      rw [if_pos he, Int.toNat_natCast]
      rw [zpow_natCast] at hn
      exact_mod_cast hn.symm
    · obtain ⟨j, hj⟩ := Int.eq_ofNat_of_zero_le (show 0 ≤ -e by omega)
      rw [if_neg he, hj, Int.toNat_natCast]
      rw [show e = -(j : Int) by omega, zpow_neg, zpow_natCast, eq_mul_inv_iff_mul_eq₀ (by positivity)] at hn
      have hnat : n * 2 ^ j = m := by exact_mod_cast hn
      rw [← hnat, Nat.mul_div_cancel _ (by positivity)]
  unfold truncate?
  rw [hx, ← hwhole]
  dsimp only
  split <;> rfl

end Whole

theorem integral?_of_unpack_zero {x : Float} {s : Sign} (h : x.toModel.unpack = .zero s) :
    integral? x = some 0 := by
  rw [integral?, isIntegral, truncate?, h]
  rfl

/-- A whole double is its whole number. -/
theorem ofInt?_integral {x : Float} {k : Int} (h : integral? x = some k) :
    ∃ y, ofInt? k = some y ∧ Same y x := by
  cases hx : x.toModel.unpack with
  | notANumber =>
      simp only [integral?, isIntegral, hx] at h
      cases h
  | infinity s =>
      simp only [integral?, isIntegral, hx] at h
      cases h
  | zero s =>
      simp only [integral?, isIntegral, truncate?, hx] at h
      cases h
      exact ⟨0, rfl, Or.inr ⟨⟨.positive, rfl⟩, s, hx⟩⟩
  | finite s m e hm =>
      obtain ⟨n, rfl, hn⟩ := integral?_finite hx h
      obtain ⟨y, hy, hunpack⟩ := ofInt?_unpack (canonical_of_unpack hx) s hn
      exact ⟨y, hy, Or.inl (hunpack.trans hx.symm)⟩

/-- Below the precision of a double every whole number is one. -/
theorem exists_canonical {n : Nat} (hpos : 0 < n) (hlt : n < 2 ^ 53) :
    ∃ m e, Canonical m e ∧ (n : ℚ) = m * 2 ^ e := by
  have hlog : n.log2 < 53 := (Nat.log2_lt hpos.ne').mpr hlt
  obtain ⟨j, hj⟩ : ∃ j, n.log2 + j = 52 := ⟨52 - n.log2, by omega⟩
  have hlow : 2 ^ 52 ≤ n * 2 ^ j := by
    rw [← hj, pow_add]
    exact Nat.mul_le_mul_right _ (Nat.log2_self_le hpos.ne')
  have hhigh : n * 2 ^ j < 2 ^ 53 := by
    rw [show 53 = n.log2 + 1 + j by omega, pow_add]
    exact Nat.mul_lt_mul_of_pos_right Nat.lt_log2_self (by positivity)
  refine ⟨n * 2 ^ j, -j, ⟨by omega, hhigh, by omega, by omega, Or.inl hlow⟩, ?_⟩
  rw [zpow_neg, zpow_natCast]
  push_cast
  field_simp

theorem ofInt?_canonical {m n : Nat} {e : Int} (hc : Canonical m e) (s : Sign) (hn : (n : ℚ) = m * 2 ^ e) :
    ∃ y, ofInt? (s.apply n) = some y ∧ truncate? y = some (s.apply n) := by
  obtain ⟨y, hy, hunpack⟩ := ofInt?_unpack hc s hn
  exact ⟨y, hy, truncate?_finite hc hunpack hn⟩

/-- The whole part of a double is a double, and its own whole part. -/
theorem ofInt?_truncate {x : Float} {k : Int} (h : truncate? x = some k) :
    ∃ y, ofInt? k = some y ∧ truncate? y = some k := by
  have hzero : ∃ y, ofInt? 0 = some y ∧ truncate? y = some 0 := ⟨0, rfl, rfl⟩
  unfold truncate? at h
  cases hx : x.toModel.unpack with
  | notANumber =>
      rw [hx] at h
      cases h
  | infinity s =>
      rw [hx] at h
      cases h
  | zero s =>
      rw [hx] at h
      cases h
      exact hzero
  | finite s m e hm =>
      rw [hx] at h
      have hc := canonical_of_unpack hx
      by_cases he : 0 ≤ e
      · obtain ⟨j, rfl⟩ := Int.eq_ofNat_of_zero_le he
        dsimp only at h
        rw [if_pos he, Int.toNat_natCast] at h
        cases h
        refine ofInt?_canonical hc s ?_
        rw [zpow_natCast]
        exact_mod_cast rfl
      · dsimp only at h
        rw [if_neg he] at h
        cases h
        have hle : m / Nat.pow 2 (-e).toNat ≤ m := Nat.div_le_self _ _
        generalize m / Nat.pow 2 (-e).toNat = n at hle
        rcases Nat.eq_zero_or_pos n with rfl | hpos
        · -- what is smaller than one has the whole part zero, whatever its sign
          cases s <;> exact hzero
        · obtain ⟨m', e', hc', hn⟩ := exists_canonical hpos (hle.trans_lt hc.lt)
          exact ofInt?_canonical hc' s hn

end Stratagem.Number
