import Stratagem.Proofs.Number.RoundTrip

/-!
# The order of doubles

Doubles that are numbers stand in one order: of two of them one is less, or they are the same. Nothing is less
than what is no number, nor at most as much, and a difference is no number if a part of it is none, or if both
are the same infinity.
-/

namespace Stratagem.Number

open Float.Model UnpackedFloat

/-! ## Doubles that are no numbers -/

theorem isNaN_iff {x : Float} : x.isNaN = true ↔ x.toModel.unpack = .notANumber := by
  show x.toModel.unpack.isNaN = true ↔ _
  cases x.toModel.unpack <;> simp [UnpackedFloat.isNaN]

theorem isInf_iff {x : Float} : x.isInf = true ↔ ∃ s, x.toModel.unpack = .infinity s := by
  show x.toModel.unpack.isInf = true ↔ _
  cases x.toModel.unpack <;> simp [UnpackedFloat.isInf]

theorem unpack_ne_of_isNaN {x : Float} (h : x.isNaN = false) : x.toModel.unpack ≠ .notANumber := by
  intro hnone
  rw [isNaN_iff.mpr hnone] at h
  cases h

/-- There is one double that is no number. -/
theorem eq_of_isNaN {x y : Float} (hx : x.isNaN = true) (hy : y.isNaN = true) : x = y :=
  eq_of_unpack ((isNaN_iff.mp hx).trans (isNaN_iff.mp hy).symm)

theorem round_ne_notANumber (f : Format) (s : Sign) (m : Nat) (e : Int) :
    UnpackedFloat.round f s m e ≠ .notANumber := by
  unfold UnpackedFloat.round roundWithAccuracy
  dsimp only
  split <;> nofun

theorem normalize_ne_notANumber (f : Format) (m e : Int) (s : Sign) :
    UnpackedFloat.normalize f m e s ≠ .notANumber := by
  unfold UnpackedFloat.normalize
  split
  · exact round_ne_notANumber _ _ _ _
  · nofun
  · exact round_ne_notANumber _ _ _ _

/-- Packing may leave the range of the doubles, but not the numbers. -/
theorem unpack_pack_eq_notANumber_iff {u : UnpackedFloat} :
    (Float.Model.pack u).unpack = .notANumber ↔ u = .notANumber := by
  show UnpackedFloat.unpack .binary64 (UnpackedFloat.pack .binary64 u) = _ ↔ _
  cases u with
  | notANumber => exact iff_of_true rfl rfl
  | infinity s => cases s <;> exact iff_of_false nofun nofun
  | zero s => cases s <;> exact iff_of_false nofun nofun
  | finite s m e hm =>
      refine iff_of_false ?_ nofun
      have hcomponents : ∀ {c : BitVec 11} {p : BitVec 52}, c ≠ -1#11 →
          UnpackedFloat.unpack .binary64 (packComponents .binary64 s c p) ≠ .notANumber := by
        intro c p hc
        rw [unpack_packComponents s hc]
        split
        · split <;> nofun
        · nofun
      unfold UnpackedFloat.pack
      dsimp only
      split
      · cases s <;> nofun
      · rename_i hfits
        split
        · refine hcomponents fun hones => hfits ?_
          have hnat := congrArg BitVec.toNat hones
          rw [BitVec.toNat_ofNat] at hnat
          have hall : (-1#11 : BitVec 11).toNat = 2047 := rfl
          have hmod := Nat.mod_le (e + Format.binary64.exponentBias + Format.binary64.mantissaBitsWithoutImplicit).toNat
            (2 ^ Format.binary64.exponentBits)
          have hbits : 2 ^ Format.binary64.exponentBits = 2048 := rfl
          omega
        · exact hcomponents (by decide)

theorem sub_eq_notANumber_iff {f : Format} {u v : UnpackedFloat} : u.sub f v = .notANumber ↔
    u = .notANumber ∨ v = .notANumber ∨ ∃ s, u = .infinity s ∧ v = .infinity s := by
  cases u with
  | notANumber => exact iff_of_true rfl (Or.inl rfl)
  | infinity s =>
      cases v with
      | notANumber => exact iff_of_true rfl (Or.inr (Or.inl rfl))
      | infinity t =>
          cases s with
          | positive =>
              cases t with
              | positive => exact iff_of_true rfl (Or.inr (Or.inr ⟨_, rfl, rfl⟩))
              | negative => exact iff_of_false nofun (by simp)
          | negative =>
              cases t with
              | positive => exact iff_of_false nofun (by simp)
              | negative => exact iff_of_true rfl (Or.inr (Or.inr ⟨_, rfl, rfl⟩))
      | zero t => simp [UnpackedFloat.sub]
      | finite t m e hm => simp [UnpackedFloat.sub]
  | zero s =>
      cases v with
      | notANumber => exact iff_of_true rfl (Or.inr (Or.inl rfl))
      | infinity t => simp [UnpackedFloat.sub]
      | zero t =>
          refine iff_of_false ?_ (by simp)
          unfold UnpackedFloat.sub
          dsimp only
          split <;> nofun
      | finite t m e hm => simp [UnpackedFloat.sub]
  | finite s m e hm =>
      cases v with
      | notANumber => exact iff_of_true rfl (Or.inr (Or.inl rfl))
      | infinity t => simp [UnpackedFloat.sub]
      | zero t => simp [UnpackedFloat.sub]
      | finite t n k hn => simp [UnpackedFloat.sub, normalize_ne_notANumber]

/-- A difference is no number if a part of it is none, or if both are the same infinity. -/
theorem isNaN_sub {x y : Float} :
    (x - y).isNaN = true ↔ x.isNaN = true ∨ y.isNaN = true ∨ x.isInf = true ∧ x = y := by
  have hsub : (x - y).toModel.unpack =
      (Float.Model.pack (x.toModel.unpack.sub .binary64 y.toModel.unpack)).unpack := rfl
  rw [isNaN_iff, hsub, unpack_pack_eq_notANumber_iff, sub_eq_notANumber_iff, isNaN_iff, isNaN_iff, isInf_iff]
  refine or_congr_right (or_congr_right ⟨?_, ?_⟩)
  · rintro ⟨s, hx, hy⟩
    exact ⟨⟨s, hx⟩, eq_of_unpack (hx.trans hy.symm)⟩
  · rintro ⟨⟨s, hx⟩, rfl⟩
    exact ⟨s, hx, hx⟩

theorem isNaN_abs (x : Float) : x.abs.isNaN = x.isNaN := by
  rw [Bool.eq_iff_iff, isNaN_iff, isNaN_iff]
  show (Float.Model.pack x.toModel.unpack.abs).unpack = _ ↔ _
  rw [unpack_pack_eq_notANumber_iff]
  cases x.toModel.unpack <;> simp [UnpackedFloat.abs]

/-! ## Doubles that count as equal -/

theorem same_of_beq {x y : Float} (h : (x == y) = true) : Same x y := by
  have hbeq : x.toModel.unpack.beq y.toModel.unpack = true := h
  obtain ⟨-, -, heq | ⟨hx, hy⟩ | ⟨hx, hy⟩⟩ := (beq_iff_ne_notANumber_and_eq _ _).mp hbeq
  · exact Or.inl heq
  · exact Or.inr ⟨⟨_, hx⟩, _, hy⟩
  · exact Or.inr ⟨⟨_, hx⟩, _, hy⟩

theorem beq_self {x : Float} (h : x.isNaN = false) : (x == x) = true := by
  have hnumber := unpack_ne_of_isNaN h
  show x.toModel.unpack.beq x.toModel.unpack = true
  exact (beq_iff_ne_notANumber_and_eq _ _).mpr ⟨hnumber, hnumber, Or.inl rfl⟩

/-! ## Comparing -/

/-- Seen from the other side, the order of two doubles is the other way round. -/
theorem compare_swap (u v : UnpackedFloat) : v.compare u = (u.compare v).map Ordering.swap := by
  cases u with
  | notANumber => cases v <;> rfl
  | infinity s =>
      cases v with
      | notANumber => rfl
      | infinity t => cases s <;> cases t <;> rfl
      | zero t => cases s <;> rfl
      | finite t n k hn => cases s <;> rfl
  | zero s =>
      cases v with
      | notANumber => rfl
      | infinity t => cases t <;> rfl
      | zero t => rfl
      | finite t n k hn => cases t <;> rfl
  | finite s m e hm =>
      cases v with
      | notANumber => rfl
      | infinity t => cases t <;> rfl
      | zero t => cases s <;> rfl
      | finite t n k hn =>
          cases s <;> cases t <;>
            simp [UnpackedFloat.compare, Ordering.swap_then, Int.compare_swap, Nat.compare_swap]

theorem compare_eq_none_iff {u v : UnpackedFloat} : u.compare v = none ↔ u = .notANumber ∨ v = .notANumber := by
  cases u with
  | notANumber => exact iff_of_true rfl (Or.inl rfl)
  | infinity s => cases v <;> cases s <;> simp [UnpackedFloat.compare]
  | zero s =>
      cases v with
      | notANumber => exact iff_of_true rfl (Or.inr rfl)
      | infinity t => cases t <;> simp [UnpackedFloat.compare]
      | zero t => simp [UnpackedFloat.compare]
      | finite t n k hn => cases t <;> simp [UnpackedFloat.compare]
  | finite s m e hm =>
      cases v with
      | notANumber => exact iff_of_true rfl (Or.inr rfl)
      | infinity t => cases t <;> simp [UnpackedFloat.compare]
      | zero t => cases s <;> simp [UnpackedFloat.compare]
      | finite t n k hn => cases s <;> cases t <;> simp [UnpackedFloat.compare]

/-- The order of two doubles that are numbers. -/
theorem exists_compare {x y : Float} (hx : x.isNaN = false) (hy : y.isNaN = false) :
    ∃ o, x.toModel.unpack.compare y.toModel.unpack = some o := by
  refine Option.ne_none_iff_exists'.mp fun hnone => ?_
  rcases compare_eq_none_iff.mp hnone with h | h
  · exact unpack_ne_of_isNaN hx h
  · exact unpack_ne_of_isNaN hy h

theorem not_le_iff_lt {x y : Float} (hx : x.isNaN = false) (hy : y.isNaN = false) : ¬ x ≤ y ↔ y < x := by
  obtain ⟨o, ho⟩ := exists_compare hx hy
  rw [le_iff, lt_iff, UnpackedFloat.le, UnpackedFloat.lt, compare_swap x.toModel.unpack y.toModel.unpack, ho]
  cases o <;> simp [Ordering.swap, Ordering.isLE]

theorem not_lt_iff_le {x y : Float} (hx : x.isNaN = false) (hy : y.isNaN = false) : ¬ x < y ↔ y ≤ x := by
  rw [← not_le_iff_lt hy hx, not_not]

theorem not_lt_of_lt {x y : Float} (h : x < y) : ¬ y < x := by
  rw [lt_iff, UnpackedFloat.lt] at h
  rw [lt_iff, UnpackedFloat.lt, compare_swap x.toModel.unpack y.toModel.unpack, eq_of_beq h]
  exact Bool.false_ne_true

/-- What is no number is in no order. -/
theorem not_le_of_isNaN {x y : Float} (h : x.isNaN = true ∨ y.isNaN = true) : ¬ x ≤ y := by
  rw [isNaN_iff, isNaN_iff] at h
  rw [le_iff, UnpackedFloat.le, compare_eq_none_iff.mpr h]
  exact Bool.false_ne_true

theorem not_lt_of_isNaN {x y : Float} (h : x.isNaN = true ∨ y.isNaN = true) : ¬ x < y := by
  rw [isNaN_iff, isNaN_iff] at h
  rw [lt_iff, UnpackedFloat.lt, compare_eq_none_iff.mpr h]
  exact Bool.false_ne_true

/-- Only numbers are in order. -/
theorem isNaN_of_lt {x y : Float} (h : x < y) : x.isNaN = false ∧ y.isNaN = false := by
  rw [← Bool.not_eq_true, ← Bool.not_eq_true]
  exact ⟨fun hx => not_lt_of_isNaN (.inl hx) h, fun hy => not_lt_of_isNaN (.inr hy) h⟩

/-- What is not at most a number exceeds it, unless it is no number. -/
theorem lt_iff_of_not_le {x y : Float} (h : ¬ x ≤ y) (hy : y.isNaN = false) : y < x ↔ x.isNaN = false :=
  ⟨fun hlt => (isNaN_of_lt hlt).2, fun hx => (not_le_iff_lt hx hy).mp h⟩

theorem le_self {x : Float} (h : x.isNaN = false) : x ≤ x :=
  (not_lt_iff_le h h).mp fun hlt => not_lt_of_lt hlt hlt

/-- Numbers none of which is less are the same. -/
theorem same_of_not_lt {x y : Float} (hx : x.isNaN = false) (hy : y.isNaN = false) (hxy : ¬ x < y) (hyx : ¬ y < x) :
    Same x y := by
  obtain ⟨o, ho⟩ := exists_compare hx hy
  rw [lt_iff, UnpackedFloat.lt] at hxy hyx
  rw [compare_swap x.toModel.unpack y.toModel.unpack] at hyx
  rw [ho] at hxy hyx
  refine same_of_beq ?_
  show x.toModel.unpack.beq y.toModel.unpack = true
  rw [UnpackedFloat.beq, ho]
  cases o with
  | lt => exact absurd rfl hxy
  | eq => rfl
  | gt => exact absurd rfl hyx

/-! ## Whole numbers and doubles -/

theorem compareInt_eq_none_iff {n : Int} {x : Float} : compareInt n x = none ↔ x.isNaN = true := by
  rw [isNaN_iff, compareInt]
  cases x.toModel.unpack with
  | infinity s => cases s <;> simp
  | notANumber => simp
  | zero s => simp
  | finite s m e hm => simp

/-- A double that is not at most a whole number exceeds it, if it is a number. -/
theorem int_lt_real {n : Int} {x : Float} (h : (real x).le (int n) = false) :
    (int n).lt (real x) = true ↔ x.isNaN = false := by
  rw [← Bool.not_eq_true, ← compareInt_eq_none_iff (n := n)]
  rw [le] at h
  rw [lt]
  cases hcompare : compareInt n x with
  | none => simp
  | some o =>
      rw [hcompare] at h
      cases o <;> simp_all [Ordering.isGE]

def isNumber : Number → Bool
  | int _ => true
  | real x => !x.isNaN

theorem equals_self {q : Number} (h : q.isNumber = true) : q.equals q = true := by
  cases q with
  | int n => simp [equals, le]
  | real x =>
      rw [isNumber, Bool.not_eq_true'] at h
      simp [equals, le, le_self h]

end Stratagem.Number
