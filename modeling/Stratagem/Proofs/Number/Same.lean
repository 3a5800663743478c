import Stratagem.Number

/-!
# Doubles that no comparison tells apart

A text has no sign for zero: the double that it reads back as may be the other zero. `Same` is equality of
doubles up to that sign, and also holds of no number and itself. Comparisons and distances of doubles do
not see the difference.
-/

namespace Stratagem.Number

open Float.Model UnpackedFloat

/-! ## Unpacked parts -/

def SameParts (u v : UnpackedFloat) : Prop :=
  u = v ∨ (∃ s, u = .zero s) ∧ ∃ t, v = .zero t

theorem SameParts.compare {u u' v v' : UnpackedFloat} (hu : SameParts u u') (hv : SameParts v v') :
    u.compare v = u'.compare v' := by
  have left : ∀ s t w, (UnpackedFloat.zero s).compare w = (UnpackedFloat.zero t).compare w := by
    intro s t w
    cases w with
    | infinity r => cases r <;> rfl
    | notANumber => rfl
    | zero r => rfl
    | finite r m e hm => cases r <;> rfl
  have right : ∀ s t w, UnpackedFloat.compare w (.zero s) = UnpackedFloat.compare w (.zero t) := by
    intro s t w
    cases w with
    | infinity r => cases r <;> rfl
    | notANumber => rfl
    | zero r => rfl
    | finite r m e hm => cases r <;> rfl
  rcases hu with rfl | ⟨⟨s, rfl⟩, t, rfl⟩
  · rcases hv with rfl | ⟨⟨s, rfl⟩, t, rfl⟩
    · rfl
    · exact right s t u
  · rcases hv with rfl | ⟨⟨s', rfl⟩, t', rfl⟩
    · exact left s t v
    · rfl

theorem SameParts.sub {f : Format} {u u' v v' : UnpackedFloat} (hu : SameParts u u')
    (hv : SameParts v v') : SameParts (u.sub f v) (u'.sub f v') := by
  have zeros : ∀ s t, ∃ r, (UnpackedFloat.zero s).sub f (.zero t) = .zero r := by
    intro s t
    cases s <;> cases t <;> exact ⟨_, rfl⟩
  have left : ∀ s t w, SameParts ((UnpackedFloat.zero s).sub f w) ((UnpackedFloat.zero t).sub f w) := by
    intro s t w
    cases w with
    | infinity r => exact Or.inl rfl
    | notANumber => exact Or.inl rfl
    | zero r => exact Or.inr ⟨zeros s r, zeros t r⟩
    | finite r m e hm => exact Or.inl rfl
  have right : ∀ s t w, SameParts (UnpackedFloat.sub f w (.zero s)) (UnpackedFloat.sub f w (.zero t)) := by
    intro s t w
    cases w with
    | infinity r => exact Or.inl rfl
    | notANumber => exact Or.inl rfl
    | zero r => exact Or.inr ⟨zeros r s, zeros r t⟩
    | finite r m e hm => exact Or.inl rfl
  rcases hu with rfl | ⟨⟨s, rfl⟩, t, rfl⟩
  · rcases hv with rfl | ⟨⟨s, rfl⟩, t, rfl⟩
    · exact Or.inl rfl
    · exact right s t u
  · rcases hv with rfl | ⟨⟨s', rfl⟩, t', rfl⟩
    · exact left s t v
    · exact Or.inr ⟨zeros s s', zeros t t'⟩

theorem SameParts.abs {u v : UnpackedFloat} (h : SameParts u v) : SameParts u.abs v.abs := by
  rcases h with rfl | ⟨⟨s, rfl⟩, t, rfl⟩
  · exact Or.inl rfl
  · exact Or.inl rfl

theorem SameParts.pack {u v : UnpackedFloat} (h : SameParts u v) :
    SameParts (Float.Model.pack u).unpack (Float.Model.pack v).unpack := by
  have zero : ∀ s, (Float.Model.pack (.zero s)).unpack = .zero s := by
    intro s
    cases s <;> rfl
  rcases h with rfl | ⟨⟨s, rfl⟩, t, rfl⟩
  · exact Or.inl rfl
  · exact Or.inr ⟨⟨s, zero s⟩, t, zero t⟩

/-! ## Doubles -/

/-- The same double, or two zeros. -/
def Same (x y : Float) : Prop :=
  SameParts x.toModel.unpack y.toModel.unpack

theorem Same.refl (x : Float) : Same x x := Or.inl rfl

theorem Same.symm {x y : Float} (h : Same x y) : Same y x := by
  rcases h with h | ⟨hx, hy⟩
  · exact Or.inl h.symm
  · exact Or.inr ⟨hy, hx⟩

theorem lt_iff {x y : Float} : x < y ↔ x.toModel.unpack.lt y.toModel.unpack = true := by
  show decide (x.toModel < y.toModel) = true ↔ _
  rw [decide_eq_true_eq]
  rfl

theorem le_iff {x y : Float} : x ≤ y ↔ x.toModel.unpack.le y.toModel.unpack = true := by
  show decide (x.toModel ≤ y.toModel) = true ↔ _
  rw [decide_eq_true_eq]
  rfl

theorem Same.lt {x x' y y' : Float} (hx : Same x x') (hy : Same y y') : x < y ↔ x' < y' := by
  rw [lt_iff, lt_iff, UnpackedFloat.lt, UnpackedFloat.lt, SameParts.compare hx hy]

theorem Same.le {x x' y y' : Float} (hx : Same x x') (hy : Same y y') : x ≤ y ↔ x' ≤ y' := by
  rw [le_iff, le_iff, UnpackedFloat.le, UnpackedFloat.le, SameParts.compare hx hy]

theorem Same.distance {x x' y y' : Float} (hx : Same x x') (hy : Same y y') :
    Same (x - y).abs (x' - y').abs :=
  (SameParts.sub hx hy).pack.abs.pack

/-! ## Texts -/

/-- A text has no sign for zero. -/
theorem Same.briefText {x y : Float} (h : Same x y) : briefText x = briefText y := by
  rcases h with h | ⟨⟨s, hx⟩, t, hy⟩
  · unfold Number.briefText integral? isIntegral truncate? render
    rw [h]
  · have hzero : ∀ {z r}, z.toModel.unpack = UnpackedFloat.zero r → Number.briefText z = decimal 0 := by
      intro z r hz
      unfold Number.briefText integral? isIntegral truncate?
      rw [hz]
      rfl
    rw [hzero hx, hzero hy]

end Stratagem.Number
