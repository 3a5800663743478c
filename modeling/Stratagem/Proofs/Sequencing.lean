import Mathlib.Data.List.Forall2
import Stratagem.Slot

/-!
# Work that may be refused

How `Except Failure` composes. A step in front of a refusal is never seen again, so a run that answers has
answered at every step: `bind_eq_ok` takes such a run apart, `mapM_eq_ok` does so for a list and
`PerSlot.ofFnM_eq_ok` for the four slots.
-/

namespace Stratagem

variable {α β : Type} {ε : Type}

@[simp] theorem ok_bind (a : α) (f : α → Except ε β) : ((Except.ok a : Except ε α) >>= f) = f a := rfl

@[simp] theorem error_bind (e : ε) (f : α → Except ε β) :
    ((Except.error e : Except ε α) >>= f) = .error e := rfl

@[simp] theorem pure_eq_ok (a : α) : (pure a : Except ε α) = .ok a := rfl

@[simp] theorem map_ok (f : α → β) (a : α) : f <$> (Except.ok a : Except ε α) = .ok (f a) := rfl

theorem bind_eq_ok {x : Except ε α} {f : α → Except ε β} {b : β} :
    (x >>= f) = .ok b ↔ ∃ a, x = .ok a ∧ f a = .ok b := by
  cases x with
  | error e => simp
  | ok a => simp

theorem bind_ne_ok {x : Except ε α} {f : α → Except ε β} {b : β} (h : ∀ a, f a ≠ .ok b) : (x >>= f) ≠ .ok b := by
  intro hx
  obtain ⟨a, -, ha⟩ := bind_eq_ok.mp hx
  exact h a ha

/-- What is shown only to be thrown is no answer. -/
@[simp]
theorem bind_throw_ne_ok {x : Except ε α} {cause : α → ε} {b : β} :
    (x >>= fun a => throw (cause a)) ≠ (.ok b : Except ε β) :=
  bind_ne_ok fun _ h => by cases h

theorem eq_ok_of_toOption {x : Except ε α} {a : α} (h : x.toOption = some a) : x = .ok a := by
  cases x with
  | error e => cases h
  | ok b =>
      cases h
      rfl

/-- A list of answers is an answer at every place. -/
theorem mapM_eq_ok {f : α → Except ε β} {xs : List α} {ys : List β} :
    xs.mapM f = .ok ys ↔ List.Forall₂ (fun x y => f x = .ok y) xs ys := by
  induction xs generalizing ys with
  | nil =>
      rw [List.mapM_nil, pure_eq_ok, Except.ok.injEq, List.forall₂_nil_left_iff]
      exact eq_comm
  | cons x xs ih =>
      rw [List.mapM_cons, bind_eq_ok]
      constructor
      · rintro ⟨y, hy, hrest⟩
        obtain ⟨ys', hys, heq⟩ := bind_eq_ok.mp hrest
        cases heq
        exact .cons hy (ih.mp hys)
      · rintro (_ | ⟨hy, hys⟩)
        exact ⟨_, hy, bind_eq_ok.mpr ⟨_, ih.mpr hys, rfl⟩⟩

theorem mapM_option_ok {f : α → Except ε β} {o : Option α} {p : Option β} (h : o.mapM f = .ok p) :
    List.Forall₂ (fun x y => f x = .ok y) o.toList p.toList := by
  cases o with
  | none =>
      cases h
      exact .nil
  | some x =>
      rw [Option.mapM_some] at h
      cases hx : f x with
      | error e =>
          rw [hx] at h
          cases h
      | ok y =>
          rw [hx] at h
          cases h
          exact .cons hx .nil

theorem mapM_congr {γ : Type} {f : α → Except ε γ} {g : β → Except ε γ} {xs : List α} {ys : List β}
    (h : List.Forall₂ (fun x y => f x = g y) xs ys) : xs.mapM f = ys.mapM g := by
  induction h with
  | nil => rfl
  | cons hxy _ ih => rw [List.mapM_cons, List.mapM_cons, hxy, ih]

/-- A list is answered if each of its members is. -/
theorem mapM_ok {f : α → Except ε β} {g : α → β} {xs : List α} (h : ∀ x ∈ xs, f x = .ok (g x)) :
    xs.mapM f = .ok (xs.map g) := by
  rw [mapM_eq_ok, List.forall₂_map_right_iff, List.forall₂_same]
  exact h

theorem mapM_exists {f : α → Except ε β} {xs : List α} (h : ∀ x ∈ xs, ∃ y, f x = .ok y) :
    ∃ ys, xs.mapM f = .ok ys := by
  induction xs with
  | nil => exact ⟨[], rfl⟩
  | cons x xs ih =>
      obtain ⟨y, hy⟩ := h x List.mem_cons_self
      obtain ⟨ys, hys⟩ := ih fun x hx => h x (List.mem_cons_of_mem _ hx)
      rw [List.mapM_cons, hy, ok_bind, hys]
      exact ⟨y :: ys, rfl⟩

/-- Putting failures in their place changes no answer. -/
theorem placed_eq_ok {place? : Option String} {types : Bool} {run : Except Failure α} {a : α} :
    placed place? types run = .ok a ↔ run = .ok a := by
  cases run with
  | ok b => rfl
  | error f =>
      unfold placed
      dsimp only
      split <;> simp

/-- What holds of the right members of a correspondence because of it. -/
theorem forall_right {R : α → β → Prop} {q : β → Prop} {xs : List α} {ys : List β}
    (h : List.Forall₂ R xs ys) (hq : ∀ x y, R x y → q y) : ∀ y ∈ ys, q y := by
  induction h with
  | nil =>
      intro y hy
      cases hy
  | cons hxy _ ih =>
      intro y hy
      rcases List.mem_cons.mp hy with rfl | hy
      · exact hq _ _ hxy
      · exact ih y hy

/-- What a correspondence hands on from the left members to the right ones. -/
theorem forall_carried {R : α → β → Prop} {p : α → Prop} {q : β → Prop} {xs : List α} {ys : List β}
    (hall : ∀ x ∈ xs, p x) (h : List.Forall₂ R xs ys) (hq : ∀ x y, p x → R x y → q y) : ∀ y ∈ ys, q y :=
  forall_right ((List.forall₂_and_left _ _).mpr ⟨hall, h⟩) fun x y hxy => hq x y hxy.1 hxy.2

/-- What stands on the right of a correspondence stands for something on the left. -/
theorem exists_left {R : α → β → Prop} {xs : List α} {ys : List β} (h : List.Forall₂ R xs ys) :
    ∀ y ∈ ys, ∃ x ∈ xs, R x y :=
  forall_carried (fun _ hx => hx) h fun x _ hx hxy => ⟨x, hx, hxy⟩

/-- Two correspondences, one after the other. -/
theorem forall₂_trans {γ : Type} {R : α → β → Prop} {S : β → γ → Prop} {T : α → γ → Prop}
    (hT : ∀ x y z, R x y → S y z → T x z) {xs : List α} {ys : List β} {zs : List γ} (hxy : List.Forall₂ R xs ys)
    (hyz : List.Forall₂ S ys zs) : List.Forall₂ T xs zs := by
  induction hxy generalizing zs with
  | nil =>
      cases hyz
      exact .nil
  | cons h _ ih =>
      cases hyz with
      | cons hs hyz => exact .cons (hT _ _ _ h hs) (ih hyz)

/-- What is the same on both sides of a correspondence is so along the lists. -/
theorem map_eq_map {γ : Type} {R : α → β → Prop} {f : α → γ} {g : β → γ} (hfg : ∀ x y, R x y → f x = g y)
    {xs : List α} {ys : List β} (h : List.Forall₂ R xs ys) : xs.map f = ys.map g := by
  induction h with
  | nil => rfl
  | cons hxy _ ih => rw [List.map_cons, List.map_cons, hfg _ _ hxy, ih]

/-- The members of a list that was read, if each of them is so. -/
theorem forall_of_mapM {f : α → Except ε β} {q : β → Prop} (hq : ∀ x y, f x = .ok y → q y) {xs : List α}
    {ys : List β} (h : xs.mapM f = .ok ys) : ∀ y ∈ ys, q y :=
  forall_right (mapM_eq_ok.mp h) hq

/-- A list that was read was read at every place. -/
theorem exists_of_mapM {f : α → Except ε β} {xs : List α} {ys : List β} (h : xs.mapM f = .ok ys) :
    ∀ x ∈ xs, ∃ y, f x = .ok y :=
  forall_right (mapM_eq_ok.mp h).flip fun y _ hy => ⟨y, hy⟩

theorem mapM_exists_iff {f : α → Except ε β} {xs : List α} :
    (∃ ys, xs.mapM f = .ok ys) ↔ ∀ x ∈ xs, ∃ y, f x = .ok y :=
  ⟨fun ⟨_, h⟩ => exists_of_mapM h, mapM_exists⟩

/-- A list is refused for what one of its members is refused for. -/
theorem mem_of_mapM_error {f : α → Except ε β} {xs : List α} {e : ε} (h : xs.mapM f = .error e) :
    ∃ x ∈ xs, f x = .error e := by
  induction xs with
  | nil => cases h
  | cons x xs ih =>
      rw [List.mapM_cons] at h
      cases hx : f x with
      | error e' =>
          rw [hx] at h
          cases h
          exact ⟨x, List.mem_cons_self, hx⟩
      | ok y =>
          rw [hx, ok_bind] at h
          cases hrest : xs.mapM f with
          | ok ys =>
              rw [hrest] at h
              cases h
          | error e' =>
              rw [hrest] at h
              cases h
              obtain ⟨z, hz, hfz⟩ := ih hrest
              exact ⟨z, List.mem_cons_of_mem x hz, hfz⟩

theorem bind_pure_exists_iff {run : Except ε α} {f : α → β} :
    (∃ b, (run >>= fun a => pure (f a)) = .ok b) ↔ ∃ a, run = .ok a := by
  cases run with
  | ok a => exact iff_of_true ⟨_, rfl⟩ ⟨a, rfl⟩
  | error e => exact iff_of_false nofun nofun

/-- The members of a list come back, if each of them does. -/
theorem mapM_reread {read : α → Except ε β} {write : β → α} {f : β → β} {ys : List β}
    (h : ∀ y ∈ ys, read (write y) = .ok (f y)) : (ys.map write).mapM read = .ok (ys.map f) := by
  rw [List.mapM_map]
  exact mapM_ok h

theorem Slot.mem_all (slot : Slot) : slot ∈ Slot.all := by
  cases slot <;> simp [Slot.all]

namespace PerSlot

theorem forall_mem_toList {p : PerSlot α} {q : Slot × α → Prop} :
    (∀ entry ∈ p.toList, q entry) ↔ ∀ slot, q (slot, p.get slot) := by
  rw [toList, List.forall_mem_map]
  exact ⟨fun h slot => h slot slot.mem_all, fun h slot _ => h slot⟩

theorem ofFnM_eq_ok {f : Slot → Except ε α} {p : PerSlot α} :
    PerSlot.ofFnM f = .ok p ↔ ∀ slot, f slot = .ok (p.get slot) := by
  constructor
  · intro h
    simp only [PerSlot.ofFnM, bind_eq_ok] at h
    obtain ⟨a, ha, b, hb, c, hc, d, hd, heq⟩ := h
    cases heq
    intro slot
    cases slot <;> assumption
  · intro h
    have ha := h .entryLong
    have hb := h .entryShort
    have hc := h .exitLong
    have hd := h .exitShort
    rw [PerSlot.ofFnM, ha, hb, hc, hd]
    rfl

theorem ofFnM_exists_iff {f : Slot → Except ε α} :
    (∃ p, PerSlot.ofFnM f = .ok p) ↔ ∀ slot, ∃ a, f slot = .ok a := by
  constructor
  · rintro ⟨p, hp⟩ slot
    exact ⟨p.get slot, ofFnM_eq_ok.mp hp slot⟩
  · intro h
    choose a ha using h
    refine ⟨.ofFn a, ofFnM_eq_ok.mpr fun slot => ?_⟩
    rw [get_ofFn]
    exact ha slot

/-- A change of each answer changes them all. -/
theorem ofFnM_map (f : Slot → α → β) (g : Slot → Except ε α) :
    PerSlot.ofFnM (fun slot => f slot <$> g slot) = PerSlot.map f <$> PerSlot.ofFnM g := by
  rw [ofFnM, ofFnM]
  cases g .entryLong with
  | error e => rfl
  | ok a =>
      cases g .entryShort with
      | error e => rfl
      | ok b =>
          cases g .exitLong with
          | error e => rfl
          | ok c =>
              cases g .exitShort with
              | error e => rfl
              | ok d => rfl

end PerSlot

end Stratagem
