import Stratagem.Proofs.Refusal
import Stratagem.ValueRef.Wire

/-!
# Numbers and references that are refused

What is not put in its place when a document is taken for a number, for a list or for a reference. A
reference is refused as malformed for nearly everything; its parameters and its window are still refused bare
where they cannot be listed, where a parameter is beyond every double and where an end of the window is
infinite.
-/

namespace Stratagem

open Document (member lookup)
open Failure (Coercion PlaceableOr ReportedOr)

/-! ## Numbers and lists -/

namespace Document

def IsScalar : Document → Prop
  | bool _ | int _ | real _ | text _ => True
  | null | list _ | record _ => False

/-- What a document is refused for that is taken for a double. An unreadable text is a failure of a value. -/
inductive Unreal : Document → Coercion → Prop
  | shape {d : Document} : ¬ d.IsScalar → Unreal d (.notReal d)
  | tooLarge {n : Int} : Number.ofInt? n = none → Unreal (.int n) .realTooLarge

/-- What a document is refused for that is taken for a whole number. No number at all is a failure of a value. -/
inductive Unwhole : Document → Coercion → Prop
  | shape {d : Document} : ¬ d.IsScalar → Unwhole d (.notInteger d)
  | infinity {x : Float} : x.isInf = true → Unwhole (.real x) .integerOfInfinity

def IsUnlistable : Document → Prop
  | null | bool _ | int _ | real _ => True
  | text _ | list _ | record _ => False

theorem toReal_int_refuses (n : Int) :
    Refuses (fun f => f = .coercion .realTooLarge ∧ Number.ofInt? n = none) (int n).toReal := by
  rw [toReal]
  cases hn : Number.ofInt? n with
  | none => exact Refuses.error ⟨rfl, rfl⟩
  | some x => exact Refuses.ok x

theorem toReal_refuses (d : Document) : Refuses (PlaceableOr (Unreal d)) d.toReal := by
  have hshape {d : Document} (h : ¬ d.IsScalar) :
      Refuses (PlaceableOr (Unreal d)) (refuse (.notReal d) : Except Failure Float) :=
    Refuses.error (.ofBare (.shape h))
  cases d with
  | bool b => exact Refuses.ok _
  | real x => exact Refuses.ok _
  | int n => exact (toReal_int_refuses n).imp fun f ⟨hf, hn⟩ => Or.inr ⟨_, hf, .tooLarge hn⟩
  | text s =>
      rw [toReal]
      cases Number.readReal? s with
      | none => exact Refuses.error (Or.inl rfl)
      | some x => exact Refuses.ok _
  | null => exact hshape id
  | list xs => exact hshape id
  | record ms => exact hshape id

/-- Only an infinity or no number at all has no whole part. -/
theorem isInf_or_isNaN {x : Float} (h : Number.truncate? x = none) : x.isInf = true ∨ x.isNaN = true := by
  rw [Number.truncate?] at h
  cases hx : x.toModel.unpack with
  | zero s =>
      rw [hx] at h
      cases h
  | finite s m e hm =>
      rw [hx] at h
      cases h
  | infinity s =>
      refine Or.inl ?_
      show x.toModel.unpack.isInf = true
      rw [hx]
      rfl
  | notANumber =>
      refine Or.inr ?_
      show x.toModel.unpack.isNaN = true
      rw [hx]
      rfl

theorem wholePart_refuses (x : Float) :
    Refuses (fun f => x.isInf = true ∧ f = .coercion .integerOfInfinity ∨
      x.isNaN = true ∧ f = .coercion .integerOfNoNumber) (wholePart x) := by
  rw [wholePart]
  cases hx : Number.truncate? x with
  | some n => exact Refuses.ok _
  | none =>
      by_cases hnan : x.isNaN = true
      · rw [if_pos hnan]
        exact Refuses.error (Or.inr ⟨hnan, rfl⟩)
      · rw [if_neg hnan]
        exact Refuses.error (Or.inl ⟨(isInf_or_isNaN hx).resolve_right hnan, rfl⟩)

theorem toInteger_refuses (d : Document) : Refuses (PlaceableOr (Unwhole d)) d.toInteger := by
  have hshape {d : Document} (h : ¬ d.IsScalar) :
      Refuses (PlaceableOr (Unwhole d)) (refuse (.notInteger d) : Except Failure Int) :=
    Refuses.error (.ofBare (.shape h))
  cases d with
  | bool b => exact Refuses.ok _
  | int n => exact Refuses.ok _
  | real x =>
      refine (wholePart_refuses x).imp ?_
      rintro _ (⟨hinf, rfl⟩ | ⟨-, rfl⟩)
      · exact .ofBare (.infinity hinf)
      · exact Or.inl rfl
  | text s =>
      rw [toInteger]
      cases Number.readInteger s with
      | value n => exact Refuses.ok _
      | malformed => exact Refuses.error (Or.inl rfl)
      | tooLong digits => exact Refuses.error (Or.inl rfl)
  | null => exact hshape id
  | list xs => exact hshape id
  | record ms => exact hshape id

theorem items_refuses (d : Document) :
    Refuses (fun f => f = .coercion (.notIterable d) ∧ d.IsUnlistable) d.items := by
  cases d with
  | list xs => exact Refuses.ok _
  | record ms => exact Refuses.ok _
  | text s => exact Refuses.ok _
  | null => exact Refuses.error ⟨rfl, trivial⟩
  | bool b => exact Refuses.error ⟨rfl, trivial⟩
  | int n => exact Refuses.error ⟨rfl, trivial⟩
  | real x => exact Refuses.error ⟨rfl, trivial⟩

/-- Only a list lists anything but texts. -/
theorem eq_list_of_items {d x : Document} {xs : List Document} (h : d.items = .ok xs) (hmem : x ∈ xs)
    (hx : ∀ s, x ≠ .text s) : d = .list xs := by
  cases d with
  | list ys =>
      cases h
      rfl
  | record ms =>
      cases h
      obtain ⟨m, -, hm⟩ := List.mem_map.mp hmem
      exact absurd hm.symm (hx m.1)
  | text s =>
      cases h
      obtain ⟨cs, -, hcs⟩ := List.mem_map.mp hmem
      exact absurd hcs.symm (hx _)
  | null => cases h
  | bool b => cases h
  | int n => cases h
  | real x => cases h

section Showing

variable {bare : Coercion → Prop}

theorem intText_refuses (n : Int) : Refuses (PlaceableOr bare) (Number.intText n) :=
  .placeable_ofWritesIf (Number.intText_writesIf n)

theorem quoted_refuses (d : Document) : Refuses (PlaceableOr bare) d.quoted :=
  .placeable_ofWritesIf (quoted_writesIf d)

theorem display_refuses (d : Document) : Refuses (PlaceableOr bare) d.display :=
  .placeable_ofWritesIf (display_writesIf d)

theorem displayOr_refuses (default : String) (d : Document) : Refuses (PlaceableOr bare) (d.displayOr default) :=
  .placeable_ofWritesIf (displayOr_writesIf default d)

end Showing

/-- The two ends of a window are refused for what one of them is refused for. -/
theorem ends_refuse (low high : Document) :
    Refuses (PlaceableOr fun c => ∃ d ∈ [low, high], Unwhole d c)
      (do return (← low.toInteger, ← high.toInteger)) := by
  have hend {d : Document} (hd : d ∈ [low, high]) :
      Refuses (PlaceableOr fun c => ∃ d ∈ [low, high], Unwhole d c) d.toInteger :=
    (toInteger_refuses d).widen fun c hc => ⟨d, hd, hc⟩
  exact (hend (by simp)).bind fun l _ => (hend (by simp)).bind fun h _ => Refuses.ok _

end Document

open Document (IsUnlistable toReal_refuses items_refuses ends_refuse eq_list_of_items intText_refuses quoted_refuses
  display_refuses displayOr_refuses)

/-! ## References -/

namespace ValueRef

/-- What the record of a reference is refused for without being called malformed. -/
inductive Unplaced (ms : List (String × Document)) : Coercion → Prop
  | list {key : String} {raw : Document} : key ∈ ["params", "offsetRange"] → lookup ms key = some raw →
      raw.IsUnlistable → Unplaced ms (.notIterable raw)
  | param {xs : List Document} {n : Int} : lookup ms "params" = some (.list xs) → .int n ∈ xs →
      Number.ofInt? n = none → Unplaced ms .realTooLarge
  | window {low high : Document} {x : Float} : lookup ms "offsetRange" = some (.list [low, high]) →
      .real x ∈ [low, high] → x.isInf = true → Unplaced ms .integerOfInfinity

/-- Only what is too large is not turned into the failure of a value. -/
theorem unlessTooLarge_refuses {α : Type} {bare bare' : Coercion → Prop} {cause : String → Failure.Reference}
    {d : Document} {run : Except Failure α} (h : Refuses (PlaceableOr bare) run)
    (hbare : ∀ c, bare c → (Failure.coercion c).isOfValue true = false → bare' c) :
    Refuses (PlaceableOr bare') (unlessTooLarge cause d run) := by
  cases run with
  | ok a => exact Refuses.ok _
  | error f =>
      unfold unlessTooLarge
      dsimp only
      split
      · exact (quoted_refuses d).throwing fun _ => Or.inl rfl
      · rename_i hvalue
        rcases h f rfl with hof | ⟨c, rfl, hc⟩
        · exact absurd (Failure.isOfValue_of_false hof) hvalue
        · exact Refuses.error (.ofBare (hbare c hc (Bool.eq_false_of_not_eq_true hvalue)))

theorem readParam_refuses (raw : Document) :
    Refuses (PlaceableOr fun c => c = .realTooLarge ∧ ∃ n, raw = .int n ∧ Number.ofInt? n = none)
      (readParam raw) := by
  have hread : Refuses (PlaceableOr fun c => c = .realTooLarge ∧ ∃ n, raw = .int n ∧ Number.ofInt? n = none)
      (unlessTooLarge .paramNotNumeric raw raw.toReal) := by
    refine unlessTooLarge_refuses (toReal_refuses raw) fun c hc hkind => ?_
    cases hc with
    | shape h => cases hkind
    | tooLarge hn => exact ⟨rfl, _, rfl, hn⟩
  cases raw with
  | bool b => exact (quoted_refuses _).throwing fun _ => Or.inl rfl
  | null => exact hread
  | int n => exact hread
  | real x => exact hread
  | text s => exact hread
  | list xs => exact hread
  | record ms => exact hread

variable {ms : List (String × Document)}

theorem items_unplaced {key : String} {raw : Document} (hkey : key ∈ ["params", "offsetRange"])
    (hraw : lookup ms key = some raw) : Refuses (PlaceableOr (Unplaced ms)) raw.items :=
  (items_refuses raw).imp fun _ ⟨hf, hun⟩ => Or.inr ⟨_, hf, .list hkey hraw hun⟩

theorem readParams_refuses {raw : Document} (hraw : raw ≠ .null → lookup ms "params" = some raw) :
    Refuses (PlaceableOr (Unplaced ms)) (readParams raw) := by
  unfold readParams
  split
  · exact Refuses.ok _
  · exact Refuses.error (Or.inl rfl)
  · rename_i hnull _
    have hlookup := hraw hnull
    refine (items_unplaced (by decide) hlookup).bind fun xs hxs => Refuses.mapM fun x hx => ?_
    refine (readParam_refuses x).widen ?_
    rintro c ⟨rfl, n, rfl, hn⟩
    rw [eq_list_of_items hxs hx (by simp)] at hlookup
    exact .param hlookup hx hn

theorem readOffset_refuses {raw : Document} (hraw : raw ≠ .null → lookup ms "offsetRange" = some raw) :
    Refuses (PlaceableOr (Unplaced ms)) (readOffset raw) := by
  unfold readOffset
  split
  · exact Refuses.ok _
  · exact Refuses.ok _
  · rename_i hnull _
    have hlookup := hraw hnull
    refine (items_unplaced (by decide) hlookup).bind fun values hvalues => ?_
    split
    · rename_i low high
      refine unlessTooLarge_refuses (ends_refuse low high) ?_
      rintro c ⟨e, hmem, he⟩ hkind
      cases he with
      | shape h => cases hkind
      | infinity h =>
          rw [eq_list_of_items hvalues hmem (by simp)] at hlookup
          exact .window hlookup hmem h
    · exact (quoted_refuses _).throwing fun _ => Or.inl rfl

theorem ofInts_refuses {bare : Coercion → Prop} (low high : Int) :
    Refuses (PlaceableOr bare) (Window.ofInts low high) := by
  have hshown {cause : String → String → Failure.Reference} :
      Refuses (PlaceableOr bare) (do
        throw (.reference (cause (← Number.intText low) (← Number.intText high))) : Except Failure Window) :=
    (intText_refuses low).bind fun _ _ => (intText_refuses high).throwing fun _ => Or.inl rfl
  rw [Window.ofInts]
  refine Refuses.ite hshown ?_
  split
  · exact Refuses.ok _
  · exact hshown

theorem make_refuses {bare : Coercion → Prop} (kind : RefKind) (indicator timeframe input : String)
    (params : List Float) (output : Document) (low high : Int) (calcMode : String) :
    Refuses (PlaceableOr bare) (make kind indicator timeframe input params output low high calcMode) := by
  refine (ofInts_refuses low high).bind fun window _ => ?_
  cases kind with
  | indicator => exact Refuses.ite (Refuses.error (Or.inl rfl)) (Refuses.ok _)
  | field => exact Refuses.ite (Refuses.error (Or.inl rfl)) (Refuses.ok _)
  | literal => exact Refuses.ite (Refuses.ok _) (Refuses.error (Or.inl rfl))

theorem read_refuses {bare : Coercion → Prop} (raw : Document) :
    Refuses (PlaceableOr bare) (RefKind.read raw) := by
  refine (displayOr_refuses "" raw).bind fun shown _ => ?_
  dsimp only
  refine Refuses.ite (Refuses.ok _) (Refuses.ite (Refuses.ok _) (Refuses.ite (Refuses.ok _) ?_))
  exact (display_refuses raw).throwing fun _ => Or.inl rfl

/-- **A record that is no reference is refused as malformed**, unless something of it is `Unplaced`. -/
theorem ofDocument_refuses (ms : List (String × Document)) :
    Refuses (ReportedOr (Unplaced ms)) (ofDocument (.record ms)) := by
  rw [ofDocument]
  refine Refuses.placed ?_ fun c hc _ => hc
  refine (displayOr_refuses _ _).bind fun indicator _ => (displayOr_refuses _ _).bind fun timeframe _ => ?_
  refine (displayOr_refuses _ _).bind fun input _ => (displayOr_refuses _ _).bind fun output _ => ?_
  refine (displayOr_refuses _ _).bind fun calcMode _ => (read_refuses _).bind fun kind _ => ?_
  refine (readParams_refuses (Document.lookup_of_orElse rfl)).bind fun params _ => ?_
  refine (readOffset_refuses (Document.lookup_of_orElse rfl)).bind fun window _ => ?_
  exact make_refuses kind _ _ _ _ _ _ _ _

end ValueRef

end Stratagem
