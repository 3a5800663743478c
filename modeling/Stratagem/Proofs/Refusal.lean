import Stratagem.Document.Coercion
import Stratagem.Proofs.Number.RoundTrip
import Stratagem.Proofs.Writable

/-!
# Refused work

What a reader is refused for. `Refuses p run` says that `p` holds of the failure, if there is one; it is carried
through a reader step by step. A failure is `ReportedOr` if it is that of a malformed document, a few bare failed
coercions excepted. On the way it is `PlaceableOr`: a failure of a value is still to be put in its place.
-/

namespace Stratagem

open Failure (Coercion)

/-! ## Places in a document -/

namespace Document

/-- The second document stands somewhere in the first one. -/
inductive Occurs : Document → Document → Prop
  | here {d : Document} : Occurs d d
  | item {d x : Document} {xs : List Document} : d ∈ xs → Occurs d x → Occurs (.list xs) x
  | member {key : String} {d x : Document} {ms : List (String × Document)} :
      (key, d) ∈ ms → Occurs d x → Occurs (.record ms) x

theorem Occurs.trans {a b c : Document} (hab : Occurs a b) (hbc : Occurs b c) : Occurs a c := by
  induction hab with
  | here => exact hbc
  | item hmem _ ih => exact .item hmem (ih hbc)
  | member hmem _ ih => exact .member hmem (ih hbc)

theorem mem_of_lookup {ms : List (String × Document)} {key : String} {x : Document}
    (h : lookup ms key = some x) : (key, x) ∈ ms := by
  obtain ⟨pre, post, rfl, -⟩ := List.lookup_eq_some_iff.mp h
  exact List.mem_append_right _ List.mem_cons_self

theorem lookup_of_member {ms : List (String × Document)} {key : String} {x : Document}
    (h : member ms key = x) (hx : x ≠ .null) : lookup ms key = some x := by
  rw [member] at h
  cases hlookup : lookup ms key with
  | none =>
      rw [hlookup] at h
      exact absurd h.symm hx
  | some y =>
      rw [hlookup] at h
      exact congrArg some h

/-- What is not the default stands under the key. -/
theorem lookup_of_orElse {ms : List (String × Document)} {key : String} {default x : Document}
    (h : (member ms key).orElse default = x) (hx : x ≠ default) : lookup ms key = some x := by
  rw [orElse] at h
  split at h
  · exact absurd h.symm hx
  · rename_i hfull
    refine lookup_of_member h fun hnull => hfull ?_
    rw [h, hnull]
    rfl

/-- Somewhere in the document a record has `x` under the key. -/
def Under (d : Document) (key : String) (x : Document) : Prop :=
  ∃ ms, Occurs d (.record ms) ∧ lookup ms key = some x

theorem Under.of_lookup {ms : List (String × Document)} {key : String} {x : Document}
    (h : lookup ms key = some x) : Under (.record ms) key x :=
  ⟨ms, .here, h⟩

/-- Whatever has a key somewhere in the first document has it somewhere in the second one. -/
def Within (d a : Document) : Prop :=
  ∀ key x, d.Under key x → a.Under key x

theorem Within.trans {a b c : Document} (hab : Within a b) (hbc : Within b c) : Within a c :=
  fun key x hx => hbc key x (hab key x hx)

theorem Occurs.within {a d : Document} (h : Occurs a d) : Within d a :=
  fun _ _ ⟨ms, hms, hx⟩ => ⟨ms, h.trans hms, hx⟩

theorem nil_within (d : Document) : Within (.record []) d := by
  rintro key x ⟨ms, hms, hx⟩
  cases hms with
  | here => cases hx
  | member hmem _ => cases hmem

/-- The empty record that stands for a missing one has nothing in it. -/
theorem within_orElse (d : Document) : Within (d.orElse (.record [])) d := by
  rw [orElse]
  split
  · exact nil_within d
  · exact Occurs.here.within

theorem Within.of_lookup {ms : List (String × Document)} {key : String} {x : Document}
    (h : lookup ms key = some x) : Within x (.record ms) :=
  (Occurs.member (mem_of_lookup h) .here).within

theorem within_member (ms : List (String × Document)) (key : String) :
    Within (member ms key) (.record ms) := by
  by_cases h : member ms key = .null
  · rw [h]
    rintro k x ⟨ms', hms, -⟩
    cases hms
  · exact .of_lookup (lookup_of_member rfl h)

end Document

/-! ## Failures -/

namespace Failure

/-- A failure of which `p` holds, or a failed coercion that `bare` allows. -/
def OrBare (p : Failure → Prop) (bare : Coercion → Prop) (f : Failure) : Prop :=
  p f ∨ ∃ c, f = .coercion c ∧ bare c

/-- The failure of a malformed document, or a failed coercion that `bare` allows. -/
abbrev ReportedOr : (Coercion → Prop) → Failure → Prop := OrBare fun f => f.kind = .format

/-- The failure of a value, or a failed coercion that `bare` allows. -/
abbrev PlaceableOr : (Coercion → Prop) → Failure → Prop := OrBare fun f => f.isOfValue false = true

variable {bare bare' : Coercion → Prop} {f : Failure}

theorem OrBare.ofBare {p : Failure → Prop} {c : Coercion} (h : bare c) : OrBare p bare (coercion c) :=
  Or.inr ⟨c, rfl, h⟩

theorem placeable_of_reported (h : f.ReportedOr bare) : f.PlaceableOr bare := by
  refine h.imp_left fun (hformat : f.kind = .format) => ?_
  show f.isOfValue false = true
  rw [isOfValue, hformat]

/-- A failure of a value stays one where types count as well. -/
theorem isOfValue_of_false {types : Bool} (h : f.isOfValue false = true) : f.isOfValue types = true := by
  rw [isOfValue] at h ⊢
  split at h
  · rfl
  · rfl
  · cases h
  · cases h

theorem kind_ne_type {c : Coercion} (h : (coercion c).isOfValue true = false) : c.kind ≠ .type := by
  intro htype
  rw [isOfValue, kind, htype] at h
  cases h

theorem kind_ne_value {c : Coercion} {types : Bool} (h : (coercion c).isOfValue types = false) :
    c.kind ≠ .value := by
  intro hvalue
  rw [isOfValue, kind, hvalue] at h
  cases h

/-- What is put in its place is reported. -/
theorem reported_malformed (place? : Option String) (cause : Failure) :
    (malformed place? cause).ReportedOr bare :=
  Or.inl rfl

end Failure

/-! ## Readers -/

variable {α β : Type}

/-- Whatever the work is refused for, `p` holds of it. -/
def Refuses (p : Failure → Prop) (run : Except Failure α) : Prop :=
  ∀ f, run = .error f → p f

namespace Refuses

variable {p q : Failure → Prop} {bare bare' : Coercion → Prop}

theorem ok (a : α) : Refuses p (.ok a) := nofun

theorem error {f : Failure} (h : p f) : Refuses p (.error f : Except Failure α) := by
  rintro _ ⟨⟩
  exact h

theorem imp {run : Except Failure α} (h : Refuses p run) (hpq : ∀ f, p f → q f) : Refuses q run :=
  fun f hf => hpq f (h f hf)

theorem bind {run : Except Failure α} {next : α → Except Failure β} (hrun : Refuses p run)
    (hnext : ∀ a, run = .ok a → Refuses p (next a)) : Refuses p (run >>= next) := by
  cases run with
  | ok a => exact hnext a rfl
  | error f => exact error (hrun f rfl)

theorem map {run : Except Failure α} (h : Refuses p run) (g : α → β) : Refuses p (g <$> run) := by
  cases run with
  | ok a => exact ok (g a)
  | error f => exact error (h f rfl)

theorem ite {cond : Prop} [Decidable cond] {run other : Except Failure α} (hrun : Refuses p run)
    (hother : Refuses p other) : Refuses p (if cond then run else other) := by
  split
  · exact hrun
  · exact hother

/-- A list is refused for what one of its members is refused for. -/
theorem mapM {read : α → Except Failure β} {xs : List α} (h : ∀ x ∈ xs, Refuses p (read x)) :
    Refuses p (xs.mapM read) := by
  induction xs with
  | nil => exact ok []
  | cons x xs ih =>
      obtain ⟨hx, hxs⟩ := List.forall_mem_cons.mp h
      rw [List.mapM_cons]
      exact hx.bind fun y _ => (ih hxs).bind fun ys _ => ok (y :: ys)

/-- The four slots are refused for what one of them is refused for. -/
theorem ofFnM {read : Slot → Except Failure α} (h : ∀ slot, Refuses p (read slot)) :
    Refuses p (PerSlot.ofFnM read) :=
  (h _).bind fun _ _ => (h _).bind fun _ _ => (h _).bind fun _ _ => (h _).bind fun _ _ => ok _

theorem slotOf (h : ∀ raw, p (.node (.unknownSlot raw))) (raw : String) : Refuses p (Slot.ofText raw) := by
  unfold Slot.ofText
  split
  · exact ok _
  · exact error (h raw)

/-- More may be bare. -/
theorem widen {run : Except Failure α} (h : Refuses (Failure.OrBare p bare) run)
    (hbare : ∀ c, bare c → bare' c) : Refuses (Failure.OrBare p bare') run :=
  h.imp fun _ hf => hf.imp_right fun ⟨c, hc, hallowed⟩ => ⟨c, hc, hbare c hallowed⟩

theorem placeable {run : Except Failure α} (h : Refuses (Failure.ReportedOr bare) run) :
    Refuses (Failure.PlaceableOr bare) run :=
  h.imp fun _ hf => Failure.placeable_of_reported hf

/-- Failures of a value are put in their place and so reported; failures of a type are where types count. -/
theorem placed {place? : Option String} {types : Bool} {run : Except Failure α}
    (h : Refuses (Failure.PlaceableOr bare) run)
    (hbare : ∀ c, bare c → (Failure.coercion c).isOfValue types = false → bare' c) :
    Refuses (Failure.ReportedOr bare') (placed place? types run) := by
  cases run with
  | ok a => exact ok a
  | error f =>
      unfold Stratagem.placed
      dsimp only
      split
      · exact error (Failure.reported_malformed place? f)
      · rename_i hplace
        refine error ?_
        by_cases hformat : f.kind = .format
        · exact Or.inl hformat
        · have hvalue : f.isOfValue types = false := by simpa [hformat] using hplace
          rcases h f rfl with hof | ⟨c, rfl, hc⟩
          · rw [Failure.isOfValue_of_false hof] at hvalue
            cases hvalue
          · exact Or.inr ⟨c, rfl, hbare c hc hvalue⟩

/-- What is written is refused only for a number that is too long. -/
theorem ofWritesIf {w : Prop} {run : Except Failure α} (h : WritesIf w run) :
    Refuses (fun f => f = .coercion .tooLongToWrite ∧ ¬ w) run := by
  intro f hf
  rcases h with ⟨-, a, ha⟩ | ⟨hw, he⟩
  · rw [ha] at hf
    cases hf
  · rw [he] at hf
    cases hf
    exact ⟨rfl, hw⟩

/-- What may be refused bare for a number that is too long. -/
theorem bareUnless {p : Failure → Prop} {w : Prop} {run : Except Failure α} (h : WritesIf w run)
    (hbare : ¬ w → bare .tooLongToWrite) : Refuses (Failure.OrBare p bare) run := by
  refine (ofWritesIf h).imp ?_
  rintro _ ⟨rfl, hw⟩
  exact .ofBare (hbare hw)

theorem placeable_ofWritesIf {w : Prop} {run : Except Failure α} (h : WritesIf w run) :
    Refuses (Failure.PlaceableOr bare) run := by
  refine (ofWritesIf h).imp ?_
  rintro _ ⟨rfl, -⟩
  exact Or.inl rfl

/-- What is shown only to be thrown. -/
theorem throwing {run : Except Failure α} {cause : α → Failure} (h : Refuses p run) (hcause : ∀ a, p (cause a)) :
    Refuses p (run >>= fun a => (throw (cause a) : Except Failure β)) :=
  h.bind fun a _ => error (hcause a)

/-- Work that is refused only so answers or is refused so. -/
theorem cases {run : Except Failure α} (h : Refuses p run) :
    (∃ a, run = .ok a) ∨ ∃ f, run = .error f ∧ p f := by
  cases run with
  | ok a => exact Or.inl ⟨a, rfl⟩
  | error f => exact Or.inr ⟨f, rfl, h f rfl⟩

end Refuses

end Stratagem
