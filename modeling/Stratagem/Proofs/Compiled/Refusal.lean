import Stratagem.Compiled
import Stratagem.Proofs.ValueRef.Refusal

/-!
# Compiled strategies that are refused

A document that is no compiled strategy is refused as malformed, or for one of a few values that the readers
take for a number or for a list before they look at them: a threshold that is infinite or no number at all, a
literal beyond every double, and what is `ValueRef.Unplaced` in a reference. A value that is to be shown as
malformed but holds a number too long to be written is the third case. Each level adds nothing but what stands in
one of its members.
-/

namespace Stratagem

open Document (member lookup)
open Failure (Coercion ReportedOr)

/-! ## Members of records -/

namespace Wire

variable {bare : Coercion → Prop} {ms : List (String × Document)} {key : String}

theorem record_refuses (what : String) (d : Document) : Refuses (ReportedOr bare) (record what d) := by
  cases d with
  | record ms => exact Refuses.ok ms
  | _ => exact Refuses.error (Or.inl rfl)

theorem eq_of_record {what : String} {d : Document} (h : record what d = .ok ms) : d = .record ms := by
  cases d with
  | record ms' =>
      cases h
      rfl
  | _ => cases h

theorem list_refuses (ms : List (String × Document)) (key : String) :
    Refuses (ReportedOr bare) (list ms key) := by
  unfold list
  split
  · exact Refuses.ok _
  · exact Refuses.ok _
  · exact Refuses.error (Or.inl rfl)

/-- What is shown because it is malformed is bare only if it cannot be written. -/
theorem shown_refuses {α : Type} {d : Document} {cause : String → Failure.Format}
    (hbare : ¬ d.Writable → bare .tooLongToWrite) :
    Refuses (ReportedOr bare) (d.quoted >>= fun shown => (throw (.format (cause shown)) : Except Failure α)) :=
  (Refuses.bareUnless (Document.quoted_writesIf d) hbare).throwing fun _ => Or.inl rfl

/-- What is listed under a key. -/
theorem lookup_of_list {xs : List Document} {x : Document} (h : list ms key = .ok xs) (hx : x ∈ xs) :
    lookup ms key = some (.list xs) := by
  unfold list at h
  split at h
  · cases h
    cases hx
  · rename_i ys hys
    cases h
    exact Document.lookup_of_member hys (by simp)
  · cases h

end Wire

open Wire

/-! ## Arguments -/

/-- What an argument is refused for without being called malformed. -/
inductive Argument.Unplaced : Document → Coercion → Prop
  | number {n : Int} : Number.ofInt? n = none → Unplaced (.int n) .realTooLarge
  | ref {ms : List (String × Document)} {c : Coercion} : ValueRef.Unplaced ms c → Unplaced (.record ms) c
  | unwritable {xs : List Document} : ¬ (Document.list xs).Writable → Unplaced (.list xs) .tooLongToWrite

theorem Argument.ofDocument_refuses (raw : Document) :
    Refuses (ReportedOr (Unplaced raw)) (ofDocument raw) := by
  cases raw with
  | record ms =>
      exact ((ValueRef.ofDocument_refuses ms).widen fun c hc => .ref hc).bind fun r _ => Refuses.ok _
  | int n =>
      exact ((Document.toReal_int_refuses n).imp fun f ⟨hf, hn⟩ => Or.inr ⟨_, hf, .number hn⟩).bind
        fun x _ => Refuses.ok _
  | real x => exact Refuses.ok _
  | text s => exact Refuses.ok _
  | null => exact shown_refuses fun h => absurd trivial h
  | bool b => exact shown_refuses fun h => absurd trivial h
  | list xs => exact shown_refuses .unwritable

/-! ## Levels -/

def thresholdKeys : List String := ["minPassConditions", "minPassGroups", "minPassConditionContainer"]

/-- The keys of what is shown whenever it is not as expected. -/
def shownKeys : List String := ["enabled", "required", "method"]

/-- What a call or a level is refused for without being called malformed: a threshold somewhere inside it, an
argument, or what cannot be written where it is to be shown. -/
inductive Wire.Unplaced (d : Document) : Coercion → Prop
  | infinity {key : String} {x : Float} : key ∈ thresholdKeys → d.Under key (.real x) → x.isInf = true →
      Unplaced d .integerOfInfinity
  | noNumber {key : String} {x : Float} : key ∈ thresholdKeys → d.Under key (.real x) → x.isNaN = true →
      Unplaced d .integerOfNoNumber
  | argument {xs : List Document} {raw : Document} {c : Coercion} : d.Under "args" (.list xs) → raw ∈ xs →
      Argument.Unplaced raw c → Unplaced d c
  | threshold {key : String} {x : Document} : key ∈ thresholdKeys → d.Under key x → ¬ x.IsScalar → ¬ x.Writable →
      Unplaced d .tooLongToWrite
  | unwritable {key : String} {x : Document} : key ∈ shownKeys → d.Under key x → ¬ x.Writable →
      Unplaced d .tooLongToWrite

namespace Wire

variable {α : Type} {ms : List (String × Document)} {key : String}

theorem Unplaced.mono {a d : Document} {c : Coercion} (hd : d.Within a) (h : Unplaced d c) : Unplaced a c := by
  cases h with
  | infinity hkey hunder hx => exact .infinity hkey (hd _ _ hunder) hx
  | noNumber hkey hunder hx => exact .noNumber hkey (hd _ _ hunder) hx
  | argument hunder hraw hc => exact .argument (hd _ _ hunder) hraw hc
  | threshold hkey hunder hscalar hx => exact .threshold hkey (hd _ _ hunder) hscalar hx
  | unwritable hkey hunder hx => exact .unwritable hkey (hd _ _ hunder) hx

/-- What stands under a key, or the empty record in its place, is refused for what is inside the record. -/
theorem Unplaced.member {c : Coercion}
    (h : Unplaced ((Document.member ms key).orElse (.record [])) c) : Unplaced (.record ms) c :=
  h.mono ((Document.within_orElse _).trans (Document.within_member ms key))

/-- A member that is shown is one that the record has. -/
theorem member_refuses (hkey : key ∈ shownKeys) {cause : String → Failure.Format} :
    Refuses (ReportedOr (Unplaced (.record ms)))
      ((member ms key).quoted >>= fun shown => (throw (.format (cause shown)) : Except Failure α)) := by
  refine shown_refuses fun h => .unwritable hkey (.of_lookup (Document.lookup_of_member rfl ?_)) h
  rintro hnull
  exact h (by rw [hnull]; trivial)

theorem flag_refuses (ms : List (String × Document)) (hkey : key ∈ shownKeys) (default : Bool) :
    Refuses (ReportedOr (Unplaced (.record ms))) (flag ms key default) := by
  unfold flag
  split
  · exact Refuses.ok _
  · exact Refuses.ok _
  · exact member_refuses hkey

theorem readMethod_refuses (ms : List (String × Document)) :
    Refuses (ReportedOr (Unplaced (.record ms))) (readMethod ms) := by
  unfold readMethod
  split
  · exact Refuses.ite (Refuses.error (Or.inl rfl)) (Refuses.ok _)
  · exact member_refuses (by decide)

theorem threshold_refuses (ms : List (String × Document)) (hkey : key ∈ thresholdKeys) :
    Refuses (ReportedOr (Unplaced (.record ms))) (threshold ms key) := by
  unfold threshold
  split
  · exact Refuses.ok _
  · exact Refuses.ok _
  · rename_i x hx
    have hunder : (Document.record ms).Under key (.real x) :=
      .of_lookup (Document.lookup_of_member hx (by simp))
    refine ((Document.wholePart_refuses x).imp ?_).bind fun n _ => ?_
    · rintro _ (⟨hinf, rfl⟩ | ⟨hnan, rfl⟩)
      · exact Or.inr ⟨_, rfl, .infinity hkey hunder hinf⟩
      · exact Or.inr ⟨_, rfl, .noNumber hkey hunder hnan⟩
    · exact Refuses.ite (Refuses.ok _) (Refuses.error (Or.inl rfl))
  · rename_i hnull hint hreal
    refine shown_refuses fun h => .threshold hkey (.of_lookup (Document.lookup_of_member rfl hnull)) ?_ h
    cases hd : member ms key with
    | null => exact absurd hd hnull
    | int n => exact absurd hd (hint n)
    | real x => exact absurd hd (hreal x)
    | bool b => exact absurd (by rw [hd]; trivial) h
    | text s => exact absurd (by rw [hd]; trivial) h
    | list xs => exact id
    | record ms => exact id

/-- The members of a list are refused for what is inside the record. -/
theorem members_refuse {read : Document → Except Failure α} {xs : List Document}
    (hread : ∀ x, Refuses (ReportedOr (Unplaced x)) (read x)) (hxs : list ms key = .ok xs) :
    Refuses (ReportedOr (Unplaced (.record ms))) (xs.mapM read) :=
  Refuses.mapM fun x hx => (hread x).widen fun _ hc =>
    hc.mono ((Document.Occurs.item hx .here).within.trans (.of_lookup (lookup_of_list hxs hx)))

end Wire

theorem Call.ofDocument_refuses (raw : Document) : Refuses (ReportedOr (Unplaced raw)) (ofDocument raw) := by
  refine (record_refuses _ raw).bind fun ms hms => ?_
  rw [eq_of_record hms]
  refine (readMethod_refuses ms).bind fun method _ => (list_refuses ms _).bind fun xs hxs => ?_
  refine Refuses.bind (Refuses.mapM fun x hx => ?_) fun args _ => ?_
  · exact (Argument.ofDocument_refuses x).widen fun c hc =>
      .argument (.of_lookup (lookup_of_list hxs hx)) hx hc
  · exact (flag_refuses ms (by decide) _).bind fun enabled _ =>
      (flag_refuses ms (by decide) _).bind fun required _ => Refuses.ok _

theorem ActionSet.ofDocument_refuses (raw : Document) :
    Refuses (ReportedOr (Unplaced raw)) (ofDocument raw) := by
  refine (record_refuses _ raw).bind fun ms hms => ?_
  rw [eq_of_record hms]
  refine (list_refuses ms _).bind fun xs hxs => ?_
  refine (members_refuse Call.ofDocument_refuses hxs).bind fun calls _ => ?_
  refine (flag_refuses ms (by decide) _).bind fun enabled _ => ?_
  exact (threshold_refuses ms (by decide)).bind fun minPass _ => Refuses.ok _

namespace Compiled

theorem Group.ofDocument_refuses (raw : Document) : Refuses (ReportedOr (Unplaced raw)) (ofDocument raw) := by
  refine (record_refuses _ raw).bind fun ms hms => ?_
  rw [eq_of_record hms]
  refine (list_refuses ms _).bind fun xs hxs => ?_
  refine (members_refuse Call.ofDocument_refuses hxs).bind fun conditions _ => ?_
  refine (flag_refuses ms (by decide) _).bind fun enabled _ => ?_
  refine (threshold_refuses ms (by decide)).bind fun minPass _ => ?_
  exact (flag_refuses ms (by decide) _).bind fun required _ => Refuses.ok _

theorem Container.ofChecks_refuses (raw : Document) : Refuses (ReportedOr (Unplaced raw)) (ofChecks raw) := by
  refine (record_refuses _ raw).bind fun ms hms => ?_
  rw [eq_of_record hms]
  refine (list_refuses ms _).bind fun xs hxs => ?_
  refine (members_refuse Group.ofDocument_refuses hxs).bind fun groups _ => ?_
  refine (flag_refuses ms (by decide) _).bind fun enabled _ => ?_
  refine (threshold_refuses ms (by decide)).bind fun minPass _ => ?_
  exact (flag_refuses ms (by decide) _).bind fun required _ => Refuses.ok _

theorem Container.ofDocument_refuses (raw : Document) :
    Refuses (ReportedOr (Unplaced raw)) (ofDocument raw) := by
  refine (record_refuses _ raw).bind fun ms hms => ?_
  rw [eq_of_record hms]
  exact (ofChecks_refuses _).widen fun c hc => hc.member

theorem Branch.ofDocument_refuses (raw : Document) : Refuses (ReportedOr (Unplaced raw)) (ofDocument raw) := by
  refine (record_refuses _ raw).bind fun ms hms => ?_
  rw [eq_of_record hms]
  refine (flag_refuses ms (by decide) _).bind fun enabled _ => ?_
  refine (threshold_refuses ms (by decide)).bind fun minPass _ => ?_
  refine (list_refuses ms _).bind fun xs hxs => ?_
  refine (members_refuse Container.ofDocument_refuses hxs).bind fun containers _ => ?_
  refine Refuses.bind ?_ fun onPass _ => Refuses.ok _
  exact (ActionSet.ofDocument_refuses _).widen fun c hc => hc.member

theorem Branch.ofSlot_refuses (ms : List (String × Document)) (slot : Slot) :
    Refuses (ReportedOr (Unplaced (.record ms))) (ofSlot ms slot) := by
  refine (record_refuses _ _).bind fun phase hphase => ?_
  have hlift {c : Coercion} (h : Unplaced (.record phase) c) : Unplaced (.record ms) c := by
    rw [← eq_of_record hphase] at h
    exact h.member
  split
  · exact Refuses.ok _
  · exact (ofDocument_refuses _).widen fun c hc =>
      hlift (hc.mono (Document.within_member phase slot.side))

theorem Logic.ofDocument_refuses (raw : Document) : Refuses (ReportedOr (Unplaced raw)) (ofDocument raw) := by
  refine (record_refuses _ raw).bind fun ms hms => ?_
  rw [eq_of_record hms]
  exact Refuses.ofFnM (Branch.ofSlot_refuses ms)

/-- **Every document is a compiled strategy, or is refused as malformed, or is `Unplaced` somewhere.** -/
theorem Logic.ofDocument_reads_or_reports (raw : Document) :
    (∃ l, ofDocument raw = .ok l) ∨
      ∃ f, ofDocument raw = .error f ∧ (f.kind = .format ∨ ∃ c, f = .coercion c ∧ Unplaced raw c) :=
  (ofDocument_refuses raw).cases

example : Logic.ofDocument (.record [("entry", .record [("long", .record [
    ("minPassConditionContainer", .real Number.notANumber)])])]) = .error (.coercion .integerOfNoNumber) := rfl

end Compiled

end Stratagem
