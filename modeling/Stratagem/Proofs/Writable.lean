import Mathlib.Algebra.Group.Nat.Defs
import Stratagem.Document.Coercion
import Stratagem.Proofs.Sequencing

/-!
# What can be written

A whole number has a text if it has at most 4300 digits. Hence a document is shown exactly if it is `Writable`:
each of its whole numbers has a text. Otherwise the one failure is that a number is too long, which is what
`WritesIf` says of a run.
-/

namespace Stratagem

/-- The run answers if `p` holds; otherwise a whole number is too long to be written. -/
def WritesIf {α : Type} (p : Prop) (run : Except Failure α) : Prop :=
  (p ∧ ∃ a, run = .ok a) ∨ (¬p ∧ run = .error (.coercion .tooLongToWrite))

namespace WritesIf

variable {α β : Type} {p q : Prop} {run : Except Failure α}

theorem exists_ok (h : WritesIf p run) (hp : p) : ∃ a, run = .ok a :=
  (h.resolve_right fun hn => hn.1 hp).2

theorem eq_error (h : WritesIf p run) (hp : ¬p) : run = .error (.coercion .tooLongToWrite) :=
  (h.resolve_left fun hn => hp hn.1).2

theorem of_ok (h : WritesIf p run) {a : α} (ha : run = .ok a) : p := by
  by_contra hp
  rw [h.eq_error hp] at ha
  cases ha

theorem exists_ok_iff (h : WritesIf p run) : (∃ a, run = .ok a) ↔ p :=
  ⟨fun ⟨_, ha⟩ => h.of_ok ha, h.exists_ok⟩

theorem ok (a : α) : WritesIf True (.ok a) :=
  Or.inl ⟨trivial, a, rfl⟩

theorem congr (h : WritesIf p run) (hpq : p ↔ q) : WritesIf q run := by
  rwa [← propext hpq]

theorem bind {f : α → Except Failure β} (h : WritesIf p run) (hf : ∀ a, run = .ok a → WritesIf q (f a)) :
    WritesIf (p ∧ q) (run >>= f) := by
  rcases h with ⟨hp, a, ha⟩ | ⟨hp, he⟩
  · rw [ha]
    exact (hf a ha).congr (and_iff_right hp).symm
  · rw [he]
    exact Or.inr ⟨fun h => hp h.1, rfl⟩

/-- A step that only puts together what was written. -/
theorem bind_pure (h : WritesIf p run) (f : α → β) : WritesIf p (run >>= fun a => pure (f a)) :=
  (h.bind (q := True) fun a _ => .ok (f a)).congr (and_iff_left trivial)

end WritesIf

/-! ## Whole numbers -/

namespace Number

theorem isTooLong_eq_false_iff {n : Int} : isTooLong n = false ↔ n.natAbs < 10 ^ maxDigits := by
  rw [isTooLong, decide_eq_false_iff_not, Nat.not_lt]
  exact Nat.length_toDigits_le_iff (by decide) (by decide)

theorem intText_writesIf (n : Int) : WritesIf (isTooLong n = false) (intText n) := by
  rw [intText]
  by_cases h : isTooLong n = true
  · rw [if_pos h]
    exact Or.inr ⟨by simp [h], rfl⟩
  · rw [if_neg h]
    exact Or.inl ⟨by simpa using h, _, rfl⟩

end Number

/-! ## Documents -/

namespace Document

mutual

/-- Every whole number in the document has a text. -/
def Writable : Document → Prop
  | int n => Number.isTooLong n = false
  | list xs => ItemsWritable xs
  | record ms => MembersWritable ms
  | _ => True

def ItemsWritable : List Document → Prop
  | [] => True
  | x :: xs => x.Writable ∧ ItemsWritable xs

def MembersWritable : List (String × Document) → Prop
  | [] => True
  | (_, x) :: ms => x.Writable ∧ MembersWritable ms

end

mutual

theorem quoted_writesIf : (d : Document) → WritesIf d.Writable d.quoted
  | null | bool true | bool false | real _ | text _ => .ok _
  | int n => Number.intText_writesIf n
  | list xs => (quotedItems_writesIf xs).bind_pure _
  | record ms => (quotedMembers_writesIf ms).bind_pure _

theorem quotedItems_writesIf : (xs : List Document) → WritesIf (ItemsWritable xs) (quotedItems xs)
  | [] => .ok _
  | x :: xs => (quoted_writesIf x).bind fun _ _ => (quotedItems_writesIf xs).bind_pure _

theorem quotedMembers_writesIf :
    (ms : List (String × Document)) → WritesIf (MembersWritable ms) (quotedMembers ms)
  | [] => .ok _
  | (_, x) :: ms => (quoted_writesIf x).bind fun _ _ => (quotedMembers_writesIf ms).bind_pure _

end

theorem display_writesIf (d : Document) : WritesIf d.Writable d.display := by
  cases d with
  | text s => exact .ok s
  | _ => exact quoted_writesIf _

theorem writable_of_isEmpty {d : Document} (h : d.isEmpty = true) : d.Writable := by
  cases d with
  | int n =>
      rw [beq_iff_eq.mp h]
      rfl
  | list xs =>
      rw [List.isEmpty_iff.mp h]
      trivial
  | record ms =>
      rw [List.isEmpty_iff.mp h]
      trivial
  | _ => trivial

/-- What stands for nothing is never too long, so the default changes nothing about it. -/
theorem displayOr_writesIf (default : String) (d : Document) : WritesIf d.Writable (d.displayOr default) := by
  rw [displayOr]
  split
  · exact (WritesIf.ok default).congr (iff_of_true trivial (writable_of_isEmpty ‹_›))
  · exact display_writesIf d

end Document

end Stratagem
