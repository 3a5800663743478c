import Stratagem.Failure
import Stratagem.Text

/-!
# Slots

The four fixed branches of a strategy: entries and exits, long and short.
-/

namespace Stratagem

inductive Slot where
  | entryLong
  | entryShort
  | exitLong
  | exitShort
  deriving DecidableEq, Repr

namespace Slot

def all : List Slot := [entryLong, entryShort, exitLong, exitShort]

def phase : Slot → String
  | entryLong | entryShort => "entry"
  | exitLong | exitShort => "exit"

def side : Slot → String
  | entryLong | exitLong => "long"
  | entryShort | exitShort => "short"

def name (s : Slot) : String := s.phase ++ "." ++ s.side

/-- The trade that the branch makes unless it says otherwise. -/
def action : Slot → String
  | entryLong => "Long"
  | entryShort => "Short"
  | exitLong => "CloseLong"
  | exitShort => "CloseShort"

def containerId : Slot → String
  | entryLong => "open-long"
  | entryShort => "open-short"
  | exitLong => "close-long"
  | exitShort => "close-short"

def title : Slot → String
  | entryLong => "Open long"
  | entryShort => "Open short"
  | exitLong => "Close long"
  | exitShort => "Close short"

def spellings : Slot → List String
  | entryLong => ["entry.long", "open.long"]
  | entryShort => ["entry.short", "open.short"]
  | exitLong => ["exit.long", "close.long"]
  | exitShort => ["exit.short", "close.short"]

/-- The normal form of a spelling: lower case, with points for hyphens and underscores. -/
def normalize (raw : String) : String :=
  String.ofList ((Text.lower (Text.trim raw)).toList.map fun c => if c == '-' || c == '_' then '.' else c)

def ofText (raw : String) : Except Failure Slot :=
  match all.find? fun s => s.spellings.contains (normalize raw) with
  | some s => .ok s
  | none => .error (.node (.unknownSlot raw))

end Slot

structure PerSlot (α : Type) where
  entryLong : α
  entryShort : α
  exitLong : α
  exitShort : α
  deriving DecidableEq

namespace PerSlot

variable {α β : Type}

def get (p : PerSlot α) : Slot → α
  | .entryLong => p.entryLong
  | .entryShort => p.entryShort
  | .exitLong => p.exitLong
  | .exitShort => p.exitShort

def ofFn (f : Slot → α) : PerSlot α :=
  ⟨f .entryLong, f .entryShort, f .exitLong, f .exitShort⟩

def set (p : PerSlot α) : Slot → α → PerSlot α
  | .entryLong, a => { p with entryLong := a }
  | .entryShort, a => { p with entryShort := a }
  | .exitLong, a => { p with exitLong := a }
  | .exitShort, a => { p with exitShort := a }

def map (f : Slot → α → β) (p : PerSlot α) : PerSlot β :=
  ofFn fun s => f s (p.get s)

def toList (p : PerSlot α) : List (Slot × α) :=
  Slot.all.map fun s => (s, p.get s)

def ofFnM {m : Type → Type} [Monad m] (f : Slot → m α) : m (PerSlot α) := do
  return ⟨← f .entryLong, ← f .entryShort, ← f .exitLong, ← f .exitShort⟩

@[simp] theorem get_ofFn (f : Slot → α) (s : Slot) : (ofFn f).get s = f s := by
  cases s <;> rfl

@[simp] theorem get_map (f : Slot → α → β) (p : PerSlot α) (s : Slot) :
    (p.map f).get s = f s (p.get s) := by
  simp [map]

theorem get_set (p : PerSlot α) (s t : Slot) (a : α) :
    (p.set s a).get t = if t = s then a else p.get t := by
  cases s <;> cases t <;> rfl

@[simp] theorem get_set_self (p : PerSlot α) (s : Slot) (a : α) : (p.set s a).get s = a := by
  simp [get_set]

@[simp] theorem set_get (p : PerSlot α) (s : Slot) : p.set s (p.get s) = p := by
  cases s <;> rfl

@[simp] theorem set_set (p : PerSlot α) (s : Slot) (a b : α) : (p.set s a).set s b = p.set s b := by
  cases s <;> rfl

theorem set_comm (p : PerSlot α) {s t : Slot} (h : s ≠ t) (a b : α) :
    (p.set s a).set t b = (p.set t b).set s a := by
  cases s <;> cases t <;> first | rfl | exact absurd rfl h

theorem ext_get {p q : PerSlot α} (h : ∀ s, p.get s = q.get s) : p = q := by
  obtain ⟨a, b, c, d⟩ := p
  obtain ⟨a', b', c', d'⟩ := q
  have h1 := h .entryLong
  have h2 := h .entryShort
  have h3 := h .exitLong
  have h4 := h .exitShort
  simp only [get] at h1 h2 h3 h4
  rw [h1, h2, h3, h4]

end PerSlot

end Stratagem
