import Stratagem.Number.Double
import Stratagem.Text

/-!
# Documents

The tree of values that a file or a request holds. A record keeps its members in the order in which
they were written, and no two of them share a key.
-/

namespace Stratagem

inductive Document where
  | null
  | bool (b : Bool)
  | int (n : Int)
  | real (x : Float)
  | text (s : String)
  | list (items : List Document)
  | record (members : List (String × Document))
  deriving Inhabited

namespace Document

mutual

def decEq : (a b : Document) → Decidable (a = b)
  | null, null => isTrue rfl
  | bool x, bool y => if h : x = y then isTrue (by rw [h]) else isFalse (by simp [h])
  | int x, int y => if h : x = y then isTrue (by rw [h]) else isFalse (by simp [h])
  | real x, real y => if h : x = y then isTrue (by rw [h]) else isFalse (by simp [h])
  | text x, text y => if h : x = y then isTrue (by rw [h]) else isFalse (by simp [h])
  | list x, list y =>
    match decEqItems x y with
    | isTrue h => isTrue (by rw [h])
    | isFalse h => isFalse (by simp [h])
  | record x, record y =>
    match decEqMembers x y with
    | isTrue h => isTrue (by rw [h])
    | isFalse h => isFalse (by simp [h])
  | null, bool _ | null, int _ | null, real _ | null, text _ | null, list _ | null, record _
  | bool _, null | bool _, int _ | bool _, real _ | bool _, text _ | bool _, list _
  | bool _, record _ | int _, null | int _, bool _ | int _, real _ | int _, text _ | int _, list _
  | int _, record _ | real _, null | real _, bool _ | real _, int _ | real _, text _
  | real _, list _ | real _, record _ | text _, null | text _, bool _ | text _, int _
  | text _, real _ | text _, list _ | text _, record _ | list _, null | list _, bool _
  | list _, int _ | list _, real _ | list _, text _ | list _, record _ | record _, null
  | record _, bool _ | record _, int _ | record _, real _ | record _, text _
  | record _, list _ => isFalse nofun

def decEqItems : (a b : List Document) → Decidable (a = b)
  | [], [] => isTrue rfl
  | x :: xs, y :: ys =>
    match decEq x y, decEqItems xs ys with
    | isTrue h, isTrue hs => isTrue (by rw [h, hs])
    | isFalse h, _ => isFalse (by simp [h])
    | _, isFalse hs => isFalse (by simp [hs])
  | [], _ :: _ | _ :: _, [] => isFalse nofun

def decEqMembers : (a b : List (String × Document)) → Decidable (a = b)
  | [], [] => isTrue rfl
  | (k, x) :: xs, (l, y) :: ys =>
    match decEq x y, decEqMembers xs ys with
    | isTrue h, isTrue hs =>
      if hk : k = l then isTrue (by rw [hk, h, hs]) else isFalse (by simp [hk])
    | isFalse h, _ => isFalse (by simp [h])
    | _, isFalse hs => isFalse (by simp [hs])
  | [], _ :: _ | _ :: _, [] => isFalse nofun

end

instance : DecidableEq Document := decEq

def kindName : Document → String
  | null => "NoneType"
  | bool _ => "bool"
  | int _ => "int"
  | real _ => "float"
  | text _ => "str"
  | list _ => "list"
  | record _ => "dict"

/-! ## Emptiness -/

/-- Whether the document stands for nothing: no value, false, zero, an empty text, list or record. -/
def isEmpty : Document → Bool
  | null => true
  | bool b => !b
  | int n => n == 0
  | real x => x == 0
  | text s => s.isEmpty
  | list xs => xs.isEmpty
  | record ms => ms.isEmpty

def orElse (a d : Document) : Document :=
  if a.isEmpty then d else a

/-! ## Records -/

def lookup (members : List (String × Document)) (key : String) : Option Document :=
  List.lookup key members

/-- The value under a key, null if there is none. -/
def member (members : List (String × Document)) (key : String) : Document :=
  (lookup members key).getD null

def hasMember (members : List (String × Document)) (key : String) : Bool :=
  (lookup members key).isSome

/-- Puts a value under a key: in place of the old one, at the end if there is none. -/
def insert : List (String × Document) → String → Document → List (String × Document)
  | [], key, value => [(key, value)]
  | (k, v) :: ms, key, value =>
    if k == key then (key, value) :: ms else (k, v) :: insert ms key value

def get? : Document → String → Option Document
  | record ms, key => lookup ms key
  | _, _ => none

theorem lookup_insert (ms : List (String × Document)) (key : String) (value : Document) :
    lookup (insert ms key value) key = some value := by
  induction ms with
  | nil => simp [insert, lookup]
  | cons m ms ih =>
    obtain ⟨k, v⟩ := m
    rw [insert]
    split
    · simp [lookup]
    · rename_i h
      simp only [lookup, List.lookup_cons] at ih ⊢
      have : (key == k) = false := by
        simp only [beq_iff_eq, beq_eq_false_iff_ne, ne_eq] at h ⊢
        exact fun e => h e.symm
      simp [this, ih]

/-! ## Sorted records -/

mutual

def sorted : Document → Document
  | list xs => list (sortedItems xs)
  | record ms => record ((sortedMembers ms).mergeSort fun a b => !Text.before b.1 a.1)
  | d => d

def sortedItems : List Document → List Document
  | [] => []
  | x :: xs => x.sorted :: sortedItems xs

def sortedMembers : List (String × Document) → List (String × Document)
  | [] => []
  | (k, x) :: ms => (k, x.sorted) :: sortedMembers ms

end

end Document

end Stratagem
