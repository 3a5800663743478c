import Stratagem.Indicator

/-!
# Selections

The indicators that the user has chosen, the newest first. No two of them share an id, and one is not
added while another has its signature. A reference is resolved against them; one that points at nothing
is a value of its own and no failure.
-/

namespace Stratagem

structure Selection where
  indicators : List Indicator
  nodup : (indicators.map (·.id)).Nodup
  deriving DecidableEq

namespace Selection

def empty : Selection := ⟨[], by simp⟩

def repeatedId? (seen : List String) : List Indicator → Option String
  | [] => none
  | i :: is => if seen.contains i.id then some i.id else repeatedId? (i.id :: seen) is

theorem repeatedId?_eq_none {seen : List String} {is : List Indicator}
    (h : repeatedId? seen is = none) :
    (is.map (·.id)).Nodup ∧ ∀ i ∈ is, i.id ∉ seen := by
  induction is generalizing seen with
  | nil => simp
  | cons i is ih =>
    rw [repeatedId?] at h
    split at h
    · cases h
    · rename_i hi
      obtain ⟨hn, hs⟩ := ih h
      simp only [List.contains_eq_mem, decide_eq_true_eq] at hi
      refine ⟨List.nodup_cons.2 ⟨?_, hn⟩, ?_⟩
      · intro hm
        obtain ⟨j, hj, hij⟩ := List.mem_map.1 hm
        exact hs j hj (by simp [hij])
      · intro j hj
        rcases List.mem_cons.1 hj with rfl | hj
        · exact hi
        · exact fun hm => hs j hj (List.mem_cons_of_mem _ hm)

def ofIndicators (is : List Indicator) : Except Failure Selection :=
  match h : repeatedId? [] is with
  | some id => .error (.indicator (.repeatedId id))
  | none => .ok ⟨is, (repeatedId?_eq_none h).1⟩

def get? (s : Selection) (id : String) : Option Indicator :=
  s.indicators.find? (·.id == id)

def contains (s : Selection) (id : String) : Bool :=
  s.indicators.any (·.id == id)

def findKey (key : String) : List Indicator → Except Failure (Option Indicator)
  | [] => .ok none
  | i :: is => do if (← i.key) == key then return some i else findKey key is

def find (s : Selection) (r : ValueRef) : Except Failure (Option Indicator) :=
  if r.isIndicator then findKey r.indicatorKey s.indicators else .ok none

/-- The first entry with another id and the given signature. -/
def findSignature (id signature : String) : List Indicator → Except Failure (Option Indicator)
  | [] => .ok none
  | i :: is =>
    if i.id == id then findSignature id signature is
    else do if (← i.signature) == signature then return some i else findSignature id signature is

/-- Another entry with the signature of the indicator. -/
def duplicate? (s : Selection) (i : Indicator) : Except Failure (Option Indicator) := do
  findSignature i.id (← i.signature) s.indicators

def refuseDuplicate (s : Selection) (i : Indicator) : Except Failure Unit := do
  match ← s.duplicate? i with
  | some j => throw (.duplicateIndicator (← i.signature) j.id)
  | none => return ()

/-- The selection with a further indicator in front. -/
def add (s : Selection) (i : Indicator) : Except Failure Selection := do
  s.refuseDuplicate i
  ofIndicators (i :: s.indicators)

/-- The indicators with the one of the same id exchanged. -/
def exchange (i : Indicator) (is : List Indicator) : List Indicator :=
  is.map fun j => if j.id == i.id then i else j

theorem map_id_exchange (i : Indicator) (is : List Indicator) :
    (exchange i is).map (·.id) = is.map (·.id) := by
  rw [exchange, List.map_map]
  apply List.map_congr_left
  intro j _
  by_cases h : j.id = i.id <;> simp [h]

def replace (s : Selection) (i : Indicator) : Except Failure Selection := do
  if !s.contains i.id then .error (.missingKey (Text.quoted i.id))
  s.refuseDuplicate i
  return ⟨exchange i s.indicators, by rw [map_id_exchange]; exact s.nodup⟩

def remove (s : Selection) (id : String) : Selection where
  indicators := s.indicators.filter (·.id != id)
  nodup := s.nodup.sublist ((List.filter_sublist).map _)

def outputHint (s : Selection) (r : ValueRef) : Except Failure Document := do
  match ← s.find r with
  | some i => return i.hint r.output
  | none => return r.output

def ofDocument (raw : Document) : Except Failure Selection := do
  let is ← (← (raw.orElse (.list [])).items).mapM Indicator.ofDocument
  placed none false (ofIndicators is)

def toDocument (s : Selection) : Document :=
  .list (s.indicators.map Indicator.toDocument)

end Selection

/-! ## Resolution of references -/

/-- Why a reference points at nothing. -/
inductive Dangling where
  | unknownField (key : String)
  | notSelected (indicatorKey : String)
  | outputNotDeclared (indicator : Indicator) (output : String)
  deriving DecidableEq

namespace Dangling

def reason : Dangling → String
  | unknownField _ => "unknown_field"
  | notSelected _ => "indicator_not_selected"
  | outputNotDeclared _ _ => "output_not_declared"

def message : Dangling → String
  | unknownField key =>
    "Unknown kline field '" ++ key ++ "'. Allowed: " ++ ", ".intercalate (Kline.fields.map (·.1))
  | notSelected indicatorKey => "Indicator '" ++ indicatorKey ++ "' is not selected"
  | outputNotDeclared i output =>
    "Indicator '" ++ i.id ++ "' (" ++ i.code ++ ") has no output '" ++ output ++
      "'. Allowed: " ++ ", ".intercalate i.outputKeys

end Dangling

inductive Resolution where
  /-- The indicator read, none for a candle column or a literal, and the name of the output. -/
  | found (indicator? : Option Indicator) (hint : Document)
  | dangling (d : Dangling)
  deriving DecidableEq

namespace Resolution

def isDangling : Resolution → Bool
  | found _ _ => false
  | dangling _ => true

end Resolution

namespace Selection

/-- Looks a reference up among the selected indicators and the candle columns. -/
def resolve (s : Selection) (r : ValueRef) : Except Failure Resolution :=
  match r.kind with
  | .literal => .ok (.found none (.text r.input))
  | .field =>
    match Kline.hint? r.input with
    | some hint => .ok (.found none (.text hint))
    | none => .ok (.dangling (.unknownField r.input))
  | .indicator => do
    match ← s.find r with
    | none => return .dangling (.notSelected r.indicatorKey)
    | some i =>
      if i.declares r.output then return .found (some i) (i.hint r.output)
      else return .dangling (.outputNotDeclared i (← r.output.display))

end Selection

end Stratagem
