import Stratagem.Proofs.Evaluate

/-!
# What operands read from any column

A column may hold anything. An operand then reads as a double, or there is a `Gap`: a value is missing, is
unreadable, or is a whole number beyond every double. The first gap among the operands decides why a comparison
fails, and `Call.reason` says so without the evaluator's refusals. Only the last sort of gap is let through as a
refusal: `Call.evaluate_reason`.
-/

namespace Stratagem

/-- Why an operand reads as no double. -/
inductive Gap where
  | missing
  | unreadable
  /-- A whole number beyond every double. -/
  | tooLarge
  deriving DecidableEq, Repr

/-! ## Readings -/

namespace Snapshot

def isListing : Document → Bool
  | .null | .list _ => true
  | _ => false

/-- Every column is a list, of whatever values, or missing. -/
def Listed (s : Snapshot) : Prop :=
  ∀ column ∈ s.series, isListing column.2 = true

instance (s : Snapshot) : Decidable s.Listed :=
  inferInstanceAs (Decidable (∀ column ∈ s.series, isListing column.2 = true))

theorem isListing_of_isColumn {d : Document} (h : isColumn d = true) : isListing d = true := by
  cases d
  case null => rfl
  case list items => rfl
  all_goals cases h

theorem Numeric.listed {s : Snapshot} (hs : s.Numeric) : s.Listed :=
  fun column hmem => isListing_of_isColumn (hs column hmem)

def present (x : Float) : Except Gap Float :=
  if x.isNaN then .error .missing else .ok x

def textReading (t : String) : Except Gap Float :=
  (Number.readReal? t).elim (.error .unreadable) .ok

/-- What a value reads as. A flag counts as zero or one. -/
def valueReading : Document → Except Gap Float
  | .null => .error .missing
  | .bool b => .ok (if b then 1 else 0)
  | .int n => (Number.ofInt? n).elim (.error .tooLarge) .ok
  | .real x => .ok x
  | .text t => textReading t
  | .list _ | .record _ => .error .unreadable

/-- What an item of a column reads as. A column that is too short has no item. -/
def itemReading (item : Option Document) : Except Gap Float :=
  item.elim (.error .missing) valueReading >>= present

def refReading (s : Snapshot) (further : Nat) (r : ValueRef) : Except Gap Float :=
  if r.isLiteral then r.literalValue.elim (.error .missing) .ok
  else match r.seriesKey with
    | .ok key => itemReading (s.column key)[r.window.low + further]?
    | .error _ => .error .unreadable

/-- What an argument reads as, so many bars further back than it says. -/
def probe (s : Snapshot) (further : Nat) : Argument → Except Gap Float
  | .ref r => s.refReading further r
  | .number x => .ok x
  | .text t => textReading (Text.trim t)

variable {s : Snapshot}

/-- Whatever the column, an item is missing, or its value is at fault. -/
theorem itemReading_error {item : Option Document} {gap : Gap} (h : itemReading item = .error gap) :
    gap = .missing ∨ ∃ d ∈ item, valueReading d = .error gap := by
  rcases item with _ | d
  · cases h
    exact Or.inl rfl
  · rw [itemReading, Option.elim_some] at h
    cases hread : valueReading d with
    | error found =>
        rw [hread] at h
        cases h
        exact Or.inr ⟨d, rfl, hread⟩
    | ok x =>
        rw [hread, ok_bind, present] at h
        split at h
        · cases h
          exact Or.inl rfl
        · cases h

end Snapshot

/-- The argument is a number, or the column that it reads has a key. -/
def Argument.Readable : Argument → Prop
  | .ref r => ∃ key, r.seriesKey = .ok key
  | .number _ => True
  | .text t => (Number.readReal? (Text.trim t)).isSome = true

namespace Snapshot

variable {s : Snapshot} {α : Type}

/-- A gap is a missing value, an argument that cannot be read, or the fault of a value in a column. -/
theorem probe_error {further : Nat} {a : Argument} {gap : Gap} (h : s.probe further a = .error gap) :
    gap = .missing ∨ gap = .unreadable ∧ ¬ a.Readable ∨ ∃ key, ∃ d ∈ s.column key, valueReading d = .error gap := by
  cases a with
  | number x => cases h
  | text t =>
      rw [probe, textReading] at h
      cases ht : Number.readReal? (Text.trim t) with
      | some x =>
          rw [ht] at h
          cases h
      | none =>
          rw [ht] at h
          cases h
          refine Or.inr (Or.inl ⟨rfl, ?_⟩)
          simp [Argument.Readable, ht]
  | ref r =>
      rw [probe, refReading] at h
      split at h
      · cases hvalue : r.literalValue with
        | some x =>
            rw [hvalue] at h
            cases h
        | none =>
            rw [hvalue] at h
            cases h
            exact Or.inl rfl
      · cases hkey : r.seriesKey with
        | error f =>
            rw [hkey] at h
            cases h
            refine Or.inr (Or.inl ⟨rfl, ?_⟩)
            simp [Argument.Readable, hkey]
        | ok key =>
            rw [hkey] at h
            rcases itemReading_error h with hgap | ⟨d, hd, hgap⟩
            · exact Or.inl hgap
            · exact Or.inr (Or.inr ⟨key, d, List.mem_of_getElem? hd, hgap⟩)

/-! ## The evaluator reads the same -/

/-- The evaluator's answer is the given reading. A missing value is an answer, an unreadable one a refusal that
makes a comparison fail, and one that is too large a refusal that does not. -/
inductive Answers : Except Failure (Option α) → Except Gap α → Prop
  | ok (a : α) : Answers (.ok (some a)) (.ok a)
  | missing : Answers (.ok none) (.error .missing)
  | unreadable {f : Failure} : f.isOfValue true = true → Answers (.error f) (.error .unreadable)
  | tooLarge : Answers (.error (.coercion .realTooLarge)) (.error .tooLarge)

theorem present_answers (x : Float) : Answers (.ok (if x.isNaN then none else some x)) (present x) := by
  unfold present
  by_cases h : x.isNaN = true
  · rw [if_pos h, if_pos h]
    exact .missing
  · rw [if_neg h, if_neg h]
    exact .ok x

theorem textReading_answers (t : String) : Answers (some <$> (Document.text t).toReal) (textReading t) := by
  rw [Document.toReal, textReading]
  cases Number.readReal? t with
  | some x => exact .ok x
  | none => exact .unreadable rfl

/-- A value that is there is coerced as it reads. -/
theorem toReal_answers {d : Document} (hd : d ≠ .null) : Answers (some <$> d.toReal) (valueReading d) := by
  cases d with
  | null => exact absurd rfl hd
  | bool b => exact .ok _
  | int n =>
      rw [Document.toReal, valueReading]
      cases Number.ofInt? n with
      | some x => exact .ok x
      | none => exact .tooLarge
  | real x => exact .ok x
  | text t => exact textReading_answers t
  | list xs => exact .unreadable rfl
  | record ms => exact .unreadable rfl

theorem read_answers (item : Option Document) : Answers (read item) (itemReading item) := by
  rcases item with _ | d
  · exact .missing
  · by_cases hd : d = .null
    · subst hd
      exact .missing
    · have hread : read (some d) = d.toReal >>= fun x => .ok (if x.isNaN then none else some x) := by
        cases d <;> first | rfl | exact absurd rfl hd
      rw [hread, itemReading, Option.elim_some]
      have hreal := toReal_answers hd
      generalize d.toReal = real at hreal ⊢
      generalize valueReading d = reading at hreal ⊢
      cases real with
      | ok x =>
          cases hreal
          exact present_answers x
      | error f =>
          cases hreal with
          | unreadable hf => exact .unreadable hf
          | tooLarge => exact .tooLarge

theorem value_answers (hs : s.Listed) (further : Nat) (r : ValueRef) :
    Answers (s.value r (r.window.low + further)) (s.refReading further r) := by
  unfold value refReading
  by_cases hlit : r.isLiteral = true
  · rw [if_pos hlit, if_pos hlit]
    cases r.literalValue with
    | none => exact .missing
    | some x => exact .ok x
  · rw [if_neg hlit, if_neg hlit]
    cases hkey : r.seriesKey with
    | error f => exact .unreadable (seriesKey_error hkey)
    | ok key =>
        rw [ok_bind]
        show Answers _ (itemReading (s.column key)[_]?)
        rw [column]
        cases hcol : s.series.lookup key with
        | none => exact .missing
        | some d =>
            have hd : isListing d = true := hs (key, d) (mem_of_lookup hcol)
            cases d
            case null => exact .missing
            case list items =>
              show Answers (itemAt (.list items) _ >>= read) _
              rw [itemAt_list, ok_bind]
              exact read_answers _
            all_goals cases hd

theorem argument_answers (hs : s.Listed) (further : Nat) (a : Argument) :
    Answers (s.argument further a) (s.probe further a) := by
  cases a with
  | ref r => exact value_answers hs further r
  | number x => exact .ok x
  | text t => exact textReading_answers _

/-- The first gap among the arguments is the gap of them all. -/
theorem arguments_answers (hs : s.Listed) (further : Nat) (args : List Argument) :
    Answers (s.arguments further args) (args.mapM (s.probe further)) := by
  -- both go from left to right and stop at the first argument without a double
  induction args with
  | nil => exact .ok []
  | cons a as ih =>
      rw [arguments, List.mapM_cons]
      have ha := argument_answers hs further a
      generalize s.argument further a = answer at ha ⊢
      generalize s.probe further a = reading at ha ⊢
      cases ha with
      | ok x =>
          generalize s.arguments further as = rest at ih ⊢
          generalize as.mapM (s.probe further) = readings at ih ⊢
          cases ih with
          | ok xs => exact .ok (x :: xs)
          | missing => exact .missing
          | unreadable hf => exact .unreadable hf
          | tooLarge => exact .tooLarge
      | missing => exact .missing
      | unreadable hf => exact .unreadable hf
      | tooLarge => exact .tooLarge

end Snapshot

def Operands.ofReading : Except Gap (List Float) → Except Failure Operands
  | .ok xs => .ok (.values xs)
  | .error .missing => .ok .missing
  | .error .unreadable => .ok .invalid
  | .error .tooLarge => .error (.coercion .realTooLarge)

theorem Snapshot.operands_eq {s : Snapshot} (hs : s.Listed) (further : Nat) (args : List Argument) :
    s.operands further args = Operands.ofReading (args.mapM (s.probe further)) := by
  have h := arguments_answers hs further args
  unfold operands
  generalize s.arguments further args = answer at h ⊢
  generalize args.mapM (s.probe further) = reading at h ⊢
  cases h with
  | ok xs => rfl
  | missing => rfl
  | unreadable hf => exact if_pos hf
  | tooLarge => rfl

/-! ## The reason of a comparison -/

/-- The reason that a gap gives, where a missing value gives the first one. -/
def Gap.reason (ifMissing : Reason) : Gap → Except Failure Reason
  | .missing => .ok ifMissing
  | .unreadable => .ok .invalidOperand
  | .tooLarge => .error (.coercion .realTooLarge)

/-- Why a comparator comes out as it does on what its operands read on both bars. Only a crossing looks at the
previous one. -/
def Method.reason (m : Method) (now before : Except Gap (List Float)) : Except Failure Reason :=
  match now with
  | .error gap => gap.reason .missingValue
  | .ok xs =>
    match if m.needsPrevious then before else .ok [] with
    | .error gap => gap.reason .missingPreviousValue
    | .ok ys => .ok (if m.holds xs ys then .ok else .conditionFailed)

/-- The reasons of a comparison whose method has its operands. -/
theorem Method.reason_cases {m : Method} {now before : Except Gap (List Float)} {r : Reason}
    (h : m.reason now before = .ok r) :
    r ∈ [Reason.ok, .conditionFailed, .missingValue, .missingPreviousValue] ∨
      r = .invalidOperand ∧ (now = .error .unreadable ∨ before = .error .unreadable) := by
  unfold reason at h
  cases now with
  | error gap =>
      cases gap <;> cases h
      · exact Or.inl (by decide)
      · exact Or.inr ⟨rfl, Or.inl rfl⟩
  | ok xs =>
      dsimp only at h
      split at h
      · rename_i gap hbefore
        split at hbefore
        · subst hbefore
          cases gap <;> cases h
          · exact Or.inl (by decide)
          · exact Or.inr ⟨rfl, Or.inr rfl⟩
        · cases hbefore
      · cases h
        split
        · exact Or.inl (by decide)
        · exact Or.inl (by decide)

namespace Call

def readings (s : Snapshot) (c : Call) (m : Method) (further : Nat) : Except Gap (List Float) :=
  (c.args.take m.arity).mapM (s.probe further)

/-- Why a comparison comes out as it does. -/
def reason (s : Snapshot) (c : Call) : Except Failure Reason :=
  match Method.comparator? c.method with
  | none => .ok .unknownMethod
  | some m =>
    if c.args.length < m.arity then .ok .badArity else m.reason (c.readings s m 0) (c.readings s m 1)

variable {s : Snapshot}

/-- What is to blame for a gap among the operands. -/
theorem readings_error {c : Call} {m : Method} {further : Nat} {gap : Gap}
    (h : c.readings s m further = .error gap) :
    gap = .missing ∨ gap = .unreadable ∧ (∃ a ∈ c.args, ¬ a.Readable) ∨
      ∃ key, ∃ d ∈ s.column key, Snapshot.valueReading d = .error gap := by
  obtain ⟨a, ha, hread⟩ := mem_of_mapM_error h
  rcases Snapshot.probe_error hread with hgap | ⟨hgap, hnot⟩ | hvalue
  · exact Or.inl hgap
  · exact Or.inr (Or.inl ⟨hgap, a, List.mem_of_mem_take ha, hnot⟩)
  · exact Or.inr (Or.inr hvalue)

theorem reason_of_method {c : Call} {m : Method} (hm : Method.comparator? c.method = some m)
    (hlen : m.arity ≤ c.args.length) : c.reason s = m.reason (c.readings s m 0) (c.readings s m 1) := by
  rw [reason, hm]
  exact if_neg (Nat.not_lt.mpr hlen)

/-- Only a method that is no comparator is unknown, and only one that lacks operands has too few. -/
theorem reason_spec {c : Call} {r : Reason} (h : c.reason s = .ok r) :
    (r = .unknownMethod ↔ Method.comparator? c.method = none) ∧
    (r = .badArity ↔ ∃ m, Method.comparator? c.method = some m ∧ c.args.length < m.arity) := by
  cases hm : Method.comparator? c.method with
  | none =>
      rw [reason, hm] at h
      cases h
      simp
  | some m =>
      by_cases hlt : c.args.length < m.arity
      · rw [reason, hm] at h
        dsimp only at h
        rw [if_pos hlt] at h
        cases h
        simp [hlt]
      · rw [reason_of_method hm (Nat.le_of_not_lt hlt)] at h
        rcases Method.reason_cases h with hr | ⟨rfl, -⟩
        · simp only [List.mem_cons, List.not_mem_nil, or_false] at hr
          rcases hr with rfl | rfl | rfl | rfl <;> simp [hlt]
        · simp [hlt]

theorem judged_reason {m : Method} {now : List Float} (before : List Float) (hm : m.isCondition = true)
    (hnow : now.length = m.arity) (hbefore : m.needsPrevious = true → before.length = 2) :
    (judged m now (if m.needsPrevious then some before else none)).map Outcome.reason =
      .ok (if m.holds now before then .ok else .conditionFailed) := by
  rw [judged, Option.map_if, Method.apply_real hm hnow hbefore, ok_bind]
  rfl

theorem evaluateWith_reason (hs : s.Listed) {m : Method} {args : List Argument} (hm : m.isCondition = true)
    (hlen : args.length = m.arity) :
    (evaluateWith m s args).map Outcome.reason =
      m.reason (args.mapM (s.probe 0)) (args.mapM (s.probe 1)) := by
  rw [evaluateWith, Snapshot.operands_eq hs]
  cases hnow : args.mapM (s.probe 0) with
  | error gap => cases gap <;> rfl
  | ok now =>
      have hnowlen : now.length = m.arity := by rw [← (mapM_eq_ok.mp hnow).length_eq, hlen]
      show Except.map _ (if m.needsPrevious then _ else judged m now none) = _
      cases hp : m.needsPrevious with
      | false =>
          have hj := judged_reason [] hm hnowlen fun h => by rw [hp] at h; cases h
          rw [hp] at hj
          rw [Method.reason, hp]
          exact hj
      | true =>
          rw [if_pos rfl, Snapshot.operands_eq hs, Method.reason, hp, if_pos rfl]
          cases hbefore : args.mapM (s.probe 1) with
          | error gap => cases gap <;> rfl
          | ok before =>
              have hlen2 : before.length = 2 := by
                rw [← (mapM_eq_ok.mp hbefore).length_eq, hlen, arity_of_needsPrevious hp]
              have hj := judged_reason before hm hnowlen fun _ => hlen2
              rw [hp] at hj
              exact hj

/-- A comparison evaluates with its reason, and is refused if there is none. -/
theorem evaluate_reason (hs : s.Listed) (c : Call) : (c.evaluate s).map Outcome.reason = c.reason s := by
  unfold evaluate reason
  cases hm : Method.comparator? c.method with
  | none => rfl
  | some m =>
      have hcond : m.isCondition = true := (Option.filter_eq_some_iff.mp hm).2
      dsimp only
      by_cases hlt : c.args.length < m.arity
      · rw [if_pos hlt, if_pos hlt]
        rfl
      · have hlen : (c.args.take m.arity).length = m.arity := by
          rw [List.length_take, Nat.min_eq_left (Nat.le_of_not_lt hlt)]
        rw [if_neg hlt, if_neg hlt]
        exact evaluateWith_reason hs hcond hlen

end Call

end Stratagem
