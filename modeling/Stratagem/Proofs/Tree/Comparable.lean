import Stratagem.Proofs.Overflow
import Stratagem.Proofs.Retarget
import Stratagem.Proofs.Tree.Each
import Stratagem.Proofs.Tree.Valid
import Stratagem.Proofs.Tree.Walk

/-!
# What the editor builds can be evaluated

The editor lets in a condition only if its method is a comparator with the operands that it takes. Every edit keeps
that, and compilation hands the operands on, so a comparison is never of an unknown method and never lacks operands. On
doubles it then holds, fails, or misses a value, unless an output that it reads is named by something else than a text:
such an output has no column, and the editor does not look at it.
-/

namespace Stratagem

/-! ## What can be read on doubles -/

namespace Snapshot

variable {s : Snapshot}

theorem fitsDouble_of_isValue {d : Document} (h : isValue d = true) : fitsDouble d = true := by
  cases d <;> first | rfl | cases h

theorem Numeric.fits (hs : s.Numeric) : s.Fits := by
  intro column hcolumn d hd
  have hvalues := hs column hcolumn
  cases hlist : column.2
  case list items =>
    rw [hlist] at hd hvalues
    exact fitsDouble_of_isValue (List.all_eq_true.mp hvalues d hd)
  case null =>
    rw [hlist] at hd
    cases hd
  all_goals
    rw [hlist] at hvalues
    cases hvalues

theorem isValue_of_mem_column (hs : s.Numeric) {key : String} {d : Document} (hd : d ∈ s.column key) :
    isValue d = true := by
  obtain ⟨items, hitems, hd⟩ := mem_series_of_mem_column hd
  have hvalues : items.all isValue = true := hs (key, .list items) hitems
  exact List.all_eq_true.mp hvalues d hd

theorem valueReading_isValue {d : Document} (h : isValue d = true) : valueReading d ≠ .error .unreadable := by
  cases d
  case null => simp [valueReading]
  case real x => simp [valueReading]
  all_goals cases h

end Snapshot

namespace Call

variable {s : Snapshot} {c : Call}

/-- On doubles every comparison has a reason. -/
theorem reason_exists (hs : s.Numeric) (c : Call) : ∃ r, c.reason s = .ok r :=
  reason_exists_iff.mpr (not_overflows hs.fits c)

theorem evaluate_of_reason (hs : s.Listed) {r : Reason} (h : c.reason s = .ok r) :
    ∃ o, c.evaluate s = .ok o ∧ o.reason = r := by
  rw [← c.evaluate_reason hs] at h
  cases ho : c.evaluate s with
  | error f =>
      rw [ho] at h
      cases h
  | ok o =>
      rw [ho] at h
      exact ⟨o, rfl, Except.ok.inj h⟩

theorem unreadable_of_readings (hs : s.Numeric) {m : Method} {further : Nat}
    (h : c.readings s m further = .error .unreadable) : ∃ a ∈ c.args, ¬ a.Readable := by
  rcases readings_error h with h | ⟨-, a, ha, hnot⟩ | ⟨key, d, hd, hread⟩
  · cases h
  · exact ⟨a, ha, hnot⟩
  · exact absurd hread (Snapshot.valueReading_isValue (Snapshot.isValue_of_mem_column hs hd))

/-- A comparator that has its operands holds, fails, or misses a value, unless one of them cannot be read. -/
theorem evaluate_comparator (hs : s.Numeric) {m : Method} (hm : Method.comparator? c.method = some m)
    (hlen : m.arity ≤ c.args.length) : ∃ o, c.evaluate s = .ok o ∧
      (o.reason ∈ [Reason.ok, .conditionFailed, .missingValue, .missingPreviousValue] ∨
        o.reason = .invalidOperand ∧ ∃ a ∈ c.args, ¬ a.Readable) := by
  obtain ⟨r, hr⟩ := reason_exists hs c
  obtain ⟨o, ho, hreason⟩ := evaluate_of_reason hs.listed hr
  refine ⟨o, ho, ?_⟩
  rw [hreason]
  rw [reason_of_method hm hlen] at hr
  rcases Method.reason_cases hr with hmem | ⟨hinvalid, hnow | hbefore⟩
  · exact Or.inl hmem
  · exact Or.inr ⟨hinvalid, unreadable_of_readings hs hnow⟩
  · exact Or.inr ⟨hinvalid, unreadable_of_readings hs hbefore⟩

end Call

/-! ## Conditions that can be evaluated -/

/-- The lookups of a comparator find the same. -/
theorem Method.comparator?_eq (name : String) : comparator? name = (comparator name).toOption := by
  rw [comparator?, comparator]
  cases ofName? name with
  | none => rfl
  | some m =>
      cases hm : m.isCondition with
      | true =>
          rw [Option.filter_some_pos hm]
          simp [hm, Except.toOption]
      | false =>
          rw [Option.filter_some_neg (by simp [hm])]
          simp [hm, Except.toOption]

theorem Method.arity_of_isCondition {m : Method} (h : m.isCondition = true) :
    m.arity = if m.isRange then 3 else 2 := by
  cases m <;> first | rfl | cases h

namespace Condition

variable {c : Condition}

/-- A valid condition is compiled to a call with as many arguments as its method takes. -/
theorem Valid.compile (h : c.Valid) :
    ∃ m, Method.comparator? c.compile.method = some m ∧ c.compile.args.length = m.arity := by
  obtain ⟨m, hm, hupper⟩ := h
  have hm' : Method.comparator? c.method = some m := by
    rw [Method.comparator?_eq, hm]
    rfl
  refine ⟨m, hm', ?_⟩
  have hcond : m.isCondition = true := (Option.filter_eq_some_iff.mp hm').2
  rw [Method.arity_of_isCondition hcond, ← hupper, Condition.compile, List.length_map, operands]
  cases c.upper <;> rfl

/-- Of the operands of a condition only an output that is named by no text cannot be read. -/
theorem unnamed_of_not_readable {a : Argument} (ha : a ∈ c.compile.args) (hnot : ¬ a.Readable) :
    ∃ r, a = .ref r ∧ r.kind = .indicator ∧ ¬ r.NamesOutput := by
  obtain ⟨o, -, rfl⟩ := List.mem_map.mp ha
  have hkey := mt (o.toRef c.left).seriesKey_exists_iff.mpr hnot
  exact ⟨_, rfl, Classical.not_imp.mp hkey⟩

end Condition

/-! ## Edits keep them so -/

theorem Document.orElse_text (a b : String) : ∃ t, (Document.text a).orElse (.text b) = .text t := by
  rw [orElse]
  split <;> exact ⟨_, rfl⟩

namespace Edit

variable {old new : Indicator}

theorem redirect_names {r q : ValueRef} (h : redirect old new r = .ok q) : q.NamesOutput := by
  obtain ⟨ref, href, h⟩ := bind_eq_ok.mp h
  have houtput : ref.NamesOutput := by
    obtain ⟨key, -, hkept⟩ := keptOutput_declared new r.output
    rw [show (if new.declares r.output then r.output else .text new.output.key) = _ from hkept] at href
    obtain ⟨window, -, -, rfl⟩ := ValueRef.make_eq_ok.mp href
    obtain ⟨named, hnamed⟩ := Document.orElse_text key new.output.key
    show ∃ output, ((Document.text key).orElse (.text new.output.key)).orElse _ = .text output
    rw [hnamed]
    exact Document.orElse_text named ValueRef.defaultOutput
  obtain ⟨output, houtput⟩ := houtput
  refine ⟨output, ?_⟩
  cases h
  split <;> split <;> exact houtput

theorem retargetRef_names {r q : ValueRef} (hr : r.NamesOutput) (h : retargetRef old new r = .ok q) :
    q.NamesOutput := by
  obtain ⟨b, -, h⟩ := bind_eq_ok.mp h
  split at h
  · exact redirect_names h
  · cases h
    exact hr

theorem retargetOperand_names {o o' : Operand} (ho : o.EachRef ValueRef.NamesOutput)
    (h : retargetOperand old new o = .ok o') : o'.EachRef ValueRef.NamesOutput := by
  cases o with
  | number x =>
      cases h
      trivial
  | ref r =>
      rw [retargetOperand] at h
      cases hr : retargetRef old new r with
      | error f =>
          rw [hr] at h
          cases h
      | ok q =>
          rw [hr] at h
          cases h
          exact retargetRef_names ho hr

theorem retargetCondition_names {c c' : Condition} (hc : c.EachRef ValueRef.NamesOutput)
    (h : retargetCondition old new c = .ok c') : c'.EachRef ValueRef.NamesOutput := by
  obtain ⟨left, hleft, h⟩ := bind_eq_ok.mp h
  obtain ⟨right, hright, h⟩ := bind_eq_ok.mp h
  obtain ⟨upper, hupper, h⟩ := bind_eq_ok.mp h
  cases h
  rw [Condition.EachRef, Condition.operands, List.forall_mem_cons, List.forall_mem_cons] at hc ⊢
  obtain ⟨hcleft, hcright, hcupper⟩ := hc
  refine ⟨retargetRef_names hcleft hleft, retargetOperand_names hcright hright, ?_⟩
  exact forall_carried hcupper (mapM_option_ok hupper) fun o o' ho hoo => retargetOperand_names ho hoo

theorem valid_stable : Condition.Stable Condition.Valid :=
  ⟨fun flag _ hc => hc.flipped flag, fun _ _ _ _ h hc => hc.retarget h⟩

theorem names_stable : Condition.Stable (Condition.EachRef ValueRef.NamesOutput) :=
  ⟨fun flag _ hc => by cases flag <;> exact hc, fun _ _ _ _ h hc => retargetCondition_names hc h⟩

/-- **What the editor builds can be evaluated.** Let a tree be made from the empty one by any edits, whatever their
limits. Then every comparison that it is compiled to has a comparator as its method and as many operands as that takes,
so it can be applied to any doubles; and on every snapshot of doubles and missing values it holds, fails, or misses a
value on one of the bars, unless it reads an output of an indicator that is named by no text. There is none of these
where each condition that was put in names its outputs by texts. -/
theorem compiled_comparable {t : Tree} (h : Relation.ReflTransGen (MadeWith fun _ => True) Tree.empty t) :
    (∀ c ∈ t.compile.conditions,
      (∃ m, Method.comparator? c.method = some m ∧ c.args.length = m.arity ∧
        ∀ now before : List Float, now.length = c.args.length → before.length = c.args.length →
          m.apply (now.map .real) (if m.needsPrevious then some (before.map .real) else none) =
            .ok (m.holds now before)) ∧
      ∀ s : Snapshot, s.Numeric → ∃ o, c.evaluate s = .ok o ∧
        (o.reason ∈ [Reason.ok, .conditionFailed, .missingValue, .missingPreviousValue] ∨
          o.reason = .invalidOperand ∧ ∃ r, Argument.ref r ∈ c.args ∧ r.kind = .indicator ∧ ¬ r.NamesOutput)) ∧
    (Relation.ReflTransGen (MadeWith (Condition.EachRef ValueRef.NamesOutput)) Tree.empty t →
      ∀ c ∈ t.compile.conditions, ∀ r, Argument.ref r ∈ c.args → r.kind = .indicator → r.NamesOutput) := by
  have hmade : Relation.ReflTransGen (MadeWith Condition.Valid) Tree.empty t := by
    refine h.lift id fun t t' ⟨limits, e, _, hrun⟩ => ⟨limits, e, ?_, hrun⟩
    -- only saving puts a condition in, and its check has found the condition valid
    cases e
    case saveCondition slot container group c => exact fun u hcheck => checkCondition_eq_ok hcheck
    all_goals trivial
  have heach := each_of_made valid_stable hmade
  refine ⟨fun c hc => ?_, fun hnamed c hc r hr hkind => ?_⟩
  · rw [Tree.compile_conditions] at hc
    obtain ⟨entry, hentry, rfl⟩ := List.mem_map.mp hc
    obtain ⟨m, hm, hlen⟩ := (heach.condition entry hentry).compile
    have hcond : m.isCondition = true := (Option.filter_eq_some_iff.mp hm).2
    refine ⟨⟨m, hm, hlen, fun now before hnow hbefore => ?_⟩, fun s hs => ?_⟩
    · refine Method.apply_real hcond (hnow.trans hlen) fun hprevious => ?_
      rw [hbefore, hlen, Call.arity_of_needsPrevious hprevious]
    · obtain ⟨o, ho, hreason⟩ := Call.evaluate_comparator hs hm hlen.ge
      refine ⟨o, ho, hreason.imp_right ?_⟩
      rintro ⟨hinvalid, a, ha, hnot⟩
      obtain ⟨r, rfl, hunnamed⟩ := Condition.unnamed_of_not_readable ha hnot
      exact ⟨hinvalid, r, ha, hunnamed⟩
  · have hnames : t.EachRef ValueRef.NamesOutput := each_of_made names_stable hnamed
    exact hnames.names_args r ⟨c, hc, hr⟩ (beq_iff_eq.mpr hkind)

theorem putsIn_any (e : Edit) : e.PutsIn fun _ => True := by
  cases e with
  | saveCondition => exact fun _ _ => trivial
  | _ => trivial

/-- Puts a crossing, under another name of its method, into a new group. -/
def crossover : List Edit := [
  .addGroup "entry.long" "open-long" "rises" "",
  .saveCondition "entry.long" "open-long" "rises"
    ⟨"rise", " crossover ", .hourlyClose, .number 100, none, true, true⟩]

theorem compiled_comparable_crossover :
    ∃ t, Relation.ReflTransGen (MadeWith fun _ => True) Tree.empty t ∧
      Relation.ReflTransGen (MadeWith (Condition.EachRef ValueRef.NamesOutput)) Tree.empty t ∧
      Snapshot.breakout.Numeric ∧ t.compile.conditions.map Call.method = [" crossover "] ∧
      ∀ c ∈ t.compile.conditions, ∃ o, c.evaluate .breakout = .ok o ∧
        o.reason ∈ [Reason.ok, .conditionFailed, .missingValue, .missingPreviousValue] := by
  have hrun : (do
      let t₁ ← (crossover[0]).apply .default Tree.empty
      let t₂ ← (crossover[1]).apply .default t₁
      return t₂.compile.conditions.map Call.method).toOption = some [" crossover "] := by
    decide +kernel
  obtain ⟨t₁, h₁, hrun⟩ := bind_eq_ok.mp (eq_ok_of_toOption hrun)
  obtain ⟨t₂, h₂, hrun⟩ := bind_eq_ok.mp hrun
  have hnames : ∀ e ∈ crossover, e.PutsIn (Condition.EachRef ValueRef.NamesOutput) := by
    simp only [crossover, List.forall_mem_cons, PutsIn, true_and]
    exact ⟨fun _ _ => by decide, List.forall_mem_nil _⟩
  have hnamed : Relation.ReflTransGen (MadeWith (Condition.EachRef ValueRef.NamesOutput)) Tree.empty t₂ :=
    (Relation.ReflTransGen.single ⟨.default, _, hnames _ (by simp [crossover]), h₁⟩).tail
      ⟨.default, _, hnames _ (by simp [crossover]), h₂⟩
  have hmade : Relation.ReflTransGen (MadeWith fun _ => True) Tree.empty t₂ :=
    (Relation.ReflTransGen.single ⟨.default, _, putsIn_any _, h₁⟩).tail ⟨.default, _, putsIn_any _, h₂⟩
  have hs : Snapshot.breakout.Numeric := by decide
  obtain ⟨hcomparable, hnone⟩ := compiled_comparable hmade
  refine ⟨t₂, hmade, hnamed, hs, Except.ok.inj hrun, fun c hc => ?_⟩
  obtain ⟨o, ho, hmem | ⟨-, r, hr, hkind, hnot⟩⟩ := (hcomparable c hc).2 .breakout hs
  · exact ⟨o, ho, hmem⟩
  · exact absurd (hnone hnamed c hc r hr hkind) hnot

/-- An output that is named by a number is let in, and cannot be read. -/
example : (do
    let numbered : ValueRef := { ValueRef.hourlyStrength with output := .int 1 }
    let t ← (addGroup "entry.long" "open-long" "dips" "").apply .default Tree.empty
    let t ← (saveCondition "entry.long" "open-long" "dips"
      ⟨"low", "LessThan", numbered, .number 30, none, true, true⟩).apply .default t
    let outcomes ← t.compile.conditions.mapM (Call.evaluate .breakout)
    return outcomes.map Outcome.reason).toOption = some [Reason.invalidOperand] := by
  decide +kernel

end Edit

end Stratagem
