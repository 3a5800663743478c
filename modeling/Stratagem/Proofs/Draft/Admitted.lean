import Stratagem.Proofs.Tree.Comparable

/-!
# What drafts let in

A draft is read without the check that the editor makes of a method and its operands. The check is what decides
whether a comparison can be evaluated: on doubles, the method is unknown or lacks operands exactly where the editor would
have refused the condition for that. A bound too many is refused by the editor alone; evaluation does not look at it.
-/

namespace Stratagem

namespace Edit

/-- The editor refuses a condition for its method, for a bound that is missing or for one too many, or lets it in. -/
theorem checkCondition_cases (c : Condition) :
    (Method.comparator? c.method = none ∧
      (checkCondition c = .error (.method (.unknown c.method)) ∨
        checkCondition c = .error (.method (.isAction c.method)))) ∨
    ∃ m, Method.comparator? c.method = some m ∧
      (m.isRange = true ∧ c.upper = none ∧ checkCondition c = .error (.method (.noUpperBound m.name)) ∨
        m.isRange = false ∧ c.upper.isSome = true ∧
          checkCondition c = .error (.method (.surplusUpperBound m.name)) ∨
        c.upper.isSome = m.isRange ∧ checkCondition c = .ok ()) := by
  rw [Method.comparator?_eq, checkCondition]
  cases hm : Method.comparator c.method with
  | error f =>
      refine Or.inl ⟨rfl, ?_⟩
      rw [Method.comparator] at hm
      split at hm
      · cases hm
        exact Or.inl rfl
      · split at hm
        · cases hm
        · cases hm
          exact Or.inr rfl
  | ok m =>
      refine Or.inr ⟨m, rfl, ?_⟩
      rw [ok_bind]
      cases hrange : m.isRange <;> cases hupper : c.upper <;> simp

end Edit

namespace Condition

variable {s : Snapshot}

/-- A condition lacks operands for its comparator if that is a range and there is no second bound. -/
theorem lacks_iff {c : Condition} {m : Method} (hm : Method.comparator? c.method = some m) :
    c.compile.args.length < m.arity ↔ m.isRange = true ∧ c.upper = none := by
  have hcond : m.isCondition = true := (Option.filter_eq_some_iff.mp hm).2
  rw [Method.arity_of_isCondition hcond, compile, List.length_map, operands]
  cases m.isRange <;> cases c.upper <;> simp

/-- What the editor would say of a condition decides how its comparison fails on doubles. -/
theorem evaluate_checked (hs : s.Numeric) (c : Condition) : ∃ o, c.compile.evaluate s = .ok o ∧
    (o.reason = .unknownMethod ↔ Edit.checkCondition c = .error (.method (.unknown c.method)) ∨
      Edit.checkCondition c = .error (.method (.isAction c.method))) ∧
    (o.reason = .badArity ↔ ∃ name, Edit.checkCondition c = .error (.method (.noUpperBound name))) := by
  obtain ⟨r, hr⟩ := Call.reason_exists hs c.compile
  obtain ⟨o, ho, hreason⟩ := Call.evaluate_of_reason hs.listed hr
  obtain ⟨hunknown, hlacks⟩ := Call.reason_spec hr
  have hmethod : c.compile.method = c.method := rfl
  rw [hmethod] at hunknown hlacks
  refine ⟨o, ho, ?_⟩
  rw [hreason, hunknown, hlacks]
  -- the editor and the evaluator look up the same comparator, so their answers are compared case by case
  rcases Edit.checkCondition_cases c with ⟨hm, hcheck | hcheck⟩ | ⟨m, hm, hcases⟩
  · simp [hm, hcheck]
  · simp [hm, hcheck]
  · have hbound : (∃ m', Method.comparator? c.method = some m' ∧ c.compile.args.length < m'.arity) ↔
        m.isRange = true ∧ c.upper = none := by
      rw [hm]
      simp only [Option.some.injEq, exists_eq_left', lacks_iff hm]
    rw [hbound, hm]
    rcases hcases with ⟨hrange, hupper, hcheck⟩ | ⟨hrange, hupper, hcheck⟩ | ⟨hupper, hcheck⟩
    · simp [hrange, hupper, hcheck]
    · simp [hrange, hcheck]
    · have hfits : ¬ (m.isRange = true ∧ c.upper = none) := by
        rintro ⟨hrange, hnone⟩
        rw [hnone, hrange] at hupper
        cases hupper
      simp [hfits, hcheck]

end Condition

namespace Draft

/-- **A draft lets in what the editor refuses.** Every condition of a draft that was read has an id and a method, and
nothing else is asked of it. On every snapshot of doubles and missing values its comparison evaluates; the method is
unknown, or lacks operands, exactly if the editor would have refused the condition for that. So where the editor would
let in every live condition, no comparison of the compiled draft fails for its method or its operands' number. -/
theorem conditions_evaluate {base : Except Failure Trade} {raw : Document} {d : Draft}
    (h : ofDocument base raw = .ok d) :
    (∀ entry ∈ d.tree.conditions false, entry.2.checked = .ok entry.2 ∧
      ∀ s : Snapshot, s.Numeric → ∃ o, entry.2.compile.evaluate s = .ok o ∧
        (o.reason = .unknownMethod ↔ Edit.checkCondition entry.2 = .error (.method (.unknown entry.2.method)) ∨
          Edit.checkCondition entry.2 = .error (.method (.isAction entry.2.method))) ∧
        (o.reason = .badArity ↔
          ∃ name, Edit.checkCondition entry.2 = .error (.method (.noUpperBound name)))) ∧
    ((∀ entry ∈ d.tree.conditions true, Edit.checkCondition entry.2 = .ok ()) →
      ∀ c ∈ d.tree.compile.conditions, ∀ s : Snapshot, s.Numeric → ∃ o, c.evaluate s = .ok o ∧
        o.reason ≠ .unknownMethod ∧ o.reason ≠ .badArity) := by
  have hdrafted : d.tree.Each Condition.Drafted := fun slot c hc g hg k hk =>
    ((((sound_of_ofDocument h).2 slot).containers c hc).groups g hg).conditions k hk
  refine ⟨fun entry hentry => ⟨?_, fun s hs => entry.2.evaluate_checked hs⟩, fun hchecked c hc s hs => ?_⟩
  · have hread := hdrafted.condition entry hentry
    exact Condition.checked_eq_ok.mpr ⟨hread.id, hread.method, rfl⟩
  · rw [Tree.compile_conditions] at hc
    obtain ⟨entry, hentry, rfl⟩ := List.mem_map.mp hc
    obtain ⟨o, ho, hunknown, hlacks⟩ := entry.2.evaluate_checked hs
    rw [hchecked entry hentry] at hunknown hlacks
    exact ⟨o, ho, by simp [hunknown], by simp [hlacks]⟩

theorem conditions_evaluate_everyForm : ∃ d, ofDocument (.ok (.ofSettings quiet)) everyForm = .ok d ∧
    ∃ entry ∈ d.tree.conditions false, entry.2.method = "InRange" ∧
      Edit.checkCondition entry.2 = .error (.method (.unknown "InRange")) ∧
      ∀ s : Snapshot, s.Numeric → ∃ o, entry.2.compile.evaluate s = .ok o ∧ o.reason = .unknownMethod := by
  have hrun : (do
      let d ← ofDocument (.ok (.ofSettings quiet)) everyForm
      return (d.tree.conditions false).any fun entry => entry.2.method == "InRange").toOption = some true := by
    decide +kernel
  obtain ⟨d, hd, hrun⟩ := bind_eq_ok.mp (eq_ok_of_toOption hrun)
  obtain ⟨entry, hentry, hmethod⟩ := List.any_eq_true.mp (Except.ok.inj hrun)
  have hmethod : entry.2.method = "InRange" := eq_of_beq hmethod
  have hrefused : Edit.checkCondition entry.2 = .error (.method (.unknown "InRange")) := by
    have hnone : Method.ofName? "InRange" = none := by decide +kernel
    rw [Edit.checkCondition, Method.comparator, hmethod, hnone]
    rfl
  refine ⟨d, hd, entry, hentry, hmethod, hrefused, fun s hs => ?_⟩
  obtain ⟨o, ho, hunknown, -⟩ := ((conditions_evaluate hd).1 entry hentry).2 s hs
  exact ⟨o, ho, hunknown.mpr (Or.inl (by rw [hrefused, hmethod]))⟩

end Draft

end Stratagem
