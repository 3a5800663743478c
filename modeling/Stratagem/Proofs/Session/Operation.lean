import Stratagem.Proofs.Retarget
import Stratagem.Proofs.Sequencing
import Stratagem.Session

/-!
# Sessions at work

The lines in the journal are for the reader of the journal: no answer depends on them. The payload of a session is
its name and its description without blanks around them, the trade settings that are in force and the compiled
tree, and it is there if the texts are and the tree compiles.

An operation, carried out store by store, leaves the session that its function gives, and the session as it was
where the function refuses. So whatever failed can be left out of a sequence of operations.
-/

namespace Stratagem.Session

variable {α β : Type}

/-! ## Work on the journal -/

def answer (work : Logged α) : Except Failure α := (work.run.run []).1

theorem run_silent_bind (work : Except Failure α) (next : α → Logged β) (lines : List Journal.Entry) :
    (silent work >>= next).run.run lines = match work with
      | .ok a => (next a).run.run lines
      | .error f => (.error f, lines) := by
  cases work <;> rfl

theorem run_log_bind (entries : List Journal.Entry) (next : Unit → Logged β) (lines : List Journal.Entry) :
    (log entries >>= next).run.run lines = (next ()).run.run (lines ++ entries) := rfl

theorem run_bind (work : Logged α) (next : α → Logged β) (lines : List Journal.Entry) :
    (work >>= next).run.run lines = match work.run.run lines with
      | (.ok a, lines) => (next a).run.run lines
      | (.error f, lines) => (.error f, lines) := by
  rw [ExceptT.run_bind, StateT.run_bind]
  cases work.run.run lines with
  | mk answer lines => cases answer <;> rfl

/-! ## The payload -/

/-- What is sent under the two texts for a strategy. -/
def payloadOf (s : Session) (name description : String) (logic : Compiled.Logic) : Document :=
  .record <| [
    ("name", .text name),
    ("description", .text description),
    ("configJson", (⟨s.effectiveTrade, logic⟩ : Strategy).toDocument)] ++ apiKeyMember s.apiKeyId

/-- The answer of `payload`, and the lines it leaves. -/
theorem run_payload (s : Session) (lines : List Journal.Entry) :
    s.payload.run.run lines =
      match trimmedText s.name, trimmedText s.description, s.tree.compileWith (some s.selection) with
      | .error f, _, _ | .ok _, .error f, _ | .ok _, .ok _, .error f => (.error f, lines)
      | .ok name, .ok description, .ok c =>
        (.ok (s.payloadOf name description c.logic), lines ++ compileEntries c) := by
  rw [payload, run_silent_bind]
  cases trimmedText s.name with
  | error f => rfl
  | ok name =>
      dsimp only
      rw [run_silent_bind]
      cases trimmedText s.description with
      | error f => rfl
      | ok description =>
          rw [strategy, compile]
          cases s.tree.compileWith (some s.selection) <;> rfl

/-- The answer does not depend on the lines before it. -/
theorem run_payload_answer (s : Session) (lines : List Journal.Entry) :
    ∃ more, s.payload.run.run lines = (answer s.payload, lines ++ more) := by
  rw [answer, run_payload, run_payload]
  cases trimmedText s.name with
  | error f => exact ⟨[], by rw [List.append_nil]⟩
  | ok name =>
      cases trimmedText s.description with
      | error f => exact ⟨[], by rw [List.append_nil]⟩
      | ok description =>
          cases s.tree.compileWith (some s.selection) with
          | error f => exact ⟨[], by rw [List.append_nil]⟩
          | ok c => exact ⟨compileEntries c, rfl⟩

theorem answer_payload_eq_ok {s : Session} {sent : Document} :
    answer s.payload = .ok sent ↔ ∃ name description c, trimmedText s.name = .ok name ∧
      trimmedText s.description = .ok description ∧ s.tree.compileWith (some s.selection) = .ok c ∧
      sent = s.payloadOf name description c.logic := by
  rw [answer, run_payload]
  cases trimmedText s.name with
  | error f => simp
  | ok name =>
      cases trimmedText s.description with
      | error f => simp
      | ok description =>
          cases s.tree.compileWith (some s.selection) with
          | error f => simp
          | ok c => simp [eq_comm]

end Stratagem.Session

namespace Stratagem

/-! ## Work -/

namespace Editor

variable {α β : Type}

theorem run_get_bind (next : Editor → Work β) (e : Editor) :
    ((get : Work Editor) >>= next).run.run e = (next e).run.run e := rfl

theorem run_attempt_bind (answer : Except Failure α) (next : α → Work β) (e : Editor) :
    (attempt answer >>= next).run.run e = match answer with
      | .ok a => (next a).run.run e
      | .error f => (.error f, e) := by
  cases answer <;> rfl

theorem run_logged_bind (work : Session.Logged α) (next : α → Work β) (e : Editor) :
    (logged work >>= next).run.run e = match work.run.run e.journal with
      | (.ok a, journal) => (next a).run.run { e with journal }
      | (.error f, journal) => (.error f, { e with journal }) := by
  have hlogged : (logged work).run.run e =
      ((work.run.run e.journal).1, { e with journal := (work.run.run e.journal).2 }) := rfl
  rw [ExceptT.run_bind, StateT.run_bind, hlogged]
  cases work.run.run e.journal with
  | mk answer lines => cases answer <;> rfl

theorem run_note_bind (entries : List Journal.Entry) (next : Unit → Work β) (e : Editor) :
    (logged (Session.log entries) >>= next).run.run e =
      (next ()).run.run { e with journal := e.journal ++ entries } := rfl

theorem run_hand_bind (submitter : Document → Except String Document) (sent : Document)
    (next : Except String Document → Work β) (e : Editor) :
    (hand submitter sent >>= next).run.run e =
      (next (submitter sent)).run.run { e with handed := e.handed ++ [sent] } := rfl

/-- Work keeps to a function of the session if it leaves what the function gives, or leaves the session where the
function refuses. -/
structure Follows (work : Work Unit) (f : Session → Except Failure Session) : Prop where
  answer : ∀ e, (work.run.run e).1 = (f e.session).map fun _ => ()
  session : ∀ e, (work.run.run e).2.session = (f e.session).toOption.getD e.session

/-- What is read from the session is stored, or nothing is. -/
theorem follows_attempt_store (read : Session → Except Failure α) (change : α → Session → Session) :
    Follows (do let a ← attempt (read (← get).session); store (change a))
      fun s => do return change (← read s) s := by
  constructor <;>
  · intro e
    rw [run_get_bind, run_attempt_bind]
    cases read e.session <;> rfl

theorem run_discard (work : Work α) (e : Editor) :
    (discard work).run.run e = ((work.run.run e).1.map fun _ => (), (work.run.run e).2) := by
  show (work >>= fun _ => pure ()).run.run e = _
  rw [ExceptT.run_bind, StateT.run_bind]
  cases work.run.run e with
  | mk answer e' => cases answer <;> rfl

/-- Two stores are one change, if nothing can fail between them. -/
theorem run_updateIndicator (i : Indicator) (e : Editor) : (updateIndicator i).run.run e =
    match e.session.updateIndicator i with
    | .ok session => (.ok (), { e with session })
    | .error f => (.error f, e) := by
  rw [updateIndicator, run_get_bind, run_attempt_bind, Session.updateIndicator]
  cases e.session.selected i.id with
  | error f => rfl
  | ok old =>
      dsimp only
      rw [run_get_bind, run_attempt_bind, ok_bind]
      cases e.session.selection.replace i with
      | error f => rfl
      | ok selection =>
          dsimp only
          rw [run_get_bind, run_attempt_bind, ok_bind]
          cases Edit.retargetTree old i e.session.tree <;> rfl

theorem run_removeIndicator (id : String) (e : Editor) : (removeIndicator id).run.run e =
    match e.session.removeIndicator id with
    | .ok (session, usages) => (.ok usages, { e with session })
    | .error f => (.error f, e) := by
  rw [removeIndicator, run_get_bind, run_attempt_bind, Session.removeIndicator, Session.usages]
  cases e.session.selected id with
  | error f => rfl
  | ok i =>
      dsimp only
      rw [run_get_bind, run_attempt_bind, ok_bind]
      cases e.session.tree.usages i <;> rfl

end Editor

/-! ## Submitting -/

/-- What a session hands to a submitter: its payload, if the strategy has a name. -/
def Session.offer (s : Session) : Except Failure Document := do
  let name ← trimmedText s.name
  if name.isEmpty then throw (.submission "Strategy name is required")
  answer s.payload

def Session.submitted (s : Session) (submitter : Document → Except String Document) : Except Failure Document := do
  match submitter (← s.offer) with
  | .ok response => return response
  | .error reason => throw (.submission reason)

namespace Editor

/-- The session is not stored to, the payload of this very session is handed over, and the answer and the lines are
those of its own `submit`. -/
theorem run_submit (submitter : Document → Except String Document) (e : Editor) :
    ∃ journal, (submit submitter).run.run e = (e.session.submitted submitter, { e with
        journal
        handed := match e.session.offer with
          | .ok sent => e.handed ++ [sent]
          | .error _ => e.handed }) ∧
      (e.session.submit submitter).run.run e.journal = (e.session.submitted submitter, journal) := by
  rw [submit, run_get_bind, run_attempt_bind, Session.submit, Session.run_silent_bind, Session.submitted,
    Session.offer]
  cases Session.trimmedText e.session.name with
  | error f => exact ⟨e.journal, rfl, rfl⟩
  | ok name =>
      dsimp only
      rw [ok_bind]
      cases name.isEmpty with
      | true => exact ⟨e.journal, rfl, rfl⟩
      | false =>
          obtain ⟨more, hpayload⟩ := e.session.run_payload_answer e.journal
          rw [if_neg Bool.false_ne_true, if_neg Bool.false_ne_true, if_neg Bool.false_ne_true, run_get_bind,
            run_logged_bind, Session.run_bind, hpayload]
          cases Session.answer e.session.payload with
          | error f => exact ⟨e.journal ++ more, rfl, rfl⟩
          | ok sent =>
              dsimp only
              rw [run_note_bind, run_hand_bind, ok_bind, Session.run_log_bind]
              cases submitter sent with
              | ok response => exact ⟨_, rfl, rfl⟩
              | error reason => exact ⟨_, rfl, rfl⟩

end Editor

/-! ## Operations -/

namespace Operation

/-- The session that an operation makes of a session, or why it is refused. -/
def effect : Operation → Session → Except Failure Session
  | apply reducer, s => do return { s with tree := ← reducer s.tree }
  | addIndicator i, s => s.addIndicator i
  | updateIndicator i, s => s.updateIndicator i
  | removeIndicator id, s => do return (← s.removeIndicator id).1
  | updateTrade partialRecord, s => s.updateTrade partialRecord
  | submit submitter, s => do
    let _ ← s.submitted submitter
    return s

theorem follows (o : Operation) : Editor.Follows o.work o.effect := by
  cases o with
  | apply reducer => exact Editor.follows_attempt_store (fun s => reducer s.tree) fun tree s => { s with tree }
  | addIndicator i =>
      exact Editor.follows_attempt_store (fun s => s.selection.add i) fun selection s => { s with selection }
  | updateIndicator i =>
      constructor <;>
      · intro e
        rw [work, Editor.run_updateIndicator, effect]
        cases e.session.updateIndicator i <;> rfl
  | removeIndicator id =>
      constructor <;>
      · intro e
        rw [work, Editor.run_discard, Editor.run_removeIndicator, effect]
        cases e.session.removeIndicator id <;> rfl
  | updateTrade partialRecord =>
      exact Editor.follows_attempt_store (fun s => s.trade.merge partialRecord) fun trade s => { s with trade }
  | submit submitter =>
      constructor <;>
      · intro e
        obtain ⟨journal, hrun, -⟩ := Editor.run_submit submitter e
        rw [work, Editor.run_discard, hrun, effect]
        cases e.session.submitted submitter <;> rfl

theorem answer_run (o : Operation) (e : Editor) : (o.run e).1 = (o.effect e.session).map fun _ => () :=
  o.follows.answer e

theorem session_run (o : Operation) (e : Editor) :
    (o.run e).2.session = (o.effect e.session).toOption.getD e.session :=
  o.follows.session e

theorem completed_cons (o : Operation) (ops : List Operation) (e : Editor) : completed (o :: ops) e =
    match o.effect e.session with
    | .ok _ => o :: completed ops (o.run e).2
    | .error _ => completed ops (o.run e).2 := by
  have hanswer := o.answer_run e
  rw [completed]
  cases hrun : o.run e with
  | mk answer e' =>
      rw [hrun] at hanswer
      dsimp only at hanswer ⊢
      rw [hanswer]
      cases o.effect e.session <;> rfl

/-- An operation goes through and leaves its effect, or it is left out and the session is as it was. -/
theorem run_cases (o : Operation) (e : Editor) :
    (o.effect e.session = .ok (o.run e).2.session ∧
      ∀ ops, completed (o :: ops) e = o :: completed ops (o.run e).2) ∨
    (∃ f, o.effect e.session = .error f) ∧ (o.run e).2.session = e.session ∧
      ∀ ops, completed (o :: ops) e = completed ops (o.run e).2 := by
  have hsession := o.session_run e
  cases heffect : o.effect e.session with
  | ok s =>
      rw [heffect] at hsession
      exact Or.inl ⟨congrArg Except.ok hsession.symm, fun ops => by rw [completed_cons, heffect]⟩
  | error f =>
      rw [heffect] at hsession
      exact Or.inr ⟨⟨f, rfl⟩, hsession, fun ops => by rw [completed_cons, heffect]⟩

/-- On a session that is the same, what was completed is completed again and leaves the same session. -/
theorem runAll_completed (ops : List Operation) : ∀ e e' : Editor, e.session = e'.session →
    (runAll (completed ops e) e').session = (runAll ops e).session ∧
      completed (completed ops e) e' = completed ops e := by
  induction ops with
  | nil => exact fun e e' h => ⟨h.symm, rfl⟩
  | cons o ops ih =>
      intro e e' h
      have hall : runAll (o :: ops) e = runAll ops (o.run e).2 := rfl
      have hsession : (o.run e).2.session = (o.run e').2.session := by rw [session_run, session_run, h]
      rw [hall]
      rcases o.run_cases e with ⟨heffect, hcompleted⟩ | ⟨-, hkept, hcompleted⟩
      · obtain ⟨hleft, hagain⟩ := ih (o.run e).2 (o.run e').2 hsession
        rcases o.run_cases e' with ⟨-, hcompleted'⟩ | ⟨⟨f, hrefused⟩, -, -⟩
        · rw [hcompleted, hcompleted', hagain]
          exact ⟨hleft, rfl⟩
        · rw [← h, heffect] at hrefused
          cases hrefused
      · -- the next operation finds the session that this one found
        rw [hcompleted]
        exact ih (o.run e).2 e' (hkept.trans h)

/-- **Failed operations leave no trace.** After any operations the session is that after those which went through,
none of which fails by itself. Submitting leaves the session, and hands over the payload of the session it was
called in. An indicator is exchanged in the selection and in the tree at once, or not at all. -/
theorem failed_invisible (ops : List Operation) (e : Editor) (submitter : Document → Except String Document)
    (i : Indicator) :
    (runAll (completed ops e) e).session = (runAll ops e).session ∧
    completed (completed ops e) e = completed ops e ∧
    (∃ journal, (submit submitter).run e = ((e.session.submitted submitter).map fun _ => (), { e with
      journal
      handed := match e.session.offer with
        | .ok sent => e.handed ++ [sent]
        | .error _ => e.handed })) ∧
    ((∃ old selection tree, e.session.selection.get? i.id = some old ∧
        e.session.selection.replace i = .ok selection ∧ Edit.retargetTree old i e.session.tree = .ok tree ∧
        (updateIndicator i).run e = (.ok (), { e with session := { e.session with selection, tree } })) ∨
      ∃ f, (updateIndicator i).run e = (.error f, e)) := by
  obtain ⟨hsession, hagain⟩ := runAll_completed ops e e rfl
  refine ⟨hsession, hagain, ?_, ?_⟩
  · obtain ⟨journal, hrun, -⟩ := Editor.run_submit submitter e
    refine ⟨journal, ?_⟩
    rw [run, work, Editor.run_discard, hrun]
  · have hrun : (updateIndicator i).run e = _ := Editor.run_updateIndicator i e
    rw [hrun]
    cases hupdate : e.session.updateIndicator i with
    | error f => exact Or.inr ⟨f, rfl⟩
    | ok s =>
        obtain ⟨old, selection, tree, hold, hselection, htree, rfl⟩ := Session.updateIndicator_eq_ok hupdate
        exact Or.inl ⟨old, selection, tree, hold, hselection, htree, rfl⟩

/-- An indicator that ends before it starts can be selected, but no reference can be pointed at it. -/
example :
    let i := { Session.faster with offset := (2, 1) }
    (Session.watching.selection.replace i).toOption.isSome = true ∧
      ((updateIndicator i).run ⟨Session.watching, [], []⟩).1.toOption = none := by
  decide +kernel

end Operation

end Stratagem
