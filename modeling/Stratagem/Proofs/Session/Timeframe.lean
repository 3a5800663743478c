import Stratagem.Proofs.Session.Clone
import Stratagem.Proofs.Session.Operation
import Stratagem.Proofs.Trade.Given

/-!
# The timeframe that is sent

Only an update of the trade settings sets the timeframe of a session, and of those that went through the last one
that gives a timeframe counts. What is sent is that timeframe, but for the default length: it follows the selected
indicators, whether it was chosen or nobody chose anything.
-/

namespace Stratagem

/-- The length in force with a selection: the default length stands for that of the selected indicators. -/
def Selection.inForce (s : Selection) (n : Int) : Int :=
  if n = Timeframe.defaultSeconds then s.timeframeSeconds else n

/-! ## What can be sent -/

/-- A session whose texts are texts and whose tree compiles: every indicator has a key, a threshold that has to be
corrected is not too long to be written, and outputs are no lists or records, and texts where they are read. -/
structure Session.Sendable (s : Session) : Prop where
  name : ∃ text, s.name = .text text
  description : ∃ text, s.description = .text text
  keys : s.selection.HasKeys
  tellable : s.tree.Tellable
  hashable : s.tree.EachRef ValueRef.Hashable
  names : ∀ entry ∈ s.tree.series true, entry.2.kind = .indicator → entry.2.NamesOutput

namespace Session

theorem trimmedText_exists_iff (d : Document) : (∃ t, trimmedText d = .ok t) ↔ ∃ text, d = .text text := by
  cases d with
  | text t => exact iff_of_true ⟨_, rfl⟩ ⟨t, rfl⟩
  | _ => exact iff_of_false nofun nofun

theorem payload_exists_iff {s : Session} : (∃ sent, answer s.payload = .ok sent) ↔ s.Sendable := by
  constructor
  · rintro ⟨sent, hsent⟩
    obtain ⟨name, description, c, hname, hdescription, hcompile, -⟩ := answer_payload_eq_ok.mp hsent
    have hkeys := Tree.hasKeys_of_compileWith hcompile
    obtain ⟨htell, hhashable, hnames⟩ := (Tree.compileWith_exists_iff hkeys).mp ⟨c, hcompile⟩
    exact ⟨(trimmedText_exists_iff _).mp ⟨name, hname⟩, (trimmedText_exists_iff _).mp ⟨description, hdescription⟩,
      hkeys, htell, hhashable, hnames⟩
  · intro h
    obtain ⟨name, hname⟩ := (trimmedText_exists_iff _).mpr h.name
    obtain ⟨description, hdescription⟩ := (trimmedText_exists_iff _).mpr h.description
    obtain ⟨c, hcompile⟩ := (Tree.compileWith_exists_iff h.keys).mpr ⟨h.tellable, h.hashable, h.names⟩
    exact ⟨_, answer_payload_eq_ok.mpr ⟨name, description, c, hname, hdescription, hcompile, rfl⟩⟩

/-- The timeframe that is sent is the one in force. -/
theorem timeframe_sent {s : Session} {sent : Document} (h : answer s.payload = .ok sent) :
    setting? (configOf sent) "timeframeSec" = some (.int (s.selection.inForce s.trade.timeframeSec)) := by
  obtain ⟨name, description, c, -, -, -, rfl⟩ := answer_payload_eq_ok.mp h
  rw [configOf_payloadOf, effectiveTrade_eq]
  rfl

end Session

/-! ## Operations that set the timeframe -/

namespace Operation

open Session (answer configOf setting?)

def givenTimeframe : Operation → Option Int
  | updateTrade partialRecord => Trade.givenTimeframe partialRecord
  | _ => none

/-- An operation sets the timeframe that is given, and else leaves it. -/
theorem timeframe_of_effect {o : Operation} {s s' : Session} (h : o.effect s = .ok s') :
    s'.trade.timeframeSec = o.givenTimeframe.getD s.trade.timeframeSec := by
  cases o with
  | apply reducer =>
      obtain ⟨tree, -, heq⟩ := bind_eq_ok.mp h
      cases heq
      rfl
  | addIndicator i =>
      obtain ⟨selection, -, heq⟩ := bind_eq_ok.mp h
      cases heq
      rfl
  | updateIndicator i =>
      obtain ⟨old, selection, tree, -, -, -, rfl⟩ := Session.updateIndicator_eq_ok h
      rfl
  | removeIndicator id =>
      obtain ⟨⟨s'', usages⟩, hremove, heq⟩ := bind_eq_ok.mp h
      obtain ⟨usages', -, heq'⟩ := bind_eq_ok.mp hremove
      cases heq
      cases heq'
      rfl
  | updateTrade partialRecord =>
      obtain ⟨trade, hmerge, heq⟩ := bind_eq_ok.mp h
      cases heq
      exact (Trade.merge_given hmerge).1
  | submit submitter =>
      obtain ⟨response, -, heq⟩ := bind_eq_ok.mp h
      cases heq
      rfl

/-- After a run, the timeframe is the last one that an operation set which went through. -/
theorem timeframe_runAll (ops : List Operation) (e : Editor) : (runAll ops e).session.trade.timeframeSec =
    ((completed ops e).filterMap givenTimeframe).getLast?.getD e.session.trade.timeframeSec := by
  induction ops generalizing e with
  | nil => rfl
  | cons o ops ih =>
      have hall : runAll (o :: ops) e = runAll ops (o.run e).2 := rfl
      rw [hall, ih]
      rcases o.run_cases e with ⟨heffect, hcompleted⟩ | ⟨-, hsession, hcompleted⟩
      · rw [hcompleted, getLast?_filterMap_cons, timeframe_of_effect heffect]
      · rw [hcompleted, hsession]

/-- **The timeframe that is sent.** After any operations the payload is there if the session can be sent. The timeframe
in it is the one of the last update that gives one, or the one at the start if none does, as long as it is not of the
default length: then it is that of the selected indicators, chosen or not. -/
theorem payload_timeframe (ops : List Operation) (e : Editor) :
    let s := (runAll ops e).session
    ((∃ sent, answer s.payload = .ok sent) ↔ s.Sendable) ∧
    ∀ sent, answer s.payload = .ok sent →
      (∀ before partialRecord after n, completed ops e = before ++ updateTrade partialRecord :: after →
        (∀ o ∈ after, o.givenTimeframe = none) → partialRecord.get? "timeframeSec" = some (.int n) →
        Number.IsDouble n → setting? (configOf sent) "timeframeSec" = some (.int (s.selection.inForce n))) ∧
      ((∀ o ∈ completed ops e, o.givenTimeframe = none) →
        setting? (configOf sent) "timeframeSec" = some (.int (s.selection.inForce e.session.trade.timeframeSec))) := by
  intro s
  refine ⟨Session.payload_exists_iff, fun sent hsent => ?_⟩
  have htimeframe : s.trade.timeframeSec =
      ((completed ops e).filterMap givenTimeframe).getLast?.getD e.session.trade.timeframeSec :=
    timeframe_runAll ops e
  have hsent : setting? (configOf sent) "timeframeSec" = some (.int (s.selection.inForce s.trade.timeframeSec)) :=
    Session.timeframe_sent hsent
  refine ⟨fun before partialRecord after n hcompleted hafter hgiven hn => ?_, fun hnone => ?_⟩
  · have hchosen : (updateTrade partialRecord).givenTimeframe = some n := by
      rw [givenTimeframe, Trade.givenTimeframe, hgiven, Option.bind_some, Document.lenientInteger_int hn]
    rw [hcompleted, List.filterMap_append, List.filterMap_cons, hchosen, List.filterMap_eq_nil_iff.mpr hafter,
      List.getLast?_concat, Option.getD_some] at htimeframe
    rw [hsent, htimeframe]
  · rw [List.filterMap_eq_nil_iff.mpr hnone] at htimeframe
    rw [hsent, htimeframe]
    rfl

def timed (n : Int) : Document := .record [("timeframeSec", .int n)]

/-- A timeframe is chosen, another one is refused, and the indicator that is followed changes. -/
def chosen (n : Int) : List Operation := [updateTrade (timed n), updateTrade (timed (-5)), removeIndicator "cross"]

/-- Two indicators, the first over four hours and the second over one. -/
def untouched : Editor := ⟨Session.watching, [], []⟩

theorem completed_chosen :
    completed (chosen 60) untouched = [updateTrade (timed 60), removeIndicator "cross"] ∧
      completed (chosen 300) untouched = [updateTrade (timed 300), removeIndicator "cross"] :=
  ⟨rfl, rfl⟩

/-- A minute that was chosen is not what is sent, five minutes are. -/
theorem payload_timeframe_chosen :
    let sends (ops : List Operation) (n : Int) : Prop := ∃ sent,
      answer (runAll ops untouched).session.payload = .ok sent ∧
        setting? (configOf sent) "timeframeSec" = some (.int n)
    sends (chosen 60) 3600 ∧ sends (chosen 300) 300 ∧ sends [] 14400 := by
  intro sends
  have hsent : ∀ ops, (answer (runAll ops untouched).session.payload).toOption.isSome = true →
      ∃ sent, answer (runAll ops untouched).session.payload = .ok sent := by
    intro ops h
    obtain ⟨sent, hsent⟩ := Option.isSome_iff_exists.mp h
    exact ⟨sent, eq_ok_of_toOption hsent⟩
  have hafter : ∀ o ∈ [removeIndicator "cross"], o.givenTimeframe = none := List.forall_mem_singleton.mpr rfl
  refine ⟨?_, ?_, ?_⟩
  · obtain ⟨sent, h⟩ := hsent (chosen 60) (by decide +kernel)
    have hhour : (runAll (chosen 60) untouched).session.selection.inForce 60 = 3600 := by decide +kernel
    refine ⟨sent, h, ?_⟩
    rw [((payload_timeframe _ _).2 sent h).1 [] _ _ 60 completed_chosen.1 hafter rfl ⟨60, rfl, rfl⟩, hhour]
  · obtain ⟨sent, h⟩ := hsent (chosen 300) (by decide +kernel)
    have hfive : (runAll (chosen 300) untouched).session.selection.inForce 300 = 300 := by decide +kernel
    refine ⟨sent, h, ?_⟩
    rw [((payload_timeframe _ _).2 sent h).1 [] _ _ 300 completed_chosen.2 hafter rfl ⟨300, rfl, rfl⟩, hfive]
  · obtain ⟨sent, h⟩ := hsent [] (by decide +kernel)
    have hfour : (runAll [] untouched).session.selection.inForce untouched.session.trade.timeframeSec = 14400 := by
      decide +kernel
    refine ⟨sent, h, ?_⟩
    rw [((payload_timeframe _ _).2 sent h).2 nofun, hfour]

end Operation

end Stratagem
