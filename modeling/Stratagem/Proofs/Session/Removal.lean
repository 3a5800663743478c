import Stratagem.Proofs.Draft.Answers
import Stratagem.Proofs.Retarget

/-!
# What breaks when an indicator is removed

The answer lists every place where the indicator is read: every reference with its key. Such a reference dangles
afterwards, unless another indicator has the key too and declares the output; then it is listed all the same. Every
other reference resolves to what it resolved to before.
-/

namespace Stratagem

namespace Selection

variable {s : Selection} {i : Indicator} {r : ValueRef}

/-- An indicator of the selection answers for the reference. -/
def AnswersFor (s : Selection) (r : ValueRef) : Prop :=
  ∃ i, s.find r = .ok (some i) ∧ i.declares r.output = true

/-- A reference to an indicator dangles if none answers for it. What dangles is shown with its output. -/
theorem dangles_iff (hs : s.HasKeys) (hkind : r.kind = .indicator) (hshow : r.Showable) :
    s.Dangles r ↔ ¬ s.AnswersFor r := by
  obtain ⟨found, hfound⟩ := find_exists hs r
  rw [Dangles, AnswersFor, resolve, hkind, hfound]
  dsimp only
  rw [ok_bind]
  cases found with
  | none => exact iff_of_true ⟨_, rfl⟩ (by rintro ⟨j, ⟨⟩, -⟩)
  | some j =>
      dsimp only
      by_cases hdeclares : j.declares r.output = true
      · rw [if_pos hdeclares]
        exact iff_of_false (by rintro ⟨d, ⟨⟩⟩) fun h => h ⟨j, rfl, hdeclares⟩
      · obtain ⟨output, houtput⟩ := (Document.display_writesIf r.output).exists_ok hshow
        rw [if_neg hdeclares, houtput]
        refine iff_of_true ⟨_, rfl⟩ ?_
        rintro ⟨k, hk, hdeclared⟩
        cases hk
        exact hdeclares hdeclared

/-- Indicators of other keys are passed over. -/
theorem findKey_filter {is : List Indicator} {p : Indicator → Bool} {key : String}
    (h : ∀ j ∈ is, p j = false → ∃ other, j.key = .ok other ∧ other ≠ key) :
    findKey key (is.filter p) = findKey key is := by
  induction is with
  | nil => rfl
  | cons j is ih =>
      obtain ⟨hj, his⟩ := List.forall_mem_cons.mp h
      rw [List.filter_cons]
      cases hp : p j with
      | true => rw [if_pos rfl, findKey, findKey, ih his]
      | false =>
          obtain ⟨other, hkey, hne⟩ := hj hp
          rw [if_neg Bool.false_ne_true, ih his, findKey, hkey, ok_bind, if_neg (by simpa using hne)]

/-- A reference to something else resolves to what it resolved to before. -/
theorem Distinct.resolve_remove (h : s.Distinct) (hi : i ∈ s.indicators) (hr : ¬ Edit.Addresses r i) :
    (s.remove i.id).resolve r = s.resolve r := by
  rw [resolve, resolve]
  cases hkind : r.kind with
  | literal => rfl
  | field => rfl
  | indicator =>
      have hfind : (s.remove i.id).find r = s.find r := by
        rw [find, find, ValueRef.isIndicator, hkind]
        refine findKey_filter fun j hj hid => ?_
        obtain rfl : j = i := eq_of_id hj hi (by simpa using hid)
        obtain ⟨key, hkey⟩ := (h.referable j hj).key_exists
        exact ⟨key, hkey, fun heq => hr ⟨hkind, heq ▸ hkey⟩⟩
      dsimp only
      rw [hfind]

/-- Where the removed indicator was the only one with its key, none answers for its references. -/
theorem not_answersFor_remove (hr : Edit.Addresses r i)
    (honly : ∀ j ∈ s.indicators, j.key = i.key → j = i) : ¬ (s.remove i.id).AnswersFor r := by
  rintro ⟨j, hfind, -⟩
  obtain ⟨-, hj, hkey⟩ := find_eq_some hfind
  obtain ⟨hmem, hid⟩ := List.mem_filter.mp hj
  rw [honly j hmem (hkey.trans hr.2.symm)] at hid
  simp at hid

end Selection

/-- What dangles once the indicator is gone. -/
theorem Selection.Distinct.dangles_remove {s : Selection} {i : Indicator} (h : s.Distinct) (hi : i ∈ s.indicators)
    {r : ValueRef} (hshow : r.Showable) : (s.remove i.id).Dangles r ↔
      if Edit.Addresses r i then ¬ (s.remove i.id).AnswersFor r else s.Dangles r := by
  have hkeys : (s.remove i.id).HasKeys := fun j hj => (h.referable j (List.mem_of_mem_filter hj)).key_exists
  split
  · rename_i hr
    exact dangles_iff hkeys hr.1 hshow
  · rename_i hr
    rw [Dangles, Dangles, h.resolve_remove hi hr]

theorem filterMap_ite {α β : Type} {p : α → Prop} [DecidablePred p] (f : α → β) (xs : List α) :
    xs.filterMap (fun x => if p x then some (f x) else none) = (xs.filter p).map f := by
  rw [← List.filterMap_eq_map, List.filterMap_filter]
  simp only [decide_eq_true_eq, Function.comp_apply]

/-- The uses of an indicator are the references to it, in the order of the walk. -/
theorem Tree.usages_eq_ok {i : Indicator} (hi : i.Referable) (t : Tree) :
    t.usages i = .ok (((t.series false).filter fun entry => Edit.Addresses entry.2 i).map fun entry =>
      ⟨entry.1, entry.2.output, ((t.series true).map (·.1.text)).contains entry.1.text⟩) := by
  have hat : ∀ active entry, usageAt active i entry = .ok (if Edit.Addresses entry.2 i then
      some ⟨entry.1, entry.2.output, active.contains entry.1.text⟩ else none) := by
    intro active entry
    obtain ⟨b, hb, hiff⟩ := Edit.matches?_eq hi entry.2
    rw [usageAt, hb, ok_bind]
    by_cases haddresses : Edit.Addresses entry.2 i
    · rw [if_pos haddresses, hiff.mpr haddresses]
      rfl
    · rw [if_neg haddresses, Bool.eq_false_of_not_eq_true fun h => haddresses (hiff.mp h)]
      rfl
  rw [usages, mapM_ok fun entry _ => hat _ entry, ok_bind, pure_eq_ok, List.filterMap_map, Function.id_comp,
    filterMap_ite]

theorem Tree.mem_usages_path {t : Tree} {i : Indicator} (hi : i.Referable) {us : List Usage}
    (hus : t.usages i = .ok us) {path : Path} :
    path ∈ us.map (·.path) ↔ ∃ r, (path, r) ∈ t.series false ∧ Edit.Addresses r i := by
  rw [usages_eq_ok hi] at hus
  cases hus
  simp

theorem Tree.mem_dangling_path {t : Tree} {s : Selection} {enabledOnly : Bool} {ds : List DanglingOperand}
    (hds : t.dangling enabledOnly s = .ok ds) {path : Path} :
    path ∈ ds.map (·.path) ↔ ∃ r, (path, r) ∈ t.series enabledOnly ∧ s.Dangles r := by
  rw [List.mem_map]
  constructor
  · rintro ⟨d, hd, rfl⟩
    obtain ⟨hentry, hresolve⟩ := (mem_dangling_iff hds).mp hd
    exact ⟨d.ref, hentry, d.reason, hresolve⟩
  · rintro ⟨r, hentry, d, hresolve⟩
    exact ⟨⟨path, r, d⟩, (mem_dangling_iff hds).mpr ⟨hentry, hresolve⟩, rfl⟩

namespace Session

open Edit (Addresses)

/-- **What is answered when an indicator is removed.** The tree is kept, and the answer lists the operands with the
key of the indicator, switched on or not. Where every output can be shown, these dangle afterwards, but for those that
another indicator with the key answers for; all others dangle if they dangled before. So where no other indicator has
the key, the operands that dangle are those that dangled and those that are listed. -/
theorem removeIndicator_dangles {s : Session} {i : Indicator} (hs : s.selection.Edited)
    (hi : i ∈ s.selection.indicators) :
    ∃ usages, s.removeIndicator i.id = .ok ({ s with selection := s.selection.remove i.id }, usages) ∧
      usages.map (fun u => (u.path, u.output)) =
        ((s.tree.series false).filter fun entry => Addresses entry.2 i).map (fun entry => (entry.1, entry.2.output)) ∧
      (s.tree.EachRef ValueRef.Showable → ∃ before after,
        s.tree.dangling false s.selection = .ok before ∧
        s.tree.dangling false (s.selection.remove i.id) = .ok after ∧
        (∀ path, path ∈ after.map (·.path) ↔ ∃ r, (path, r) ∈ s.tree.series false ∧
          if Addresses r i then ¬ (s.selection.remove i.id).AnswersFor r else s.selection.Dangles r) ∧
        ((∀ j ∈ s.selection.indicators, j.key = i.key → j = i) → ∀ path,
          path ∈ after.map (·.path) ↔ path ∈ before.map (·.path) ∨ path ∈ usages.map (·.path))) := by
  have hdistinct := hs.distinct
  have hkeys : s.selection.HasKeys := fun j hj => (hdistinct.referable j hj).key_exists
  have hkeys' : (s.selection.remove i.id).HasKeys := fun j hj => hkeys j (List.mem_of_mem_filter hj)
  obtain ⟨usages, husages, hlisted⟩ : ∃ usages, s.tree.usages i = .ok usages ∧
      usages.map (fun u => (u.path, u.output)) = ((s.tree.series false).filter fun entry => Addresses entry.2 i).map
        (fun entry => (entry.1, entry.2.output)) := by
    refine ⟨_, Tree.usages_eq_ok (hdistinct.referable i hi) s.tree, ?_⟩
    rw [List.map_map]
    rfl
  refine ⟨usages, ?_, hlisted, fun hshow => ?_⟩
  · rw [removeIndicator, Session.usages, selected, Selection.get?_of_mem hi]
    dsimp only
    rw [ok_bind, husages]
    rfl
  · have hshown : ∀ entry ∈ s.tree.series false, entry.2.Showable := hshow.series
    obtain ⟨before, hbefore⟩ := Tree.dangling_exists hkeys fun entry hentry _ => hshown entry hentry
    obtain ⟨after, hafter⟩ := Tree.dangling_exists hkeys' fun entry hentry _ => hshown entry hentry
    have hdangles (path : Path) {r : ValueRef} (hr : (path, r) ∈ s.tree.series false) :=
      hdistinct.dangles_remove hi (hshown (path, r) hr)
    refine ⟨before, after, hbefore, hafter, fun path => ?_, fun honly path => ?_⟩
    · rw [Tree.mem_dangling_path hafter]
      exact exists_congr fun r => and_congr_right fun hr => hdangles path hr
    · rw [Tree.mem_dangling_path hafter, Tree.mem_dangling_path hbefore,
        Tree.mem_usages_path (hdistinct.referable i hi) husages]
      constructor
      · rintro ⟨r, hr, h⟩
        rw [hdangles path hr] at h
        split at h
        · exact Or.inr ⟨r, hr, ‹_›⟩
        · exact Or.inl ⟨r, hr, h⟩
      · rintro (⟨r, hr, h⟩ | ⟨r, hr, haddresses⟩)
        · refine ⟨r, hr, (hdangles path hr).mpr ?_⟩
          split
          · exact Selection.not_answersFor_remove ‹_› honly
          · exact h
        · refine ⟨r, hr, (hdangles path hr).mpr ?_⟩
          rw [if_pos haddresses]
          exact Selection.not_answersFor_remove haddresses honly

/-- Two indicators with one key, and none for the left operand. -/
def ticking : Session := { watching with selection := Selection.modes }

/-- The right operand is listed, and resolves as it did before. -/
theorem removeIndicator_dangles_ticking : ticking.selection.Edited ∧
    Selection.strength "tick" "OnTick" ∈ ticking.selection.indicators ∧ ∃ usages before after,
      ticking.removeIndicator "tick" = .ok ({ ticking with selection := ticking.selection.remove "tick" }, usages) ∧
      ticking.tree.dangling false ticking.selection = .ok before ∧
      ticking.tree.dangling false (ticking.selection.remove "tick") = .ok after ∧
      usages.map (·.path.operand) = ["right"] ∧ before.map (·.path.operand) = ["left"] ∧
      after.map (·.path.operand) = ["left"] := by
  have hmem : Selection.strength "tick" "OnTick" ∈ ticking.selection.indicators := List.mem_cons_self
  obtain ⟨usages, hremove, -, hdangles⟩ := removeIndicator_dangles (s := ticking) Selection.edited_modes hmem
  have hnames : ticking.tree.EachRef ValueRef.NamesOutput := by decide +kernel
  obtain ⟨before, after, hbefore, hafter, -⟩ := hdangles (hnames.imp fun _ => ValueRef.NamesOutput.showable)
  have hrun : (do
      let (_, usages) ← ticking.removeIndicator "tick"
      let before ← ticking.tree.dangling false ticking.selection
      let after ← ticking.tree.dangling false (ticking.selection.remove "tick")
      return (usages.map fun u : Usage => u.path.operand, before.map fun d : DanglingOperand => d.path.operand,
        after.map fun d : DanglingOperand => d.path.operand)).toOption = some (["right"], ["left"], ["left"]) := by
    decide +kernel
  have hanswer := eq_ok_of_toOption hrun
  rw [show ticking.removeIndicator "tick" = _ from hremove, ok_bind] at hanswer
  dsimp only at hanswer
  rw [hbefore, ok_bind,
    show ticking.tree.dangling false (ticking.selection.remove "tick") = _ from hafter, ok_bind] at hanswer
  obtain ⟨husages, hrest⟩ := Prod.mk.inj (Except.ok.inj hanswer)
  obtain ⟨hleft, hleft'⟩ := Prod.mk.inj hrest
  exact ⟨Selection.edited_modes, hmem, usages, before, after, hremove, hbefore, hafter, husages, hleft, hleft'⟩

end Session

end Stratagem
