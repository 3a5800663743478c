import Stratagem.Proofs.Draft.Answers

/-!
# Walks agree

The walk, the compiler and the summary go through a tree by rules of their own: one drops what is switched off on
the way, one plans each level by its quorum, one leaves out what is empty. `places` is the walk that they have in
common: every condition in its order, with whether it is live, that is, enabled together with everything it is in.
-/

namespace Stratagem

open Quorum (live)

/-! ## Lists -/

section Lists

variable {α β : Type}

/-- What is switched off may be left out, if it has nothing to give. -/
theorem flatMap_live [Flagged α] {f g : α → List β} (hon : ∀ x, enabled x = true → f x = g x)
    (hoff : ∀ x, enabled x = false → g x = []) (xs : List α) : (live xs).flatMap f = xs.flatMap g := by
  induction xs with
  | nil => rfl
  | cons x xs ih =>
      rw [List.flatMap_cons, ← ih, live]
      by_cases hx : enabled x = true
      · rw [List.filter_cons_of_pos hx, List.flatMap_cons, hon x hx]
        rfl
      · rw [List.filter_cons_of_neg hx, hoff x (by simpa using hx)]
        rfl

/-- What is kept along a list by a mark of its own is kept by the list beside it, where that says the same. -/
theorem filter_eq_zip (live : α → β → Bool) {places : List (α × Bool)} {spots : List β}
    (h : List.Forall₂ (fun place spot => place.2 = live place.1 spot) places spots) :
    (places.filter (·.2)).map (·.1) =
      (((places.map (·.1)).zip spots).filter fun x => live x.1 x.2).map (·.1) := by
  induction h with
  | nil => rfl
  | @cons place spot places spots hlive _ ih =>
      rw [List.map_cons, List.zip_cons_cons, List.filter_cons, List.filter_cons, ← hlive]
      cases place.2 with
      | true =>
          rw [if_pos rfl, if_pos rfl, List.map_cons, List.map_cons, ih]
      | false =>
          rw [if_neg Bool.false_ne_true, if_neg Bool.false_ne_true, ih]

end Lists

theorem PerSlot.toList_map {α β : Type} (f : Slot → α → β) (p : PerSlot α) :
    (p.map f).toList = p.toList.map fun entry => (entry.1, f entry.1 entry.2) := by
  simp only [toList, List.map_map, get_map, Function.comp_def]

/-! ## The walk -/

namespace Tree

/-- The conditions of a group with their places, each with whether it is live; `on` says so of the container. -/
def groupPlaces (slot : Slot) (container : String) (on : Bool) (g : Group) : List ((Path × Condition) × Bool) :=
  g.conditions.map fun k => ((⟨slot, container, g.id, k.id, ""⟩, k), on && g.enabled && k.enabled)

def containerPlaces (slot : Slot) (on : Bool) (c : Container) : List ((Path × Condition) × Bool) :=
  c.groups.flatMap (groupPlaces slot c.id (on && c.enabled))

def branchPlaces (slot : Slot) (b : Branch) : List ((Path × Condition) × Bool) :=
  b.containers.flatMap (containerPlaces slot b.enabled)

/-- Every condition of a tree with its place, in order, and whether it is live. -/
def places (t : Tree) : List ((Path × Condition) × Bool) :=
  t.toList.flatMap fun (slot, b) => branchPlaces slot b

def livePlaces (ps : List ((Path × Condition) × Bool)) : List (Path × Condition) :=
  (ps.filter (·.2)).map (·.1)

theorem livePlaces_flatMap {α : Type} (f : α → List ((Path × Condition) × Bool)) (xs : List α) :
    livePlaces (xs.flatMap f) = xs.flatMap fun x => livePlaces (f x) := by
  rw [livePlaces, List.filter_flatMap, List.map_flatMap]
  rfl

/-! What is enabled gives what a walk visits in it, and nothing is live in what is switched off. -/

theorem livePlaces_group_on (slot : Slot) (container : String) {g : Group} (hg : g.enabled = true) :
    livePlaces (groupPlaces slot container true g) =
      (live g.conditions).map fun k => (⟨slot, container, g.id, k.id, ""⟩, k) := by
  simp only [livePlaces, groupPlaces, hg, Bool.true_and, List.filter_map, List.map_map]
  rfl

theorem livePlaces_group_off {slot : Slot} {container : String} {on : Bool} {g : Group}
    (hoff : (on && g.enabled) = false) : livePlaces (groupPlaces slot container on g) = [] := by
  simp [livePlaces, groupPlaces, hoff, List.filter_map, Function.comp_def]

theorem livePlaces_container_on (slot : Slot) {c : Container} (hc : c.enabled = true) :
    livePlaces (containerPlaces slot true c) =
      (live c.groups).flatMap fun g => (live g.conditions).map fun k => (⟨slot, c.id, g.id, k.id, ""⟩, k) := by
  rw [containerPlaces, livePlaces_flatMap, hc]
  refine (flatMap_live (fun g hg => ?_) (fun g hg => ?_) c.groups).symm
  · exact (livePlaces_group_on slot c.id hg).symm
  · exact livePlaces_group_off hg

theorem livePlaces_container_off {slot : Slot} {on : Bool} {c : Container} (hoff : (on && c.enabled) = false) :
    livePlaces (containerPlaces slot on c) = [] := by
  rw [containerPlaces, livePlaces_flatMap, hoff]
  exact List.flatMap_eq_nil_iff.mpr fun g _ => livePlaces_group_off rfl

theorem branchConditions_true (slot : Slot) (b : Branch) :
    branchConditions true slot b = livePlaces (branchPlaces slot b) := by
  rw [branchConditions, branchPlaces, livePlaces_flatMap]
  by_cases hen : b.enabled = true
  · rw [hen]
    refine flatMap_live (fun c hc => ?_) (fun c hc => ?_) b.containers
    · exact (livePlaces_container_on slot hc).symm
    · exact livePlaces_container_off hc
  · rw [Bool.not_eq_true] at hen
    rw [hen]
    exact (List.flatMap_eq_nil_iff.mpr fun c _ => livePlaces_container_off rfl).symm

theorem branchConditions_false (slot : Slot) (b : Branch) :
    branchConditions false slot b = (branchPlaces slot b).map (·.1) := by
  simp only [branchPlaces, containerPlaces, groupPlaces, List.map_flatMap, List.map_map]
  rfl

theorem conditions_false (t : Tree) : t.conditions false = t.places.map (·.1) := by
  rw [places, List.map_flatMap]
  exact List.flatMap_congr fun entry _ => branchConditions_false entry.1 entry.2

theorem conditions_true (t : Tree) : t.conditions true = livePlaces t.places := by
  rw [places, livePlaces_flatMap]
  exact List.flatMap_congr fun entry _ => branchConditions_true entry.1 entry.2

/-! ## The compiler -/

theorem container_compile_conditions (c : Container) :
    c.compile.groups.flatMap Compiled.Group.conditions =
      (live c.groups).flatMap fun g => (live g.conditions).map Condition.compile := by
  rw [Container.compile, List.flatMap_map]
  rfl

theorem branch_compile_conditions (slot : Slot) (b : Branch) :
    b.compile.conditions = (branchConditions true slot b).map (·.2.compile) := by
  rw [Branch.compile, branchConditions]
  by_cases hen : b.enabled = true
  · rw [if_pos hen, hen]
    simp only [Bool.not_true, Bool.and_false, Bool.false_eq_true, if_false, List.map_flatMap, List.map_map]
    simp only [Compiled.Branch.conditions, List.flatMap_map, container_compile_conditions]
    rfl
  · rw [if_neg hen, Bool.not_eq_true] at *
    rw [hen]
    rfl

/-- A tree is compiled to the calls of its live conditions, in their order. -/
theorem compile_conditions (t : Tree) : t.compile.conditions = (t.conditions true).map (·.2.compile) := by
  rw [compile, Compiled.Logic.conditions, PerSlot.toList_map, List.flatMap_map, conditions, List.map_flatMap]
  exact List.flatMap_congr fun entry _ => branch_compile_conditions entry.1 entry.2

/-- Whatever is found on the way, the compiled strategy is the one of the tree. -/
theorem logic_of_compileWith {t : Tree} {selection? : Option Selection} {c : Compilation}
    (h : t.compileWith selection? = .ok c) : c.logic = t.compile := by
  obtain ⟨levels, -, h⟩ := bind_eq_ok.mp h
  cases selection? with
  | none =>
      cases h
      rfl
  | some s =>
      obtain ⟨found, -, h⟩ := bind_eq_ok.mp h
      cases h
      rfl

end Tree

/-! ## The summary -/

/-- The reference can be shown by its own parts. -/
def ValueRef.Presentable (r : ValueRef) : Prop :=
  match r.kind with
  | .literal => True
  | .field => r.window.Writable
  | .indicator => r.Showable ∧ r.window.Writable

theorem Label.ofRef_none_writesIf (r : ValueRef) : WritesIf r.Presentable (Label.ofRef none r) := by
  unfold ofRef ValueRef.Presentable
  dsimp only
  cases r.kind with
  | literal => exact .ok _
  | field => exact (windowNote_writesIf _).bind_pure _
  | indicator => exact (Document.display_writesIf r.output).bind fun _ _ => (windowNote_writesIf _).bind_pure _

namespace Summary

/-- The lines of a section, each with the section and the group that it stands in. -/
def Section.spots (part : Section) : List (Section × Group × String) :=
  part.groups.flatMap fun g => g.lines.map fun text => (part, g, text)

def spots (parts : List Section) : List (Section × Group × String) := parts.flatMap Section.spots

/-- A line shows a condition, under its slot and its container. -/
structure Shows (selection? : Option Selection) (entry : Path × Condition) (spot : Section × Group × String) :
    Prop where
  slot : spot.1.slot = entry.1.slot
  container : spot.1.container = entry.1.container
  line : line selection? entry.2 = .ok spot.2.2

/-- A line shows a condition, which is live as far as the marks beside it say so. -/
structure Marks (selection? : Option Selection) (place : (Path × Condition) × Bool)
    (spot : Section × Group × String) : Prop where
  shows : Shows selection? place.1 spot
  live : place.2 = (spot.1.enabled && spot.2.1.enabled && place.1.2.enabled)

variable {selection? : Option Selection}

theorem marks_group {part : Section} {container : String} {n : Nat} {g : Stratagem.Group} {group : Group}
    (hcontainer : part.container = container) (h : ofGroup selection? n g = .ok group) :
    List.Forall₂ (Marks selection?) (Tree.groupPlaces part.slot container part.enabled g)
      (group.lines.map fun text => (part, group, text)) := by
  obtain ⟨lines, hlines, h⟩ := bind_eq_ok.mp h
  cases h
  rw [Tree.groupPlaces, List.forall₂_map_left_iff, List.forall₂_map_right_iff]
  exact (mapM_eq_ok.mp hlines).imp fun k text htext => ⟨⟨rfl, hcontainer, htext⟩, rfl⟩

/-- A group without conditions is left out, and has none to show. -/
theorem marks_groups (part : Section) {container : String} (hcontainer : part.container = container)
    {n : Nat} {gs : List Stratagem.Group} {groups : List Group} (h : ofGroups selection? n gs = .ok groups) :
    List.Forall₂ (Marks selection?) (gs.flatMap (Tree.groupPlaces part.slot container part.enabled))
      (groups.flatMap fun g => g.lines.map fun text => (part, g, text)) := by
  induction gs generalizing n groups with
  | nil =>
      cases h
      exact .nil
  | cons g gs ih =>
      rw [ofGroups] at h
      split at h
      · rename_i hempty
        rw [List.flatMap_cons, Tree.groupPlaces, List.isEmpty_iff.mp hempty]
        exact ih h
      · obtain ⟨group, hgroup, h⟩ := bind_eq_ok.mp h
        obtain ⟨rest, hrest, h⟩ := bind_eq_ok.mp h
        cases h
        exact List.rel_append (marks_group hcontainer hgroup) (ih hrest)

theorem marks_container {slot : Slot} {b : Stratagem.Branch} {c : Container} {part? : Option Section}
    (h : ofContainer selection? slot b c = .ok part?) :
    List.Forall₂ (Marks selection?) (Tree.containerPlaces slot b.enabled c)
      (part?.toList.flatMap Section.spots) := by
  obtain ⟨groups, hgroups, h⟩ := bind_eq_ok.mp h
  -- only a section that is shown is given a title, so the lines are marked whatever it is
  have hall (title : String) :=
    marks_groups ⟨slot, c.id, title, b.enabled && c.enabled, groups⟩ rfl hgroups
  cases h
  split
  · rename_i hempty
    have hnone := hall ""
    rw [List.isEmpty_iff.mp hempty] at hnone
    exact hnone
  · rw [Option.toList_some, List.flatMap_singleton]
    exact hall _

theorem spots_filterMap (found : List (Option Section)) :
    spots (found.filterMap id) = found.flatMap fun part? => part?.toList.flatMap Section.spots := by
  induction found with
  | nil => rfl
  | cons part? found ih =>
      rw [List.flatMap_cons, ← ih]
      cases part? with
      | none => rfl
      | some part => rw [Option.toList_some, List.flatMap_singleton]; rfl

theorem marks_branch {slot : Slot} {b : Stratagem.Branch} {parts : List Section}
    (h : ofBranch selection? (slot, b) = .ok parts) :
    List.Forall₂ (Marks selection?) (Tree.branchPlaces slot b) (spots parts) := by
  obtain ⟨found, hfound, h⟩ := bind_eq_ok.mp h
  cases h
  rw [spots_filterMap]
  exact List.rel_flatMap (mapM_eq_ok.mp hfound) fun c part? hpart => marks_container hpart

theorem marks_tree {t : Tree} {parts : List Section} (h : ofTree selection? t = .ok parts) :
    List.Forall₂ (Marks selection?) t.places (spots parts) := by
  obtain ⟨found, hfound, h⟩ := bind_eq_ok.mp h
  cases h
  rw [spots, ← List.flatMap_id, List.flatMap_assoc]
  exact List.rel_flatMap (mapM_eq_ok.mp hfound) fun entry parts hparts => marks_branch hparts

/-- Without a selection a tree is summed up exactly if its references can be shown by their own parts. -/
theorem ofTree_none_exists_iff (t : Tree) :
    (∃ parts, ofTree none t = .ok parts) ↔ t.EachRef ValueRef.Presentable := by
  have hlabelled : ∀ r, Labelled none r ↔ r.Presentable := fun r => (Label.ofRef_none_writesIf r).exists_ok_iff
  rw [ofTree_exists_iff]
  exact ⟨fun h => h.imp fun r => (hlabelled r).mp, fun h => h.imp fun r => (hlabelled r).mpr⟩

end Summary

/-! ## The outputs that are read -/

theorem ValueRef.alike_iff {r q : ValueRef} (hr : r.NamesOutput) (hq : q.NamesOutput) :
    r.alike q = true ↔ r = q := by
  obtain ⟨kind, indicator, timeframe, input, params, output, window, calcMode⟩ := r
  obtain ⟨kind', indicator', timeframe', input', params', output', window', calcMode'⟩ := q
  obtain ⟨o, rfl⟩ := hr
  obtain ⟨p, rfl⟩ := hq
  simp [alike, Document.alike]
  tauto

namespace Tree

theorem conditionSeries_refs (entry : Path × Condition) : (conditionSeries entry).map (·.2) = entry.2.series := by
  have hoperands : entry.2.positions.map (·.2) = entry.2.operands := by
    refine List.map_snd_zip ?_
    rw [Condition.operands]
    cases entry.2.upper <;> simp
  rw [conditionSeries, List.map_filterMap, Condition.series, ← hoperands, List.filterMap_map]
  refine List.filterMap_congr fun entry _ => ?_
  show Option.map _ (Option.map _ entry.2.series?) = entry.2.series?
  cases entry.2.series? <;> rfl

end Tree

theorem Operand.series?_eq_some {o : Operand} {left r : ValueRef} (hr : r.isIndicator = true) :
    o.series? = some r ↔ o.toRef left = r := by
  have hkind : r.kind = .indicator := eq_of_beq hr
  have hnot : ∀ q : ValueRef, q.kind = .literal → q ≠ r := by
    rintro q hq rfl
    rw [hkind] at hq
    cases hq
  cases o with
  | number x => exact iff_of_false (Option.some_ne_none r).symm (hnot _ rfl)
  | ref q =>
      rw [series?, toRef]
      by_cases hq : q.isLiteral = true
      · rw [if_pos hq]
        exact iff_of_false (Option.some_ne_none r).symm (hnot q (eq_of_beq hq))
      · rw [if_neg hq, Option.some.injEq]

/-- The indicators that a condition reads are those among the arguments of its call. -/
theorem Condition.mem_series_iff {c : Condition} {r : ValueRef} (hr : r.isIndicator = true) :
    r ∈ c.series ↔ Argument.ref r ∈ c.compile.args := by
  rw [series, compile, List.mem_filterMap, List.mem_map]
  refine exists_congr fun o => and_congr_right fun _ => ?_
  rw [Operand.series?_eq_some hr, Argument.ref.injEq]

namespace Tree

theorem mem_series_iff {t : Tree} {r : ValueRef} (hr : r.isIndicator = true) :
    r ∈ (t.series true).map (·.2) ↔ ∃ c ∈ t.compile.conditions, Argument.ref r ∈ c.args := by
  rw [series, List.map_flatMap, List.mem_flatMap, compile_conditions]
  simp only [conditionSeries_refs, Condition.mem_series_iff hr, List.mem_map, exists_exists_and_eq_and]

/-- The references are the indicators among the arguments of the calls, each once. -/
structure ReadsExactly (t : Tree) (refs : List ValueRef) : Prop where
  sound : ∀ r ∈ refs, r.isIndicator = true ∧ ∃ c ∈ t.compile.conditions, Argument.ref r ∈ c.args
  complete : ∀ c ∈ t.compile.conditions, ∀ r, Argument.ref r ∈ c.args → r.isIndicator = true →
    ∃ q ∈ refs, q = r ∨ r.alike q = true
  once : refs.Pairwise fun q r => r.alike q = false

theorem usedOutputs_readsExactly {t : Tree} {refs : List ValueRef} (hrefs : t.usedOutputs = .ok refs) :
    t.ReadsExactly refs where
  sound r hr := by
    obtain ⟨hkind, hentry⟩ := mem_of_mem_usedOutputs hrefs hr
    exact ⟨hkind, (mem_series_iff hkind).mp (List.mem_map.mpr hentry)⟩
  complete c hc r hr hkind := by
    obtain ⟨entry, hentry, rfl⟩ := List.mem_map.mp ((mem_series_iff hkind).mpr ⟨c, hc, hr⟩)
    exact exists_mem_usedOutputs hrefs hentry hkind
  once := by
    rw [usedOutputs_eq hrefs]
    exact pairwise_eraseDupsBy _

/-- Where outputs are named by texts, references that are alike are one. -/
theorem ReadsExactly.texts {t : Tree} {refs : List ValueRef} (h : t.ReadsExactly refs)
    (hnames : ∀ r, (∃ c ∈ t.compile.conditions, Argument.ref r ∈ c.args) → r.isIndicator = true → r.NamesOutput) :
    refs.Nodup ∧ ∀ r, r ∈ refs ↔ r.isIndicator = true ∧ ∃ c ∈ t.compile.conditions, Argument.ref r ∈ c.args := by
  have hkept : ∀ r ∈ refs, r.NamesOutput := fun r hr => hnames r (h.sound r hr).2 (h.sound r hr).1
  constructor
  · refine h.once.imp_of_mem fun hq hr hunlike heq => ?_
    have halike := (ValueRef.alike_iff (hkept _ hr) (hkept _ hq)).mpr heq.symm
    rw [hunlike] at halike
    cases halike
  · refine fun r => ⟨h.sound r, fun ⟨hkind, c, hc, hr⟩ => ?_⟩
    obtain ⟨q, hq, rfl | halike⟩ := h.complete c hc r hr hkind
    · exact hq
    · rwa [(ValueRef.alike_iff (hnames r ⟨c, hc, hr⟩ hkind) (hkept q hq)).mp halike]

theorem EachRef.names_args {t : Tree} (h : t.EachRef ValueRef.NamesOutput) (r : ValueRef)
    (hr : ∃ c ∈ t.compile.conditions, Argument.ref r ∈ c.args) (hkind : r.isIndicator = true) : r.NamesOutput := by
  obtain ⟨entry, hentry, rfl⟩ := List.mem_map.mp ((mem_series_iff hkind).mpr hr)
  exact h.series entry hentry

/-! ## Agreement -/

/-- **Walks agree.** A tree is compiled to the calls of its live conditions, in the order of the walk, and these are
the ones that are counted. A summary has a line for every condition of the walk and no other line, in its order and
under its slot and its container; the live ones are those that are enabled in a section and a group that are marked
so. The outputs that are read are the indicators among the arguments of the calls, each once. There is a summary
exactly if every reference can be shown, and there are the outputs exactly if none of the tree is a list or a
record. -/
theorem walks_agree (t : Tree) :
    t.compile.conditions = (t.conditions true).map (·.2.compile) ∧
    (∀ selection? c, t.compileWith selection? = .ok c →
      c.logic = t.compile ∧ c.liveConditions = (t.conditions true).length) ∧
    ((∃ parts, Summary.ofTree none t = .ok parts) ↔ t.EachRef ValueRef.Presentable) ∧
    (∀ selection? parts, Summary.ofTree selection? t = .ok parts →
      List.Forall₂ (Summary.Shows selection?) (t.conditions false) (Summary.spots parts) ∧
      t.conditions true =
        (((t.conditions false).zip (Summary.spots parts)).filter fun (entry, part, group, _) =>
          part.enabled && group.enabled && entry.2.enabled).map (·.1)) ∧
    ((∃ refs, t.usedOutputs = .ok refs) ↔ t.EachRef ValueRef.Hashable) ∧
    ∀ refs, t.usedOutputs = .ok refs → t.ReadsExactly refs ∧ (t.EachRef ValueRef.NamesOutput → refs.Nodup ∧
      ∀ r, r ∈ refs ↔ r.isIndicator = true ∧ ∃ c ∈ t.compile.conditions, Argument.ref r ∈ c.args) := by
  refine ⟨t.compile_conditions, fun selection? c hc => ?_, Summary.ofTree_none_exists_iff t,
    fun selection? parts hparts => ?_, usedOutputs_exists_iff, fun refs hrefs => ?_⟩
  · have hlogic := logic_of_compileWith hc
    refine ⟨hlogic, ?_⟩
    rw [Compilation.liveConditions, hlogic, compile_conditions, List.length_map]
  · have hmarks := Summary.marks_tree hparts
    rw [conditions_false, conditions_true, livePlaces, List.forall₂_map_left_iff]
    refine ⟨hmarks.imp fun _ _ h => h.shows, ?_⟩
    exact filter_eq_zip (fun entry (part, group, _) => part.enabled && group.enabled && entry.2.enabled)
      (hmarks.imp fun _ _ h => h.live)
  · have hreads := usedOutputs_readsExactly hrefs
    exact ⟨hreads, fun hnames => hreads.texts hnames.names_args⟩

end Tree

def ValueRef.hourlyStrength : ValueRef where
  kind := .indicator
  indicator := "RSI"
  timeframe := "1h"
  input := "Close"
  params := [14]
  output := .text defaultOutput
  window := .current
  calcMode := defaultCalcMode

namespace Tree

/-- One condition is live, one is switched off, and one stands in a group that is. A third group is empty. -/
def oversold : Tree :=
  let below (id : String) (x : Float) (enabled : Bool) : Condition :=
    ⟨id, "LessThan", .hourlyStrength, .number x, none, enabled, false⟩
  let on : Group := ⟨"on", "", [below "low" 30 true, below "lower" 20 false], true, false, 1⟩
  let off : Group := ⟨"off", "", [below "low" 30 true], false, false, 1⟩
  let blank : Group := ⟨"blank", "", [], true, false, 1⟩
  Tree.empty.set .entryLong {
    containers := [⟨"open-long", "Open long", [blank, on, off], true, false, 1⟩]
    enabled := true
    minPass := 1
    onPass := .makeTrade "Long" }

theorem walks_agree_oversold :
    oversold.EachRef ValueRef.NamesOutput ∧
      oversold.compile.conditions.length = 1 ∧
      (∃ refs, oversold.usedOutputs = .ok refs ∧ .hourlyStrength ∈ refs) ∧
      ∃ parts, Summary.ofTree none oversold = .ok parts ∧ (Summary.spots parts).length = 3 := by
  obtain ⟨hcompile, -, hparts, hsummary, hused, hreads⟩ := walks_agree oversold
  have hnames : oversold.EachRef ValueRef.NamesOutput := by decide
  have hpresentable : oversold.EachRef ValueRef.Presentable := by
    have hshown : oversold.EachRef fun r => r.kind = .indicator ∧ r.window = .current := by decide +kernel
    refine (hnames.and hshown).imp fun r hr => ?_
    rw [ValueRef.Presentable, hr.2.1, hr.2.2]
    exact ⟨hr.1.showable, rfl⟩
  obtain ⟨parts, hparts⟩ := hparts.mpr hpresentable
  obtain ⟨refs, hrefs⟩ := hused.mpr (hnames.imp fun _ => ValueRef.NamesOutput.hashable)
  have hmem := ((hreads refs hrefs).2 hnames).2 .hourlyStrength
  have hlength : (Summary.spots parts).length = (oversold.conditions false).length :=
    (hsummary none parts hparts).1.length_eq.symm
  refine ⟨hnames, ?_, ⟨refs, hrefs, hmem.mpr ?_⟩, parts, hparts, ?_⟩
  · rw [hcompile, List.length_map]
    decide +kernel
  · decide +kernel
  · rw [hlength]
    decide +kernel

end Tree

end Stratagem
