import Stratagem.Proofs.Draft.RoundTrip
import Stratagem.Proofs.Quorum
import Stratagem.Proofs.Retarget
import Stratagem.Proofs.Tree.Each
import Stratagem.Proofs.Tree.Levels
import Stratagem.Summary

/-!
# Trees that are compiled and summed up

Looking references up and writing numbers down is what compilation and summaries can be refused for, and nothing else.
A lookup asks every selected indicator for its key, and the column of a reference to an indicator asks for an output
that is a text. A threshold is written down where it has to be corrected, and a window where its reference is shown.
Where there are keys and texts and what is written is not too long, everything answers; otherwise something is refused.
-/

namespace Stratagem

/-! ## Lookups -/

namespace Selection

variable {s : Selection}

/-- Columns of candles and literals are always looked up. -/
theorem isIndicator_of_resolve_error {r : ValueRef} {e : Failure} (h : s.resolve r = .error e) :
    r.kind = .indicator := by
  rw [resolve] at h
  split at h
  · cases h
  · split at h <;> cases h
  · assumption

theorem isLiteral_of_dangles {r : ValueRef} (h : s.Dangles r) : r.isLiteral = false := by
  obtain ⟨reason, h⟩ := h
  rw [ValueRef.isLiteral, beq_eq_false_iff_ne]
  intro hliteral
  rw [resolve, hliteral] at h
  cases h

/-- An output that is declared is a text. -/
theorem names_of_found {r : ValueRef} {i? : Option Indicator} {hint : Document}
    (h : s.resolve r = .ok (.found i? hint)) (hkind : r.kind = .indicator) : r.NamesOutput := by
  cases i? with
  | none => exact absurd hkind (resolve_eq_found_none h).1
  | some i =>
      obtain ⟨-, -, -, hdeclares, -⟩ := resolve_eq_found h
      obtain ⟨output, -, heq⟩ := List.any_eq_true.mp hdeclares
      exact ⟨output, eq_of_beq heq⟩

end Selection

/-- A reference has a column unless it addresses an indicator by an output that is no text. -/
theorem ValueRef.seriesKey_exists_iff (r : ValueRef) :
    (∃ column, r.seriesKey = .ok column) ↔ (r.kind = .indicator → r.NamesOutput) := by
  rw [seriesKey]
  cases hkind : r.kind with
  | literal => exact iff_of_true ⟨_, rfl⟩ (by simp)
  | field => exact iff_of_true ⟨_, rfl⟩ (by simp)
  | indicator =>
      rw [outputText]
      constructor
      · rintro ⟨column, h⟩ -
        obtain ⟨output, houtput, -⟩ := bind_eq_ok.mp h
        split at houtput
        · exact ⟨_, ‹_›⟩
        · cases houtput
      · intro h
        obtain ⟨output, houtput⟩ := h rfl
        rw [houtput]
        exact ⟨_, rfl⟩

/-- The output can be kept in a set: it is no list and no record. -/
def ValueRef.Hashable (r : ValueRef) : Prop := (∀ xs, r.output ≠ .list xs) ∧ ∀ ms, r.output ≠ .record ms

theorem ValueRef.NamesOutput.hashable {r : ValueRef} (h : r.NamesOutput) : r.Hashable := by
  obtain ⟨output, houtput⟩ := h
  rw [Hashable, houtput]
  exact ⟨nofun, nofun⟩

theorem ValueRef.parts_of_alike {r q : ValueRef} (h : r.alike q = true) :
    { r with output := .null } = { q with output := .null } :=
  of_decide_eq_true (Bool.and_eq_true_iff.mp h).1

theorem ValueRef.window_of_alike {r q : ValueRef} (h : r.alike q = true) : r.window = q.window := by
  have hwindow := congrArg ValueRef.window (parts_of_alike h)
  exact hwindow

/-! ## Repetitions -/

section Repetitions

variable {α : Type} {same : α → α → Bool}

theorem mem_of_mem_eraseDupsBy {xs : List α} {x : α} (h : x ∈ xs.eraseDupsBy same) : x ∈ xs := by
  match xs with
  | [] => exact h
  | y :: ys =>
      rw [List.eraseDupsBy_cons, List.mem_cons] at h
      rcases h with rfl | h
      · exact List.mem_cons_self
      · exact List.mem_cons_of_mem _ (List.mem_of_mem_filter (mem_of_mem_eraseDupsBy h))
termination_by xs.length
decreasing_by exact Nat.lt_succ_of_le (List.length_filter_le _ _)

/-- Of members that are the same the first is kept. -/
theorem exists_mem_eraseDupsBy {xs : List α} {x : α} (h : x ∈ xs) :
    ∃ y ∈ xs.eraseDupsBy same, y = x ∨ same x y = true := by
  match xs with
  | y :: ys =>
      rw [List.eraseDupsBy_cons]
      by_cases hsame : same x y = true
      · exact ⟨y, List.mem_cons_self, Or.inr hsame⟩
      · rcases List.mem_cons.mp h with rfl | h
        · exact ⟨x, List.mem_cons_self, Or.inl rfl⟩
        · have hkept : x ∈ ys.filter fun b => decide (same b y = false) :=
            List.mem_filter.mpr ⟨h, decide_eq_true (Bool.eq_false_of_not_eq_true hsame)⟩
          obtain ⟨z, hz, hzx⟩ := exists_mem_eraseDupsBy hkept
          exact ⟨z, List.mem_cons_of_mem _ hz, hzx⟩
termination_by xs.length
decreasing_by exact Nat.lt_succ_of_le (List.length_filter_le _ _)

/-- No two members that are kept are the same. -/
theorem pairwise_eraseDupsBy (xs : List α) : (xs.eraseDupsBy same).Pairwise fun x y => same y x = false := by
  match xs with
  | [] => exact List.Pairwise.nil
  | y :: ys =>
      rw [List.eraseDupsBy_cons, List.pairwise_cons]
      refine ⟨fun z hz => ?_, pairwise_eraseDupsBy _⟩
      exact of_decide_eq_true (List.mem_filter.mp (mem_of_mem_eraseDupsBy hz)).2
termination_by xs.length
decreasing_by exact Nat.lt_succ_of_le (List.length_filter_le _ _)

end Repetitions

/-! ## Labels -/

def Window.Writable (w : Window) : Prop := Number.isTooLong w.high = false

instance (w : Window) : Decidable w.Writable := by unfold Window.Writable; infer_instance

namespace Label

variable {s : Selection} {r : ValueRef}

/-- Of the two ends of a window the later one is the longer. -/
theorem windowNote_writesIf (w : Window) : WritesIf w.Writable (windowNote w) := by
  have hlow : w.Writable → Number.isTooLong w.low = false := fun hhigh =>
    Number.isTooLong_eq_false_iff.mpr (Nat.lt_of_le_of_lt w.low_le_high (Number.isTooLong_eq_false_iff.mp hhigh))
  rw [windowNote]
  split
  · rename_i hcurrent
    have hwritable : w.Writable := by
      rw [Window.Writable, eq_of_beq hcurrent]
      rfl
    exact (WritesIf.ok "").congr (iff_of_true trivial hwritable)
  · split
    · rename_i hsingle
      rw [Window.Writable, ← eq_of_beq hsingle]
      exact (Number.intText_writesIf _).bind_pure _
    · refine WritesIf.congr ((Number.intText_writesIf _).bind fun _ _ => (Number.intText_writesIf _).bind_pure _) ?_
      exact and_iff_right_of_imp hlow

/-- A declared output is shown by a text. -/
theorem outputHint_writable (hs : s.HasKeys) (hr : r.NamesOutput) :
    ∃ hint, s.outputHint r = .ok hint ∧ hint.Writable := by
  obtain ⟨found, hfound⟩ := Selection.find_exists hs r
  rw [Selection.outputHint, hfound, ok_bind]
  cases found with
  | none => exact ⟨_, rfl, hr.showable⟩
  | some i =>
      refine ⟨_, rfl, ?_⟩
      rw [Indicator.hint]
      split
      · trivial
      · exact hr.showable

theorem ofRef_exists_iff (hs : s.HasKeys) (hr : r.kind = .indicator → r.NamesOutput) :
    (∃ label, ofRef (some s) r = .ok label) ↔ (r.kind ≠ .literal → r.window.Writable) := by
  unfold ofRef
  dsimp only
  cases hkind : r.kind with
  | literal => exact iff_of_true ⟨_, rfl⟩ fun h => absurd rfl h
  | field =>
      rw [forall_prop_of_true nofun]
      exact ((windowNote_writesIf _).bind_pure _).exists_ok_iff
  | indicator =>
      obtain ⟨hint, hhint, hwritable⟩ := outputHint_writable hs (hr hkind)
      obtain ⟨shown, hshown⟩ := (Document.display_writesIf hint).exists_ok hwritable
      rw [forall_prop_of_true nofun, outputHint, hhint, ok_bind, hshown, ok_bind]
      exact ((windowNote_writesIf _).bind_pure _).exists_ok_iff

/-- A reference that dangles is labelled by its column. One that does not is shown with its window, and has an output
that is declared, and so is a text. -/
theorem ofSeries_exists_iff (hs : s.HasKeys) (r : ValueRef) :
    (∃ label, ofSeries (some s) r = .ok label) ↔ (r.kind = .indicator → r.NamesOutput) ∧
      (r.kind ≠ .literal → ¬ s.Dangles r → r.window.Writable) := by
  rw [ofSeries]
  cases hresolve : s.resolve r with
  | error e =>
      -- only an output that is no text can fail to be looked up
      have hkind : r.kind = .indicator := Selection.isIndicator_of_resolve_error hresolve
      refine iff_of_false ?_ ?_
      · rintro ⟨_, hlabel⟩
        cases hlabel
      · rintro ⟨hnames, -⟩
        obtain ⟨resolution, hok⟩ := Selection.resolve_exists hs (hnames hkind).showable
        rw [hresolve] at hok
        cases hok
  | ok resolution =>
      rw [ok_bind]
      cases resolution with
      | dangling reason =>
          have hdangles : s.Dangles r := ⟨reason, hresolve⟩
          have hshown : (!r.isLiteral && (Resolution.dangling reason).isDangling) = true := by
            rw [Selection.isLiteral_of_dangles hdangles]
            rfl
          rw [if_pos hshown, r.seriesKey_exists_iff]
          exact (and_iff_left fun _ h => absurd hdangles h).symm
      | found i? hint =>
          have hfound : ¬ s.Dangles r := by
            rintro ⟨reason, hreason⟩
            rw [hresolve] at hreason
            cases hreason
          have hnames : r.kind = .indicator → r.NamesOutput := Selection.names_of_found hresolve
          have hshown : ¬ (!r.isLiteral && (Resolution.found i? hint).isDangling) = true := by
            simp [Resolution.isDangling]
          rw [if_neg hshown, ofRef_exists_iff hs hnames, and_iff_right hnames, forall_prop_of_true hfound]

end Label

/-! ## Summaries -/

namespace Summary

variable {selection? : Option Selection}

def Labelled (selection? : Option Selection) (r : ValueRef) : Prop :=
  ∃ label, Label.ofSeries selection? r = .ok label

theorem ofOperand_exists_iff (o : Operand) :
    (∃ label, Label.ofOperand selection? o = .ok label) ↔ o.EachRef (Labelled selection?) := by
  cases o with
  | ref r => exact Iff.rfl
  | number x => exact iff_of_true ⟨_, rfl⟩ trivial

theorem line_exists_iff (c : Condition) :
    (∃ text, line selection? c = .ok text) ↔ c.EachRef (Labelled selection?) :=
  bind_pure_exists_iff.trans <| bind_pure_exists_iff.trans <| mapM_exists_iff.trans <|
    forall₂_congr fun o _ => ofOperand_exists_iff o

theorem ofGroup_exists_iff (n : Nat) (g : Stratagem.Group) :
    (∃ group, ofGroup selection? n g = .ok group) ↔ g.EachRef (Labelled selection?) :=
  bind_pure_exists_iff.trans <| mapM_exists_iff.trans <| forall₂_congr fun c _ => line_exists_iff c

/-- A group without conditions is left out, and has no references. -/
theorem ofGroups_exists_iff (n : Nat) (gs : List Stratagem.Group) :
    (∃ groups, ofGroups selection? n gs = .ok groups) ↔ ∀ g ∈ gs, g.EachRef (Labelled selection?) := by
  induction gs generalizing n with
  | nil => exact iff_of_true ⟨[], rfl⟩ (List.forall_mem_nil _)
  | cons g gs ih =>
      rw [ofGroups, List.forall_mem_cons, ← ih (n + 1)]
      split
      · rename_i hempty
        refine (and_iff_right fun c hc => ?_).symm
        rw [List.isEmpty_iff.mp hempty] at hc
        cases hc
      · rw [← ofGroup_exists_iff n g]
        constructor
        · rintro ⟨groups, h⟩
          obtain ⟨group, hgroup, h⟩ := bind_eq_ok.mp h
          obtain ⟨rest, hrest, -⟩ := bind_eq_ok.mp h
          exact ⟨⟨group, hgroup⟩, rest, hrest⟩
        · rintro ⟨⟨group, hgroup⟩, rest, hrest⟩
          rw [hgroup, ok_bind, hrest]
          exact ⟨_, rfl⟩

theorem ofContainer_exists_iff (slot : Slot) (b : Branch) (c : Container) :
    (∃ part, ofContainer selection? slot b c = .ok part) ↔ c.EachRef (Labelled selection?) :=
  bind_pure_exists_iff.trans (ofGroups_exists_iff 1 c.groups)

theorem ofBranch_exists_iff (slot : Slot) (b : Branch) :
    (∃ parts, ofBranch selection? (slot, b) = .ok parts) ↔ b.EachRef (Labelled selection?) :=
  bind_pure_exists_iff.trans <| mapM_exists_iff.trans <|
    forall₂_congr fun c _ => ofContainer_exists_iff slot b c

/-- A tree is summed up if every reference of it has a label, switched on or not. -/
theorem ofTree_exists_iff (t : Tree) :
    (∃ sections, ofTree selection? t = .ok sections) ↔ t.EachRef (Labelled selection?) := by
  refine bind_pure_exists_iff.trans (mapM_exists_iff.trans (PerSlot.forall_mem_toList.trans ?_))
  exact forall_congr' fun slot => ofBranch_exists_iff slot _

end Summary

/-! ## Compilation -/

namespace Tree

variable {p : ValueRef → Prop} {t : Tree} {s : Selection}

/-- What holds of every reference holds of those of a condition that is visited. -/
theorem EachRef.condition (h : t.EachRef p) {enabledOnly : Bool} :
    ∀ entry ∈ t.conditions enabledOnly, entry.2.EachRef p := by
  have heach : t.Each (Condition.EachRef p) := h
  exact heach.condition

theorem EachRef.series (h : t.EachRef p) {enabledOnly : Bool} : ∀ entry ∈ t.series enabledOnly, p entry.2 := by
  intro entry hentry
  obtain ⟨visit, hvisit, hentry⟩ := List.mem_flatMap.mp hentry
  obtain ⟨⟨position, o⟩, ho, hentry⟩ := List.mem_filterMap.mp hentry
  obtain ⟨r, hr, rfl⟩ := Option.map_eq_some_iff.mp hentry
  have hp : o.EachRef p := h.condition visit hvisit o (List.of_mem_zip ho).2
  cases o with
  | number x => cases hr
  | ref q =>
      unfold Operand.series? at hr
      dsimp only at hr
      split at hr
      · cases hr
      · cases hr
        exact hp

/-- Each operand is looked up. -/
theorem dangling_exists_iff {enabledOnly : Bool} : (∃ ds, t.dangling enabledOnly s = .ok ds) ↔
    ∀ entry ∈ t.series enabledOnly, ∃ resolution, s.resolve entry.2 = .ok resolution := by
  refine bind_pure_exists_iff.trans (mapM_exists_iff.trans (forall₂_congr fun entry _ => ?_))
  rw [danglingAt]
  constructor
  · rintro ⟨d?, hd⟩
    obtain ⟨resolution, hresolve, -⟩ := bind_eq_ok.mp hd
    exact ⟨resolution, hresolve⟩
  · rintro ⟨resolution, hresolve⟩
    rw [hresolve, ok_bind]
    cases resolution <;> exact ⟨_, rfl⟩

theorem dangling_exists (hs : s.HasKeys) {enabledOnly : Bool}
    (h : ∀ entry ∈ t.series enabledOnly, entry.2.kind = .indicator → entry.2.Showable) :
    ∃ ds, t.dangling enabledOnly s = .ok ds := by
  refine dangling_exists_iff.mpr fun entry hentry => ?_
  cases hresolve : s.resolve entry.2 with
  | ok resolution => exact ⟨resolution, rfl⟩
  | error e =>
      have hshow := h entry hentry (Selection.isIndicator_of_resolve_error hresolve)
      exact hresolve ▸ Selection.resolve_exists hs hshow

/-- The operands that point at nothing are listed, each once and in order. -/
theorem dangling_listed {enabledOnly : Bool} {ds : List DanglingOperand} (hds : t.dangling enabledOnly s = .ok ds) :
    List.Forall₂ (fun entry d => d.path = entry.1 ∧ d.ref = entry.2 ∧ s.resolve entry.2 = .ok (.dangling d.reason))
      ((t.series enabledOnly).filter fun entry => s.Dangles entry.2) ds := by
  obtain ⟨found, hfound, hds⟩ := bind_eq_ok.mp hds
  cases hds
  rw [← List.filterMap_eq_filter]
  refine List.rel_filterMap (fun entry d? hat => ?_) (mapM_eq_ok.mp hfound)
  obtain ⟨resolution, hresolve, hat⟩ := bind_eq_ok.mp hat
  cases resolution with
  | found i? hint =>
      cases hat
      have hnot : ¬ s.Dangles entry.2 := by
        rintro ⟨reason, hreason⟩
        rw [hresolve] at hreason
        cases hreason
      rw [Option.guard, if_neg (by simpa using hnot)]
      exact .none
  | dangling reason =>
      cases hat
      have hdangles : s.Dangles entry.2 := ⟨reason, hresolve⟩
      rw [Option.guard, if_pos (decide_eq_true hdangles)]
      exact .some ⟨rfl, rfl, hresolve⟩

/-- What dangles is what stands in the tree and resolves to nothing. -/
theorem mem_dangling_iff {enabledOnly : Bool} {ds : List DanglingOperand}
    (hds : t.dangling enabledOnly s = .ok ds) {d : DanglingOperand} :
    d ∈ ds ↔ (d.path, d.ref) ∈ t.series enabledOnly ∧ s.resolve d.ref = .ok (.dangling d.reason) := by
  have hlisted := dangling_listed hds
  constructor
  · intro hd
    obtain ⟨entry, hentry, hpath, href, hresolve⟩ := exists_left hlisted d hd
    rw [hpath, href]
    exact ⟨List.mem_of_mem_filter hentry, hresolve⟩
  · rintro ⟨hentry, hresolve⟩
    obtain ⟨⟨path, ref, reason⟩, hmem, rfl, rfl, hfound⟩ :=
      exists_left hlisted.flip _ (List.mem_filter.mpr ⟨hentry, decide_eq_true ⟨d.reason, hresolve⟩⟩)
    rw [hresolve] at hfound
    cases hfound
    exact hmem

theorem EachRef.dangling (h : t.EachRef p) {enabledOnly : Bool} {ds : List DanglingOperand}
    (hds : t.dangling enabledOnly s = .ok ds) : ∀ d ∈ ds, p d.ref :=
  fun _ hd => h.series _ ((mem_dangling_iff hds).mp hd).1

/-- Outputs are compared to drop repetitions, switched on or not, and lists and records cannot be. -/
theorem usedOutputs_exists_iff : (∃ refs, t.usedOutputs = .ok refs) ↔ t.EachRef ValueRef.Hashable := by
  have hnone : (∃ refs, t.usedOutputs = .ok refs) ↔ t.unhashable? = none := by
    rw [usedOutputs]
    cases t.unhashable? with
    | none => exact iff_of_true ⟨_, rfl⟩ rfl
    | some d => exact iff_of_false nofun nofun
  have heach : t.EachRef ValueRef.Hashable ↔ t.Each (Condition.EachRef ValueRef.Hashable) := Iff.rfl
  rw [hnone, unhashable?, List.findSome?_eq_none_iff, heach, each_iff_conditions]
  refine forall₂_congr fun entry _ => List.findSome?_eq_none_iff.trans (forall₂_congr fun o _ => ?_)
  cases o with
  | number x => exact iff_of_true rfl trivial
  | ref r =>
      show _ ↔ (∀ xs, r.output ≠ .list xs) ∧ ∀ ms, r.output ≠ .record ms
      dsimp only
      generalize r.output = output
      cases output <;> simp

theorem usedOutputs_exists (h : t.EachRef ValueRef.NamesOutput) : ∃ refs, t.usedOutputs = .ok refs :=
  usedOutputs_exists_iff.mpr (h.imp fun _ => ValueRef.NamesOutput.hashable)

theorem readsAny_exists {i : Indicator} (hi : ∃ key, i.key = .ok key) (refs : List ValueRef) :
    ∃ read, readsAny i refs = .ok read := by
  induction refs with
  | nil => exact ⟨false, rfl⟩
  | cons r refs ih =>
      obtain ⟨b, hb⟩ := Edit.matches?_exists hi r
      rw [readsAny, hb, ok_bind]
      cases b with
      | true => exact ⟨true, rfl⟩
      | false => exact ih

theorem readsAny_iff {i : Indicator} {refs : List ValueRef} {read : Bool} (h : readsAny i refs = .ok read) :
    read = true ↔ ∃ r ∈ refs, Edit.Addresses r i := by
  induction refs with
  | nil =>
      cases h
      simp
  | cons r refs ih =>
      obtain ⟨b, hb, h⟩ := bind_eq_ok.mp h
      rw [List.exists_mem_cons_iff, ← Edit.matches?_iff hb]
      cases b with
      | true =>
          cases h
          simp
      | false =>
          rw [ih h]
          simp

theorem unreadAmong_exists {is : List Indicator} (his : ∀ i ∈ is, ∃ key, i.key = .ok key) (refs : List ValueRef) :
    ∃ unread, unreadAmong refs is = .ok unread := by
  induction is with
  | nil => exact ⟨[], rfl⟩
  | cons i is ih =>
      obtain ⟨hi, his⟩ := List.forall_mem_cons.mp his
      obtain ⟨read, hread⟩ := readsAny_exists hi refs
      obtain ⟨unread, hunread⟩ := ih his
      rw [unreadAmong, hread, ok_bind, hunread]
      exact ⟨_, rfl⟩

theorem unreadAmong_eq_filter {is unread : List Indicator} {refs : List ValueRef}
    (h : unreadAmong refs is = .ok unread) : unread = is.filter fun i => ∀ r ∈ refs, ¬ Edit.Addresses r i := by
  induction is generalizing unread with
  | nil =>
      cases h
      rfl
  | cons i is ih =>
      obtain ⟨read, hread, h⟩ := bind_eq_ok.mp h
      obtain ⟨rest, hrest, h⟩ := bind_eq_ok.mp h
      cases h
      have hiff := readsAny_iff hread
      rw [List.filter_cons, ← ih hrest]
      cases read with
      | true =>
          obtain ⟨r, hr, haddresses⟩ := hiff.mp rfl
          rw [if_pos rfl, if_neg (by simpa using ⟨r, hr, haddresses⟩)]
      | false =>
          have hnone : ∀ r ∈ refs, ¬ Edit.Addresses r i := fun r hr haddresses =>
            Bool.false_ne_true (hiff.mpr ⟨r, hr, haddresses⟩)
          rw [if_neg Bool.false_ne_true, if_pos (decide_eq_true hnone)]

/-- What is looked up for a compilation, in its order. -/
theorem compileWith_eq_ok {c : Compilation} : t.compileWith (some s) = .ok c ↔
    ∃ levels ds dangling refs unread unused, Diagnostic.ofLevels t = .ok levels ∧
    t.dangling true s = .ok ds ∧ ds.mapM Diagnostic.ofDangling = .ok dangling ∧ t.usedOutputs = .ok refs ∧
    unreadAmong refs s.indicators = .ok unread ∧ unread.mapM Diagnostic.ofUnused = .ok unused ∧
    c = ⟨t.compile, levels ++ (dangling ++ unused)⟩ := by
  constructor
  · intro h
    obtain ⟨levels, hlevels, h⟩ := bind_eq_ok.mp h
    obtain ⟨found, hfound, h⟩ := bind_eq_ok.mp h
    obtain ⟨ds, hds, hfound⟩ := bind_eq_ok.mp hfound
    obtain ⟨dangling, hdangling, hfound⟩ := bind_eq_ok.mp hfound
    obtain ⟨unread, hunread, hfound⟩ := bind_eq_ok.mp hfound
    obtain ⟨refs, hrefs, hunread⟩ := bind_eq_ok.mp hunread
    obtain ⟨unused, hunused, hfound⟩ := bind_eq_ok.mp hfound
    cases hfound
    cases h
    exact ⟨levels, ds, dangling, refs, unread, unused, hlevels, hds, hdangling, hrefs, hunread, hunused, rfl⟩
  · rintro ⟨levels, ds, dangling, refs, unread, unused, hlevels, hds, hdangling, hrefs, hunread, hunused, rfl⟩
    have hnone : t.unused s = .ok unread := bind_eq_ok.mpr ⟨refs, hrefs, hunread⟩
    have hfound : Diagnostic.ofSelection t s = .ok (dangling ++ unused) := by
      rw [Diagnostic.ofSelection, hds, ok_bind, hdangling, ok_bind, hnone, ok_bind, hunused]
      rfl
    rw [compileWith, hlevels, ok_bind]
    dsimp only
    rw [hfound]
    rfl

/-- A tree is compiled only if every indicator has a key: one that is read was asked for it, and one that nothing reads
is reported by it. -/
theorem hasKeys_of_compileWith {c : Compilation} (h : t.compileWith (some s) = .ok c) : s.HasKeys := by
  obtain ⟨-, -, -, refs, unread, unused, -, -, -, -, hunread, hunused, -⟩ := compileWith_eq_ok.mp h
  intro i hi
  by_cases hnone : ∀ r ∈ refs, ¬ Edit.Addresses r i
  · have hmem : i ∈ unread := by
      rw [unreadAmong_eq_filter hunread]
      exact List.mem_filter.mpr ⟨hi, decide_eq_true hnone⟩
    obtain ⟨d, hd⟩ := exists_of_mapM hunused i hmem
    exact bind_pure_exists_iff.mp ⟨d, hd⟩
  · simp only [not_forall, not_not] at hnone
    obtain ⟨r, -, haddresses⟩ := hnone
    exact ⟨_, haddresses.2⟩

/-- A tree is compiled only if what it reads of indicators is named by texts: an output that is declared is one, and
what dangles is reported by its column. -/
theorem names_of_compileWith {c : Compilation} (h : t.compileWith (some s) = .ok c) :
    ∀ entry ∈ t.series true, entry.2.kind = .indicator → entry.2.NamesOutput := by
  intro entry hentry hkind
  obtain ⟨-, ds, dangling, -, -, -, -, hds, hdangling, -⟩ := compileWith_eq_ok.mp h
  obtain ⟨resolution, hresolve⟩ := dangling_exists_iff.mp ⟨ds, hds⟩ entry hentry
  cases resolution with
  | found i? hint => exact Selection.names_of_found hresolve hkind
  | dangling reason =>
      have hmem : ⟨entry.1, entry.2, reason⟩ ∈ ds := (mem_dangling_iff hds).mpr ⟨hentry, hresolve⟩
      obtain ⟨d, hd⟩ := exists_of_mapM hdangling _ hmem
      obtain ⟨column, hcolumn, -⟩ := bind_eq_ok.mp hd
      exact entry.2.seriesKey_exists_iff.mp ⟨column, hcolumn⟩ hkind

/-- Where every indicator has a key, a tree is compiled exactly if what has to be said of its levels can be said, no
output of it is a list or a record, and what it reads of indicators is named by texts. -/
theorem compileWith_exists_iff (hs : s.HasKeys) : (∃ c, t.compileWith (some s) = .ok c) ↔
    t.Tellable ∧ t.EachRef ValueRef.Hashable ∧
      ∀ entry ∈ t.series true, entry.2.kind = .indicator → entry.2.NamesOutput := by
  constructor
  · rintro ⟨c, hc⟩
    obtain ⟨levels, -, -, refs, -, -, hlevels, -, -, hrefs, -⟩ := compileWith_eq_ok.mp hc
    exact ⟨(ofLevels_eq_ok.mp hlevels).1, usedOutputs_exists_iff.mp ⟨refs, hrefs⟩, names_of_compileWith hc⟩
  · rintro ⟨htell, hhashable, hnames⟩
    have hlevels : Diagnostic.ofLevels t = .ok (t.levels.filterMap Level.finding) := ofLevels_eq_ok.mpr ⟨htell, rfl⟩
    obtain ⟨ds, hds⟩ := dangling_exists hs fun entry hentry hkind => (hnames entry hentry hkind).showable
    obtain ⟨dangling, hdangling⟩ : ∃ dangling, ds.mapM Diagnostic.ofDangling = .ok dangling := by
      refine mapM_exists fun d hd => bind_pure_exists_iff.mpr ?_
      exact d.ref.seriesKey_exists_iff.mpr (hnames _ ((mem_dangling_iff hds).mp hd).1)
    obtain ⟨refs, hrefs⟩ := usedOutputs_exists_iff.mpr hhashable
    obtain ⟨unread, hunread⟩ := unreadAmong_exists hs refs
    obtain ⟨unused, hunused⟩ : ∃ unused, unread.mapM Diagnostic.ofUnused = .ok unused := by
      refine mapM_exists fun i hi => bind_pure_exists_iff.mpr ?_
      rw [unreadAmong_eq_filter hunread] at hi
      exact hs i (List.mem_of_mem_filter hi)
    exact ⟨_, compileWith_eq_ok.mpr
      ⟨_, ds, dangling, refs, unread, unused, hlevels, hds, hdangling, hrefs, hunread, hunused, rfl⟩⟩

/-! ## Answers -/

theorem usedOutputs_eq {refs : List ValueRef} (h : t.usedOutputs = .ok refs) :
    refs = (((t.series true).map (·.2)).filter (·.isIndicator)).eraseDupsBy ValueRef.alike := by
  rw [usedOutputs] at h
  split at h
  · cases h
  · exact (Except.ok.inj h).symm

theorem mem_of_mem_usedOutputs {refs : List ValueRef} (hrefs : t.usedOutputs = .ok refs) {r : ValueRef}
    (hr : r ∈ refs) : r.isIndicator = true ∧ ∃ entry ∈ t.series true, entry.2 = r := by
  rw [usedOutputs_eq hrefs] at hr
  obtain ⟨hr, hkind⟩ := List.mem_filter.mp (mem_of_mem_eraseDupsBy hr)
  exact ⟨hkind, List.mem_map.mp hr⟩

/-- Every output that is read is kept, or one that is alike. -/
theorem exists_mem_usedOutputs {refs : List ValueRef} (hrefs : t.usedOutputs = .ok refs) {entry : Path × ValueRef}
    (hentry : entry ∈ t.series true) (hkind : entry.2.isIndicator = true) :
    ∃ r ∈ refs, r = entry.2 ∨ entry.2.alike r = true := by
  rw [usedOutputs_eq hrefs]
  exact exists_mem_eraseDupsBy (List.mem_filter.mpr ⟨List.mem_map_of_mem hentry, hkind⟩)

/-- What does not tell outputs apart that are alike holds of all that are read if it holds of those that are kept. -/
theorem forall_mem_usedOutputs (hp : ∀ r q, r.alike q = true → p q → p r) {refs : List ValueRef}
    (hrefs : t.usedOutputs = .ok refs) :
    (∀ r ∈ refs, p r) ↔ ∀ entry ∈ t.series true, entry.2.isIndicator = true → p entry.2 := by
  constructor
  · intro h entry hentry hkind
    obtain ⟨r, hr, heq | halike⟩ := exists_mem_usedOutputs hrefs hentry hkind
    · exact heq ▸ h r hr
    · exact hp _ _ halike (h r hr)
  · intro h r hr
    obtain ⟨hkind, entry, hentry, rfl⟩ := mem_of_mem_usedOutputs hrefs hr
    exact h entry hentry hkind

/-- Every window that is shown can be: those of references that point at something, and those of the outputs of
indicators that live conditions read. -/
structure WindowsWritable (t : Tree) (s : Selection) : Prop where
  resolved : t.EachRef fun r => r.kind ≠ .literal → ¬ s.Dangles r → r.window.Writable
  used : ∀ entry ∈ t.series true, entry.2.isIndicator = true → entry.2.window.Writable

instance (t : Tree) (s : Selection) : Decidable (t.WindowsWritable s) :=
  decidable_of_iff (_ ∧ _) ⟨fun h => ⟨h.1, h.2⟩, fun h => ⟨h.1, h.2⟩⟩

theorem usedLabels_exists_iff (hs : s.HasKeys) (h : t.EachRef ValueRef.NamesOutput) :
    (∃ labels, Summary.usedLabels (some s) t = .ok labels) ↔
      ∀ entry ∈ t.series true, entry.2.isIndicator = true → entry.2.window.Writable := by
  obtain ⟨refs, hrefs⟩ := usedOutputs_exists h
  have hread : (∀ r ∈ refs, r.window.Writable) ↔
      ∀ entry ∈ t.series true, entry.2.isIndicator = true → entry.2.window.Writable :=
    forall_mem_usedOutputs (fun r q halike hq => (ValueRef.window_of_alike halike).symm ▸ hq) hrefs
  have hlabel : ∀ r ∈ refs, (∃ label, Label.ofRef (some s) r = .ok label) ↔ r.window.Writable := by
    intro r hr
    obtain ⟨hkind, entry, hentry, rfl⟩ := mem_of_mem_usedOutputs hrefs hr
    have hliteral : entry.2.kind ≠ .literal := by
      rw [eq_of_beq hkind]
      intro hkind
      cases hkind
    rw [Label.ofRef_exists_iff hs fun _ => h.series entry hentry, forall_prop_of_true hliteral]
  rw [Summary.usedLabels, hrefs, ok_bind, bind_pure_exists_iff, mapM_exists_iff, forall₂_congr hlabel, hread]

/-- Compiling the tree, summing it up and labelling what it reads all answer. -/
structure Answers (t : Tree) (s : Selection) : Prop where
  compilation : ∃ c, t.compileWith (some s) = .ok c
  summary : ∃ sections, Summary.ofTree (some s) t = .ok sections
  labels : ∃ labels, Summary.usedLabels (some s) t = .ok labels

/-- Where nothing but a reference to an indicator can name an output otherwise than by a text, a tree answers
exactly if every indicator has a key, every output is named by a text, and what is written down is not too long. -/
theorem answers_iff (hplain : t.EachRef fun r => r.kind ≠ .indicator → r.NamesOutput) :
    t.Answers s ↔ s.HasKeys ∧ t.EachRef ValueRef.NamesOutput ∧ t.Tellable ∧ t.WindowsWritable s := by
  constructor
  · intro h
    obtain ⟨c, hc⟩ := h.compilation
    have hs := hasKeys_of_compileWith hc
    have hlabelled : t.EachRef fun r => (r.kind = .indicator → r.NamesOutput) ∧
        (r.kind ≠ .literal → ¬ s.Dangles r → r.window.Writable) :=
      ((Summary.ofTree_exists_iff t).mp h.summary).imp fun r => (Label.ofSeries_exists_iff hs r).mp
    have hnames : t.EachRef ValueRef.NamesOutput := by
      refine (hplain.and hlabelled).imp fun r hr => ?_
      by_cases hkind : r.kind = .indicator
      · exact hr.2.1 hkind
      · exact hr.1 hkind
    exact ⟨hs, hnames, ((compileWith_exists_iff hs).mp h.compilation).1,
      hlabelled.imp fun r hr => hr.2, (usedLabels_exists_iff hs hnames).mp h.labels⟩
  · rintro ⟨hs, h, htell, hwindows⟩
    refine ⟨(compileWith_exists_iff hs).mpr ⟨htell, ?_, ?_⟩, (Summary.ofTree_exists_iff t).mpr ?_,
      (usedLabels_exists_iff hs h).mpr hwindows.used⟩
    · exact h.imp fun _ => ValueRef.NamesOutput.hashable
    · exact fun entry hentry _ => h.series entry hentry
    · exact (h.and hwindows.resolved).imp fun r hr => (Label.ofSeries_exists_iff hs r).mpr ⟨fun _ => hr.1, hr.2⟩

end Tree

/-! ## Drafts -/

/-- A reference can be made if the window of its indicator starts at or after the current bar and does not end
before it starts. -/
theorem Window.ofInts_exists_iff (low high : Int) :
    (∃ w, Window.ofInts low high = .ok w) ↔ 0 ≤ low ∧ low ≤ high := by
  rw [ofInts]
  split
  · rename_i hneg
    simp only [Bool.or_eq_true, decide_eq_true_eq] at hneg
    refine iff_of_false ?_ (by omega)
    rintro ⟨w, hw⟩
    exact bind_ne_ok (fun _ => bind_throw_ne_ok) hw
  · rename_i hpos
    simp only [Bool.or_eq_true, decide_eq_true_eq] at hpos
    split
    · exact iff_of_true ⟨_, rfl⟩ (by omega)
    · refine iff_of_false ?_ (by omega)
      rintro ⟨w, hw⟩
      exact bind_ne_ok (fun _ => bind_throw_ne_ok) hw

theorem Indicator.Sound.key_exists_iff {i : Indicator} (h : i.Sound) :
    (∃ key, i.key = .ok key) ↔ 0 ≤ i.offset.1 ∧ i.offset.1 ≤ i.offset.2 := by
  rw [← Window.ofInts_exists_iff, Indicator.key, bind_pure_exists_iff]
  constructor
  · rintro ⟨r, hr⟩
    obtain ⟨window, hwindow, -⟩ := ValueRef.make_eq_ok.mp hr
    exact ⟨window, hwindow⟩
  · rintro ⟨window, hwindow⟩
    refine ⟨_, ValueRef.make_eq_ok.mpr ⟨window, hwindow, ?_, rfl⟩⟩
    refine Bool.eq_false_of_not_eq_true fun hempty => ?_
    have hcode := h.code
    rw [String.isEmpty_iff.mp hempty] at hcode
    exact absurd hcode (by decide)

namespace Draft

/-- Only a reference to an indicator can name its output otherwise than by a text. -/
def PlainOutput (r : ValueRef) : Prop := r.kind ≠ .indicator → r.NamesOutput

section Reading

variable {s : Selection}

theorem make_plain {kind : RefKind} {indicator timeframe input calcMode : String} {params : List Float}
    {output : Document} {low high : Int} {r : ValueRef}
    (houtput : kind ≠ .indicator → output = .null)
    (h : ValueRef.make kind indicator timeframe input params output low high calcMode = .ok r) : PlainOutput r := by
  obtain ⟨window, -, -, rfl⟩ := ValueRef.make_eq_ok.mp h
  intro hkind
  rw [ValueRef.normal, houtput hkind]
  exact ⟨_, rfl⟩

theorem withOffset_plain {r q : ValueRef} (hr : PlainOutput r) {low high : Int} (h : r.withOffset low high = .ok q) :
    PlainOutput q := by
  obtain ⟨window, -, h⟩ := bind_eq_ok.mp h
  cases h
  exact hr

theorem readOperand_plain {place : String} {raw : Document} {o : Operand} (h : readOperand s place raw = .ok o) :
    o.EachRef PlainOutput := by
  refine readOperand_eachRef (fun id output offset r hr => ?_) (fun _ _ => make_plain fun _ => rfl)
    (fun ms name r hr => ?_) (fun _ _ hr _ => (ValueRef.ofDocument_admissible hr).2) h
  · rw [readIndicator] at hr
    split at hr
    · cases hr
    · obtain ⟨q, hq, hr⟩ := bind_eq_ok.mp hr
      have hplain : PlainOutput q := make_plain (fun hkind => absurd rfl hkind) hq
      split at hr
      · cases hr
        exact hplain
      · obtain ⟨ends, -, hr⟩ := bind_eq_ok.mp hr
        exact withOffset_plain hplain hr
  · obtain ⟨ends, -, hr⟩ := bind_eq_ok.mp hr
    obtain ⟨field, -, hr⟩ := bind_eq_ok.mp hr
    obtain ⟨timeframe, -, hr⟩ := bind_eq_ok.mp hr
    obtain ⟨q, hq, hr⟩ := bind_eq_ok.mp hr
    exact withOffset_plain (make_plain (fun _ => rfl) hq) hr

end Reading

/-- **What is compiled of a draft that was read.** Compilation, the summary and the labels all answer exactly if no
selected indicator has a window that starts in the future or ends before it starts, every reference of the tree names
its output by a text, and neither a threshold that has to be corrected nor a window that is shown is too long to be
written. -/
theorem ofDocument_answers_iff {base : Except Failure Trade} {raw : Document} {d : Draft}
    (h : ofDocument base raw = .ok d) :
    d.tree.Answers d.selection ↔
      (∀ i ∈ d.selection.indicators, 0 ≤ i.offset.1 ∧ i.offset.1 ≤ i.offset.2) ∧
        d.tree.EachRef ValueRef.NamesOutput ∧ d.tree.Tellable ∧ d.tree.WindowsWritable d.selection := by
  have hkeys : d.selection.HasKeys ↔ ∀ i ∈ d.selection.indicators, 0 ≤ i.offset.1 ∧ i.offset.1 ≤ i.offset.2 :=
    forall₂_congr fun i hi => ((sound_of_ofDocument h).1 i hi).1.key_exists_iff
  obtain ⟨ms, -, -, htree, -⟩ := ofDocument_eq_ok.mp h
  rw [← hkeys]
  exact Tree.answers_iff (readTree_eachRef (fun _ _ _ => readOperand_plain) (fun x _ => ⟨_, rfl⟩) htree)

theorem ofDocument_answers_everyForm : ∃ d, ofDocument (.ok (.ofSettings quiet)) everyForm = .ok d ∧
    d.tree.Answers d.selection := by
  have hrun : (do
      let d ← ofDocument (.ok (.ofSettings quiet)) everyForm
      return decide ((∀ i ∈ d.selection.indicators, 0 ≤ i.offset.1 ∧ i.offset.1 ≤ i.offset.2) ∧
        d.tree.EachRef ValueRef.NamesOutput ∧ d.tree.Tellable ∧
        d.tree.WindowsWritable d.selection)).toOption = some true := by
    decide +kernel
  obtain ⟨d, hd, hsound⟩ := bind_eq_ok.mp (eq_ok_of_toOption hrun)
  exact ⟨d, hd, (ofDocument_answers_iff hd).mpr (of_decide_eq_true (Except.ok.inj hsound))⟩

end Draft

end Stratagem
