import Mathlib.Data.List.TakeWhile
import Mathlib.Logic.Relation
import Stratagem.Proofs.Tree.Edit

/-!
# Required nodes come first

A node that is made required moves to the top of its siblings; one that is required no more stays where it is.
So the required nodes come first as long as no edit `demotes` one of them that stands above another, and the
edit that does so ends it.
-/

namespace Stratagem

/-! ## Ordered trees -/

/-- No node that is not required stands in front of a required one. -/
def RequiredFirst {α : Type} [Flagged α] (items : List α) : Prop :=
  items.Pairwise fun a b => required b = true → required a = true

/-- Siblings in order, each with what is below it. -/
structure Ranked {α : Type} [Flagged α] (p : α → Prop) (items : List α) : Prop where
  first : RequiredFirst items
  each : ∀ a ∈ items, p a

def Group.Ordered (g : Group) : Prop := RequiredFirst g.conditions

def Container.Ordered (c : Container) : Prop := Ranked Group.Ordered c.groups

def Branch.Ordered (b : Branch) : Prop := Ranked Container.Ordered b.containers

def Tree.Ordered (t : Tree) : Prop := ∀ slot, (t.get slot).Ordered

/-! ## Siblings -/

namespace RequiredFirst

variable {α : Type} [Flagged α] {items items' pre post : List α} {a b : α}

theorem sublist (h : RequiredFirst items) (hsub : items'.Sublist items) : RequiredFirst items' :=
  List.Pairwise.sublist hsub h

/-- A required node may stand at the top. -/
theorem top (h : RequiredFirst items) (ha : required a = true) : RequiredFirst (a :: items) :=
  List.pairwise_cons.mpr ⟨fun _ _ _ => ha, h⟩

theorem without (h : RequiredFirst (pre ++ a :: post)) : RequiredFirst (pre ++ post) :=
  h.sublist ((List.sublist_cons_self a post).append_left pre)

/-- A node that is not required may stand in front of no required one. -/
theorem middle (ha : required a = false) :
    RequiredFirst (pre ++ a :: post) ↔ RequiredFirst (pre ++ post) ∧ ∀ x ∈ post, required x = false := by
  constructor
  · intro h
    refine ⟨h.without, ?_⟩
    intro x hx
    have hbehind := (List.pairwise_cons.mp (List.pairwise_append.mp h).2.1).1 x hx
    rw [ha] at hbehind
    simpa using hbehind
  · rintro ⟨h, hnone⟩
    obtain ⟨hpre, hpost, hacross⟩ := List.pairwise_append.mp h
    refine List.pairwise_append.mpr ⟨hpre, List.pairwise_cons.mpr ⟨?_, hpost⟩, ?_⟩
    · intro x hx hreq
      rw [hnone x hx] at hreq
      cases hreq
    · intro x hx y hy hreq
      rcases List.mem_cons.mp hy with rfl | hy
      · rw [ha] at hreq
        cases hreq
      · exact hacross x hx y hy hreq

/-- A node that is not required may stand at the end. -/
theorem bottom (h : RequiredFirst items) (ha : required a = false) : RequiredFirst (items ++ [a]) := by
  rw [middle ha, List.append_nil]
  exact ⟨h, nofun⟩

/-- A node that is required no more, or never was, in the place of `a`. -/
theorem demoted (h : RequiredFirst (pre ++ a :: post)) (hb : required b = false) :
    RequiredFirst (pre ++ b :: post) ↔ (required a && post.any required) = false := by
  rw [middle hb]
  cases ha : required a with
  | false =>
      -- no required node stood behind `a`
      exact iff_of_true ((middle ha).mp h) rfl
  | true =>
      rw [Bool.true_and, List.any_eq_false]
      constructor
      · rintro ⟨-, hnone⟩ x hx
        rw [hnone x hx]
        exact Bool.false_ne_true
      · intro hnone
        exact ⟨h.without, fun x hx => by simpa using hnone x hx⟩

/-- The order is one of flags. -/
theorem congr (h : items.map required = items'.map required) : RequiredFirst items ↔ RequiredFirst items' := by
  have hmap : ∀ l : List α,
      RequiredFirst l ↔ (l.map required).Pairwise fun x y => y = true → x = true := by
    intro l
    rw [RequiredFirst, List.pairwise_map]
  rw [hmap, hmap, h]

theorem exchange (hb : required b = required a) :
    RequiredFirst (pre ++ b :: post) ↔ RequiredFirst (pre ++ a :: post) := by
  apply congr
  rw [List.map_append, List.map_append, List.map_cons, List.map_cons, hb]

end RequiredFirst

namespace Edit

/-- Whether the node with the id is required and stands in front of another required one. -/
def outranks {α : Type} [Flagged α] [Named α] (items : List α) (id : String) : Bool :=
  match items.dropWhile (Named.id · != id) with
  | [] => false
  | a :: post => required a && post.any required

section Outranks

variable {α : Type} [Flagged α] [Named α] {items pre post : List α} {a : α} {id : String}

theorem outranks_at (h : At items id pre a post) :
    outranks items id = (required a && post.any required) := by
  have hdrop : items.dropWhile (Named.id · != id) = a :: post := by
    rw [h.split, List.dropWhile_append_of_pos fun b hb => by simpa using h.first b hb]
    exact List.dropWhile_cons_of_neg (by simpa using h.named)
  rw [outranks, hdrop]

theorem outranks_absent (h : ∀ b ∈ items, Named.id b ≠ id) : outranks items id = false := by
  have hdrop : items.dropWhile (Named.id · != id) = [] :=
    List.dropWhile_eq_nil_iff.mpr fun b hb => by simpa using h b hb
  rw [outranks, hdrop]

end Outranks

theorem Flag.required_of_ofText {key : String} {flag : Flag} (h : ofText key = .ok flag) :
    (key == "required") = (flag == .required) := by
  rw [ofText] at h
  split at h
  · cases h
    rw [eq_of_beq ‹(key == "enabled") = true›]
    rfl
  · split at h
    · cases h
      simpa using ‹(key == "required") = true›
    · cases h

theorem toggle_requiredFirst {α : Type} [Switchable α] [LawfulSwitchable α] {items items' : List α}
    {id type parent key : String} (h : RequiredFirst items) (hrun : toggle type parent items id key = .ok items') :
    RequiredFirst items' ↔ (key == "required" && outranks items id) = false := by
  obtain ⟨flag, pre, a, post, hflag, hat, rfl⟩ := at_of_toggle hrun
  have hreq := required_flipped flag a
  rw [Flag.required_of_ofText hflag, outranks_at hat]
  rw [hat.split] at h
  cases flag with
  | enabled => exact iff_of_true ((RequiredFirst.exchange hreq).mpr h) rfl
  | required =>
      cases ha : required a with
      | false =>
          rw [ha] at hreq
          exact iff_of_true (h.without.top hreq) rfl
      | true =>
          rw [ha] at hreq
          have hdemoted := h.demoted hreq
          rwa [ha] at hdemoted

theorem saveConditionIn_ordered {limits : Limits} {c : Condition} {g g' : Group} (h : g.Ordered)
    (hrun : saveConditionIn limits c g = .ok g') :
    g'.required = g.required ∧ (g'.Ordered ↔ (!c.required && outranks g.conditions c.id) = false) := by
  obtain ⟨pre, post, rfl, hplace⟩ := saveConditionIn_eq_ok hrun
  refine ⟨rfl, ?_⟩
  cases hc : c.required with
  | true =>
      rcases hplace with ⟨k, hat⟩ | ⟨-, -, rfl, rfl⟩
      · rw [Group.Ordered, hat.split] at h
        exact iff_of_true (h.without.top hc) rfl
      · rw [List.append_nil]
        exact iff_of_true (RequiredFirst.top h hc) rfl
  | false =>
      rw [Bool.not_false, Bool.true_and]
      rcases hplace with ⟨k, hat⟩ | ⟨hnew, -, rfl, rfl⟩
      · rw [Group.Ordered, hat.split] at h
        rw [outranks_at hat]
        exact h.demoted hc
      · rw [outranks_absent hnew]
        exact iff_of_true (RequiredFirst.bottom h hc) rfl

end Edit

namespace Ranked

variable {α : Type} [Flagged α] {p : α → Prop} {items items' : List α}

theorem sublist (h : Ranked p items) (hsub : items'.Sublist items) : Ranked p items' := by
  constructor
  · exact h.first.sublist hsub
  · intro a ha
    exact h.each a (hsub.subset ha)

theorem bottom (h : Ranked p items) {a : α} (ha : required a = false) (hp : p a) : Ranked p (items ++ [a]) := by
  constructor
  · exact h.first.bottom ha
  · exact List.forall_mem_append.mpr ⟨h.each, List.forall_mem_singleton.mpr hp⟩

theorem mapped (h : Ranked p items)
    (hitems : List.Forall₂ (fun a b => required b = required a ∧ (p a → p b)) items items') :
    Ranked p items' := by
  constructor
  · have hflags : items.map required = items'.map required := map_eq_map (fun _ _ hab => hab.1.symm) hitems
    exact (RequiredFirst.congr hflags).mp h.first
  · exact forall_carried h.each hitems fun a b ha hab => hab.2 ha

/-- A node that is exchanged for another with the same flag. -/
theorem exchange [Named α] {pre post : List α} {a b : α} {id : String} (h : Ranked p items)
    (hat : Edit.At items id pre a post) (hb : required b = required a) : Ranked p (pre ++ b :: post) ↔ p b := by
  constructor
  · intro hnew
    exact hnew.each b (List.mem_append_right pre List.mem_cons_self)
  · intro hp
    rw [hat.split] at h
    refine h.mapped (Edit.forall₂_exchange ?_ ⟨hb, fun _ => hp⟩ pre post)
    exact fun _ => ⟨rfl, fun hp => hp⟩

theorem toggled {α : Type} [Edit.Switchable α] [Edit.LawfulSwitchable α] {p : α → Prop}
    {items items' : List α} {id type parent key : String} (h : Ranked p items)
    (hrun : Edit.toggle type parent items id key = .ok items') (hp : ∀ flag a, p a → p (Edit.flipped flag a)) :
    Ranked p items' ↔ (key == "required" && Edit.outranks items id) = false := by
  rw [← Edit.toggle_requiredFirst h.first hrun]
  refine ⟨fun hnew => hnew.first, fun hfirst => ⟨hfirst, ?_⟩⟩
  -- the node may have moved, but the others are who they were
  obtain ⟨flag, pre, a, post, -, hat, rfl⟩ := Edit.at_of_toggle hrun
  have heach := h.each
  rw [hat.split] at heach
  obtain ⟨hpre, hpost⟩ := List.forall_mem_append.mp heach
  obtain ⟨ha, hpost⟩ := List.forall_mem_cons.mp hpost
  split
  · exact List.forall_mem_cons.mpr ⟨hp flag a ha, List.forall_mem_append.mpr ⟨hpre, hpost⟩⟩
  · exact List.forall_mem_append.mpr ⟨hpre, List.forall_mem_cons.mpr ⟨hp flag a ha, hpost⟩⟩

end Ranked

/-! ## One edit -/

namespace Tree.Ordered

variable {t t' : Tree} {slot container group : String} {p : Prop}

theorem onBranch (ht : t.Ordered) {change : Slot → Branch → Except Failure Branch}
    (h : Edit.onBranch t slot change = .ok t')
    (hchange : ∀ s b b', b.Ordered → Edit.containersAt t slot = b.containers → change s b = .ok b' →
      (b'.Ordered ↔ p)) : t'.Ordered ↔ p := by
  obtain ⟨s, b, hs, hb, rfl⟩ := Edit.onBranch_eq_ok.mp h
  rw [← hchange s _ b (ht s) (Edit.containersAt_eq hs) hb]
  constructor
  · intro hnew
    have hslot := hnew s
    rwa [PerSlot.get_set, if_pos rfl] at hslot
  · intro hb' s'
    rw [PerSlot.get_set]
    split
    · exact hb'
    · exact ht s'

theorem onContainer (ht : t.Ordered) {change : Container → Except Failure Container}
    (h : Edit.onContainer t slot container change = .ok t')
    (hchange : ∀ c c', c.Ordered → Edit.groupsAt t slot container = c.groups → change c = .ok c' →
      c'.required = c.required ∧ (c'.Ordered ↔ p)) : t'.Ordered ↔ p := by
  refine ht.onBranch h fun s b b' hb hcontainers hrun => ?_
  obtain ⟨containers, hupdate, hrun⟩ := bind_eq_ok.mp hrun
  cases hrun
  obtain ⟨pre, c, post, c', hat, hc, rfl⟩ := Edit.at_of_update hupdate
  have hordered : c.Ordered := hb.each c (by simp [hat.split])
  obtain ⟨hreq, hiff⟩ := hchange c c' hordered (Edit.groupsAt_eq hcontainers hat) hc
  exact (hb.exchange hat hreq).trans hiff

theorem onGroup (ht : t.Ordered) {change : Group → Except Failure Group}
    (h : Edit.onGroup t slot container group change = .ok t')
    (hchange : ∀ g g', g.Ordered → Edit.conditionsAt t slot container group = g.conditions →
      change g = .ok g' → g'.required = g.required ∧ (g'.Ordered ↔ p)) : t'.Ordered ↔ p := by
  refine ht.onContainer h fun c c' hc hgroups hrun => ?_
  obtain ⟨groups, hupdate, hrun⟩ := bind_eq_ok.mp hrun
  cases hrun
  obtain ⟨pre, g, post, g', hat, hg, rfl⟩ := Edit.at_of_update hupdate
  have hordered : g.Ordered := hc.each g (by simp [hat.split])
  obtain ⟨hreq, hiff⟩ := hchange g g' hordered (Edit.conditionsAt_eq hgroups hat) hg
  exact ⟨rfl, (hc.exchange hat hreq).trans hiff⟩

end Tree.Ordered

section Retarget

variable {old new : Indicator}

theorem Group.Ordered.retarget {g g' : Group} (hg : g.Ordered) (h : Edit.retargetGroup old new g = .ok g') :
    g'.Ordered := by
  obtain ⟨conditions, rfl, hconditions⟩ := Edit.retargetGroup_eq_ok h
  refine (RequiredFirst.congr (map_eq_map (fun c c' hrun => ?_) hconditions)).mp hg
  obtain ⟨left, right, upper, rfl, -⟩ := Edit.retargetCondition_eq_ok hrun
  rfl

theorem Container.Ordered.retarget {c c' : Container} (hc : c.Ordered)
    (h : Edit.retargetContainer old new c = .ok c') : c'.Ordered := by
  obtain ⟨groups, rfl, hgroups⟩ := Edit.retargetContainer_eq_ok h
  refine hc.mapped (hgroups.imp fun g g' hrun => ⟨?_, fun hg => hg.retarget hrun⟩)
  obtain ⟨conditions, rfl, -⟩ := Edit.retargetGroup_eq_ok hrun
  rfl

theorem Branch.Ordered.retarget {b b' : Branch} (hb : b.Ordered)
    (h : Edit.retargetBranch old new b = .ok b') : b'.Ordered := by
  obtain ⟨containers, rfl, hcontainers⟩ := Edit.retargetBranch_eq_ok h
  refine hb.mapped (hcontainers.imp fun c c' hrun => ⟨?_, fun hc => hc.retarget hrun⟩)
  obtain ⟨groups, rfl, -⟩ := Edit.retargetContainer_eq_ok hrun
  rfl

end Retarget

namespace Edit

/-- Whether the edit makes a node that is required, and stands above another required one, required no more. -/
def demotes (t : Tree) : Edit → Bool
  | toggleContainer slot id flag => flag == "required" && outranks (containersAt t slot) id
  | toggleGroup slot container id flag => flag == "required" && outranks (groupsAt t slot container) id
  | saveCondition slot container group c => !c.required && outranks (conditionsAt t slot container group) c.id
  | toggleCondition slot container group id flag =>
    flag == "required" && outranks (conditionsAt t slot container group) id
  | _ => false

variable {limits : Limits} {t t' : Tree}

theorem setMinPassOf_ordered {slot : String} {value : Int} {container? group? : Option String}
    (ht : t.Ordered) (h : setMinPassOf t slot value container? group? = .ok t') : t'.Ordered := by
  rcases setMinPassOf_eq_ok h with h | ⟨container, h⟩ | ⟨container, group, h⟩
  · refine (ht.onBranch h fun s b b' hb _ hrun => ?_).mpr trivial
    cases hrun
    exact iff_of_true hb trivial
  · refine (ht.onContainer h fun c c' hc _ hrun => ?_).mpr trivial
    cases hrun
    exact ⟨rfl, iff_of_true hc trivial⟩
  · refine (ht.onGroup h fun g g' hg _ hrun => ?_).mpr trivial
    cases hrun
    exact ⟨rfl, iff_of_true hg trivial⟩

/-- An edit keeps the required nodes first, unless it demotes one. -/
theorem apply_ordered {e : Edit} (ht : t.Ordered) (h : e.apply limits t = .ok t') :
    t'.Ordered ↔ e.demotes t = false := by
  cases e with
  | setBranchEnabled slot enabled =>
      rw [apply] at h
      refine ht.onBranch h fun s b b' hb _ hrun => ?_
      cases hrun
      exact iff_of_true hb rfl
  | addContainer slot id title =>
      rw [apply] at h
      refine ht.onBranch h fun s b b' hb _ hrun => ?_
      obtain ⟨id, title, -, -, rfl⟩ := addContainerTo_eq_ok hrun
      exact iff_of_true (hb.bottom rfl ⟨.nil, nofun⟩) rfl
  | removeContainer slot id =>
      rw [apply] at h
      refine ht.onBranch h fun s b b' hb _ hrun => ?_
      obtain ⟨containers, herase, hrun⟩ := bind_eq_ok.mp hrun
      cases hrun
      rw [eq_filter_of_erase herase]
      exact iff_of_true (hb.sublist List.filter_sublist) rfl
  | toggleContainer slot id flag =>
      rw [apply] at h
      refine ht.onBranch h fun s b b' hb hcontainers hrun => ?_
      obtain ⟨containers, htoggle, hrun⟩ := bind_eq_ok.mp hrun
      cases hrun
      rw [demotes, hcontainers]
      exact hb.toggled htoggle fun flag c hc => by cases flag <;> exact hc
  | addGroup slot container id name =>
      rw [apply] at h
      refine ht.onContainer h fun c c' hc _ hrun => ?_
      obtain ⟨id, name, -, -, -, rfl⟩ := addGroupTo_eq_ok hrun
      exact ⟨rfl, iff_of_true (hc.bottom rfl .nil) rfl⟩
  | removeGroup slot container id =>
      rw [apply] at h
      refine ht.onContainer h fun c c' hc _ hrun => ?_
      obtain ⟨groups, herase, hrun⟩ := bind_eq_ok.mp hrun
      cases hrun
      rw [eq_filter_of_erase herase]
      exact ⟨rfl, iff_of_true (hc.sublist List.filter_sublist) rfl⟩
  | toggleGroup slot container id flag =>
      rw [apply] at h
      refine ht.onContainer h fun c c' hc hgroups hrun => ?_
      obtain ⟨groups, htoggle, hrun⟩ := bind_eq_ok.mp hrun
      cases hrun
      rw [demotes, hgroups]
      exact ⟨rfl, hc.toggled htoggle fun flag g hg => by cases flag <;> exact hg⟩
  | setMinPass slot value container? group? =>
      rw [apply] at h
      split at h
      · exact absurd h bind_throw_ne_ok
      · exact iff_of_true (setMinPassOf_ordered ht h) rfl
  | saveCondition slot container group condition =>
      obtain ⟨u, -, h⟩ := bind_eq_ok.mp h
      refine ht.onGroup h fun g g' hg hconditions hrun => ?_
      rw [demotes, hconditions]
      exact saveConditionIn_ordered hg hrun
  | removeCondition slot container group id =>
      rw [apply] at h
      refine ht.onGroup h fun g g' hg _ hrun => ?_
      obtain ⟨conditions, herase, hrun⟩ := bind_eq_ok.mp hrun
      cases hrun
      rw [eq_filter_of_erase herase]
      exact ⟨rfl, iff_of_true (hg.sublist List.filter_sublist) rfl⟩
  | toggleCondition slot container group id flag =>
      rw [apply] at h
      refine ht.onGroup h fun g g' hg hconditions hrun => ?_
      obtain ⟨conditions, htoggle, hrun⟩ := bind_eq_ok.mp hrun
      cases hrun
      rw [demotes, hconditions]
      exact ⟨rfl, toggle_requiredFirst hg htoggle⟩
  | retarget old new =>
      rw [apply, retargetTree] at h
      have hbranches := PerSlot.ofFnM_eq_ok.mp h
      exact iff_of_true (fun slot => (ht slot).retarget (hbranches slot)) rfl

/-! ## A run -/

def Made (t t' : Tree) : Prop := ∃ (limits : Limits) (e : Edit), e.apply limits t = .ok t'

/-- One tree becomes another by an edit that demotes no node. -/
def Steady (t t' : Tree) : Prop :=
  ∃ (limits : Limits) (e : Edit), e.demotes t = false ∧ e.apply limits t = .ok t'

theorem ordered_of_steady (h : Relation.ReflTransGen Steady Tree.empty t) : t.Ordered := by
  induction h with
  | refl =>
      intro slot
      rw [Tree.empty, PerSlot.get_ofFn]
      exact ⟨List.pairwise_singleton _ _, List.forall_mem_singleton.mpr ⟨.nil, nofun⟩⟩
  | tail _ hstep ih =>
      obtain ⟨limits, e, hsteady, hrun⟩ := hstep
      exact (apply_ordered ih hrun).mpr hsteady

/-- **Required nodes come first** as long as none is demoted, and an edit that demotes one ends it. -/
theorem requiredFirst (h : Relation.ReflTransGen Steady Tree.empty t) :
    t.Ordered ∧ ∀ (limits : Limits) (e : Edit) (t' : Tree), e.apply limits t = .ok t' →
      (t'.Ordered ↔ e.demotes t = false) := by
  have hordered := ordered_of_steady h
  refine ⟨hordered, ?_⟩
  intro limits e t' hrun
  exact apply_ordered hordered hrun

def turnRequired (id : String) : Edit := .toggleContainer "entry.long" id "required"

/-- A second container comes to stand above the first; both are required. -/
theorem exists_promoted : ∃ t, Relation.ReflTransGen Steady Tree.empty t ∧
    (turnRequired "open-long-1").demotes t = true ∧
    ∃ t', (turnRequired "open-long-1").apply .default t = .ok t' := by
  let add : Edit := .addContainer "entry.long" "" ""
  let first : Edit := turnRequired "open-long"
  let second : Edit := turnRequired "open-long-1"
  have hrun : (do
      let t₁ ← add.apply .default Tree.empty
      let t₂ ← first.apply .default t₁
      let t₃ ← second.apply .default t₂
      let _ ← second.apply .default t₃
      return (add.demotes Tree.empty, first.demotes t₁, second.demotes t₂, second.demotes t₃)).toOption =
        some (false, false, false, true) := by
    decide +kernel
  obtain ⟨t₁, h₁, hrun⟩ := bind_eq_ok.mp (eq_ok_of_toOption hrun)
  obtain ⟨t₂, h₂, hrun⟩ := bind_eq_ok.mp hrun
  obtain ⟨t₃, h₃, hrun⟩ := bind_eq_ok.mp hrun
  obtain ⟨t₄, h₄, hrun⟩ := bind_eq_ok.mp hrun
  simp only [pure_eq_ok, Except.ok.injEq, Prod.mk.injEq] at hrun
  obtain ⟨hadd, hfirst, hsecond, hdemotes⟩ := hrun
  refine ⟨t₃, ?_, hdemotes, t₄, h₄⟩
  exact ((Relation.ReflTransGen.single ⟨_, add, hadd, h₁⟩).tail ⟨_, first, hfirst, h₂⟩).tail
    ⟨_, second, hsecond, h₃⟩

theorem requiredFirst_promoted : ∃ t, Relation.ReflTransGen Steady Tree.empty t ∧ t.Ordered ∧
    ∃ t', (turnRequired "open-long-1").apply .default t = .ok t' ∧ ¬ t'.Ordered := by
  obtain ⟨t, hsteady, hdemotes, t', hrun⟩ := exists_promoted
  obtain ⟨hordered, hstep⟩ := requiredFirst hsteady
  refine ⟨t, hsteady, hordered, t', hrun, fun hordered' => ?_⟩
  rw [(hstep _ _ _ hrun).mp hordered'] at hdemotes
  cases hdemotes

/-- Turned over again, the container on top stays in front of the required one below it. -/
theorem not_ordered_demoted : ∃ t, Relation.ReflTransGen Made Tree.empty t ∧ ¬ t.Ordered := by
  obtain ⟨t, hsteady, hdemotes, t', hrun⟩ := exists_promoted
  have hreached : Relation.ReflTransGen Made Tree.empty t :=
    hsteady.lift id fun _ _ ⟨limits, e, _, hstep⟩ => ⟨limits, e, hstep⟩
  refine ⟨t', hreached.tail ⟨_, _, hrun⟩, fun hordered => ?_⟩
  rw [(apply_ordered (ordered_of_steady hsteady) hrun).mp hordered] at hdemotes
  cases hdemotes

end Edit

end Stratagem
