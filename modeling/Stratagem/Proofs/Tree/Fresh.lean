import Mathlib.Order.Bounds.Basic
import Stratagem.Proofs.Compiled.Restored
import Stratagem.Proofs.Refusal
import Stratagem.Proofs.Tree.Undone

/-!
# Made-up ids

A container or a group that is added without an id gets a number behind a stem: the least one whose id no sibling
has. The search for it counts up from one and ends, because different numbers make different ids and siblings are
finitely many. So whatever ids the siblings brought along, from a compiled strategy or from elsewhere, an addition
without an id is not refused for its id, and the siblings still have different ones.
-/

namespace Stratagem

namespace Edit

/-! ## Counting -/

section Counting

variable {stem : String} {taken : List String} {n m k : Nat}

/-- Counting up from one number, as long as the id that it makes is taken, ends at another. -/
inductive CountsTo (stem : String) (taken : List String) : Nat → Nat → Prop
  | stop {n : Nat} : stem ++ Number.decimal n ∉ taken → CountsTo stem taken n n
  | next {n m : Nat} : stem ++ Number.decimal n ∈ taken → CountsTo stem taken (n + 1) m → CountsTo stem taken n m

theorem CountsTo.isLeast (h : CountsTo stem taken n m) :
    IsLeast {k : Nat | n ≤ k ∧ stem ++ Number.decimal k ∉ taken} m := by
  induction h with
  | stop hfree => exact ⟨⟨Nat.le_refl _, hfree⟩, fun k hk => hk.1⟩
  | @next n m htaken _ ih =>
      obtain ⟨⟨hle, hfree⟩, hleast⟩ := ih
      refine ⟨⟨Nat.le_of_succ_le hle, hfree⟩, fun k ⟨hk, hkfree⟩ => ?_⟩
      have hne : n ≠ k := by
        rintro rfl
        exact hkfree htaken
      exact hleast ⟨Nat.lt_of_le_of_ne hk hne, hkfree⟩

/-- Counting stops at a free id, if not before. -/
theorem exists_countsTo_of_free (h : stem ++ Number.decimal (n + k : Nat) ∉ taken) :
    ∃ m ≤ n + k, CountsTo stem taken n m := by
  induction k generalizing n with
  | zero => exact ⟨n, Nat.le_refl n, .stop h⟩
  | succ k ih =>
      by_cases htaken : stem ++ Number.decimal n ∈ taken
      · rw [Nat.add_comm k 1, ← Nat.add_assoc] at h ⊢
        obtain ⟨m, hm, hcounts⟩ := ih h
        exact ⟨m, hm, .next htaken hcounts⟩
      · exact ⟨n, Nat.le_add_right n _, .stop htaken⟩

/-- Of more numbers than there are ids, not all make a taken one. -/
theorem exists_free (stem : String) (taken : List String) (n : Nat) :
    ∃ k ≤ taken.length, stem ++ Number.decimal (n + k : Nat) ∉ taken := by
  by_contra! hall
  let made := (List.range' n (taken.length + 1)).map fun k : Nat => stem ++ Number.decimal k
  have hnodup : made.Nodup := (List.nodup_range' 1).map (append_decimal_injective stem)
  have hsub : made ⊆ taken := by
    intro id hid
    obtain ⟨k, hk, rfl⟩ := List.mem_map.mp hid
    obtain ⟨j, hj, rfl⟩ := List.mem_range'.mp hk
    rw [Nat.one_mul]
    exact hall j (Nat.le_of_lt_succ hj)
  have hlength := (List.subperm_of_subset hnodup hsub).length_le
  rw [List.length_map, List.length_range'] at hlength
  omega

/-- Counting ends, from wherever it starts. -/
theorem exists_countsTo (stem : String) (taken : List String) (n : Nat) :
    ∃ m ≤ n + taken.length, CountsTo stem taken n m := by
  obtain ⟨k, hk, hfree⟩ := exists_free stem taken n
  obtain ⟨m, hm, hcounts⟩ := exists_countsTo_of_free hfree
  exact ⟨m, by omega, hcounts⟩

/-- The fresh id has the number at which counting from one ends. -/
theorem freshId_counts (stem : String) (taken : List String) :
    ∃ n : Nat, CountsTo stem taken 1 n ∧ freshId stem taken = stem ++ Number.decimal n := by
  obtain ⟨m, hle, hcounts⟩ := exists_countsTo stem taken 1
  obtain ⟨⟨hpos, hfree⟩, hleast⟩ := hcounts.isLeast
  obtain ⟨k, rfl⟩ := Nat.exists_eq_add_of_le' hpos
  refine ⟨k + 1, hcounts, ?_⟩
  let made := fun n : Nat => stem ++ Number.decimal (n + 1)
  have hfind : (List.range (taken.length + 1)).find? ((!taken.contains ·) ∘ made) = some k := by
    refine List.find?_range_eq_some.mpr ⟨?_, List.mem_range.mpr (by omega), fun j hj => ?_⟩
    · simpa [made] using hfree
    · -- what lies before the least free number is taken
      have htaken : made j ∈ taken := by
        by_contra hjfree
        have := hleast ⟨Nat.succ_pos j, hjfree⟩
        omega
      simpa [made] using htaken
  show ((List.map made _).find? (!taken.contains ·)).getD stem = _
  rw [List.find?_map, hfind]
  rfl

theorem freshId_not_mem (stem : String) (taken : List String) : freshId stem taken ∉ taken := by
  obtain ⟨n, hcounts, heq⟩ := freshId_counts stem taken
  rw [heq]
  exact hcounts.isLeast.1.2

end Counting

/-! ## Additions without an id -/

section Unnamed

variable {limits : Limits} {t t' : Tree} {slot container : String}

theorem addContainerTo_unnamed (title : String) (slot : Slot) (b : Branch) :
    addContainerTo "" title slot b = .ok { b with containers := b.containers ++
      [.fresh (freshId (slot.containerId ++ "-") (b.containers.map (·.id))) (orElse title slot.title)] } := by
  have hfresh := freshId_not_mem (slot.containerId ++ "-") (b.containers.map (·.id))
  rw [addContainerTo]
  exact if_neg (by simpa [orElse] using hfresh)

/-- The one thing in the way is that there are as many groups as there may be. -/
theorem addGroupTo_unnamed (limits : Limits) (name : String) (c : Container) :
    addGroupTo limits "" name c =
      if limits.groupsPerContainer ≤ c.groups.length then
        refuseFull (orElse c.title c.id) limits.groupsPerContainer "groups"
      else .ok { c with groups := c.groups ++ [freshGroup (freshId (c.id ++ "-group-") (c.groups.map (·.id)))
        (orElse name ("Group " ++ Number.decimal (c.groups.length + 1)))] } := by
  have hfresh := freshId_not_mem (c.id ++ "-group-") (c.groups.map (·.id))
  rw [addGroupTo]
  congr 1
  exact if_neg (by simpa [orElse] using hfresh)

/-- The node that is found can be changed. -/
theorem update_exists {α : Type} [Named α] {items : List α} {a b : α} {id : String}
    {change : α → Except Failure α} (type parent : String) (h : items.find? (Named.id · == id) = some a)
    (hb : change a = .ok b) : ∃ items', update type parent items id change = .ok items' := by
  cases hindex : indexOf? items id with
  | none =>
      have hnamed : Named.id a = id := by simpa using List.find?_some h
      exact absurd hnamed (indexOf?_eq_none.mp hindex a (List.mem_of_find?_eq_some h))
  | some n =>
      obtain ⟨pre, a', post, hat, rfl⟩ := at_of_indexOf? hindex
      obtain rfl : a = a' := Option.some.inj (h.symm.trans hat.find?)
      exact ⟨_, update_eq_ok.mpr ⟨_, a, b, hindex, by simp [hat.split], hb, rfl⟩⟩

theorem onContainer_exists {c c' : Container} {change : Container → Except Failure Container}
    (hc : (containersAt t slot).find? (·.id == container) = some c) (hchange : change c = .ok c') :
    ∃ t', onContainer t slot container change = .ok t' := by
  unfold containersAt at hc
  split at hc
  · rename_i s hs
    obtain ⟨containers, hupdate⟩ := update_exists "container" s.name hc hchange
    exact ⟨_, onBranch_eq_ok.mpr ⟨s, _, hs, bind_eq_ok.mpr ⟨containers, hupdate, rfl⟩, rfl⟩⟩
  · cases hc

/-- A container that is added comes last and has the fresh id. -/
theorem addContainer_exists {s : Slot} (limits : Limits) (t : Tree) (title : String)
    (hs : Slot.ofText slot = .ok s) : ∃ t', (addContainer slot "" title).apply limits t = .ok t' ∧
      (containersAt t' slot).map (·.id) = (containersAt t slot).map (·.id) ++
        [freshId (s.containerId ++ "-") ((containersAt t slot).map (·.id))] := by
  rw [apply]
  have hadd := addContainerTo_unnamed title s (t.get s)
  refine ⟨t.set s _, onBranch_eq_ok.mpr ⟨s, _, hs, hadd, rfl⟩, ?_⟩
  rw [containersAt_eq hs, containersAt_eq hs, PerSlot.get_set_self]
  simp [Container.fresh]

/-- So does a group, if there is room for it. -/
theorem addGroup_exists {c : Container} (name : String)
    (hc : (containersAt t slot).find? (·.id == container) = some c)
    (hroom : (c.groups.length : Int) < limits.groupsPerContainer) :
    ∃ t', (addGroup slot container "" name).apply limits t = .ok t' ∧
      (groupsAt t' slot container).map (·.id) = (groupsAt t slot container).map (·.id) ++
        [freshId (container ++ "-group-") ((groupsAt t slot container).map (·.id))] := by
  have hadd := addGroupTo_unnamed limits name c
  rw [if_neg (Int.not_le.mpr hroom)] at hadd
  rw [apply]
  obtain ⟨t', hrun⟩ := onContainer_exists hc hadd
  refine ⟨t', hrun, ?_⟩
  have hid : c.id = container := by simpa using List.find?_some hc
  obtain ⟨d, d', hfind, hd, hbefore, hafter⟩ := groupsAt_onContainer (keepsId_addGroupTo limits "" name) hrun
  obtain rfl : c = d := Option.some.inj (hc.symm.trans hfind)
  rw [hadd] at hd
  cases hd
  rw [hbefore, hafter, hid]
  simp [freshGroup]

end Unnamed

/-! ## What an addition is refused for -/

def IdTaken : Failure → Prop
  | .edit (.containerExists _ _) | .edit (.groupExists _ _) => True
  | _ => False

/-- The edit adds a node and leaves the id to the editor. -/
def Unnamed : Edit → Prop
  | addContainer _ id _ | addGroup _ _ id _ => id = ""
  | _ => False

section Refused

variable {p : Failure → Prop} {limits : Limits} {t : Tree}

theorem onBranch_refuses {change : Slot → Branch → Except Failure Branch}
    (hslot : ∀ raw, p (.node (.unknownSlot raw))) (hchange : ∀ s b, Refuses p (change s b)) (slot : String) :
    Refuses p (onBranch t slot change) := by
  have hslotOf : Refuses p (Slot.ofText slot) := .slotOf hslot slot
  exact hslotOf.bind fun s _ => (hchange s _).bind fun b _ => .ok _

theorem update_refuses {α : Type} [Named α] {items : List α} {change : α → Except Failure α} {type parent id : String}
    (hmissing : p (.edit (.missingNode type id parent))) (hchange : ∀ a, Refuses p (change a)) :
    Refuses p (update type parent items id change) := by
  have hlocate : Refuses p (locate type parent items id) := by
    rw [locate]
    split
    · exact .ok _
    · exact .error hmissing
  refine hlocate.bind fun n _ => ?_
  split
  · exact (hchange _).bind fun b _ => .ok _
  · exact .ok _

theorem Unnamed.refuses {e : Edit} (he : e.Unnamed) : Refuses (fun f => ¬IdTaken f) (e.apply limits t) := by
  cases e with
  | addContainer slot id title =>
      cases he
      rw [apply]
      refine onBranch_refuses (fun _ => id) (fun s b => ?_) slot
      rw [addContainerTo_unnamed]
      exact .ok _
  | addGroup slot container id name =>
      cases he
      rw [apply]
      refine onBranch_refuses (fun _ => id) (fun s b => ?_) slot
      refine (update_refuses (fun h => h) fun c => ?_).bind fun containers _ => .ok _
      rw [addGroupTo_unnamed]
      refine .ite (Refuses.throwing ?_ fun _ => id) (.ok _)
      exact (Refuses.ofWritesIf (Number.intText_writesIf _)).imp fun f hf => by
        rw [hf.1]
        exact id
  | _ => cases he

end Refused

end Edit

/-! ## Well-named trees -/

theorem siblings_iff {α : Type} [Named α] {p : α → Prop} {items : List α} :
    Siblings none p items ↔ Node.WellNamed (items.map Named.id) ∧ ∀ a ∈ items, p a :=
  ⟨fun h => ⟨h.ids, h.each⟩, fun h => ⟨h.1, nofun, h.2⟩⟩

/-- Without a limit there is always room. -/
theorem Siblings.concat {α : Type} [Named α] {p : α → Prop} {items : List α} (h : Siblings none p items) {a : α}
    (hid : Named.id a ≠ "") (hnew : Named.id a ∉ items.map Named.id) (ha : p a) : Siblings none p (items ++ [a]) :=
  h.append hid hnew nofun ha

def Group.WellNamed (g : Group) : Prop := Siblings none (fun _ => True) g.conditions

def Container.WellNamed (c : Container) : Prop := Siblings none Group.WellNamed c.groups

def Branch.WellNamed (b : Branch) : Prop := Siblings none Container.WellNamed b.containers

theorem Edit.freshGroup_wellNamed (id name : String) : (freshGroup id name).WellNamed := Siblings.nil nofun

theorem Container.fresh_wellNamed (id title : String) : (fresh id title).WellNamed := Siblings.nil nofun

theorem Tree.wellNamed_iff {t : Tree} : t.WellNamed ↔ ∀ slot, (t.get slot).WellNamed := by
  simp only [Branch.WellNamed, Container.WellNamed, Group.WellNamed, siblings_iff, implies_true, and_true]
  rfl

theorem Edit.Unnamed.wellNamed {limits : Limits} {t t' : Tree} {e : Edit} (he : e.Unnamed) (ht : t.WellNamed)
    (h : e.apply limits t = .ok t') : t'.WellNamed := by
  rw [Tree.wellNamed_iff] at ht ⊢
  cases e with
  | addContainer slot id title =>
      rw [apply] at h
      refine forall_onBranch ht h fun s b b' hb hrun => ?_
      obtain ⟨id, title, hid, hnew, rfl⟩ := addContainerTo_eq_ok hrun
      exact hb.concat hid hnew (Container.fresh_wellNamed id title)
  | addGroup slot container id name =>
      rw [apply] at h
      refine forall_onBranch ht h fun s b b' hb hrun => ?_
      obtain ⟨containers, hupdate, hrun⟩ := bind_eq_ok.mp hrun
      cases hrun
      obtain ⟨pre, c, post, c', hat, hc, rfl⟩ := at_of_update hupdate
      obtain ⟨id, name, hid, hnew, -, rfl⟩ := addGroupTo_eq_ok hc
      have hgroups : c.WellNamed := hb.each c (by simp [hat.split])
      exact hb.exchange hat rfl (hgroups.concat hid hnew (freshGroup_wellNamed id name))
  | _ => cases he

/-! ## Decompiled trees -/

theorem append_ne_empty {s t : String} (ht : t ≠ "") (u : String) : s ++ t ++ u ≠ "" := by
  intro h
  exact ht (String.append_eq_empty_iff.mp (String.append_eq_empty_iff.mp h).1).2

theorem decompileFrom_siblings {α β : Type} [Named β] {f : Nat → α → Except Failure β} {name : Nat → String}
    {p : β → Prop} {n : Nat} {as : List α} {bs : List β} (h : decompileFrom f n as = .ok bs)
    (hf : ∀ n a b, f n a = .ok b → Named.id b = name n ∧ p b) (hname : Function.Injective name)
    (hne : ∀ n, name n ≠ "") : Siblings none p bs := by
  have hid := fun n a b hrun => (hf n a b hrun).1
  refine siblings_iff.mpr ⟨⟨decompileFrom_nodup h hid hname, fun hmem => ?_⟩, ?_⟩
  · rw [decompileFrom_map h hid] at hmem
    obtain ⟨k, -, hk⟩ := List.mem_map.mp hmem
    exact hne k hk
  · exact forall_right (decompileFrom_forall₂ (R := fun _ => p) (fun n a b hrun => (hf n a b hrun).2) h)
      fun _ _ hb => hb

namespace Compiled

theorem Group.wellNamed_of_decompile {id : String} {n : Nat} {g : Group} {g' : Stratagem.Group}
    (h : g.decompile id n = .ok g') : g'.WellNamed := by
  obtain ⟨ks, hks, h⟩ := bind_eq_ok.mp h
  cases h
  rw [decompileConditions_eq] at hks
  exact decompileFrom_siblings hks (fun _ _ _ hk => ⟨Call.id_of_decompile hk, trivial⟩)
    (append_ordinal_injective _) fun _ => append_ne_empty (by decide) _

theorem Container.wellNamed_of_decompile {slot : Slot} {n : Nat} {c : Container} {c' : Stratagem.Container}
    (h : c.decompile slot n = .ok c') : c'.WellNamed := by
  obtain ⟨gs, hgs, h⟩ := bind_eq_ok.mp h
  cases h
  rw [decompileGroups_eq] at hgs
  exact decompileFrom_siblings hgs
    (fun _ _ _ hg => ⟨Group.id_of_decompile hg, Group.wellNamed_of_decompile hg⟩)
    (append_ordinal_injective _) fun _ => append_ne_empty (by decide) _

theorem Branch.wellNamed_of_decompile {slot : Slot} {b : Branch} {b' : Stratagem.Branch}
    (h : b.decompile slot = .ok b') : b'.WellNamed := by
  obtain ⟨cs, hcs, h⟩ := bind_eq_ok.mp h
  cases h
  rw [decompileContainers_eq] at hcs
  refine decompileFrom_siblings hcs
    (fun _ _ _ hc => ⟨Container.id_of_decompile hc, Container.wellNamed_of_decompile hc⟩)
    (containerName_injective slot) fun n hempty => ?_
  have hne := isEmpty_containerName slot n
  rw [hempty] at hne
  cases hne

theorem Logic.wellNamed_of_decompile {l : Logic} {t : Tree} (h : l.decompile = .ok t) : t.WellNamed :=
  Tree.wellNamed_iff.mpr fun slot => Branch.wellNamed_of_decompile (PerSlot.ofFnM_eq_ok.mp h slot)

end Compiled

/-! ## Additions to a tree -/

namespace Edit

/-- **Made-up ids are free, and the search for them ends.** Counting from one ends at the least number that makes
a free id, and that is the fresh id. An addition that leaves the id to the editor is never refused because a
sibling has it, and keeps a tree well-named, as every decompiled tree is; at a slot, or at a container with room,
it goes through and the new node has the fresh id. -/
theorem added_under_freshId {t : Tree} (ht : t.WellNamed) (limits : Limits) :
    (∀ stem taken, ∃ n : Nat, CountsTo stem taken 1 n ∧ freshId stem taken = stem ++ Number.decimal n ∧
      IsLeast {k : Nat | 1 ≤ k ∧ stem ++ Number.decimal k ∉ taken} n) ∧
    (∀ (l : Compiled.Logic) (u : Tree), l.decompile = .ok u → u.WellNamed) ∧
    (∀ e : Edit, e.Unnamed → (∀ f, e.apply limits t = .error f → ¬IdTaken f) ∧
      ∀ t', e.apply limits t = .ok t' → t'.WellNamed) ∧
    (∀ slot s title, Slot.ofText slot = .ok s →
      ∃ t', (addContainer slot "" title).apply limits t = .ok t' ∧
        (containersAt t' slot).map (·.id) = (containersAt t slot).map (·.id) ++
          [freshId (s.containerId ++ "-") ((containersAt t slot).map (·.id))]) ∧
    (∀ slot container name c, (containersAt t slot).find? (·.id == container) = some c →
      (c.groups.length : Int) < limits.groupsPerContainer →
        ∃ t', (addGroup slot container "" name).apply limits t = .ok t' ∧
          (groupsAt t' slot container).map (·.id) = (groupsAt t slot container).map (·.id) ++
            [freshId (container ++ "-group-") ((groupsAt t slot container).map (·.id))]) := by
  refine ⟨?_, ?_, ?_, ?_, ?_⟩
  · intro stem taken
    obtain ⟨n, hcounts, heq⟩ := freshId_counts stem taken
    exact ⟨n, hcounts, heq, hcounts.isLeast⟩
  · intro l u h
    exact Compiled.Logic.wellNamed_of_decompile h
  · intro e he
    exact ⟨he.refuses, fun t' h => he.wellNamed ht h⟩
  · intro slot s title hs
    exact addContainer_exists limits t title hs
  · intro slot container name c hc hroom
    exact addGroup_exists name hc hroom

def doubled : Compiled.Logic :=
  .ofFn fun slot => ⟨true, 1, [⟨[], true, 1, false⟩, ⟨[⟨[], true, 1, false⟩], true, 1, false⟩], .makeTrade slot.action⟩

/-- Decompiled containers have the ids `open-long` and `open-long-2`, so those that are added get the numbers one
and three. -/
theorem added_under_freshId_doubled : ∃ t t₁ t₂ t₃, doubled.decompile = .ok t ∧ t.WellNamed ∧
    (addContainer "entry.long" "" "").apply .default t = .ok t₁ ∧ t₁.WellNamed ∧
    (addContainer "entry.long" "" "").apply .default t₁ = .ok t₂ ∧ t₂.WellNamed ∧
    (containersAt t₂ "entry.long").map (·.id) = ["open-long", "open-long-2", "open-long-1", "open-long-3"] ∧
    (addGroup "entry.long" "open-long-2" "" "").apply .default t = .ok t₃ ∧ t₃.WellNamed ∧
    (groupsAt t₃ "entry.long" "open-long-2").map (·.id) = ["open-long-2-group-1", "open-long-2-group-2"] := by
  let second : Container :=
    ⟨"open-long-2", "Open long 2", [⟨"open-long-2-group-1", "Group 1", [], true, false, 1⟩], true, false, 1⟩
  have hrun : (do return containersAt (← doubled.decompile) "entry.long").toOption =
      some [.fresh "open-long" "Open long", second] := by
    decide +kernel
  obtain ⟨t, ht, hrun⟩ := bind_eq_ok.mp (eq_ok_of_toOption hrun)
  have hcontainers := Except.ok.inj hrun
  have hslot : Slot.ofText "entry.long" = .ok .entryLong := eq_ok_of_toOption (by decide +kernel)
  have hnamed := Compiled.Logic.wellNamed_of_decompile ht
  have hadd : (addContainer "entry.long" "" "").Unnamed := rfl
  have hadd' : (addGroup "entry.long" "open-long-2" "" "").Unnamed := rfl
  obtain ⟨-, -, hunnamed, hcontainer, hgroup⟩ := added_under_freshId hnamed .default
  obtain ⟨t₁, h₁, hids₁⟩ := hcontainer "entry.long" .entryLong "" hslot
  have hnamed₁ := (hunnamed _ hadd).2 t₁ h₁
  obtain ⟨-, -, hunnamed₁, hcontainer₁, -⟩ := added_under_freshId hnamed₁ .default
  obtain ⟨t₂, h₂, hids₂⟩ := hcontainer₁ "entry.long" .entryLong "" hslot
  have hfind : (containersAt t "entry.long").find? (·.id == "open-long-2") = some second := by
    rw [hcontainers]
    decide +kernel
  obtain ⟨t₃, h₃, hids₃⟩ := hgroup "entry.long" "open-long-2" "" second hfind (by decide)
  refine ⟨t, t₁, t₂, t₃, ht, hnamed, h₁, hnamed₁, h₂, (hunnamed₁ _ hadd).2 t₂ h₂, ?_, h₃,
    (hunnamed _ hadd').2 t₃ h₃, ?_⟩
  · rw [hids₂, hids₁, hcontainers]
    decide +kernel
  · rw [hids₃, groupsAt, hfind]
    decide +kernel

end Edit

end Stratagem
