import Stratagem.Proofs.Draft.Refusal
import Stratagem.Proofs.Draft.RoundTrip
import Stratagem.Tree.Walk

/-!
# Conditions as a draft lists them

A branch of a draft lists containers, these list groups, and groups list conditions, all of them records with an id.
`authored` collects the conditions of a branch from the lists alone. A tree that is read has in each slot the
conditions that the branch of the slot lists, under the same ids and in the same order. Where several keys spell the
slot, the branch is the last of theirs, and what the others list is not in the tree.
-/

namespace Stratagem

open Document (lookup member)

theorem Document.get?_orElse (d : Document) (key : String) : (d.orElse (.record [])).get? key = d.get? key := by
  rw [orElse]
  split
  · rename_i hempty
    cases d with
    | record ms =>
        obtain rfl : ms = [] := by simpa [isEmpty] using hempty
        rfl
    | _ => rfl
  · rfl

namespace Draft

/-! ## Lists of a draft -/

def listed (key : String) (d : Document) : List Document :=
  match d.get? key with
  | some (.list xs) => xs
  | _ => []

def idOf (d : Document) : String := (((d.get? "id").getD .null).display.toOption).getD ""

/-- The conditions that a branch lists, each with its place. -/
def authored (slot : Slot) (branch : Document) : List (Path × Document) :=
  (listed "containers" branch).flatMap fun c =>
    (listed "groups" c).flatMap fun g =>
      (listed "conditions" g).map fun k => (⟨slot, idOf c, idOf g, idOf k, ""⟩, k)

def branches (raw : Document) : List (String × Document) :=
  match raw.get? "logic" with
  | some (.record ms) => ms
  | _ => []

/-- The condition stands in the place of the document and is what is read from it. -/
structure ReadAs (s : Selection) (written : Path × Document) (entry : Path × Condition) : Prop where
  path : entry.1 = written.1
  read : readCondition s (written.1.slot.name ++ "/" ++ written.1.container ++ "/" ++ written.1.group) written.2 =
    .ok entry.2

/-! ## Nodes -/

section Nodes

variable {s : Selection} {place : String} {raw : Document}

/-- What is read from records alone was listed: the characters of a text and the keys of a record are none. -/
theorem eq_listed {α : Type} {ms : List (String × Document)} {key : String} {read : Document → Except Failure α}
    (hrecord : ∀ x a, read x = .ok a → ∃ ms, x = .record ms) {xs : List Document} {as : List α}
    (hxs : children ms key = .ok xs) (h : xs.mapM read = .ok as) : xs = listed key (.record ms) := by
  cases xs with
  | nil =>
      show [] = listed key (.record ms)
      unfold listed Document.get?
      dsimp only
      split
      · rename_i ys hys
        have hmember : member ms key = .list ys := by rw [member, hys, Option.getD_some]
        rw [children_list hmember] at hxs
        exact (Except.ok.inj hxs).symm
      · rfl
  | cons x xs =>
      obtain ⟨a, ha⟩ := exists_of_mapM h x List.mem_cons_self
      obtain ⟨ms', rfl⟩ := hrecord x a ha
      have hlist := Document.eq_list_of_items hxs List.mem_cons_self (by simp)
      have hlookup : lookup ms key = some (.list (.record ms' :: xs)) :=
        Document.lookup_of_orElse hlist (by simp)
      unfold listed Document.get?
      dsimp only
      rw [hlookup]

theorem idOf_eq {ms : List (String × Document)} {id : String} (h : (member ms "id").display = .ok id) :
    idOf (.record ms) = id := by
  show ((member ms "id").display.toOption).getD "" = id
  rw [h]
  rfl

theorem readCondition_listed (raw : Document) (c : Condition) (h : readCondition s place raw = .ok c) :
    (∃ ms, raw = .record ms) ∧ c.id = idOf raw := by
  obtain ⟨ms, rfl, hid, -⟩ := readCondition_eq_ok h
  exact ⟨⟨ms, rfl⟩, (idOf_eq hid).symm⟩

theorem readGroup_listed (raw : Document) (g : Group) (h : readGroup s place raw = .ok g) :
    (∃ ms, raw = .record ms) ∧ g.id = idOf raw ∧
      List.Forall₂ (fun k c => readCondition s (place ++ "/" ++ idOf raw) k = .ok c) (listed "conditions" raw)
        g.conditions := by
  obtain ⟨ms, items, hms, hid, hitems, hconditions, -⟩ := readGroup_eq_ok h
  obtain rfl := eq_of_nodeMembers hms
  refine ⟨⟨ms, rfl⟩, (idOf_eq hid).symm, ?_⟩
  rw [idOf_eq hid, ← eq_listed (fun k c hk => (readCondition_listed k c hk).1) hitems hconditions]
  exact mapM_eq_ok.mp hconditions

theorem readContainer_listed (raw : Document) (c : Container) (h : readContainer s place raw = .ok c) :
    (∃ ms, raw = .record ms) ∧ c.id = idOf raw ∧
      List.Forall₂ (fun k g => readGroup s (place ++ "/" ++ idOf raw) k = .ok g) (listed "groups" raw) c.groups := by
  obtain ⟨ms, items, hms, hid, hitems, hgroups, -⟩ := readContainer_eq_ok h
  obtain rfl := eq_of_nodeMembers hms
  refine ⟨⟨ms, rfl⟩, (idOf_eq hid).symm, ?_⟩
  rw [idOf_eq hid, ← eq_listed (fun k g hg => (readGroup_listed k g hg).1) hitems hgroups]
  exact mapM_eq_ok.mp hgroups

theorem readBranch_listed {slot : Slot} {b : Branch} (h : readBranch s slot raw = .ok b) :
    List.Forall₂ (fun k c => readContainer s slot.name k = .ok c) (listed "containers" raw) b.containers := by
  obtain ⟨ms, items, hms, hitems, hcontainers, -⟩ := readBranch_eq_ok h
  have hlisted : listed "containers" raw = items := by
    rw [listed, ← Document.get?_orElse, hms]
    exact (eq_listed (fun k c hc => (readContainer_listed k c hc).1) hitems hcontainers).symm
  rw [hlisted]
  exact mapM_eq_ok.mp hcontainers

/-- A branch has the conditions that it lists. -/
theorem readBranch_authored {slot : Slot} {b : Branch} (h : readBranch s slot raw = .ok b) :
    List.Forall₂ (ReadAs s) (authored slot raw) (Tree.branchConditions false slot b) := by
  refine List.rel_flatMap (readBranch_listed h) fun c c' hc => ?_
  obtain ⟨-, hcid, hgroups⟩ := readContainer_listed c c' hc
  refine List.rel_flatMap hgroups fun g g' hg => ?_
  obtain ⟨-, hgid, hconditions⟩ := readGroup_listed g g' hg
  refine List.rel_map (fun k k' hk => ?_) hconditions
  exact ⟨by rw [hcid, hgid, (readCondition_listed k k' hk).2], hk⟩

end Nodes

/-! ## Trees -/

/-- The branches are the members of the record that is read as a tree. -/
theorem branches_eq {ms ms' : List (String × Document)}
    (h : (member ms "logic").orElse (.record []) = .record ms') : branches (.record ms) = ms' := by
  have hget : (Document.record ms).get? "logic" = lookup ms "logic" := rfl
  rw [branches, hget]
  cases ms' with
  | cons m ms' =>
      have hlookup : lookup ms "logic" = some (.record (m :: ms')) := Document.lookup_of_orElse h (by simp)
      rw [hlookup]
  | nil =>
      split
      · rename_i ms' hlookup
        rw [member, hlookup, Option.getD_some] at h
        cases ms' with
        | nil => rfl
        | cons m ms' => cases h
      · rfl

theorem empty_conditions (slot : Slot) : Tree.branchConditions false slot (Tree.empty.get slot) = [] := by
  cases slot <;> rfl

theorem readBranches_keys {s : Selection} {t t' : Tree} {ms : List (String × Document)}
    (h : readBranches s t ms = .ok t') : ∀ m ∈ ms, ∃ slot, Slot.ofText m.1 = .ok slot := by
  induction ms generalizing t with
  | nil =>
      intro m hm
      cases hm
  | cons m ms ih =>
      obtain ⟨slot, hslot, h⟩ := bind_eq_ok.mp h
      obtain ⟨b, -, h⟩ := bind_eq_ok.mp h
      exact List.forall_mem_cons.mpr ⟨⟨slot, placed_eq_ok.mp hslot⟩, ih h⟩

/-- **A tree has the conditions that its draft lists.** Every branch has a key that spells a slot. In each slot the
conditions stand in their order, each under the ids of its container, its group and its own, and there are no others.
This is said of the branch whose key is the last to spell the slot, and so of all branches of the slot if there is
only one. -/
theorem ofDocument_authored {base : Except Failure Trade} {raw : Document} {d : Draft}
    (h : ofDocument base raw = .ok d) :
    (∀ m ∈ branches raw, ∃ slot, Slot.ofText m.1 = .ok slot) ∧ ∀ slot,
      List.Forall₂ (ReadAs d.selection) ((spelled slot (branches raw)).getLast?.toList.flatMap (authored slot))
        (Tree.branchConditions false slot (d.tree.get slot)) ∧
      ((spelled slot (branches raw)).length ≤ 1 →
        List.Forall₂ (ReadAs d.selection) ((spelled slot (branches raw)).flatMap (authored slot))
          (Tree.branchConditions false slot (d.tree.get slot))) := by
  obtain ⟨ms, rfl, -, htree, -⟩ := ofDocument_eq_ok.mp h
  cases hlogic : (member ms "logic").orElse (.record []) with
  | record ms' =>
      rw [hlogic] at htree
      rw [branches_eq hlogic]
      refine ⟨readBranches_keys htree, fun slot => ?_⟩
      have hlast : List.Forall₂ (ReadAs d.selection) ((spelled slot ms').getLast?.toList.flatMap (authored slot))
          (Tree.branchConditions false slot (d.tree.get slot)) := by
        rcases readBranches_spelled htree slot with ⟨hnone, hget⟩ | ⟨raw, hlast, hread⟩
        · rw [hnone, hget, empty_conditions]
          exact .nil
        · rw [hlast, Option.toList_some, List.flatMap_singleton]
          exact readBranch_authored hread
      refine ⟨hlast, fun hone => ?_⟩
      -- a list of at most one branch is its last one
      match hspelled : spelled slot ms', hone with
      | [], _ => rwa [hspelled] at hlast
      | [raw], _ => rwa [hspelled] at hlast
  | _ =>
      rw [hlogic] at htree
      cases htree

/-- A draft that names one slot by two spellings, each with a condition. -/
def twice : Document :=
  let branch (container group condition method : String) : Document := .record [("containers", .list [.record [
    ("id", .text container), ("groups", .list [.record [
      ("id", .text group), ("conditions", .list [.record [
        ("id", .text condition), ("method", .text method), ("left", .text "close"), ("right", .int 30)]])]])]])]
  .record [("logic", .record [
    ("entry.long", branch "open" "dip" "low" "LessThan"), ("open-long", branch "more" "surge" "high" "GreaterThan")])]

/-- Two conditions are listed, and the first of them is not in the tree. -/
theorem ofDocument_authored_twice : ∃ d, ofDocument (.ok (.ofSettings quiet)) twice = .ok d ∧
    ((spelled .entryLong (branches twice)).flatMap (authored .entryLong)).map (·.1) =
      [⟨.entryLong, "open", "dip", "low", ""⟩, ⟨.entryLong, "more", "surge", "high", ""⟩] ∧
    (Tree.branchConditions false .entryLong (d.tree.get .entryLong)).map (·.1) =
      [⟨.entryLong, "more", "surge", "high", ""⟩] ∧
    Tree.branchConditions false .exitLong (d.tree.get .exitLong) = [] := by
  have hrun : (ofDocument (.ok (.ofSettings quiet)) twice).toOption.isSome = true := by decide +kernel
  obtain ⟨d, hrun⟩ := Option.isSome_iff_exists.mp hrun
  have hd := eq_ok_of_toOption hrun
  obtain ⟨-, hslots⟩ := ofDocument_authored hd
  have hentry := map_eq_map (fun _ _ hread => hread.path.symm) (hslots .entryLong).1
  have hexit := (hslots .exitLong).2 (by decide +kernel)
  have hnone : (spelled .exitLong (branches twice)).flatMap (authored .exitLong) = [] := by
    have hlength : ((spelled .exitLong (branches twice)).flatMap (authored .exitLong)).length = 0 := by decide +kernel
    exact List.length_eq_zero_iff.mp hlength
  rw [hnone] at hexit
  refine ⟨d, hd, by decide +kernel, ?_, List.forall₂_nil_left_iff.mp hexit⟩
  rw [← hentry]
  decide +kernel

end Draft

end Stratagem
