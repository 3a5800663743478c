import Stratagem.Proofs.Draft.Operand
import Stratagem.Proofs.Tree.Refs

/-!
# Trees come back from drafts

A tree that was read is `Drafted`: nothing in it would be refused if it stood in a draft again. What is written
for such a tree is read as the same tree with its references as `Selection.restored` has them, and without the
signs of zeros among the arguments of its actions.
-/

namespace Stratagem

open Document (lookup member displayOr_empty)

/-! ## Drafted trees -/

structure Condition.Drafted (c : Condition) : Prop where
  id : c.id.isEmpty = false
  method : c.method.isEmpty = false
  refs : c.EachRef ValueRef.Admissible

structure Group.Drafted (g : Group) : Prop where
  id : g.id.isEmpty = false
  ids : (g.conditions.map (·.id)).Nodup
  conditions : ∀ c ∈ g.conditions, c.Drafted

structure Container.Drafted (c : Container) : Prop where
  id : c.id.isEmpty = false
  ids : (c.groups.map (·.id)).Nodup
  groups : ∀ g ∈ c.groups, g.Drafted

structure Branch.Drafted (b : Branch) : Prop where
  ids : (b.containers.map (·.id)).Nodup
  containers : ∀ c ∈ b.containers, c.Drafted
  onPass : b.onPass.Legible

def Tree.Drafted (t : Tree) : Prop := ∀ slot, (t.get slot).Drafted

theorem Tree.Drafted.eachRef {t : Tree} (h : t.Drafted) : t.EachRef ValueRef.Admissible :=
  fun slot c hc g hg cond hcond => ((((h slot).containers c hc).groups g hg).conditions cond hcond).refs

namespace Draft

/-! ## What a node is read from -/

section Readers

variable {s : Selection} {place : String} {raw : Document}

/-- The place of a node is the one around it and the id that is read. -/
theorem inside_eq_ok {ms : List (String × Document)} {inner id : String} (h : inside place ms = .ok inner)
    (hid : (member ms "id").display = .ok id) : inner = place ++ "/" ++ id := by
  rw [inside, hid] at h
  exact (Except.ok.inj h).symm

theorem readCondition_eq_ok {c : Condition} (h : readCondition s place raw = .ok c) :
    ∃ ms, raw = .record ms ∧ (member ms "id").display = .ok c.id ∧
      readLeft s (place ++ "/" ++ c.id) (member ms "left") = .ok c.left ∧
      readOperand s (place ++ "/" ++ c.id ++ ":right") (member ms "right") = .ok c.right ∧
      readUpper s (place ++ "/" ++ c.id) (member ms "upper") = .ok c.upper ∧
      c.id.isEmpty = false ∧ c.method.isEmpty = false := by
  unfold readCondition at h
  split at h
  · rename_i ms
    split at h
    · cases h
    · obtain ⟨inner, hinner, h⟩ := bind_eq_ok.mp h
      obtain ⟨left, hleft, h⟩ := bind_eq_ok.mp h
      obtain ⟨id, hid, h⟩ := bind_eq_ok.mp (placed_eq_ok.mp h)
      obtain ⟨method, -, h⟩ := bind_eq_ok.mp h
      obtain ⟨right, hright, h⟩ := bind_eq_ok.mp h
      obtain ⟨upper, hupper, h⟩ := bind_eq_ok.mp h
      obtain ⟨enabled, -, h⟩ := bind_eq_ok.mp h
      obtain ⟨required, -, h⟩ := bind_eq_ok.mp h
      obtain ⟨hidFull, hmethodFull, rfl⟩ := Condition.checked_eq_ok.mp h
      obtain rfl := inside_eq_ok hinner hid
      exact ⟨ms, rfl, hid, hleft, hright, hupper, hidFull, hmethodFull⟩
  · cases h

theorem readGroup_eq_ok {g : Group} (h : readGroup s place raw = .ok g) :
    ∃ ms items, nodeMembers place "group" raw = .ok ms ∧ (member ms "id").display = .ok g.id ∧
      children ms "conditions" = .ok items ∧ items.mapM (readCondition s (place ++ "/" ++ g.id)) = .ok g.conditions ∧
      g.id.isEmpty = false ∧ (g.conditions.map (·.id)).Nodup := by
  obtain ⟨ms, hms, h⟩ := bind_eq_ok.mp h
  obtain ⟨inner, hinner, h⟩ := bind_eq_ok.mp h
  obtain ⟨id, hid, h⟩ := bind_eq_ok.mp (placed_eq_ok.mp h)
  obtain ⟨name, -, h⟩ := bind_eq_ok.mp h
  obtain ⟨items, hitems, h⟩ := bind_eq_ok.mp h
  obtain ⟨conditions, hconditions, h⟩ := bind_eq_ok.mp h
  obtain ⟨enabled, -, h⟩ := bind_eq_ok.mp h
  obtain ⟨required, -, h⟩ := bind_eq_ok.mp h
  obtain ⟨minPass, -, h⟩ := bind_eq_ok.mp h
  obtain ⟨hidFull, hids, rfl⟩ := Group.checked_eq_ok.mp h
  obtain rfl := inside_eq_ok hinner hid
  exact ⟨ms, items, hms, hid, hitems, hconditions, hidFull, hids⟩

theorem readContainer_eq_ok {c : Container} (h : readContainer s place raw = .ok c) :
    ∃ ms items, nodeMembers place "container" raw = .ok ms ∧ (member ms "id").display = .ok c.id ∧
      children ms "groups" = .ok items ∧ items.mapM (readGroup s (place ++ "/" ++ c.id)) = .ok c.groups ∧
      c.id.isEmpty = false ∧ (c.groups.map (·.id)).Nodup := by
  obtain ⟨ms, hms, h⟩ := bind_eq_ok.mp h
  obtain ⟨inner, hinner, h⟩ := bind_eq_ok.mp h
  obtain ⟨id, hid, h⟩ := bind_eq_ok.mp (placed_eq_ok.mp h)
  obtain ⟨title, -, h⟩ := bind_eq_ok.mp h
  obtain ⟨items, hitems, h⟩ := bind_eq_ok.mp h
  obtain ⟨groups, hgroups, h⟩ := bind_eq_ok.mp h
  obtain ⟨enabled, -, h⟩ := bind_eq_ok.mp h
  obtain ⟨required, -, h⟩ := bind_eq_ok.mp h
  obtain ⟨minPass, -, h⟩ := bind_eq_ok.mp h
  obtain ⟨hidFull, hids, rfl⟩ := Container.checked_eq_ok.mp h
  obtain rfl := inside_eq_ok hinner hid
  exact ⟨ms, items, hms, hid, hitems, hgroups, hidFull, hids⟩

theorem readBranch_eq_ok {slot : Slot} {b : Branch} (h : readBranch s slot raw = .ok b) :
    ∃ ms items, raw.orElse (.record []) = .record ms ∧ children ms "containers" = .ok items ∧
      items.mapM (readContainer s slot.name) = .ok b.containers ∧
      readActions slot (member ms "on_pass") = .ok b.onPass ∧ (b.containers.map (·.id)).Nodup := by
  rw [readBranch] at h
  split at h
  · rename_i ms hms
    obtain ⟨items, hitems, h⟩ := bind_eq_ok.mp (placed_eq_ok.mp h)
    obtain ⟨containers, hcontainers, h⟩ := bind_eq_ok.mp h
    obtain ⟨enabled, -, h⟩ := bind_eq_ok.mp h
    obtain ⟨minPass, -, h⟩ := bind_eq_ok.mp h
    obtain ⟨onPass, honPass, h⟩ := bind_eq_ok.mp h
    obtain ⟨hids, rfl⟩ := Branch.checked_eq_ok.mp h
    exact ⟨ms, items, hms, hitems, hcontainers, honPass, hids⟩
  · cases h

/-- The branches whose keys spell the slot. -/
def spelled (slot : Slot) (ms : List (String × Document)) : List Document :=
  (ms.filter fun m => (Slot.ofText m.1).toOption = some slot).map (·.2)

/-- A slot has the branch of the last key that spells it; one that no key spells stays as it was. -/
theorem readBranches_spelled {t t' : Tree} {ms : List (String × Document)}
    (h : readBranches s t ms = .ok t') (slot : Slot) :
    (spelled slot ms = [] ∧ t'.get slot = t.get slot) ∨
      ∃ raw, (spelled slot ms).getLast? = some raw ∧ readBranch s slot raw = .ok (t'.get slot) := by
  induction ms generalizing t with
  | nil =>
      cases h
      exact Or.inl ⟨rfl, rfl⟩
  | cons m ms ih =>
      obtain ⟨slot', hslot, h⟩ := bind_eq_ok.mp h
      obtain ⟨b, hb, h⟩ := bind_eq_ok.mp h
      have hkey : Slot.ofText m.1 = .ok slot' := placed_eq_ok.mp hslot
      by_cases hsame : slot' = slot
      · subst hsame
        have hspelled : spelled slot' (m :: ms) = m.2 :: spelled slot' ms := by
          simp [spelled, hkey, Except.toOption]
        rw [hspelled]
        rcases ih h with ⟨hnone, hget⟩ | ⟨raw, hlast, hread⟩
        · refine Or.inr ⟨m.2, by rw [hnone, List.getLast?_singleton], ?_⟩
          rw [hget, PerSlot.get_set_self]
          exact hb
        · exact Or.inr ⟨raw, by rw [List.getLast?_cons, hlast, Option.getD_some], hread⟩
      · have hspelled : spelled slot (m :: ms) = spelled slot ms := by
          simp [spelled, hkey, Except.toOption, hsame]
        rw [hspelled]
        rcases ih h with ⟨hnone, hget⟩ | hlast
        · rw [PerSlot.get_set, if_neg (Ne.symm hsame)] at hget
          exact Or.inl ⟨hnone, hget⟩
        · exact Or.inr hlast

end Readers

/-! ## The references of what was read -/

section References

variable {s : Selection} {p : ValueRef → Prop}
  (hoperand : ∀ place raw o, readOperand s place raw = .ok o → o.EachRef p)
  (hliteral : ∀ x, p (.ofNumber x "" ValueRef.defaultCalcMode))

include hoperand hliteral

theorem readLeft_eachRef {place : String} {raw : Document} {r : ValueRef} (h : readLeft s place raw = .ok r) :
    p r := by
  obtain ⟨o, ho, h⟩ := bind_eq_ok.mp h
  have heach := hoperand _ _ _ ho
  cases o with
  | ref q =>
      cases h
      exact heach
  | number x =>
      cases h
      exact hliteral x

omit hliteral in
theorem readUpper_eachRef {place : String} {raw : Document} {upper : Option Operand}
    (h : readUpper s place raw = .ok upper) : ∀ o ∈ upper.toList, o.EachRef p := by
  unfold readUpper at h
  split at h
  · cases h
    exact nofun
  · cases ho : readOperand s (place ++ ":upper") raw with
    | error f =>
        rw [ho] at h
        cases h
    | ok o =>
        rw [ho] at h
        cases h
        exact List.forall_mem_singleton.mpr (hoperand _ _ _ ho)

/-- What is said of every operand that is read, and of the literal that stands for a number on the left, holds of
the references of a condition. -/
theorem readCondition_eachRef {place : String} (raw : Document) (c : Condition)
    (h : readCondition s place raw = .ok c) : c.EachRef p := by
  obtain ⟨ms, -, -, hleft, hright, hupper, -⟩ := readCondition_eq_ok h
  refine List.forall_mem_cons.mpr ⟨readLeft_eachRef hoperand hliteral hleft, ?_⟩
  exact List.forall_mem_cons.mpr ⟨hoperand _ _ _ hright, readUpper_eachRef hoperand hupper⟩

theorem readGroup_eachRef {place : String} (raw : Document) (g : Group) (h : readGroup s place raw = .ok g) :
    g.EachRef p := by
  obtain ⟨ms, items, -, -, -, hconditions, -⟩ := readGroup_eq_ok h
  exact forall_of_mapM (readCondition_eachRef hoperand hliteral) hconditions

theorem readContainer_eachRef {place : String} (raw : Document) (c : Container)
    (h : readContainer s place raw = .ok c) : c.EachRef p := by
  obtain ⟨ms, items, -, -, -, hgroups, -⟩ := readContainer_eq_ok h
  exact forall_of_mapM (readGroup_eachRef hoperand hliteral) hgroups

theorem readBranch_eachRef {slot : Slot} {raw : Document} {b : Branch} (h : readBranch s slot raw = .ok b) :
    b.EachRef p := by
  obtain ⟨ms, items, -, -, hcontainers, -⟩ := readBranch_eq_ok h
  exact forall_of_mapM (readContainer_eachRef hoperand hliteral) hcontainers

theorem readTree_eachRef {raw : Document} {t : Tree} (h : readTree s raw = .ok t) : t.EachRef p := by
  cases raw with
  | record ms =>
      intro slot
      rcases readBranches_spelled h slot with ⟨-, hget⟩ | ⟨raw, -, hread⟩
      · rw [hget, Tree.empty, PerSlot.get_ofFn]
        exact List.forall_mem_singleton.mpr nofun
      · exact readBranch_eachRef hoperand hliteral hread
  | _ => cases h

end References

/-! ## What was read is drafted -/

theorem readCondition_drafted {s : Selection} {place : String} (raw : Document) (c : Condition)
    (h : readCondition s place raw = .ok c) : c.Drafted := by
  have hrefs : c.EachRef ValueRef.Admissible := readCondition_eachRef (fun _ _ _ => readOperand_admissible)
    (fun x => ValueRef.ofNumber_admissible x "" rfl) raw c h
  obtain ⟨ms, -, -, -, -, -, hid, hmethod⟩ := readCondition_eq_ok h
  exact ⟨hid, hmethod, hrefs⟩

theorem readGroup_drafted {s : Selection} {place : String} (raw : Document) (g : Group)
    (h : readGroup s place raw = .ok g) : g.Drafted := by
  obtain ⟨ms, items, -, -, -, hconditions, hid, hids⟩ := readGroup_eq_ok h
  exact ⟨hid, hids, forall_of_mapM readCondition_drafted hconditions⟩

theorem readContainer_drafted {s : Selection} {place : String} (raw : Document) (c : Container)
    (h : readContainer s place raw = .ok c) : c.Drafted := by
  obtain ⟨ms, items, -, -, -, hgroups, hid, hids⟩ := readContainer_eq_ok h
  exact ⟨hid, hids, forall_of_mapM readGroup_drafted hgroups⟩

theorem readBranch_drafted {s : Selection} {slot : Slot} {raw : Document} {b : Branch}
    (h : readBranch s slot raw = .ok b) : b.Drafted := by
  obtain ⟨ms, items, -, -, hcontainers, honPass, hids⟩ := readBranch_eq_ok h
  refine ⟨hids, forall_of_mapM readContainer_drafted hcontainers, ?_⟩
  unfold readActions at honPass
  split at honPass
  · rw [← Except.ok.inj honPass]
    exact ActionSet.makeTrade_legible slot
  · exact ActionSet.legible_of_ofDocument _ _ honPass

theorem empty_drafted : Tree.empty.Drafted := by
  intro slot
  rw [Tree.empty, PerSlot.get_ofFn]
  refine ⟨List.nodup_singleton _, List.forall_mem_singleton.mpr ⟨?_, List.nodup_nil, nofun⟩,
    ActionSet.makeTrade_legible slot⟩
  cases slot <;> rfl

theorem readTree_drafted {s : Selection} {raw : Document} {t : Tree} (h : readTree s raw = .ok t) :
    t.Drafted := by
  cases raw with
  | record ms =>
      intro slot
      rcases readBranches_spelled h slot with ⟨-, hget⟩ | ⟨raw, -, hread⟩
      · rw [hget]
        exact empty_drafted slot
      · exact readBranch_drafted hread
  | _ => cases h

/-! ## Writing is never refused -/

section Writing

variable {s : Selection}

theorem writeRef_exists (hs : ∀ r, ∃ found, s.find r = .ok found) (r : ValueRef) :
    ∃ doc, writeRef s r = .ok doc := by
  rw [writeRef]
  by_cases hfield : r.isField = true
  · rw [if_pos hfield]
    exact ⟨_, rfl⟩
  · obtain ⟨found, hfound⟩ := hs r
    rw [if_neg hfield, hfound]
    cases found with
    | none => exact ⟨_, rfl⟩
    | some i => exact ⟨_, rfl⟩

theorem writeOperand_exists (hs : ∀ r, ∃ found, s.find r = .ok found) (o : Operand) :
    ∃ doc, writeOperand s o = .ok doc := by
  cases o with
  | ref r => exact writeRef_exists hs r
  | number x => exact ⟨_, rfl⟩

theorem writeCondition_exists (hs : ∀ r, ∃ found, s.find r = .ok found) (c : Condition) :
    ∃ doc, writeCondition s c = .ok doc := by
  obtain ⟨left, hleft⟩ := writeRef_exists hs c.left
  obtain ⟨right, hright⟩ := writeOperand_exists hs c.right
  have hupper : ∃ upper, c.upper.mapM (writeOperand s) = .ok upper := by
    cases c.upper with
    | none => exact ⟨none, rfl⟩
    | some o =>
        obtain ⟨doc, hdoc⟩ := writeOperand_exists hs o
        rw [Option.mapM_some, hdoc]
        exact ⟨some doc, rfl⟩
  obtain ⟨upper, hupper⟩ := hupper
  rw [writeCondition, hleft, ok_bind, hright, ok_bind, hupper]
  exact ⟨_, rfl⟩

theorem writeGroup_exists (hs : ∀ r, ∃ found, s.find r = .ok found) (g : Group) :
    ∃ doc, writeGroup s g = .ok doc := by
  obtain ⟨docs, hdocs⟩ := mapM_exists fun c (_ : c ∈ g.conditions) => writeCondition_exists hs c
  rw [writeGroup, hdocs]
  exact ⟨_, rfl⟩

theorem writeContainer_exists (hs : ∀ r, ∃ found, s.find r = .ok found) (c : Container) :
    ∃ doc, writeContainer s c = .ok doc := by
  obtain ⟨docs, hdocs⟩ := mapM_exists fun g (_ : g ∈ c.groups) => writeGroup_exists hs g
  rw [writeContainer, hdocs]
  exact ⟨_, rfl⟩

theorem writeBranch_exists (hs : ∀ r, ∃ found, s.find r = .ok found) (b : Branch) :
    ∃ doc, writeBranch s b = .ok doc := by
  obtain ⟨docs, hdocs⟩ := mapM_exists fun c (_ : c ∈ b.containers) => writeContainer_exists hs c
  rw [writeBranch, hdocs]
  exact ⟨_, rfl⟩

/-- A tree is written if the selection answers for every reference. -/
theorem writeTree_exists (hs : ∀ r, ∃ found, s.find r = .ok found) (t : Tree) :
    ∃ doc, writeTree s t = .ok doc := by
  have hbranch : ∀ m ∈ t.toList, ∃ entry, (do return (m.1.name, ← writeBranch s m.2)) = .ok entry := by
    intro m _
    obtain ⟨doc, hdoc⟩ := writeBranch_exists hs m.2
    rw [hdoc]
    exact ⟨_, rfl⟩
  obtain ⟨docs, hdocs⟩ := mapM_exists hbranch
  exact ⟨_, bind_eq_ok.mpr ⟨docs, hdocs, rfl⟩⟩

end Writing

/-! ## What is written comes back -/

section Written

variable {s : Selection} {place : String}

theorem readLeft_writeRef (hs : s.Sound) {r : ValueRef} (hr : r.Admissible) (houtput : r.Showable) {doc : Document}
    (h : writeRef s r = .ok doc) : readLeft s.normal place doc = .ok (s.restored r) := by
  rw [readLeft, readOperand_writeRef hs hr houtput h]
  rfl

theorem readOperand_writeOperand (hs : s.Sound) {o : Operand} (ho : o.EachRef ValueRef.Admissible)
    (hshow : o.EachRef ValueRef.Showable) {doc : Document} (h : writeOperand s o = .ok doc) :
    readOperand s.normal place doc = .ok (o.mapRef s.restored) := by
  cases o with
  | ref r => exact readOperand_writeRef hs ho hshow h place
  | number x =>
      cases h
      rfl

theorem writeRef_ne_null {r : ValueRef} {doc : Document} (h : writeRef s r = .ok doc) : doc ≠ .null := by
  rintro rfl
  rw [writeRef] at h
  split at h
  · cases h
  · obtain ⟨found, -, h⟩ := bind_eq_ok.mp h
    cases found with
    | none => cases h
    | some i =>
        dsimp only at h
        split at h <;> cases h

theorem writeOperand_ne_null {o : Operand} {doc : Document} (h : writeOperand s o = .ok doc) : doc ≠ .null := by
  cases o with
  | ref r => exact writeRef_ne_null h
  | number x =>
      cases h
      intro hnull
      cases hnull

theorem readUpper_of_ne_null {raw : Document} (h : raw ≠ .null) :
    readUpper s place raw = some <$> readOperand s (place ++ ":upper") raw := by
  cases raw with
  | null => exact absurd rfl h
  | _ => rfl

/-- The members of a written condition. -/
theorem members_writeCondition {c : Condition} {doc : Document} (h : writeCondition s c = .ok doc) :
    ∃ ms left right upper, doc = .record ms ∧ writeRef s c.left = .ok left ∧
      writeOperand s c.right = .ok right ∧ c.upper.mapM (writeOperand s) = .ok upper ∧
      missingKey? ms = none ∧ member ms "id" = .text c.id ∧ member ms "method" = .text c.method ∧
      member ms "left" = left ∧ member ms "right" = right ∧ member ms "upper" = upper.getD .null ∧
      ∀ place, readFlag place ms "enabled" true = .ok c.enabled ∧
        readFlag place ms "required" false = .ok c.required := by
  obtain ⟨left, hleft, h⟩ := bind_eq_ok.mp h
  obtain ⟨right, hright, h⟩ := bind_eq_ok.mp h
  obtain ⟨upper, hupper, h⟩ := bind_eq_ok.mp h
  cases h
  refine ⟨_, left, right, upper, rfl, hleft, hright, hupper, ?_⟩
  cases upper with
  | none => exact ⟨rfl, rfl, rfl, rfl, rfl, rfl, fun _ => ⟨rfl, rfl⟩⟩
  | some u => exact ⟨rfl, rfl, rfl, rfl, rfl, rfl, fun _ => ⟨rfl, rfl⟩⟩

theorem readUpper_mapM (hs : s.Sound) {upper : Option Operand}
    (hupper : ∀ o ∈ upper.toList, o.EachRef ValueRef.Admissible)
    (hshow : ∀ o ∈ upper.toList, o.EachRef ValueRef.Showable) {docs : Option Document}
    (h : upper.mapM (writeOperand s) = .ok docs) :
    readUpper s.normal place (docs.getD .null) = .ok (upper.map (Operand.mapRef s.restored)) := by
  cases upper with
  | none =>
      cases h
      rfl
  | some o =>
      rw [Option.mapM_some] at h
      cases hdoc : writeOperand s o with
      | error f =>
          rw [hdoc] at h
          cases h
      | ok doc =>
          rw [hdoc] at h
          cases h
          rw [Option.getD_some, readUpper_of_ne_null (writeOperand_ne_null hdoc),
            readOperand_writeOperand hs (hupper o List.mem_cons_self) (hshow o List.mem_cons_self) hdoc]
          rfl

theorem inside_text {ms : List (String × Document)} {id : String} (h : member ms "id" = .text id) (place : String) :
    inside place ms = .ok (place ++ "/" ++ id) := by
  rw [inside, h]
  rfl

theorem readCondition_writeCondition (hs : s.Sound) {c : Condition} (hc : c.Drafted)
    (hshow : c.EachRef ValueRef.Showable) {doc : Document} (h : writeCondition s c = .ok doc) :
    readCondition s.normal place doc = .ok (c.mapRefs s.restored) := by
  obtain ⟨ms, left, right, upper, rfl, hleft, hright, hupper, hkeys, hid, hmethod, hl, hr, hu, hflags⟩ :=
    members_writeCondition h
  obtain ⟨hrefLeft, hrefs⟩ := List.forall_mem_cons.mp hc.refs
  obtain ⟨hrefRight, hrefUpper⟩ := List.forall_mem_cons.mp hrefs
  obtain ⟨hshowLeft, hshows⟩ := List.forall_mem_cons.mp hshow
  obtain ⟨hshowRight, hshowUpper⟩ := List.forall_mem_cons.mp hshows
  unfold readCondition
  dsimp only
  rw [hkeys]
  dsimp only
  rw [inside_text hid, ok_bind, readConditionMembers, hl, readLeft_writeRef hs hrefLeft hshowLeft hleft, ok_bind]
  refine placed_eq_ok.mpr ?_
  rw [hid, Document.display, ok_bind, hmethod, Document.display, ok_bind, hr,
    readOperand_writeOperand hs hrefRight hshowRight hright, ok_bind, hu,
    readUpper_mapM hs hrefUpper hshowUpper hupper, ok_bind, (hflags _).1, ok_bind, (hflags _).2, ok_bind]
  exact Condition.checked_eq_ok.mpr ⟨hc.id, hc.method, rfl⟩

/-- Children that are written come back, if each of them does. -/
theorem mapM_written {α : Type} {read : Document → Except Failure α} {write : α → Except Failure Document}
    {f : α → α} {as : List α} {docs : List Document} (hwrite : as.mapM write = .ok docs)
    (hread : ∀ a ∈ as, ∀ doc, write a = .ok doc → read doc = .ok (f a)) : docs.mapM read = .ok (as.map f) := by
  rw [mapM_eq_ok] at hwrite ⊢
  induction hwrite with
  | nil => exact .nil
  | cons hdoc _ ih =>
      refine .cons (hread _ List.mem_cons_self _ hdoc) (ih fun a ha => ?_)
      exact hread a (List.mem_cons_of_mem _ ha)

theorem children_list {ms : List (String × Document)} {key : String} {docs : List Document}
    (h : member ms key = .list docs) : children ms key = .ok docs := by
  rw [children, h, Indicator.list_orElse]
  rfl

theorem members_writeGroup {g : Group} {doc : Document} (h : writeGroup s g = .ok doc) :
    ∃ ms docs, doc = .record ms ∧ g.conditions.mapM (writeCondition s) = .ok docs ∧
      (lookup ms "id").isSome = true ∧ member ms "id" = .text g.id ∧ member ms "name" = .text g.name ∧
      member ms "conditions" = .list docs ∧ ∀ place, readFlag place ms "enabled" true = .ok g.enabled ∧
        readFlag place ms "required" false = .ok g.required ∧ readThreshold place ms = .ok g.minPass := by
  obtain ⟨docs, hdocs, h⟩ := bind_eq_ok.mp h
  cases h
  exact ⟨_, docs, rfl, hdocs, rfl, rfl, rfl, rfl, fun _ => ⟨rfl, rfl, rfl⟩⟩

theorem readGroup_writeGroup (hs : s.Sound) {g : Group} (hg : g.Drafted) (hshow : g.EachRef ValueRef.Showable)
    {doc : Document} (h : writeGroup s g = .ok doc) :
    readGroup s.normal place doc = .ok (g.mapRefs s.restored) := by
  obtain ⟨ms, docs, rfl, hdocs, hsome, hid, hname, hlist, hflags⟩ := members_writeGroup h
  have hconditions : ∀ place, docs.mapM (readCondition s.normal place) =
      .ok (g.conditions.map (Condition.mapRefs s.restored)) := fun place =>
    mapM_written hdocs fun c hc _ hdoc => readCondition_writeCondition hs (hg.conditions c hc) (hshow c hc) hdoc
  rw [readGroup, nodeMembers, if_pos hsome, ok_bind, inside_text hid, ok_bind]
  refine placed_eq_ok.mpr ?_
  rw [hid, Document.display, ok_bind, hname, displayOr_empty, ok_bind, children_list hlist, ok_bind, hconditions,
    ok_bind, (hflags _).1, ok_bind, (hflags _).2.1, ok_bind, (hflags _).2.2, ok_bind]
  refine Group.checked_eq_ok.mpr ⟨hg.id, ?_, rfl⟩
  rw [List.map_map]
  exact hg.ids

theorem members_writeContainer {c : Container} {doc : Document} (h : writeContainer s c = .ok doc) :
    ∃ ms docs, doc = .record ms ∧ c.groups.mapM (writeGroup s) = .ok docs ∧
      (lookup ms "id").isSome = true ∧ member ms "id" = .text c.id ∧ member ms "title" = .text c.title ∧
      member ms "groups" = .list docs ∧ ∀ place, readFlag place ms "enabled" true = .ok c.enabled ∧
        readFlag place ms "required" false = .ok c.required ∧ readThreshold place ms = .ok c.minPass := by
  obtain ⟨docs, hdocs, h⟩ := bind_eq_ok.mp h
  cases h
  exact ⟨_, docs, rfl, hdocs, rfl, rfl, rfl, rfl, fun _ => ⟨rfl, rfl, rfl⟩⟩

theorem readContainer_writeContainer (hs : s.Sound) {c : Container} (hc : c.Drafted)
    (hshow : c.EachRef ValueRef.Showable) {doc : Document} (h : writeContainer s c = .ok doc) :
    readContainer s.normal place doc = .ok (c.mapRefs s.restored) := by
  obtain ⟨ms, docs, rfl, hdocs, hsome, hid, htitle, hlist, hflags⟩ := members_writeContainer h
  have hgroups : ∀ place, docs.mapM (readGroup s.normal place) =
      .ok (c.groups.map (Group.mapRefs s.restored)) := fun place =>
    mapM_written hdocs fun g hg _ hdoc => readGroup_writeGroup hs (hc.groups g hg) (hshow g hg) hdoc
  rw [readContainer, nodeMembers, if_pos hsome, ok_bind, inside_text hid, ok_bind]
  refine placed_eq_ok.mpr ?_
  rw [hid, Document.display, ok_bind, htitle, displayOr_empty, ok_bind, children_list hlist, ok_bind, hgroups,
    ok_bind, (hflags _).1, ok_bind, (hflags _).2.1, ok_bind, (hflags _).2.2, ok_bind]
  refine Container.checked_eq_ok.mpr ⟨hc.id, ?_, rfl⟩
  rw [List.map_map]
  exact hc.ids

theorem members_writeBranch {b : Branch} {doc : Document} (h : writeBranch s b = .ok doc) :
    ∃ ms docs, doc.orElse (.record []) = .record ms ∧ b.containers.mapM (writeContainer s) = .ok docs ∧
      member ms "containers" = .list docs ∧ member ms "on_pass" = b.onPass.toDocument ∧
      ∀ place, readFlag place ms "enabled" true = .ok b.enabled ∧ readThreshold place ms = .ok b.minPass := by
  obtain ⟨docs, hdocs, h⟩ := bind_eq_ok.mp h
  cases h
  exact ⟨_, docs, rfl, hdocs, rfl, rfl, fun _ => ⟨rfl, rfl⟩⟩

theorem readBranch_writeBranch (hs : s.Sound) (slot : Slot) {b : Branch} (hb : b.Drafted)
    (hshow : b.EachRef ValueRef.Showable) {doc : Document} (h : writeBranch s b = .ok doc) :
    readBranch s.normal slot doc = .ok (b.mapRefs s.restored).unsigned := by
  obtain ⟨ms, docs, hms, hdocs, hlist, honPass, hflags⟩ := members_writeBranch h
  have hcontainers : docs.mapM (readContainer s.normal slot.name) =
      .ok (b.containers.map (Container.mapRefs s.restored)) :=
    mapM_written hdocs fun c hc _ hdoc => readContainer_writeContainer hs (hb.containers c hc) (hshow c hc) hdoc
  have hactions : readActions slot b.onPass.toDocument = .ok b.onPass.unsigned := hb.onPass.reread
  rw [readBranch, hms]
  refine placed_eq_ok.mpr ?_
  rw [children_list hlist, ok_bind, hcontainers, ok_bind, (hflags _).1, ok_bind, (hflags _).2, ok_bind,
    honPass, hactions, ok_bind]
  refine Branch.checked_eq_ok.mpr ⟨?_, rfl⟩
  show ((b.containers.map (Container.mapRefs s.restored)).map (·.id)).Nodup
  rw [List.map_map]
  exact hb.ids

theorem ofText_name (slot : Slot) : Slot.ofText slot.name = .ok slot := by
  cases slot <;> rfl

/-- Branches are put in their slots one after another. -/
theorem readBranches_slots {f : Slot → Branch} {slots : List Slot} {ms : List (String × Document)} (t : Tree)
    (h : List.Forall₂ (fun slot m => m.1 = slot.name ∧ readBranch s slot m.2 = .ok (f slot)) slots ms) :
    readBranches s t ms = .ok (slots.foldl (fun t slot => t.set slot (f slot)) t) := by
  induction h generalizing t with
  | nil => rfl
  | @cons slot m slots ms hm _ ih =>
      obtain ⟨key, raw⟩ := m
      obtain ⟨rfl, hread⟩ := hm
      rw [readBranches, ofText_name, placed, ok_bind, hread, ok_bind, List.foldl_cons]
      exact ih _

/-- **A tree comes back from what is written for it**, its references as the selection restores them. -/
theorem readTree_writeTree (hs : s.Sound) {t : Tree} (ht : t.Drafted) (hshow : t.EachRef ValueRef.Showable)
    {doc : Document} (h : writeTree s t = .ok doc) : readTree s.normal doc = .ok (t.mapRefs s.restored).unsigned := by
  obtain ⟨ms, hms, h⟩ := bind_eq_ok.mp h
  cases h
  rw [PerSlot.toList, List.mapM_map, mapM_eq_ok] at hms
  have hslots : List.Forall₂ (fun slot m => m.1 = slot.name ∧
      readBranch s.normal slot m.2 = .ok ((t.get slot).mapRefs s.restored).unsigned) Slot.all ms := by
    refine hms.imp fun slot m hm => ?_
    obtain ⟨doc, hdoc, hm⟩ := bind_eq_ok.mp hm
    cases hm
    exact ⟨rfl, readBranch_writeBranch hs slot (ht slot) (hshow slot) hdoc⟩
  -- every slot is written, so nothing of the empty tree is left
  rw [readTree, readBranches_slots Tree.empty hslots]
  rfl

end Written

end Draft

end Stratagem
