import Stratagem.Compiled
import Stratagem.Proofs.ValueRef.Wire

/-!
# Compiled strategies come back from their documents

Reading leaves a compiled strategy `Legible`: its methods are trimmed names, and its references would be read
from their own records. A legible strategy is read from its document as it is, up to the sign of a zero among
the bare numbers, which the document does not keep.
-/

namespace Stratagem

open Document (member)
open ValueRef (unsignedZero)

/-! ## Without the signs of zeros -/

def Argument.unsigned : Argument → Argument
  | .number x => .number (unsignedZero x)
  | a => a

def Call.unsigned (c : Call) : Call := { c with args := c.args.map Argument.unsigned }

def ActionSet.unsigned (a : ActionSet) : ActionSet := { a with calls := a.calls.map Call.unsigned }

namespace Compiled

def Group.unsigned (g : Group) : Group := { g with conditions := g.conditions.map Call.unsigned }

def Container.unsigned (c : Container) : Container := { c with groups := c.groups.map Group.unsigned }

def Branch.unsigned (b : Branch) : Branch :=
  { b with containers := b.containers.map Container.unsigned, onPass := b.onPass.unsigned }

def Logic.unsigned (l : Logic) : Logic := l.map fun _ b => b.unsigned

/-- Equal up to the signs of zeros. -/
def Logic.Same (l l' : Logic) : Prop := l.unsigned = l'.unsigned

end Compiled

theorem Argument.unsigned_unsigned (a : Argument) : a.unsigned.unsigned = a.unsigned := by
  cases a with
  | number x => exact congrArg Argument.number (ValueRef.unsignedZero_unsignedZero x)
  | _ => rfl

section Idempotent

variable {α : Type} {f : α → α}

theorem map_self {xs : List α} (h : ∀ x ∈ xs, f x = x) : xs.map f = xs :=
  (List.map_congr_left h).trans (List.map_id' xs)

/-- What is done once to the members of a list is done once to the list. -/
theorem map_map_self (h : ∀ x, f (f x) = f x) (xs : List α) : (xs.map f).map f = xs.map f := by
  rw [List.map_map]
  exact List.map_congr_left fun x _ => h x

end Idempotent

theorem Call.unsigned_unsigned (c : Call) : c.unsigned.unsigned = c.unsigned :=
  congrArg (fun args => { c with args }) (map_map_self Argument.unsigned_unsigned c.args)

theorem ActionSet.unsigned_unsigned (a : ActionSet) : a.unsigned.unsigned = a.unsigned :=
  congrArg (fun calls => { a with calls }) (map_map_self Call.unsigned_unsigned a.calls)

namespace Compiled

theorem Group.unsigned_unsigned (g : Group) : g.unsigned.unsigned = g.unsigned :=
  congrArg (fun conditions => { g with conditions }) (map_map_self Call.unsigned_unsigned g.conditions)

theorem Container.unsigned_unsigned (c : Container) : c.unsigned.unsigned = c.unsigned :=
  congrArg (fun groups => { c with groups }) (map_map_self Group.unsigned_unsigned c.groups)

theorem Branch.unsigned_unsigned (b : Branch) : b.unsigned.unsigned = b.unsigned :=
  congrArg₂ (fun containers onPass => { b with containers, onPass })
    (map_map_self Container.unsigned_unsigned b.containers) b.onPass.unsigned_unsigned

theorem Logic.unsigned_unsigned (l : Logic) : l.unsigned.unsigned = l.unsigned :=
  PerSlot.ext_get fun slot => by
    rw [unsigned, unsigned, PerSlot.get_map, PerSlot.get_map]
    exact (l.get slot).unsigned_unsigned

end Compiled

/-! ## Changes of calls -/

def Call.trimmed (c : Call) : Call := { c with method := Text.trim c.method }

namespace Compiled

section

variable (k : Call → Call)

def Group.mapCalls (g : Group) : Group := { g with conditions := g.conditions.map k }

def Container.mapCalls (c : Container) : Container := { c with groups := c.groups.map (Group.mapCalls k) }

def Branch.mapCalls (b : Branch) : Branch := { b with containers := b.containers.map (Container.mapCalls k) }

def Logic.mapCalls (l : Logic) : Logic := l.map fun _ b => b.mapCalls k

end

theorem Logic.mem_conditions {l : Logic} {d : Call} :
    d ∈ l.conditions ↔ ∃ slot, ∃ c ∈ (l.get slot).containers, ∃ g ∈ c.groups, d ∈ g.conditions := by
  simp only [conditions, Branch.conditions, PerSlot.toList, List.mem_flatMap, List.mem_map]
  constructor
  · rintro ⟨_, ⟨slot, -, rfl⟩, h⟩
    exact ⟨slot, h⟩
  · rintro ⟨slot, h⟩
    exact ⟨_, ⟨slot, slot.mem_all, rfl⟩, h⟩

section

variable {k k' : Call → Call}

theorem Group.mapCalls_congr {g : Group} (h : ∀ d ∈ g.conditions, k d = k' d) : g.mapCalls k = g.mapCalls k' :=
  congrArg (fun conditions => { g with conditions }) (List.map_congr_left h)

theorem Container.mapCalls_congr {c : Container} (h : ∀ g ∈ c.groups, ∀ d ∈ g.conditions, k d = k' d) :
    c.mapCalls k = c.mapCalls k' :=
  congrArg (fun groups => { c with groups }) (List.map_congr_left fun g hg => Group.mapCalls_congr (h g hg))

theorem Branch.mapCalls_congr {b : Branch}
    (h : ∀ c ∈ b.containers, ∀ g ∈ c.groups, ∀ d ∈ g.conditions, k d = k' d) : b.mapCalls k = b.mapCalls k' :=
  congrArg (fun containers => { b with containers })
    (List.map_congr_left fun c hc => Container.mapCalls_congr (h c hc))

theorem Logic.mapCalls_congr {l : Logic} (h : ∀ d ∈ l.conditions, k d = k' d) : l.mapCalls k = l.mapCalls k' := by
  refine PerSlot.ext_get fun slot => ?_
  rw [mapCalls, mapCalls, PerSlot.get_map, PerSlot.get_map]
  exact Branch.mapCalls_congr fun c hc g hg d hd => h d (mem_conditions.mpr ⟨slot, c, hc, g, hg, hd⟩)

theorem Group.mapCalls_self {g : Group} (h : ∀ d ∈ g.conditions, k d = d) : g.mapCalls k = g :=
  congrArg (fun conditions => { g with conditions }) (map_self h)

theorem Container.mapCalls_self {c : Container} (h : ∀ g ∈ c.groups, ∀ d ∈ g.conditions, k d = d) :
    c.mapCalls k = c :=
  congrArg (fun groups => { c with groups }) (map_self fun g hg => Group.mapCalls_self (h g hg))

theorem Branch.mapCalls_self {b : Branch}
    (h : ∀ c ∈ b.containers, ∀ g ∈ c.groups, ∀ d ∈ g.conditions, k d = d) : b.mapCalls k = b :=
  congrArg (fun containers => { b with containers }) (map_self fun c hc => Container.mapCalls_self (h c hc))

theorem Logic.mapCalls_self {l : Logic} (h : ∀ d ∈ l.conditions, k d = d) : l.mapCalls k = l := by
  refine PerSlot.ext_get fun slot => ?_
  rw [mapCalls, PerSlot.get_map]
  exact Branch.mapCalls_self fun c hc g hg d hd => h d (mem_conditions.mpr ⟨slot, c, hc, g, hg, hd⟩)

end

end Compiled

/-! ## Legible strategies -/

def Argument.Legible : Argument → Prop
  | .ref r => r.Admissible ∧ ∃ output, r.output = .text output
  | _ => True

structure Call.Legible (c : Call) : Prop where
  named : c.method.isEmpty = false
  trimmed : Text.trim c.method = c.method
  args : ∀ a ∈ c.args, a.Legible

def ActionSet.Legible (a : ActionSet) : Prop := ∀ c ∈ a.calls, c.Legible

namespace Compiled

def Group.Legible (g : Group) : Prop := ∀ c ∈ g.conditions, c.Legible

def Container.Legible (c : Container) : Prop := ∀ g ∈ c.groups, g.Legible

structure Branch.Legible (b : Branch) : Prop where
  containers : ∀ c ∈ b.containers, c.Legible
  onPass : b.onPass.Legible

def Logic.Legible (l : Logic) : Prop := ∀ slot, (l.get slot).Legible

end Compiled

/-! ## What was read is legible -/

theorem Argument.legible_of_ofDocument (raw : Document) (a : Argument) (h : ofDocument raw = .ok a) :
    a.Legible := by
  cases raw with
  | record ms =>
      obtain ⟨r, hr, h⟩ := bind_eq_ok.mp h
      cases h
      exact ValueRef.ofDocument_admissible hr
  | int n =>
      obtain ⟨x, -, h⟩ := bind_eq_ok.mp h
      cases h
      trivial
  | real x =>
      obtain ⟨x, -, h⟩ := bind_eq_ok.mp h
      cases h
      trivial
  | text s =>
      cases h
      trivial
  | null => exact absurd h bind_throw_ne_ok
  | bool b => exact absurd h bind_throw_ne_ok
  | list xs => exact absurd h bind_throw_ne_ok

theorem Wire.readMethod_eq_ok {ms : List (String × Document)} {name : String} :
    Wire.readMethod ms = .ok name ↔
      ∃ s, member ms "method" = .text s ∧ Text.trim s = name ∧ name.isEmpty = false := by
  unfold Wire.readMethod
  constructor
  · intro h
    split at h
    · split at h
      · cases h
      · rename_i hmember hblank
        cases h
        exact ⟨_, hmember, rfl, Bool.eq_false_of_not_eq_true hblank⟩
    · exact absurd h bind_throw_ne_ok
  · rintro ⟨s, hmember, rfl, hnamed⟩
    rw [hmember]
    dsimp only
    rw [hnamed, if_neg Bool.false_ne_true]

theorem Call.legible_of_ofDocument (raw : Document) (c : Call) (h : ofDocument raw = .ok c) : c.Legible := by
  obtain ⟨ms, -, h⟩ := bind_eq_ok.mp h
  obtain ⟨method, hmethod, h⟩ := bind_eq_ok.mp h
  obtain ⟨items, -, h⟩ := bind_eq_ok.mp h
  obtain ⟨args, hargs, h⟩ := bind_eq_ok.mp h
  obtain ⟨enabled, -, h⟩ := bind_eq_ok.mp h
  obtain ⟨required, -, h⟩ := bind_eq_ok.mp h
  cases h
  obtain ⟨s, -, rfl, hnamed⟩ := Wire.readMethod_eq_ok.mp hmethod
  exact ⟨hnamed, Text.trim_trim s, forall_of_mapM Argument.legible_of_ofDocument hargs⟩

theorem ActionSet.legible_of_ofDocument (raw : Document) (a : ActionSet) (h : ofDocument raw = .ok a) :
    a.Legible := by
  obtain ⟨ms, -, h⟩ := bind_eq_ok.mp h
  obtain ⟨items, -, h⟩ := bind_eq_ok.mp h
  obtain ⟨calls, hcalls, h⟩ := bind_eq_ok.mp h
  obtain ⟨enabled, -, h⟩ := bind_eq_ok.mp h
  obtain ⟨minPass, -, h⟩ := bind_eq_ok.mp h
  cases h
  exact forall_of_mapM Call.legible_of_ofDocument hcalls

theorem ActionSet.makeTrade_legible (slot : Slot) : (ActionSet.makeTrade slot.action).Legible := by
  have htrim : Text.trim "MakeTrade" = "MakeTrade" := rfl
  intro c hc
  cases List.mem_singleton.mp hc
  exact ⟨rfl, htrim, List.forall_mem_singleton.mpr trivial⟩

namespace Compiled

theorem Group.legible_of_ofDocument (raw : Document) (g : Group) (h : ofDocument raw = .ok g) :
    g.Legible := by
  obtain ⟨ms, -, h⟩ := bind_eq_ok.mp h
  obtain ⟨items, -, h⟩ := bind_eq_ok.mp h
  obtain ⟨conditions, hconditions, h⟩ := bind_eq_ok.mp h
  obtain ⟨enabled, -, h⟩ := bind_eq_ok.mp h
  obtain ⟨minPass, -, h⟩ := bind_eq_ok.mp h
  obtain ⟨required, -, h⟩ := bind_eq_ok.mp h
  cases h
  exact forall_of_mapM Call.legible_of_ofDocument hconditions

theorem Container.legible_of_ofDocument (raw : Document) (c : Container) (h : ofDocument raw = .ok c) :
    c.Legible := by
  obtain ⟨ms, -, h⟩ := bind_eq_ok.mp h
  obtain ⟨checks, -, h⟩ := bind_eq_ok.mp h
  obtain ⟨items, -, h⟩ := bind_eq_ok.mp h
  obtain ⟨groups, hgroups, h⟩ := bind_eq_ok.mp h
  obtain ⟨enabled, -, h⟩ := bind_eq_ok.mp h
  obtain ⟨minPass, -, h⟩ := bind_eq_ok.mp h
  obtain ⟨required, -, h⟩ := bind_eq_ok.mp h
  cases h
  exact forall_of_mapM Group.legible_of_ofDocument hgroups

theorem Branch.legible_of_ofDocument (raw : Document) (b : Branch) (h : ofDocument raw = .ok b) :
    b.Legible := by
  obtain ⟨ms, -, h⟩ := bind_eq_ok.mp h
  obtain ⟨enabled, -, h⟩ := bind_eq_ok.mp h
  obtain ⟨minPass, -, h⟩ := bind_eq_ok.mp h
  obtain ⟨items, -, h⟩ := bind_eq_ok.mp h
  obtain ⟨containers, hcontainers, h⟩ := bind_eq_ok.mp h
  obtain ⟨onPass, honPass, h⟩ := bind_eq_ok.mp h
  cases h
  exact ⟨forall_of_mapM Container.legible_of_ofDocument hcontainers,
    ActionSet.legible_of_ofDocument _ _ honPass⟩

theorem Branch.legible_of_ofSlot {ms : List (String × Document)} {slot : Slot} {b : Branch}
    (h : ofSlot ms slot = .ok b) : b.Legible := by
  obtain ⟨phase, -, h⟩ := bind_eq_ok.mp h
  split at h
  · cases h
    exact ⟨nofun, ActionSet.makeTrade_legible slot⟩
  · exact legible_of_ofDocument _ _ h

theorem Logic.legible_of_ofDocument {raw : Document} {l : Logic} (h : ofDocument raw = .ok l) :
    l.Legible := by
  obtain ⟨ms, -, h⟩ := bind_eq_ok.mp h
  exact fun slot => Branch.legible_of_ofSlot (PerSlot.ofFnM_eq_ok.mp h slot)

end Compiled

/-! ## Legible strategies come back -/

theorem Argument.Legible.reread {a : Argument} (h : a.Legible) : ofDocument a.toDocument = .ok a.unsigned := by
  cases a with
  | ref r =>
      obtain ⟨hr, output, houtput⟩ := h
      show (ValueRef.ofDocument r.toDocument >>= _) = _
      rw [hr.reread (ValueRef.NamesOutput.showable ⟨output, houtput⟩), hr.spelledOut_eq houtput]
      rfl
  | number x =>
      have hread : ofDocument (.ofReal x) = (Document.ofReal x).toReal >>= fun x => .ok (.number x) := by
        unfold Document.ofReal
        cases Number.integral? x <;> rfl
      rw [toDocument, hread, ValueRef.toReal_ofReal]
      rfl
  | text s => rfl

/-- The members of a written call. -/
theorem Call.record_toDocument (c : Call) : ∃ ms, c.toDocument = .record ms ∧
    member ms "method" = .text c.method ∧
    Wire.list ms "args" = .ok (c.args.map Argument.toDocument) ∧
    Wire.flag ms "enabled" true = .ok c.enabled ∧ Wire.flag ms "required" false = .ok c.required :=
  ⟨_, rfl, rfl, rfl, rfl, rfl⟩

/-- A call is read with its method trimmed and with its arguments as they are read. -/
theorem Call.reread_args {c : Call} {f : Argument → Argument} (hnamed : (Text.trim c.method).isEmpty = false)
    (hargs : ∀ a ∈ c.args, Argument.ofDocument a.toDocument = .ok (f a)) :
    ofDocument c.toDocument = .ok { c.trimmed with args := c.args.map f } := by
  obtain ⟨ms, hrecord, hmethod, hlist, henabled, hrequired⟩ := c.record_toDocument
  have hargs : (c.args.map Argument.toDocument).mapM Argument.ofDocument = .ok (c.args.map f) := mapM_reread hargs
  have hread : Wire.readMethod ms = .ok (Text.trim c.method) :=
    Wire.readMethod_eq_ok.mpr ⟨_, hmethod, rfl, hnamed⟩
  rw [hrecord, ofDocument, Wire.record, ok_bind, hread, ok_bind, hlist, ok_bind, hargs, ok_bind, henabled,
    ok_bind, hrequired]
  rfl

theorem Call.reread {c : Call} (hnamed : (Text.trim c.method).isEmpty = false) (hargs : ∀ a ∈ c.args, a.Legible) :
    ofDocument c.toDocument = .ok c.trimmed.unsigned :=
  Call.reread_args hnamed fun a ha => (hargs a ha).reread

/-- Only a call with a name is read. -/
theorem Call.named_of_reread {c d : Call} (h : ofDocument c.toDocument = .ok d) :
    (Text.trim c.method).isEmpty = false := by
  obtain ⟨ms, hrecord, hmethod, -⟩ := c.record_toDocument
  rw [hrecord, ofDocument, Wire.record, ok_bind] at h
  obtain ⟨name, hread, -⟩ := bind_eq_ok.mp h
  obtain ⟨s, hs, rfl, hnamed⟩ := Wire.readMethod_eq_ok.mp hread
  cases hmethod.symm.trans hs
  exact hnamed

/-- What was read from the document of a call was read from the documents of its arguments. -/
theorem Call.exists_arg_of_reread {c d : Call} (h : ofDocument c.toDocument = .ok d) :
    ∀ a ∈ c.args, ∃ b, Argument.ofDocument a.toDocument = .ok b := by
  obtain ⟨ms, hrecord, -, hlist, -⟩ := c.record_toDocument
  rw [hrecord, ofDocument, Wire.record, ok_bind] at h
  obtain ⟨name, -, h⟩ := bind_eq_ok.mp h
  rw [hlist, ok_bind] at h
  obtain ⟨args, hargs, -⟩ := bind_eq_ok.mp h
  exact fun a ha => exists_of_mapM hargs _ (List.mem_map_of_mem ha)

theorem Call.Legible.reread {c : Call} (h : c.Legible) : ofDocument c.toDocument = .ok c.unsigned := by
  rw [Call.reread (by rw [h.trimmed, h.named]) h.args, Call.trimmed, h.trimmed]

theorem ActionSet.Legible.reread {a : ActionSet} (h : a.Legible) : ofDocument a.toDocument = .ok a.unsigned := by
  have hcalls : (a.calls.map Call.toDocument).mapM Call.ofDocument = .ok (a.calls.map Call.unsigned) :=
    mapM_reread fun c hc => (h c hc).reread
  show ((a.calls.map Call.toDocument).mapM Call.ofDocument >>= _) = _
  rw [hcalls]
  rfl

namespace Compiled

section Reread

variable {k : Call → Call}

/-- A level is read as what its calls are read as. -/
theorem Group.reread {g : Group} (h : ∀ c ∈ g.conditions, Call.ofDocument c.toDocument = .ok (k c)) :
    ofDocument g.toDocument = .ok (g.mapCalls k) := by
  have hconditions : (g.conditions.map Call.toDocument).mapM Call.ofDocument = .ok (g.conditions.map k) :=
    mapM_reread h
  obtain ⟨conditions, enabled, minPass, required⟩ := g
  show ((conditions.map Call.toDocument).mapM Call.ofDocument >>= _) = _
  rw [hconditions]
  cases required <;> rfl

theorem Container.reread {c : Container}
    (h : ∀ g ∈ c.groups, ∀ d ∈ g.conditions, Call.ofDocument d.toDocument = .ok (k d)) :
    ofDocument c.toDocument = .ok (c.mapCalls k) := by
  have hgroups : (c.groups.map Group.toDocument).mapM Group.ofDocument = .ok (c.groups.map (Group.mapCalls k)) :=
    mapM_reread fun g hg => Group.reread (h g hg)
  obtain ⟨groups, enabled, minPass, required⟩ := c
  show ((groups.map Group.toDocument).mapM Group.ofDocument >>= _) = _
  rw [hgroups]
  cases required <;> rfl

theorem Branch.reread {b : Branch}
    (h : ∀ c ∈ b.containers, ∀ g ∈ c.groups, ∀ d ∈ g.conditions, Call.ofDocument d.toDocument = .ok (k d))
    (honPass : b.onPass.Legible) :
    ofDocument b.toDocument = .ok { b.mapCalls k with onPass := b.onPass.unsigned } := by
  have hcontainers : (b.containers.map Container.toDocument).mapM Container.ofDocument =
      .ok (b.containers.map (Container.mapCalls k)) :=
    mapM_reread fun c hc => Container.reread (h c hc)
  show ((b.containers.map Container.toDocument).mapM Container.ofDocument >>= _) = _
  rw [hcontainers, ok_bind]
  show (ActionSet.ofDocument b.onPass.toDocument >>= _) = _
  rw [honPass.reread]
  rfl

end Reread

/-- Every slot has a branch in the document of a strategy. -/
theorem Branch.ofSlot_toDocument (l : Logic) (slot : Slot) :
    Branch.ofSlot [
      ("entry", .record [("long", l.entryLong.toDocument), ("short", l.entryShort.toDocument)]),
      ("exit", .record [("long", l.exitLong.toDocument), ("short", l.exitShort.toDocument)])] slot =
        ofDocument (l.get slot).toDocument := by
  cases slot <;> rfl

theorem Logic.reread {k : Call → Call} {l : Logic}
    (h : ∀ d ∈ l.conditions, Call.ofDocument d.toDocument = .ok (k d))
    (honPass : ∀ slot, (l.get slot).onPass.Legible) :
    ofDocument l.toDocument =
      .ok ((l.mapCalls k).map fun _ b => { b with onPass := b.onPass.unsigned }) :=
  PerSlot.ofFnM_eq_ok.mpr fun slot => by
    have hslot : ∀ c ∈ (l.get slot).containers, ∀ g ∈ c.groups, ∀ d ∈ g.conditions,
        Call.ofDocument d.toDocument = .ok (k d) :=
      fun c hc g hg d hd => h d (mem_conditions.mpr ⟨slot, c, hc, g, hg, hd⟩)
    rw [Branch.ofSlot_toDocument, Branch.reread hslot (honPass slot), PerSlot.get_map, Logic.mapCalls,
      PerSlot.get_map]
    rfl

/-! What was read from the document of a level was read from the documents of its calls. -/

theorem Group.exists_of_reread {g g' : Group} (h : ofDocument g.toDocument = .ok g') :
    ∀ c ∈ g.conditions, ∃ d, Call.ofDocument c.toDocument = .ok d := by
  obtain ⟨conditions, enabled, minPass, required⟩ := g
  change ((conditions.map Call.toDocument).mapM Call.ofDocument >>= _) = _ at h
  obtain ⟨calls, hcalls, -⟩ := bind_eq_ok.mp h
  exact fun c hc => exists_of_mapM hcalls _ (List.mem_map_of_mem hc)

theorem Container.exists_of_reread {c c' : Container} (h : ofDocument c.toDocument = .ok c') :
    ∀ g ∈ c.groups, ∀ d ∈ g.conditions, ∃ d', Call.ofDocument d.toDocument = .ok d' := by
  obtain ⟨groups, enabled, minPass, required⟩ := c
  change ((groups.map Group.toDocument).mapM Group.ofDocument >>= _) = _ at h
  obtain ⟨groups', hgroups, -⟩ := bind_eq_ok.mp h
  intro g hg
  obtain ⟨g', hread⟩ := exists_of_mapM hgroups _ (List.mem_map_of_mem hg)
  exact Group.exists_of_reread hread

theorem Branch.exists_of_reread {b b' : Branch} (h : ofDocument b.toDocument = .ok b') :
    ∀ c ∈ b.containers, ∀ g ∈ c.groups, ∀ d ∈ g.conditions, ∃ d', Call.ofDocument d.toDocument = .ok d' := by
  change ((b.containers.map Container.toDocument).mapM Container.ofDocument >>= _) = _ at h
  obtain ⟨containers, hcontainers, -⟩ := bind_eq_ok.mp h
  intro c hc
  obtain ⟨c', hread⟩ := exists_of_mapM hcontainers _ (List.mem_map_of_mem hc)
  exact Container.exists_of_reread hread

theorem Logic.exists_of_reread {l l' : Logic} (h : ofDocument l.toDocument = .ok l') :
    ∀ d ∈ l.conditions, ∃ d', Call.ofDocument d.toDocument = .ok d' := by
  intro d hd
  obtain ⟨slot, c, hc, g, hg, hd⟩ := mem_conditions.mp hd
  have hslot := PerSlot.ofFnM_eq_ok.mp h slot
  rw [Branch.ofSlot_toDocument] at hslot
  exact Branch.exists_of_reread hslot c hc g hg d hd

theorem Logic.Legible.conditions {l : Logic} (h : l.Legible) : ∀ d ∈ l.conditions, d.Legible := by
  intro d hd
  obtain ⟨slot, c, hc, g, hg, hd⟩ := mem_conditions.mp hd
  exact (h slot).containers c hc g hg d hd

theorem Logic.Legible.reread {l : Logic} (h : l.Legible) : ofDocument l.toDocument = .ok l.unsigned := by
  rw [Logic.reread (fun d hd => (h.conditions d hd).reread) fun slot => (h slot).onPass, Logic.mapCalls]
  refine congrArg _ (PerSlot.ext_get fun slot => ?_)
  rw [PerSlot.get_map, PerSlot.get_map, unsigned, PerSlot.get_map]
  rfl

/-- **A compiled strategy comes back from its own document** as the strategy that was read, whatever the
document it was read from has left out or spelled otherwise. -/
theorem Logic.document_roundTrip {raw : Document} {l : Logic} (h : ofDocument raw = .ok l) :
    ∃ l', ofDocument l.toDocument = .ok l' ∧ l'.Same l :=
  ⟨l.unsigned, (legible_of_ofDocument h).reread, l.unsigned_unsigned⟩

/-- A document that says no more than it must: the other branches are missing, the threshold is a double, the
method and the inputs have blanks around them, and numbers stand beside references and texts. -/
def Logic.sparse : Document :=
  let args : List Document := [
    .record [("refType", .text "Field"), ("input", .text " close ")],
    .record [("refType", .text "number"), ("input", .text " 3e1 "), ("output", .null)],
    .record [("indicator", .text "RSI"), ("params", .list [.real (-0.0), .int 14]), ("offsetRange", .int 1)],
    .real (-0.0), .text "2.50"]
  let group : Document := .record [
    ("conditions", .list [.record [("method", .text " Between "), ("args", .list args)]])]
  .record [("entry", .record [("long", .record [
    ("enabled", .null), ("minPassConditionContainer", .real 2),
    ("containers", .list [.record [("checks", .record [("required", .bool true), ("groups", .list [group])])]])])])]

theorem Logic.document_roundTrip_sparse : ∃ l l',
    ofDocument sparse = .ok l ∧ ofDocument l.toDocument = .ok l' ∧ l'.Same l := by
  obtain ⟨l, hl⟩ : ∃ l, ofDocument sparse = .ok l := ⟨_, rfl⟩
  obtain ⟨l', hl', hsame⟩ := document_roundTrip hl
  exact ⟨l, l', hl, hl', hsame⟩

end Compiled

end Stratagem
