import Stratagem.Draft
import Stratagem.Proofs.Compiled.Refusal

/-!
# Drafts that are refused

A document that is no draft is refused as malformed, or for something that no level puts in its place. The
levels of the tree put the failures of values in their place, and not those of types, so that children that
cannot be listed escape; a condition and an indicator put types in their place as well, but the left operand
stands outside of that; a number beyond every double and an infinite end of a window escape everywhere.
-/

namespace Stratagem

open Document (member lookup intText_refuses quoted_refuses display_refuses displayOr_refuses)
open Failure (Coercion ReportedOr PlaceableOr)

/-! ## Indicators -/

namespace Indicator

/-- What an indicator is refused for without being called malformed. Its parameters and its window are read like those
of a reference; what is no list there is a failure of a type, and put in its place. Its code is shown outside of that
place, and its id is shown to name it. -/
inductive Unplaced (raw : Document) : Coercion → Prop
  | part {ms : List (String × Document)} {c : Coercion} : raw.Occurs (.record ms) → ValueRef.Unplaced ms c →
      c.kind = .overflow → Unplaced raw c
  | unwritable {key : String} {d : Document} : key ∈ ["indicator", "code", "id"] → raw.Under key d → ¬ d.Writable →
      Unplaced raw .tooLongToWrite

section Parts

variable {bare : Coercion → Prop} (htype : ∀ c : Coercion, c.kind = .type → bare c)

include htype

theorem items_refuse_type (d : Document) : Refuses (PlaceableOr bare) d.items :=
  (Document.items_refuses d).imp fun _ ⟨hf, _⟩ => Or.inr ⟨_, hf, htype _ rfl⟩

theorem readOutputs_refuses (raw named : Document) : Refuses (PlaceableOr bare) (readOutputs raw named) := by
  have hmake (key hint : String) : Refuses (PlaceableOr bare) (Output.make key hint) :=
    Refuses.ite (Refuses.error (Or.inl rfl)) (Refuses.ok _)
  refine (items_refuse_type htype _).bind fun xs _ => Refuses.bind (Refuses.mapM fun x _ => ?_) fun os _ => ?_
  · unfold Output.ofDocument
    split
    · exact (displayOr_refuses _ _).bind fun key _ => (displayOr_refuses _ _).bind fun hint _ => hmake _ _
    · exact (display_refuses _).bind fun key _ => hmake _ _
  · cases os with
    | nil => exact (displayOr_refuses _ _).bind fun key _ => (hmake _ _).bind fun o _ => Refuses.ok _
    | cons o os => exact Refuses.ok _

theorem readOffset_refuses (raw : Document) : Refuses (PlaceableOr bare) (readOffset raw) := by
  have hcount (d : Document) : Refuses (PlaceableOr bare) d.count := by
    cases d with
    | list xs => exact Refuses.ok _
    | record ms => exact Refuses.ok _
    | text s => exact Refuses.ok _
    | null => exact Refuses.error (.ofBare (htype _ rfl))
    | bool b => exact Refuses.error (.ofBare (htype _ rfl))
    | int n => exact Refuses.error (.ofBare (htype _ rfl))
    | real x => exact Refuses.error (.ofBare (htype _ rfl))
  refine (hcount _).bind fun _ _ => (items_refuse_type htype _).bind fun values _ => ?_
  split
  · exact Refuses.ok _
  · exact (quoted_refuses _).throwing fun _ => Or.inl rfl

end Parts

/-- The ends that were read are listed, the current bar by default. -/
theorem items_of_readOffset {raw low high : Document} (h : readOffset raw = .ok (low, high)) :
    (raw.orElse (.list [.int 0, .int 0])).items = .ok [low, high] := by
  obtain ⟨count, -, h⟩ := bind_eq_ok.mp h
  obtain ⟨values, hvalues, h⟩ := bind_eq_ok.mp h
  split at h
  · cases h
    exact hvalues
  · exact absurd h bind_throw_ne_ok

theorem readParts_refuses (code : String) (ms config : List (String × Document)) :
    Refuses (PlaceableOr fun c => c.kind = .type ∨ ValueRef.Unplaced config c ∧ c.kind = .overflow)
      (readParts code ms config) := by
  have htype (c : Coercion) (hc : c.kind = .type) :
      c.kind = .type ∨ ValueRef.Unplaced config c ∧ c.kind = .overflow := Or.inl hc
  unfold readParts
  dsimp only
  refine (readOutputs_refuses htype _ _).bind fun outputs _ => ?_
  refine (readOffset_refuses htype _).bind fun ⟨low, high⟩ hends => ?_
  refine (displayOr_refuses _ _).bind fun id _ => ((displayOr_refuses _ _).map _).bind fun timeframe _ => ?_
  refine ((displayOr_refuses _ _).map _).bind fun input _ => (items_refuse_type htype _).bind fun xs hxs => ?_
  refine ((displayOr_refuses _ _).map _).bind fun calcMode _ => ?_
  have hparam (x : Document) (hx : x ∈ xs) :
      Refuses (PlaceableOr fun c => c.kind = .type ∨ ValueRef.Unplaced config c ∧ c.kind = .overflow)
        x.toReal := by
    refine (Document.toReal_refuses x).widen fun c hc => ?_
    cases hc with
    | shape _ => exact Or.inl rfl
    | tooLarge hn =>
        have hlist := Document.eq_list_of_items hxs hx (by simp)
        refine Or.inr ⟨.param (Document.lookup_of_orElse hlist ?_) hx hn, rfl⟩
        rintro ⟨⟩
        cases hx
  have hend (d : Document) (hd : d ∈ [low, high]) :
      Refuses (PlaceableOr fun c => c.kind = .type ∨ ValueRef.Unplaced config c ∧ c.kind = .overflow)
        d.toInteger := by
    refine (Document.toInteger_refuses d).widen fun c hc => ?_
    cases hc with
    | shape _ => exact Or.inl rfl
    | infinity hx =>
        have hlist := Document.eq_list_of_items (items_of_readOffset hends) hd (by simp)
        refine Or.inr ⟨.window (Document.lookup_of_orElse hlist ?_) hd hx, rfl⟩
        rintro ⟨⟩
        rcases List.mem_pair.mp hd with hd | hd <;> cases hd
  refine Refuses.ite (Refuses.error (Or.inl rfl)) (Refuses.ite (Refuses.error (Or.inl rfl)) ?_)
  refine (Refuses.mapM hparam).bind fun params _ => ?_
  exact (hend low (by simp)).bind fun l _ => (hend high (by simp)).bind fun h _ => Refuses.ok _

/-- What is put at an id that cannot be shown is not put there. -/
theorem placedAt_refuses {α : Type} {bare bare' : Coercion → Prop} {id : Document} {run : Except Failure α}
    (h : Refuses (PlaceableOr bare) run)
    (hbare : ∀ c, bare c → (Failure.coercion c).isOfValue true = false → bare' c)
    (hid : ¬ id.Writable → bare' .tooLongToWrite) : Refuses (ReportedOr bare') (placedAt id run) := by
  cases run with
  | ok a => exact Refuses.ok a
  | error f =>
      unfold placedAt
      dsimp only
      split
      · exact (Refuses.bareUnless (Document.quoted_writesIf id) hid).throwing fun _ => Failure.reported_malformed _ f
      · rename_i hvalue
        rcases h f rfl with hof | ⟨c, rfl, hc⟩
        · exact absurd (Failure.isOfValue_of_false hof) hvalue
        · exact Refuses.error (.ofBare (hbare c hc (Bool.eq_false_of_not_eq_true hvalue)))

theorem ofDocument_refuses (raw : Document) : Refuses (ReportedOr (Unplaced raw)) (ofDocument raw) := by
  cases raw with
  | record ms =>
      have hmember {key : String} (hkey : key ∈ ["indicator", "code", "id"]) {config : List (String × Document)}
          (hwithin : (Document.record config).Within (.record ms)) (hd : ¬ (member config key).Writable) :
          Unplaced (.record ms) .tooLongToWrite := by
        refine .unwritable hkey (hwithin _ _ (.of_lookup (Document.lookup_of_member rfl fun hnull => hd ?_))) hd
        rw [hnull]
        trivial
      obtain ⟨config, hoccurs, hread⟩ : ∃ config, (Document.record ms).Occurs (.record config) ∧
          ofDocument (.record ms) = (((member config "indicator").orElse (member ms "code")).displayOr "" >>= fun code =>
            placedAt (member ms "id") (readParts (Text.trim code) ms config)) := by
        rw [ofDocument]
        split
        · rename_i config hconfig
          have hlookup := Document.lookup_of_member hconfig (by simp)
          exact ⟨config, .member (Document.mem_of_lookup hlookup) .here, rfl⟩
        · exact ⟨ms, .here, rfl⟩
      rw [hread]
      refine (Refuses.bareUnless (Document.displayOr_writesIf _ _) fun hd => ?_).bind fun code _ => ?_
      · rw [Document.orElse] at hd
        split at hd
        · exact hmember (by decide) Document.Occurs.here.within hd
        · exact hmember (by decide) hoccurs.within hd
      · refine placedAt_refuses (readParts_refuses _ ms config) (fun c hc hkind => ?_)
          (hmember (by decide) Document.Occurs.here.within)
        rcases hc with htype | hc
        · exact absurd htype (Failure.kind_ne_type hkind)
        · exact .part hoccurs hc.1 hc.2
  | _ => exact Refuses.error (Or.inl rfl)

end Indicator

/-! ## Trade settings -/

namespace Trade

def amountKeys : List String :=
  ["orderQty", "maxPositionQty", "takeProfitPct", "stopLossPct", "activationProfitPct", "closeOnDrawdownPct"]

/-- What trade settings are refused for without being called malformed. -/
inductive Unplaced (raw : Document) : Coercion → Prop
  | mode {d : Document} : raw.Under "positionMode" d → (∀ s, d ≠ .text s) → d.isEmpty = false →
      Unplaced raw (.noTextOperation d)
  | amount {key : String} {n : Int} : key ∈ amountKeys → raw.Under key (.int n) → Number.ofInt? n = none →
      Unplaced raw .realTooLarge

variable {raw : Document} {ms : List (String × Document)}

theorem lenientReal_refuses (d : Document) :
    Refuses (fun f => f = .coercion .realTooLarge ∧ ∃ n, d = .int n ∧ Number.ofInt? n = none) d.lenientReal := by
  rw [Document.lenientReal]
  refine Refuses.ite (Refuses.ok _) ?_
  cases hread : d.trimmed.toReal with
  | ok x => exact Refuses.ok _
  | error f =>
      dsimp only
      split
      · rename_i hkind
        refine Refuses.error ?_
        rcases Document.toReal_refuses d.trimmed f hread with hvalue | ⟨c, rfl, hc⟩
        · rw [Failure.isOfValue, eq_of_beq hkind] at hvalue
          cases hvalue
        · generalize htrimmed : d.trimmed = e at hc
          cases hc with
          | shape _ => cases hkind
          | tooLarge hn =>
              cases d with
              | int n =>
                  cases htrimmed
                  exact ⟨rfl, _, rfl, hn⟩
              | _ => cases htrimmed
      · exact Refuses.ok _

theorem amount_refuses {key : String} (hkey : key ∈ amountKeys) (hms : (Document.record ms).Within raw) :
    Refuses (PlaceableOr (Unplaced raw)) (member ms key).lenientReal := by
  refine (lenientReal_refuses _).imp ?_
  rintro _ ⟨rfl, n, hmember, hn⟩
  have hlookup := Document.lookup_of_member hmember (by simp)
  exact .ofBare (.amount hkey (hms _ _ (.of_lookup hlookup)) hn)

theorem mergePositionMode_refuses (base : String) (hms : (Document.record ms).Within raw) :
    Refuses (PlaceableOr (Unplaced raw)) (mergePositionMode ms base) := by
  refine Refuses.bind ?_ fun mode _ => Refuses.ok _
  have hmode {d : Document} (hd : member ms "positionMode" = d) (htext : ∀ s, d ≠ .text s) :
      Refuses (PlaceableOr (Unplaced raw))
        (if d.isEmpty then .ok "" else Document.refuse (.noTextOperation d) : Except Failure String) := by
    by_cases hempty : d.isEmpty = true
    · rw [if_pos hempty]
      exact Refuses.ok _
    · rw [if_neg hempty]
      refine Refuses.error (.ofBare (.mode (hms _ _ ?_) htext (Bool.eq_false_of_not_eq_true hempty)))
      refine .of_lookup (Document.lookup_of_member hd fun hnull => hempty ?_)
      rw [hnull]
      rfl
  cases hd : member ms "positionMode" with
  | text s => exact Refuses.ok _
  | null => exact hmode hd (by simp)
  | bool b => exact hmode hd (by simp)
  | int n => exact hmode hd (by simp)
  | real x => exact hmode hd (by simp)
  | list xs => exact hmode hd (by simp)
  | record ms' => exact hmode hd (by simp)

theorem text_refuses {bare : Coercion → Prop} (q : Number) : Refuses (PlaceableOr bare) q.text := by
  cases q with
  | int n => exact intText_refuses n
  | real x => exact Refuses.ok _

theorem mergeText_refuses {bare : Coercion → Prop} (ms : List (String × Document)) (key base : String) :
    Refuses (PlaceableOr bare) (mergeText ms key base) := by
  refine Refuses.bind ?_ fun read _ => ?_
  · unfold Document.lenientText
    split
    · exact Refuses.ok _
    · exact (display_refuses _).map _
  · cases read <;> exact Refuses.ok _

theorem mergeSizing_refuses (base : Sizing) (hms : (Document.record ms).Within raw) :
    Refuses (PlaceableOr (Unplaced raw)) (mergeSizing base ms) := by
  refine Refuses.bind ((amount_refuses (by decide) hms).bind fun _ _ => Refuses.ok _) fun orderQty _ => ?_
  refine Refuses.bind ((amount_refuses (by decide) hms).bind fun _ _ => Refuses.ok _) fun maxPositionQty _ => ?_
  unfold Sizing.checked
  dsimp only
  refine Refuses.ite (Refuses.error (Or.inl rfl)) (Refuses.ite ((text_refuses _).throwing fun _ => Or.inl rfl) ?_)
  exact Refuses.ite ((intText_refuses _).throwing fun _ => Or.inl rfl) (Refuses.ok _)

theorem mergeRisk_refuses {trailing : List (String × Document)} (base : Risk)
    (hms : (Document.record ms).Within raw) (htrailing : (Document.record trailing).Within raw) :
    Refuses (PlaceableOr (Unplaced raw)) (mergeRisk base ms trailing) := by
  refine Refuses.bind ((amount_refuses (by decide) hms).bind fun _ _ => Refuses.ok _) fun takeProfitPct _ => ?_
  refine Refuses.bind ((amount_refuses (by decide) hms).bind fun _ _ => Refuses.ok _) fun stopLossPct _ => ?_
  refine Refuses.bind ?_ fun trailing _ => Refuses.ok _
  refine Refuses.bind ((amount_refuses (by decide) htrailing).bind fun _ _ => Refuses.ok _) fun profit _ => ?_
  refine Refuses.bind ((amount_refuses (by decide) htrailing).bind fun _ _ => Refuses.ok _) fun drawdown _ => ?_
  exact Refuses.ok _

theorem subsection_refuses {bare : Coercion → Prop} (ms : List (String × Document)) (key what : String) :
    Refuses (ReportedOr bare) (subsection ms key what) := by
  unfold subsection
  split
  · exact Refuses.ok _
  · exact Wire.record_refuses what _

theorem within_subsection {sub : List (String × Document)} {key what : String}
    (h : subsection ms key what = .ok sub) : (Document.record sub).Within (.record ms) := by
  unfold subsection at h
  split at h
  · cases h
    exact Document.nil_within _
  · rw [← Wire.eq_of_record h]
    exact Document.within_member ms key

theorem merge_refuses (base : Trade) (raw : Document) : Refuses (ReportedOr (Unplaced raw)) (merge base raw) := by
  refine Refuses.ite (Refuses.ok _) ((Wire.record_refuses _ raw).bind fun ms hms => ?_)
  rw [Wire.eq_of_record hms]
  refine (subsection_refuses ms _ _).bind fun sizing hsizing => (subsection_refuses ms _ _).bind fun risk hrisk => ?_
  refine (subsection_refuses risk _ _).bind fun trailing htrailing => ?_
  refine Refuses.placed ?_ fun c hc _ => hc
  refine (mergeText_refuses ms _ _).bind fun exchange _ => (mergeText_refuses ms _ _).bind fun symbol _ => ?_
  refine (mergePositionMode_refuses _ Document.Occurs.here.within).bind fun mode _ => ?_
  refine (mergeText_refuses ms _ _).bind fun policy _ => ?_
  refine (mergeSizing_refuses _ (within_subsection hsizing)).bind fun _ _ => ?_
  refine (mergeRisk_refuses _ (within_subsection hrisk)
    ((within_subsection htrailing).trans (within_subsection hrisk))).bind fun _ _ => ?_
  exact Refuses.ite ((intText_refuses _).throwing fun _ => Or.inl rfl) (Refuses.ok _)

end Trade

/-! ## Operands -/

namespace Draft

/-- What an operand is refused for without being called malformed. -/
inductive Operand.Unplaced : Document → Coercion → Prop
  | number {n : Int} : Number.ofInt? n = none → Unplaced (.int n) .realTooLarge
  | ref {ms : List (String × Document)} {c : Coercion} : ValueRef.Unplaced ms c → Unplaced (.record ms) c
  | window {ms : List (String × Document)} {low high d : Document} {c : Coercion} :
      lookup ms "offset" = some (.list [low, high]) → d ∈ [low, high] → d.Unwhole c → Unplaced (.record ms) c

theorem readOffset_refuses (raw : Document) :
    Refuses (PlaceableOr fun c => ∃ low high, raw = .list [low, high] ∧ ∃ d ∈ [low, high], d.Unwhole c)
      (readOffset raw) := by
  unfold readOffset
  split
  · exact Refuses.ok _
  · exact Refuses.ok _
  · rename_i low high
    exact (Document.ends_refuse low high).widen fun c hc => ⟨low, high, rfl, hc⟩
  · exact (quoted_refuses _).throwing fun _ => Or.inl rfl

section Reading

variable {bare : Coercion → Prop}

theorem withOffset_refuses (r : ValueRef) (low high : Int) :
    Refuses (PlaceableOr bare) (r.withOffset low high) :=
  (ValueRef.ofInts_refuses low high).bind fun _ _ => Refuses.ok _

theorem readIndicator_refuses (s : Selection) (place id : String) (output offset : Document)
    (hoffset : Refuses (PlaceableOr bare) (readOffset offset)) :
    Refuses (PlaceableOr bare) (readIndicator s place id output offset) := by
  unfold readIndicator
  split
  · exact Refuses.error (Or.inl rfl)
  · refine (ValueRef.make_refuses _ _ _ _ _ _ _ _ _).bind fun r _ => ?_
    split
    · exact Refuses.ok _
    · exact hoffset.bind fun ends _ => withOffset_refuses r _ _

theorem readField_refuses (ms : List (String × Document)) (name : Document)
    (hoffset : Refuses (PlaceableOr bare) (readOffset (member ms "offset"))) :
    Refuses (PlaceableOr bare) (readField ms name) := by
  refine hoffset.bind fun ends _ => (display_refuses name).bind fun field _ => ?_
  refine (displayOr_refuses _ _).bind fun timeframe _ => (ValueRef.make_refuses _ _ _ _ _ _ _ _ _).bind fun r _ => ?_
  exact withOffset_refuses r _ _

theorem readText_refuses (s : Selection) (place raw : String) :
    Refuses (PlaceableOr bare) (readText s place raw) := by
  unfold readText
  dsimp only
  split
  · exact Refuses.ok _
  · refine Refuses.ite ((readIndicator_refuses s _ _ _ _ (Refuses.ok _)).map _) ?_
    exact Refuses.ite ((ValueRef.make_refuses _ _ _ _ _ _ _ _ _).map _) (Refuses.error (Or.inl rfl))

end Reading

theorem readRecord_refuses (s : Selection) (place : String) (ms : List (String × Document)) :
    Refuses (PlaceableOr (Operand.Unplaced (.record ms))) (readRecord s place ms) := by
  have hoffset : Refuses (PlaceableOr (Operand.Unplaced (.record ms))) (readOffset (member ms "offset")) := by
    refine (readOffset_refuses _).widen ?_
    rintro c ⟨low, high, hlist, d, hd, hc⟩
    exact .window (Document.lookup_of_member hlist (by simp)) hd hc
  unfold readRecord
  refine Refuses.ite (((ValueRef.ofDocument_refuses ms).widen fun c hc => .ref hc).placeable.map _) ?_
  split
  · refine (Refuses.placed ((display_refuses _).bind fun id _ => ?_) fun c hc _ => hc).placeable
    exact (readIndicator_refuses s _ _ _ _ hoffset).bind fun r _ => Refuses.ok _
  · exact (((readField_refuses ms _ hoffset).map _).placed fun c hc _ => hc).placeable
  · exact (quoted_refuses _).throwing fun _ => Or.inl rfl

theorem readOperand_refuses (s : Selection) (place : String) (raw : Document) :
    Refuses (PlaceableOr (Operand.Unplaced raw)) (readOperand s place raw) := by
  cases raw with
  | bool b => exact Refuses.error (Or.inl rfl)
  | int n =>
      exact ((Document.toReal_int_refuses n).imp fun f ⟨hf, hn⟩ => Or.inr ⟨_, hf, .number hn⟩).map _
  | real x => exact Refuses.ok _
  | text t => exact readText_refuses s place t
  | record ms => exact readRecord_refuses s place ms
  | null => exact (quoted_refuses _).throwing fun _ => Or.inl rfl
  | list xs => exact (quoted_refuses _).throwing fun _ => Or.inl rfl

/-! ## Trees -/

/-- What a tree, or a level of one, is refused for without being called malformed. -/
inductive Level.Unplaced (raw : Document) : Coercion → Prop
  | children {key : String} {d : Document} : key ∈ ["containers", "groups", "conditions"] → raw.Under key d →
      d.IsUnlistable → d.isEmpty = false → Unplaced raw (.notIterable d)
  | operand {key : String} {d : Document} {c : Coercion} : key ∈ ["left", "right", "upper"] → raw.Under key d →
      Operand.Unplaced d c → (key = "left" ∨ c.kind ≠ .type) → Unplaced raw c
  | actions {d : Document} {c : Coercion} : raw.Under "on_pass" d → Wire.Unplaced d c → c.kind ≠ .value →
      Unplaced raw c

namespace Level

theorem Unplaced.mono {a d : Document} {c : Coercion} (hd : d.Within a) (h : Unplaced d c) : Unplaced a c := by
  cases h with
  | children hkey hunder hlist hfull => exact .children hkey (hd _ _ hunder) hlist hfull
  | operand hkey hunder hc hplace => exact .operand hkey (hd _ _ hunder) hc hplace
  | actions hunder hc hkind => exact .actions (hd _ _ hunder) hc hkind

end Level

open Level (Unplaced)

section Levels

variable {bare : Coercion → Prop} {ms : List (String × Document)}

theorem readFlag_refuses (place : String) (ms : List (String × Document)) (key : String) (default : Bool) :
    Refuses (PlaceableOr bare) (readFlag place ms key default) := by
  unfold readFlag
  split
  · exact Refuses.ok _
  · exact Refuses.ok _
  · exact (quoted_refuses _).throwing fun _ => Or.inl rfl

theorem readThreshold_refuses (place : String) (ms : List (String × Document)) :
    Refuses (PlaceableOr bare) (readThreshold place ms) := by
  unfold readThreshold
  split
  · exact Refuses.ok _
  · exact Refuses.ok _
  · exact (quoted_refuses _).throwing fun _ => Or.inl rfl

theorem inside_refuses (place : String) (ms : List (String × Document)) :
    Refuses (PlaceableOr bare) (inside place ms) :=
  (display_refuses _).bind fun _ _ => Refuses.ok _

theorem checkIds_refuses (owner child : String) (ids : List String) :
    Refuses (PlaceableOr bare) (Node.checkIds owner child ids) := by
  unfold Node.checkIds
  split
  · exact Refuses.error (Or.inl rfl)
  · exact Refuses.ok _

theorem nodeMembers_refuses (place node : String) (raw : Document) :
    Refuses (ReportedOr bare) (nodeMembers place node raw) := by
  cases raw with
  | record ms => exact Refuses.ite (Refuses.ok _) (Refuses.error (Or.inl rfl))
  | _ => exact Refuses.error (Or.inl rfl)

theorem eq_of_nodeMembers {place node : String} {raw : Document} (h : nodeMembers place node raw = .ok ms) :
    raw = .record ms := by
  cases raw with
  | record ms' =>
      rw [nodeMembers] at h
      split at h
      · cases h
        rfl
      · cases h
  | _ => cases h

theorem children_refuses {key : String} (ms : List (String × Document))
    (hkey : key ∈ ["containers", "groups", "conditions"]) :
    Refuses (PlaceableOr (Unplaced (.record ms))) (children ms key) := by
  unfold children
  by_cases hempty : (member ms key).isEmpty = true
  · rw [Document.orElse, if_pos hempty]
    exact Refuses.ok _
  · rw [Document.orElse, if_neg hempty]
    refine (Document.items_refuses _).imp ?_
    rintro _ ⟨rfl, hlist⟩
    refine .ofBare (.children hkey (.of_lookup (Document.lookup_of_member rfl fun hnull => hempty ?_)) hlist
      (Bool.eq_false_of_not_eq_true hempty))
    rw [hnull]
    rfl

/-- The children of a record stand in it; those that a text or a record has for them are texts. -/
theorem within_children {key : String} {xs : List Document} {x : Document} (h : children ms key = .ok xs)
    (hx : x ∈ xs) : x.Within (.record ms) := by
  by_cases htext : ∃ s, x = .text s
  · obtain ⟨s, rfl⟩ := htext
    rintro k y ⟨ms', hms, -⟩
    cases hms
  · have hlist := Document.eq_list_of_items h hx fun s hs => htext ⟨s, hs⟩
    have hlookup : lookup ms key = some (.list xs) := by
      refine Document.lookup_of_orElse hlist ?_
      rintro ⟨⟩
      cases hx
    exact (Document.Occurs.item hx .here).within.trans (.of_lookup hlookup)

theorem childrenRead_refuses {α : Type} {read : Document → Except Failure α} {key : String}
    {xs : List Document} (hread : ∀ x, Refuses (PlaceableOr (Unplaced x)) (read x))
    (hxs : children ms key = .ok xs) : Refuses (PlaceableOr (Unplaced (.record ms))) (xs.mapM read) :=
  Refuses.mapM fun x hx => (hread x).widen fun _ hc => hc.mono (within_children hxs hx)

/-- The left operand is read outside of what puts failures of a type in their place. -/
theorem readConditionMembers_refuses (s : Selection) (place : String) (ms : List (String × Document)) :
    Refuses (PlaceableOr (Unplaced (.record ms))) (readConditionMembers s place ms) := by
  have hunder {key : String} {c : Coercion} (hc : Operand.Unplaced (member ms key) c) :
      (Document.record ms).Under key (member ms key) := by
    refine .of_lookup (Document.lookup_of_member rfl fun hnull => ?_)
    rw [hnull] at hc
    cases hc
  have hplaced (c : Coercion) : (∃ key ∈ ["right", "upper"], Operand.Unplaced (member ms key) c) →
      (Failure.coercion c).isOfValue true = false → Unplaced (.record ms) c := by
    rintro ⟨key, hkey, hc⟩ hkind
    exact .operand (List.mem_cons_of_mem _ hkey) (hunder hc) hc (Or.inr (Failure.kind_ne_type hkind))
  have hleft (place : String) :
      Refuses (PlaceableOr (Unplaced (.record ms))) (readLeft s place (member ms "left")) := by
    refine ((readOperand_refuses s _ _).widen fun c hc => ?_).bind fun o _ => ?_
    · exact .operand (by decide) (hunder hc) hc (Or.inl rfl)
    · cases o <;> exact Refuses.ok _
  refine (hleft place).bind fun left _ => (Refuses.placed ?_ hplaced).placeable
  have hoperand {key place : String} (hkey : key ∈ ["right", "upper"]) :
      Refuses (PlaceableOr fun c => ∃ key ∈ ["right", "upper"], Operand.Unplaced (member ms key) c)
        (readOperand s place (member ms key)) :=
    (readOperand_refuses s _ _).widen fun c hc => ⟨key, hkey, hc⟩
  refine (display_refuses _).bind fun id _ => (display_refuses _).bind fun method _ => ?_
  refine (hoperand (by decide)).bind fun right _ => Refuses.bind ?_ fun upper _ => ?_
  · unfold readUpper
    split
    · exact Refuses.ok _
    · exact (hoperand (by decide)).map _
  refine (readFlag_refuses _ ms _ _).bind fun enabled _ => (readFlag_refuses _ ms _ _).bind fun required _ => ?_
  exact Refuses.ite (Refuses.error (Or.inl rfl)) (Refuses.ite (Refuses.error (Or.inl rfl)) (Refuses.ok _))

theorem readCondition_refuses (s : Selection) (place : String) (raw : Document) :
    Refuses (PlaceableOr (Unplaced raw)) (readCondition s place raw) := by
  cases raw with
  | record ms =>
      rw [readCondition]
      split
      · exact Refuses.error (Or.inl rfl)
      · exact (inside_refuses place ms).bind fun place _ => readConditionMembers_refuses s place ms
  | _ => exact Refuses.error (Or.inl rfl)

theorem readGroup_refuses (s : Selection) (place : String) (raw : Document) :
    Refuses (PlaceableOr (Unplaced raw)) (readGroup s place raw) := by
  refine (nodeMembers_refuses place _ raw).placeable.bind fun ms hms => ?_
  rw [eq_of_nodeMembers hms]
  refine (inside_refuses place ms).bind fun place _ => (Refuses.placed ?_ fun c hc _ => hc).placeable
  refine (display_refuses _).bind fun id _ => (displayOr_refuses _ _).bind fun name _ => ?_
  refine (children_refuses ms (by decide)).bind fun xs hxs => ?_
  refine (childrenRead_refuses (readCondition_refuses s _) hxs).bind fun conditions _ => ?_
  refine (readFlag_refuses _ ms _ _).bind fun enabled _ => (readFlag_refuses _ ms _ _).bind fun required _ => ?_
  refine (readThreshold_refuses _ ms).bind fun minPass _ => ?_
  refine Refuses.ite (Refuses.error (Or.inl rfl)) ?_
  exact (checkIds_refuses _ _ _).bind fun _ _ => Refuses.ok _

theorem readContainer_refuses (s : Selection) (place : String) (raw : Document) :
    Refuses (PlaceableOr (Unplaced raw)) (readContainer s place raw) := by
  refine (nodeMembers_refuses place _ raw).placeable.bind fun ms hms => ?_
  rw [eq_of_nodeMembers hms]
  refine (inside_refuses place ms).bind fun place _ => (Refuses.placed ?_ fun c hc _ => hc).placeable
  refine (display_refuses _).bind fun id _ => (displayOr_refuses _ _).bind fun name _ => ?_
  refine (children_refuses ms (by decide)).bind fun xs hxs => ?_
  refine (childrenRead_refuses (readGroup_refuses s _) hxs).bind fun groups _ => ?_
  refine (readFlag_refuses _ ms _ _).bind fun enabled _ => (readFlag_refuses _ ms _ _).bind fun required _ => ?_
  refine (readThreshold_refuses _ ms).bind fun minPass _ => ?_
  refine Refuses.ite (Refuses.error (Or.inl rfl)) ?_
  exact (checkIds_refuses _ _ _).bind fun _ _ => Refuses.ok _

/-- The actions are read like those of a compiled strategy, inside the place of the branch. -/
theorem readBranch_refuses (s : Selection) (slot : Slot) (raw : Document) :
    Refuses (ReportedOr (Unplaced raw)) (readBranch s slot raw) := by
  unfold readBranch
  split
  · rename_i ms hms
    have hwithin : (Document.record ms).Within raw := by
      rw [← hms]
      exact Document.within_orElse raw
    have hplaced (c : Coercion) :
        (Unplaced (.record ms) c ∨ member ms "on_pass" ≠ .null ∧ Wire.Unplaced (member ms "on_pass") c) →
        (Failure.coercion c).isOfValue false = false → Unplaced raw c := by
      rintro (hc | ⟨hfull, hc⟩) hkind
      · exact hc.mono hwithin
      · exact .actions (hwithin _ _ (.of_lookup (Document.lookup_of_member rfl hfull))) hc
          (Failure.kind_ne_value hkind)
    refine Refuses.placed ?_ hplaced
    refine ((children_refuses ms (by decide)).widen fun c hc => Or.inl hc).bind fun xs hxs => ?_
    refine ((childrenRead_refuses (readContainer_refuses s _) hxs).widen fun c hc =>
      Or.inl hc).bind fun containers _ => ?_
    refine (readFlag_refuses _ ms _ _).bind fun enabled _ => (readThreshold_refuses _ ms).bind fun minPass _ => ?_
    refine Refuses.bind ?_ fun onPass _ => (checkIds_refuses _ _ _).bind fun _ _ => Refuses.ok _
    unfold readActions
    split
    · exact Refuses.ok _
    · rename_i hfull
      exact (ActionSet.ofDocument_refuses _).placeable.widen fun c hc => Or.inr ⟨hfull, hc⟩
  · exact Refuses.error (Or.inl rfl)

theorem readBranches_refuses (s : Selection) {raw : Document} (t : Tree) (ms : List (String × Document))
    (hms : ∀ m ∈ ms, m.2.Within raw) : Refuses (ReportedOr (Unplaced raw)) (readBranches s t ms) := by
  induction ms generalizing t with
  | nil => exact Refuses.ok t
  | cons m ms ih =>
      obtain ⟨hm, hms⟩ := List.forall_mem_cons.mp hms
      refine Refuses.bind (Refuses.placed (Refuses.slotOf (fun _ => Or.inl rfl) m.1) fun c hc _ => hc) fun slot _ => ?_
      refine ((readBranch_refuses s slot m.2).widen fun c hc => hc.mono hm).bind fun b _ => ?_
      exact ih _ hms

theorem readTree_refuses (s : Selection) (raw : Document) :
    Refuses (ReportedOr (Unplaced raw)) (readTree s raw) := by
  cases raw with
  | record ms =>
      exact readBranches_refuses s Tree.empty ms fun m hm => (Document.Occurs.member hm .here).within
  | _ => exact Refuses.error (Or.inl rfl)

end Levels

/-! ## Drafts -/

theorem readSelection_refuses (raw : Document) :
    Refuses (ReportedOr fun c => ∃ xs, raw = .list xs ∧ ∃ d ∈ xs, Indicator.Unplaced d c)
      (readSelection raw) := by
  unfold readSelection
  split
  · rename_i xs hxs
    unfold Selection.ofDocument
    rw [Document.orElse] at hxs
    split at hxs
    · cases hxs
      exact Refuses.ok _
    · cases hxs
      rename_i hfull
      rw [Document.orElse, if_neg hfull]
      show Refuses _ (xs.mapM Indicator.ofDocument >>= fun is => placed none false (Selection.ofIndicators is))
      refine Refuses.bind (Refuses.mapM fun d hd => ?_) fun is _ => Refuses.placed ?_ fun c hc _ => hc
      · exact (Indicator.ofDocument_refuses d).widen fun c hc => ⟨xs, rfl, d, hd, hc⟩
      · unfold Selection.ofIndicators
        split
        · exact Refuses.error (Or.inl rfl)
        · exact Refuses.ok _
  · exact Refuses.error (Or.inl rfl)

/-- What a draft is refused for without being called malformed. -/
inductive Unplaced (raw : Document) : Coercion → Prop
  | indicator {xs : List Document} {d : Document} {c : Coercion} : raw.get? "indicators" = some (.list xs) →
      d ∈ xs → Indicator.Unplaced d c → Unplaced raw c
  | tree {d : Document} {c : Coercion} : raw.get? "logic" = some d → Level.Unplaced d c → Unplaced raw c
  | trade {d : Document} {c : Coercion} : raw.get? "trade" = some d → Trade.Unplaced d c → Unplaced raw c
  | unwritable {key : String} {d : Document} : key ∈ ["name", "description"] → raw.get? key = some d →
      ¬ d.Writable → Unplaced raw .tooLongToWrite

theorem Operand.Unplaced.kind_ne_value {raw : Document} {c : Coercion} (h : Operand.Unplaced raw c) :
    c.kind ≠ .value := by
  cases h with
  | number _ => rintro ⟨⟩
  | ref hc => cases hc <;> rintro ⟨⟩
  | window _ _ hc => cases hc <;> rintro ⟨⟩

/-- A failure of a value that is in no place is that of a number too long to be written. -/
theorem Unplaced.eq_tooLongToWrite {raw : Document} {c : Coercion} (h : Unplaced raw c) (hkind : c.kind = .value) :
    c = .tooLongToWrite := by
  cases h with
  | indicator _ _ hc =>
      cases hc with
      | part _ _ hoverflow =>
          rw [hoverflow] at hkind
          cases hkind
      | unwritable _ _ _ => rfl
  | tree _ hc =>
      cases hc with
      | children _ _ _ _ => cases hkind
      | operand _ _ hc _ => exact absurd hkind hc.kind_ne_value
      | actions _ _ hne => exact absurd hkind hne
  | trade _ hc => cases hc <;> cases hkind
  | unwritable _ _ _ => rfl

theorem ofDocument_refuses (base : Trade) (raw : Document) :
    Refuses (ReportedOr (Unplaced raw)) (ofDocument (.ok base) raw) := by
  refine (Wire.record_refuses _ raw).bind fun ms hms => ?_
  rw [Wire.eq_of_record hms]
  have hget {key : String} {d : Document} (hd : member ms key = d) (hfull : d ≠ .null) :
      (Document.record ms).get? key = some d := Document.lookup_of_member hd hfull
  have htext {key : String} (hkey : key ∈ ["name", "description"]) :
      Refuses (ReportedOr (Unplaced (.record ms))) ((member ms key).displayOr "") := by
    refine Refuses.bareUnless (Document.displayOr_writesIf _ _) fun hd => .unwritable hkey (hget rfl fun hnull => hd ?_) hd
    rw [hnull]
    trivial
  refine ((readSelection_refuses _).widen ?_).bind fun s _ => ?_
  · rintro c ⟨xs, hxs, d, hd, hc⟩
    exact .indicator (hget hxs (by simp)) hd hc
  refine (htext (by decide)).bind fun name _ => (htext (by decide)).bind fun description _ => ?_
  have htree : Refuses (ReportedOr (Unplaced (.record ms))) (readTree s ((member ms "logic").orElse (.record []))) := by
    by_cases hfull : member ms "logic" = .null
    · rw [hfull]
      exact Refuses.ok _
    · exact (readTree_refuses s _).widen fun c hc =>
        .tree (hget rfl hfull) (hc.mono (Document.within_orElse _))
  refine htree.bind fun t _ => ?_
  dsimp only
  split
  · exact Refuses.ok _
  · rename_i hfull
    rw [ok_bind]
    refine Refuses.bind ((Trade.merge_refuses base _).widen fun c hc => ?_) fun _ _ => Refuses.ok _
    exact .trade (hget rfl hfull) hc

/-- **Every document is a draft, or is refused as malformed, or is `Unplaced` in one of its sections.** The one failure
of a value that escapes from its place is that of a number too long to be written. -/
theorem ofDocument_drafts_or_reports (base : Trade) (raw : Document) :
    (∃ d, ofDocument (.ok base) raw = .ok d) ∨ ∃ f, ofDocument (.ok base) raw = .error f ∧
      (f.kind = .format ∨
        ∃ c, f = .coercion c ∧ Unplaced raw c ∧ (c.kind = .value → c = .tooLongToWrite)) := by
  refine ((ofDocument_refuses base raw).imp fun f hf => ?_).cases
  exact hf.imp_right fun ⟨c, hf, hc⟩ => ⟨c, hf, hc, hc.eq_tooLongToWrite⟩

example (base : Trade) :
    ofDocument (.ok base) (.record [("logic", .record [("entry.long", .record [("containers", .int 5)])])]) =
      .error (.coercion (.notIterable (.int 5))) := rfl

end Draft

end Stratagem
