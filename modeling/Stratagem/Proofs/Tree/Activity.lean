import Stratagem.Proofs.Tree.Findings

/-!
# Which uses are active

A use of an indicator is marked as active if its place is written like one that the walk over what is switched on comes
by. Ids may hold the slash that parts them, so two places can be written alike. The indicators that are not used are
found without writing places down.
-/

namespace Stratagem

/-! ## Places in writing -/

theorem Slot.name_inj {s u : Slot} (h : s.name = u.name) : s = u := by
  cases s <;> cases u <;> first | rfl | exact absurd h (by decide)

theorem Slot.slash_not_mem_name (s : Slot) : '/' ∉ s.name.toList := by
  cases s <;> decide

namespace Path

/-- A place that is written so that it can be read back: the slash parts its ids, and the colon its position. -/
structure Legible (p : Path) : Prop where
  container : '/' ∉ p.container.toList
  group : '/' ∉ p.group.toList
  operand : ':' ∉ p.operand.toList
  named : p.operand ≠ ""

theorem text_of_operand {p : Path} (h : p.operand ≠ "") : p.text.toList =
    (p.slot.name.toList ++ '/' :: (p.container.toList ++ '/' :: (p.group.toList ++ '/' :: p.condition.toList))) ++
      ':' :: p.operand.toList := by
  have hoperand : ¬ p.operand.isEmpty = true := fun hempty => h (String.isEmpty_iff.mp hempty)
  have hbase : "/".intercalate [p.slot.name, p.container, p.group, p.condition] =
      p.slot.name ++ "/" ++ p.container ++ "/" ++ p.group ++ "/" ++ p.condition := rfl
  rw [text, if_neg hoperand, hbase]
  simp

/-- Legible places that are written alike are the same. -/
theorem text_inj {p q : Path} (hp : p.Legible) (hq : q.Legible) (h : p.text = q.text) : p = q := by
  have hchars := congrArg String.toList h
  rw [text_of_operand hp.named, text_of_operand hq.named] at hchars
  obtain ⟨hchars, hoperand⟩ := ValueRef.append_cons_inj_of_not_mem hchars hp.operand hq.operand
  obtain ⟨hslot, hchars⟩ :=
    ValueRef.cons_append_inj_of_not_mem hchars (Slot.slash_not_mem_name _) (Slot.slash_not_mem_name _)
  obtain ⟨hcontainer, hchars⟩ := ValueRef.cons_append_inj_of_not_mem hchars hp.container hq.container
  obtain ⟨hgroup, hcondition⟩ := ValueRef.cons_append_inj_of_not_mem hchars hp.group hq.group
  obtain ⟨slot, container, group, condition, operand⟩ := p
  obtain ⟨slot', container', group', condition', operand'⟩ := q
  rw [Path.mk.injEq]
  exact ⟨Slot.name_inj (String.toList_inj.mp hslot), String.toList_inj.mp hcontainer, String.toList_inj.mp hgroup,
    String.toList_inj.mp hcondition, String.toList_inj.mp hoperand⟩

end Path

/-! ## Enabled places -/

instance (p : Slot → Prop) [DecidablePred p] : Decidable (∀ slot, p slot) :=
  decidable_of_iff (∀ slot ∈ Slot.all, p slot) ⟨fun h slot => h slot (by cases slot <;> decide), fun h slot _ => h slot⟩

instance (ids : List String) : Decidable (Node.WellNamed ids) :=
  inferInstanceAs (Decidable (_ ∧ _))

namespace Tree

instance (t : Tree) : Decidable t.WellNamed :=
  inferInstanceAs (Decidable (∀ slot, _ ∧ ∀ c ∈ (t.get slot).containers, _ ∧ ∀ g ∈ c.groups, _))

/-- The condition at a place is enabled, together with everything it is in. -/
def EnabledAt (t : Tree) (p : Path) : Prop :=
  (t.get p.slot).enabled = true ∧
    ∃ c ∈ (t.get p.slot).containers, c.id = p.container ∧ c.enabled = true ∧
      ∃ g ∈ c.groups, g.id = p.group ∧ g.enabled = true ∧
        ∃ k ∈ g.conditions, k.id = p.condition ∧ k.enabled = true

instance (t : Tree) (p : Path) : Decidable (t.EnabledAt p) :=
  inferInstanceAs (Decidable (_ ∧ ∃ c ∈ (t.get p.slot).containers, _ ∧ _ ∧ ∃ g ∈ c.groups, _ ∧ _ ∧
    ∃ k ∈ g.conditions, _ ∧ _))

variable {t : Tree}

theorem mem_places {p : Path} {k : Condition} {live : Bool} : ((p, k), live) ∈ t.places ↔
    ∃ c ∈ (t.get p.slot).containers, ∃ g ∈ c.groups, k ∈ g.conditions ∧
      p = ⟨p.slot, c.id, g.id, k.id, ""⟩ ∧
      live = ((t.get p.slot).enabled && c.enabled && g.enabled && k.enabled) := by
  simp only [places, PerSlot.toList, List.mem_flatMap, List.mem_map, branchPlaces, containerPlaces, groupPlaces,
    Prod.mk.injEq]
  constructor
  · rintro ⟨⟨slot, b⟩, ⟨slot', -, hslot⟩, c, hc, g, hg, k', hk, ⟨hp, rfl⟩, hlive⟩
    cases hslot
    subst hp
    exact ⟨c, hc, g, hg, hk, rfl, hlive.symm⟩
  · rintro ⟨c, hc, g, hg, hk, hp, hlive⟩
    exact ⟨(p.slot, t.get p.slot), ⟨p.slot, by cases p.slot <;> decide, rfl⟩, c, hc, g, hg, k, hk, ⟨hp.symm, rfl⟩,
      hlive.symm⟩

theorem mem_conditions_false {p : Path} {k : Condition} :
    (p, k) ∈ t.conditions false ↔ ∃ live, ((p, k), live) ∈ t.places := by
  rw [conditions_false, List.mem_map]
  constructor
  · rintro ⟨⟨entry, live⟩, hmem, rfl⟩
    exact ⟨live, hmem⟩
  · rintro ⟨live, hmem⟩
    exact ⟨_, hmem, rfl⟩

theorem mem_conditions_true {p : Path} {k : Condition} : (p, k) ∈ t.conditions true ↔ ((p, k), true) ∈ t.places := by
  rw [conditions_true, livePlaces, List.mem_map]
  constructor
  · rintro ⟨⟨entry, live⟩, hmem, rfl⟩
    obtain ⟨hmem, rfl⟩ := List.mem_filter.mp hmem
    exact hmem
  · exact fun hmem => ⟨_, List.mem_filter.mpr ⟨hmem, rfl⟩, rfl⟩

/-- The walk over what is switched on comes by the enabled places: siblings have different ids, so a place tells which
nodes it goes through. -/
theorem mem_conditions_true_iff (ht : t.WellNamed) {p : Path} {k : Condition} :
    (p, k) ∈ t.conditions true ↔ (p, k) ∈ t.conditions false ∧ t.EnabledAt p := by
  rw [mem_conditions_true, mem_conditions_false]
  constructor
  · intro hmem
    refine ⟨⟨true, hmem⟩, ?_⟩
    obtain ⟨c, hc, g, hg, hk, hp, hlive⟩ := mem_places.mp hmem
    obtain ⟨hlive, hken⟩ := Bool.and_eq_true_iff.mp hlive.symm
    obtain ⟨hlive, hgen⟩ := Bool.and_eq_true_iff.mp hlive
    obtain ⟨hben, hcen⟩ := Bool.and_eq_true_iff.mp hlive
    rw [hp]
    exact ⟨hben, c, hc, rfl, hcen, g, hg, rfl, hgen, k, hk, rfl, hken⟩
  · rintro ⟨⟨live, hmem⟩, hben, c', hc', hcid, hcen, g', hg', hgid, hgen, k', hk', hkid, hken⟩
    obtain ⟨c, hc, g, hg, hk, hp, -⟩ := mem_places.mp hmem
    -- the nodes that are enabled are those the walk went through, one level after another
    rw [hp] at hcid hgid hkid
    obtain ⟨hcontainers, hgroups⟩ := ht p.slot
    obtain ⟨hgroupIds, hconditions⟩ := hgroups c hc
    obtain rfl := List.inj_on_of_nodup_map hcontainers.1 hc' hc hcid
    obtain rfl := List.inj_on_of_nodup_map hgroupIds.1 hg' hg hgid
    obtain rfl := List.inj_on_of_nodup_map (hconditions g' hg).1 hk' hk hkid
    exact mem_places.mpr ⟨c', hc, g', hg, hk, hp, by rw [hben, hcen, hgen, hken]; rfl⟩

/-- An operand stands at a position in the place of its condition. -/
theorem mem_conditionSeries {entry : Path × Condition} {q : Path} {r : ValueRef}
    (h : (q, r) ∈ conditionSeries entry) :
    ∃ position ∈ ["left", "right", "upper"], q = { entry.1 with operand := position } := by
  obtain ⟨⟨position, operand⟩, hposition, hseries⟩ := List.mem_filterMap.mp h
  obtain ⟨r', -, heq⟩ := Option.map_eq_some_iff.mp hseries
  cases heq
  exact ⟨position, (List.of_mem_zip hposition).1, rfl⟩

theorem mem_series_true_iff (ht : t.WellNamed) {entry : Path × ValueRef} :
    entry ∈ t.series true ↔ entry ∈ t.series false ∧ t.EnabledAt entry.1 := by
  obtain ⟨q, r⟩ := entry
  simp only [series, List.mem_flatMap, Prod.exists]
  constructor
  · rintro ⟨p, k, hmem, hseries⟩
    obtain ⟨position, -, rfl⟩ := mem_conditionSeries hseries
    obtain ⟨hmem, hen⟩ := (mem_conditions_true_iff ht).mp hmem
    exact ⟨⟨p, k, hmem, hseries⟩, hen⟩
  · rintro ⟨⟨p, k, hmem, hseries⟩, hen⟩
    obtain ⟨position, -, rfl⟩ := mem_conditionSeries hseries
    exact ⟨p, k, (mem_conditions_true_iff ht).mpr ⟨hmem, hen⟩, hseries⟩

/-- No id of a container or a group holds the slash that parts ids. -/
def Slashless (t : Tree) : Prop :=
  ∀ slot, ∀ c ∈ (t.get slot).containers, '/' ∉ c.id.toList ∧ ∀ g ∈ c.groups, '/' ∉ g.id.toList

instance (t : Tree) : Decidable t.Slashless :=
  inferInstanceAs (Decidable (∀ slot, ∀ c ∈ (t.get slot).containers, _ ∧ ∀ g ∈ c.groups, _))

theorem Slashless.legible (ht : t.Slashless) {entry : Path × ValueRef} (h : entry ∈ t.series false) :
    entry.1.Legible := by
  obtain ⟨⟨p, k⟩, hmem, hseries⟩ := List.mem_flatMap.mp h
  obtain ⟨position, hposition, hpath⟩ := mem_conditionSeries hseries
  obtain ⟨live, hplace⟩ := mem_conditions_false.mp hmem
  obtain ⟨c, hc, g, hg, -, hp, -⟩ := mem_places.mp hplace
  have hcontainer : entry.1.container = c.id := by rw [hpath, hp]
  have hgroup : entry.1.group = g.id := by rw [hpath, hp]
  have hoperand : entry.1.operand = position := by rw [hpath]
  have hpositions : ∀ position ∈ ["left", "right", "upper"], ':' ∉ position.toList ∧ position ≠ "" := by decide
  obtain ⟨hcolon, hnamed⟩ := hpositions position hposition
  obtain ⟨hc, hgroups⟩ := ht p.slot c hc
  exact ⟨hcontainer ▸ hc, hgroup ▸ hgroups g hg, hoperand ▸ hcolon, hoperand ▸ hnamed⟩

/-! ## Uses -/

section Uses

variable {s : Selection} {i : Indicator} {us : List Usage} {u : Usage}

/-- Some enabled operand stands at a place that is written so. -/
def WrittenEnabled (t : Tree) (text : String) : Prop :=
  ∃ entry ∈ t.series false, t.EnabledAt entry.1 ∧ entry.1.text = text

theorem mem_usages_iff (hi : i.Referable) (hus : t.usages i = .ok us) : u ∈ us ↔
    ∃ entry ∈ t.series false, Edit.Addresses entry.2 i ∧
      u = ⟨entry.1, entry.2.output, ((t.series true).map (·.1.text)).contains entry.1.text⟩ := by
  rw [usages_eq_ok hi] at hus
  cases hus
  simp only [List.mem_map, List.mem_filter, decide_eq_true_eq, and_assoc]
  exact exists_congr fun entry => and_congr_right fun _ => and_congr_right fun _ => eq_comm

/-- A use is marked as active by what is written for its place. -/
theorem active_iff (ht : t.WellNamed) (hi : i.Referable) (hus : t.usages i = .ok us) (hu : u ∈ us) :
    u.active = true ↔ t.WrittenEnabled u.path.text := by
  obtain ⟨entry, hentry, -, rfl⟩ := (mem_usages_iff hi hus).mp hu
  rw [List.contains_iff_mem, List.mem_map, WrittenEnabled]
  simp only [mem_series_true_iff ht, and_assoc]

theorem active_of_enabledAt (ht : t.WellNamed) (hi : i.Referable) (hus : t.usages i = .ok us) (hu : u ∈ us)
    (hen : t.EnabledAt u.path) : u.active = true := by
  rw [active_iff ht hi hus hu]
  obtain ⟨entry, hentry, -, rfl⟩ := (mem_usages_iff hi hus).mp hu
  exact ⟨entry, hentry, hen, rfl⟩

theorem Slashless.active_iff (hslash : t.Slashless) (ht : t.WellNamed) (hi : i.Referable) (hus : t.usages i = .ok us)
    (hu : u ∈ us) : u.active = true ↔ t.EnabledAt u.path := by
  refine ⟨fun hactive => ?_, active_of_enabledAt ht hi hus hu⟩
  obtain ⟨other, hother, hen, htext⟩ := (Tree.active_iff ht hi hus hu).mp hactive
  obtain ⟨entry, hentry, -, rfl⟩ := (mem_usages_iff hi hus).mp hu
  rwa [Path.text_inj (hslash.legible hother) (hslash.legible hentry) htext] at hen

theorem unused_exists_iff (hs : ∀ i ∈ s.indicators, i.Referable) :
    (∃ unread, t.unused s = .ok unread) ↔ t.EachRef ValueRef.Hashable := by
  rw [← usedOutputs_exists_iff]
  constructor
  · rintro ⟨unread, hunread⟩
    obtain ⟨refs, hrefs, -⟩ := bind_eq_ok.mp hunread
    exact ⟨refs, hrefs⟩
  · rintro ⟨refs, hrefs⟩
    obtain ⟨unread, hunread⟩ := unreadAmong_exists (fun i hi => (hs i hi).key_exists) refs
    exact ⟨unread, bind_eq_ok.mpr ⟨refs, hrefs, hunread⟩⟩

/-- An indicator is not used if no place where it is read is enabled. -/
theorem mem_unused_iff (ht : t.WellNamed) (hi : i.Referable) (hmem : i ∈ s.indicators) {unread : List Indicator}
    (hunread : t.unused s = .ok unread) (hus : t.usages i = .ok us) :
    i ∈ unread ↔ ∀ u ∈ us, ¬ t.EnabledAt u.path := by
  obtain ⟨refs, hrefs, hfilter⟩ := bind_eq_ok.mp hunread
  have hunaddressed : i ∈ unread ↔ ∀ entry ∈ t.series true, ¬ Edit.Addresses entry.2 i := by
    rw [unreadAmong_eq_filter hfilter, List.mem_filter, decide_eq_true_eq, and_iff_right hmem, addressed_iff hrefs,
      series_true]
  rw [hunaddressed]
  constructor
  · intro hnone u hu hen
    obtain ⟨entry, hentry, haddresses, rfl⟩ := (mem_usages_iff hi hus).mp hu
    exact hnone entry ((mem_series_true_iff ht).mpr ⟨hentry, hen⟩) haddresses
  · intro hnone entry hentry haddresses
    obtain ⟨hentry, hen⟩ := (mem_series_true_iff ht).mp hentry
    exact hnone _ ((mem_usages_iff hi hus).mpr ⟨entry, hentry, haddresses, rfl⟩) hen

/-- **Which uses are active.** A use is marked as active if some enabled operand stands at a place that is written like
its own. That holds of each use that is enabled with everything it is in, and of no other if no id of a container or a
group holds a slash. An indicator is not used if none of its uses is enabled; without slashes in ids, if none is
active. -/
theorem usages_active (ht : t.WellNamed) (hs : ∀ i ∈ s.indicators, i.Referable) :
    (∀ i ∈ s.indicators, ∃ us, t.usages i = .ok us ∧ ∀ u ∈ us,
      (u.active = true ↔ t.WrittenEnabled u.path.text) ∧ (t.EnabledAt u.path → u.active = true) ∧
      (t.Slashless → (u.active = true ↔ t.EnabledAt u.path))) ∧
    ((∃ unread, t.unused s = .ok unread) ↔ t.EachRef ValueRef.Hashable) ∧
    ∀ unread, t.unused s = .ok unread → ∀ i ∈ s.indicators, ∀ us, t.usages i = .ok us →
      (i ∈ unread ↔ ∀ u ∈ us, ¬ t.EnabledAt u.path) ∧
      (t.Slashless → (i ∈ unread ↔ ∀ u ∈ us, u.active = false)) := by
  refine ⟨fun i hi => ?_, unused_exists_iff hs, fun unread hunread i hi us hus => ?_⟩
  · obtain ⟨us, hus⟩ : ∃ us, t.usages i = .ok us := ⟨_, usages_eq_ok (hs i hi) t⟩
    exact ⟨us, hus, fun u hu => ⟨active_iff ht (hs i hi) hus hu, active_of_enabledAt ht (hs i hi) hus hu,
      fun hslash => hslash.active_iff ht (hs i hi) hus hu⟩⟩
  · have hiff := mem_unused_iff ht (hs i hi) hi hunread hus
    refine ⟨hiff, fun hslash => hiff.trans (forall₂_congr fun u hu => ?_)⟩
    rw [← hslash.active_iff ht (hs i hi) hus hu, Bool.not_eq_true]

end Uses

theorem usages_active_oversold : oversold.WellNamed ∧ oversold.Slashless ∧
    (∀ i ∈ Selection.modes.indicators, i.Referable) ∧ ∃ us unread,
      oversold.usages (Selection.strength "tick" "OnTick") = .ok us ∧ oversold.unused Selection.modes = .ok unread ∧
      us.map (·.active) = [true, false, false] ∧ (∀ u ∈ us, u.active = true ↔ oversold.EnabledAt u.path) ∧
      Selection.strength "tick" "OnTick" ∉ unread := by
  have hnamed : oversold.WellNamed := by decide +kernel
  have hslash : oversold.Slashless := by decide +kernel
  have hs : ∀ i ∈ Selection.modes.indicators, i.Referable := Selection.edited_modes.distinct.referable
  have hi : Selection.strength "tick" "OnTick" ∈ Selection.modes.indicators := List.mem_cons_self
  have hhashable : oversold.EachRef ValueRef.Hashable :=
    (show oversold.EachRef ValueRef.NamesOutput by decide).imp fun _ => ValueRef.NamesOutput.hashable
  obtain ⟨huses, hanswers, hunused⟩ := usages_active hnamed hs
  obtain ⟨us, hus, hactive⟩ := huses _ hi
  obtain ⟨unread, hunread⟩ := hanswers.mpr hhashable
  have hmarks : us.map (·.active) = [true, false, false] := by
    have hrun : (do
        let us ← oversold.usages (Selection.strength "tick" "OnTick")
        return us.map Usage.active).toOption = some [true, false, false] := by
      decide +kernel
    rw [hus] at hrun
    exact Option.some.inj hrun
  refine ⟨hnamed, hslash, hs, us, unread, hus, hunread, hmarks, fun u hu => (hactive u hu).2.2 hslash, fun hmem => ?_⟩
  have hnone := ((hunused unread hunread _ hi us hus).2 hslash).mp hmem
  have hfalse : ∀ b ∈ us.map (·.active), b = false := List.forall_mem_map.mpr hnone
  rw [hmarks] at hfalse
  exact absurd (hfalse true List.mem_cons_self) (by decide)

/-- Two operands at places that are written alike, as "entry.long/a/b/c/k:left". The first of them is switched off. -/
def slashed : Tree :=
  let below (left : ValueRef) (enabled : Bool) : Condition :=
    ⟨"k", "LessThan", left, .number 30, none, enabled, false⟩
  let group (id : String) (k : Condition) : Group := ⟨id, "", [k], true, false, 1⟩
  Tree.empty.set .entryLong {
    containers := [⟨"a", "", [group "b/c" (below .hourlyStrength false)], true, false, 1⟩,
      ⟨"a/b", "", [group "c" (below .hourlyClose true)], true, false, 1⟩]
    enabled := true
    minPass := 1
    onPass := .makeTrade "Long" }

/-- What is switched off is taken for active, although the indicator is not used. -/
theorem active_slashed : slashed.WellNamed ∧ ∃ u unread,
    slashed.usages (Selection.strength "rsi" "OnTick") = .ok [u] ∧ u.active = true ∧ ¬ slashed.EnabledAt u.path ∧
    slashed.unused ⟨[Selection.strength "rsi" "OnTick"], by decide⟩ = .ok unread ∧ unread.map (·.id) = ["rsi"] := by
  have husages : slashed.usages (Selection.strength "rsi" "OnTick") =
      .ok [⟨⟨.entryLong, "a", "b/c", "k", "left"⟩, .text "Value", true⟩] :=
    eq_ok_of_toOption (by decide +kernel)
  have hunused : slashed.unused ⟨[Selection.strength "rsi" "OnTick"], by decide⟩ =
      .ok [Selection.strength "rsi" "OnTick"] :=
    eq_ok_of_toOption (by decide +kernel)
  exact ⟨by decide +kernel, _, _, husages, rfl, by decide +kernel, hunused, rfl⟩

end Tree

end Stratagem
