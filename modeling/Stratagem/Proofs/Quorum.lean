import Stratagem.Proofs.Sequencing
import Stratagem.Quorum

/-!
# What a level asks for

`meets` states the quorum rule on a level as it was authored: nothing is left out and no threshold is
changed. The evaluator counts the children that pass (`judge`), and the compiler drops the disabled ones
and clamps the threshold (`plan`). Judging comes down to `tally`, a count without effects, and a threshold
that `Fits` its level makes `tally` and `meets` the same. The plan of a level always fits it.
-/

namespace Stratagem.Quorum

variable {α β : Type} [Flagged α] [Flagged β]

def isDemanded (c : α) : Bool := enabled c && required c

def isOptional (c : α) : Bool := enabled c && !required c

/-- The quorum rule on an authored level. A child is enabled, every demanded child passes, and among the
optional ones as many pass as the threshold says, or all of them if there are fewer. -/
def meets (children : List α) (minPass : Int) (passes : α → Bool) : Bool :=
  children.any enabled &&
    children.all (fun c => !isDemanded c || passes c) &&
    decide (min (max 0 minPass) (children.countP isOptional) ≤
      (children.countP fun c => isOptional c && passes c : Int))

/-- The outcome of a level when it is known which children pass. -/
def tally (children : List α) (minPass : Int) (passes : α → Bool) : Verdict :=
  if (live children).isEmpty then .ofEmpty minPass
  else .ofCounts minPass (requiredOf children).length ((requiredOf children).countP passes)
    (optionalOf children).length ((optionalOf children).countP passes)

/-! ## Judging is counting -/

section Judging

variable {ε : Type} {ask : α → Except ε Bool} {p : α → Bool} {children : List α} {minPass : Int}

theorem mem_live {c : α} : c ∈ live children ↔ c ∈ children ∧ enabled c = true := by
  rw [live, List.mem_filter]

theorem mem_live_of_mem_requiredOf {c : α} (h : c ∈ requiredOf children) : c ∈ live children :=
  List.mem_of_mem_filter h

theorem mem_live_of_mem_optionalOf {c : α} (h : c ∈ optionalOf children) : c ∈ live children :=
  List.mem_of_mem_filter h

omit [Flagged α] in
theorem countPassing_ok {cs : List α} (h : ∀ c ∈ cs, ask c = .ok (p c)) :
    countPassing ask cs = .ok (cs.countP p) := by
  induction cs with
  | nil => rfl
  | cons c cs ih =>
      have hc := h c List.mem_cons_self
      have hcs := ih fun d hd => h d (List.mem_cons_of_mem _ hd)
      rw [countPassing, hc, ok_bind, hcs, ok_bind, pure_eq_ok, List.countP_cons]
      cases p c <;> rfl

omit [Flagged α] in
theorem countPassing_answers {cs : List α} {n : Nat} (h : countPassing ask cs = .ok n) :
    ∀ c ∈ cs, ∃ b, ask c = .ok b := by
  induction cs generalizing n with
  | nil => simp
  | cons c cs ih =>
      rw [countPassing, bind_eq_ok] at h
      obtain ⟨b, hb, h⟩ := h
      obtain ⟨m, hm, -⟩ := bind_eq_ok.mp h
      intro d hd
      rcases List.mem_cons.mp hd with rfl | hd
      · exact ⟨b, hb⟩
      · exact ih hm d hd

/-- A level whose enabled children all answer is judged by what they answer. -/
theorem judge_ok (h : ∀ c ∈ live children, ask c = .ok (p c)) :
    judge children minPass ask = .ok (tally children minPass p) := by
  unfold judge tally
  split
  · rfl
  · rw [countPassing_ok fun c hc => h c (mem_live_of_mem_requiredOf hc), ok_bind,
      countPassing_ok fun c hc => h c (mem_live_of_mem_optionalOf hc), ok_bind, pure_eq_ok]

/-- Every enabled child of a level that was judged has answered. -/
theorem judge_answers {v : Verdict} (h : judge children minPass ask = .ok v) :
    ∀ c ∈ live children, ∃ b, ask c = .ok b := by
  intro c hc
  unfold judge at h
  split at h
  · rename_i hempty
    rw [List.isEmpty_iff.mp hempty] at hc
    cases hc
  · obtain ⟨n, hn, h⟩ := bind_eq_ok.mp h
    obtain ⟨m, hm, -⟩ := bind_eq_ok.mp h
    by_cases hreq : required c = true
    · exact countPassing_answers hn c (List.mem_filter.mpr ⟨hc, hreq⟩)
    · exact countPassing_answers hm c (List.mem_filter.mpr ⟨hc, by simpa using hreq⟩)

def saysYes (answer : Except ε Bool) : Bool := answer matches .ok true

/-- A level can be judged exactly if every enabled child answers. -/
theorem judge_exists_iff :
    (∃ v, judge children minPass ask = .ok v) ↔ ∀ c ∈ live children, ∃ b, ask c = .ok b := by
  constructor
  · rintro ⟨v, hv⟩
    exact judge_answers hv
  · intro h
    have hyes : ∀ c ∈ live children, ask c = .ok (saysYes (ask c)) := by
      intro c hc
      obtain ⟨b, hb⟩ := h c hc
      rw [hb]
      cases b <;> rfl
    exact ⟨_, judge_ok hyes⟩

/-- A level was judged by the answers of its children, once it is known what these are. -/
theorem judge_eq_tally {v : Verdict} (h : judge children minPass ask = .ok v)
    (hask : ∀ c ∈ live children, ∀ b, ask c = .ok b → b = p c) : v = tally children minPass p := by
  have hall : ∀ c ∈ live children, ask c = .ok (p c) := by
    intro c hc
    obtain ⟨b, hb⟩ := judge_answers h c hc
    rw [hb, hask c hc b hb]
  rw [judge_ok hall, Except.ok.injEq] at h
  exact h.symm

end Judging

/-! ## Counts over the authored children -/

section Counts

variable (children : List α) (minPass : Int) (p : α → Bool)

theorem any_enabled : children.any enabled = !(live children).isEmpty := by
  induction children with
  | nil => rfl
  | cons c cs ih =>
      rw [List.any_cons, ih]
      unfold live
      rw [List.filter_cons]
      cases enabled c <;> rfl

theorem length_optionalOf : (optionalOf children).length = children.countP isOptional := by
  rw [optionalOf, ← List.countP_eq_length_filter, live, List.countP_filter]
  exact List.countP_congr fun c _ => by rw [isOptional, Bool.and_comm]

theorem countP_optionalOf :
    (optionalOf children).countP p = children.countP fun c => isOptional c && p c := by
  rw [optionalOf, List.countP_filter, live, List.countP_filter]
  exact List.countP_congr fun c _ => by
    rw [isOptional]
    cases enabled c <;> cases required c <;> simp

theorem all_requiredOf :
    ((requiredOf children).countP p == (requiredOf children).length) =
      children.all fun c => !isDemanded c || p c := by
  rw [Bool.eq_iff_iff, beq_iff_eq, List.countP_eq_length, List.all_eq_true]
  constructor
  · intro h c hc
    by_cases hd : isDemanded c = true
    · obtain ⟨he, hr⟩ := Bool.and_eq_true_iff.mp hd
      have hp := h c (List.mem_filter.mpr ⟨mem_live.mpr ⟨hc, he⟩, hr⟩)
      rw [hp, Bool.or_true]
    · rw [Bool.not_eq_true] at hd
      rw [hd]
      rfl
  · intro h c hc
    obtain ⟨hl, hr⟩ := List.mem_filter.mp hc
    obtain ⟨hmem, he⟩ := mem_live.mp hl
    have hdem : isDemanded c = true := Bool.and_eq_true_iff.mpr ⟨he, hr⟩
    simpa [hdem] using h c hmem

/-- What `tally` asks for: an empty level needs a threshold of zero, and any other one all its demanded
children and, if it has optional ones, as many of them as the threshold says. -/
theorem tally_passed :
    (tally children minPass p).passed =
      if (live children).isEmpty then decide (minPass ≤ 0)
      else children.all (fun c => !isDemanded c || p c) &&
        (children.countP isOptional == 0 ||
          decide (minPass ≤ (children.countP fun c => isOptional c && p c : Int))) := by
  unfold tally
  split
  · rfl
  · rw [Verdict.ofCounts, all_requiredOf, length_optionalOf, countP_optionalOf]

end Counts

/-! ## Thresholds that need no clamping -/

/-- A threshold that a level can be judged by as it stands: it is not above the number of optional
children, if there are any, and an empty level does not reach it. -/
def Fits (children : List α) (minPass : Int) : Prop :=
  (live children = [] → 1 ≤ minPass) ∧
    (optionalOf children ≠ [] → minPass ≤ (optionalOf children).length)

section Fits

variable {children : List α} {minPass : Int} {p : α → Bool}

instance : Decidable (Fits children minPass) :=
  inferInstanceAs (Decidable (_ ∧ _))

theorem tally_passed_of_fits (h : Fits children minPass) :
    (tally children minPass p).passed = meets children minPass p := by
  obtain ⟨hempty, hfit⟩ := h
  rw [tally_passed, meets, any_enabled]
  by_cases hl : live children = []
  · have hpos := hempty hl
    have hnot : ¬ minPass ≤ 0 := by omega
    simp [hl, hnot]
  · have hne : (live children).isEmpty = false := by simpa using hl
    rw [hne]
    simp only [Bool.false_eq_true, if_false, Bool.not_false, Bool.true_and]
    congr 1
    rw [← length_optionalOf, Bool.eq_iff_iff, Bool.or_eq_true, beq_iff_eq, decide_eq_true_eq,
      decide_eq_true_eq]
    by_cases ho : optionalOf children = []
    · rw [ho, List.length_nil]
      omega
    · have hle := hfit ho
      have hpos : (optionalOf children).length ≠ 0 := by simpa using ho
      omega

theorem fits_plan : Fits children (plan children minPass).minPass := by
  constructor
  · intro hl
    simp [plan, hl, emptyMinPass]
  · intro ho
    have hl : live children ≠ [] := by
      intro hl
      exact ho (by rw [optionalOf, hl, List.filter_nil])
    have hne : (live children).isEmpty = false := by simpa using hl
    simp only [plan, hne, Bool.false_eq_true, if_false, clamp]
    omega

/-- Clamping does not change what a level asks for. -/
theorem meets_plan : meets children (plan children minPass).minPass p = meets children minPass p := by
  rw [meets, meets, any_enabled]
  by_cases hl : live children = []
  · simp [hl]
  · have hne : (live children).isEmpty = false := by simpa using hl
    simp only [plan, hne, Bool.false_eq_true, if_false, clamp, length_optionalOf]
    congr 1
    rw [Bool.eq_iff_iff, decide_eq_true_eq, decide_eq_true_eq]
    omega

/-- A threshold that was clamped stays as it is. -/
theorem plan_minPass_idem :
    (plan children (plan children minPass).minPass).minPass = (plan children minPass).minPass := by
  by_cases hl : live children = []
  · simp [plan, hl]
  · have hne : (live children).isEmpty = false := by simpa using hl
    simp only [plan, hne, Bool.false_eq_true, if_false, clamp]
    omega

end Fits

/-! ## Levels that are built differently

A compiled level has lost its disabled children, and a decompiled one has got new ids. What a level asks
for only looks at the flags of the children and at the answers of the enabled ones. -/

section Alike

variable {p : α → Bool} {q : β → Bool} {cs : List α} {ds : List β} {minPass : Int}

def SameFlags (c : α) (d : β) : Prop := enabled c = enabled d ∧ required c = required d

/-- Two children with the same flags that answer the same while they are enabled. -/
def SameVote (p : α → Bool) (q : β → Bool) (c : α) (d : β) : Prop :=
  SameFlags c d ∧ (enabled c = true → p c = q d)

omit [Flagged α] [Flagged β] in
theorem countP_eq_countP {R : α → β → Prop} {f : α → Bool} {g : β → Bool}
    (hfg : ∀ c d, R c d → f c = g d) (h : List.Forall₂ R cs ds) : cs.countP f = ds.countP g := by
  have hmap := congrArg (List.countP id) (map_eq_map hfg h)
  rwa [List.countP_map, List.countP_map] at hmap

omit [Flagged α] [Flagged β] in
theorem any_eq_any {R : α → β → Prop} {f : α → Bool} {g : β → Bool}
    (hfg : ∀ c d, R c d → f c = g d) (h : List.Forall₂ R cs ds) : cs.any f = ds.any g := by
  have hmap := congrArg (List.any · id) (map_eq_map hfg h)
  rwa [List.any_map, List.any_map] at hmap

omit [Flagged α] [Flagged β] in
theorem all_eq_all {R : α → β → Prop} {f : α → Bool} {g : β → Bool}
    (hfg : ∀ c d, R c d → f c = g d) (h : List.Forall₂ R cs ds) : cs.all f = ds.all g := by
  have hmap := congrArg (List.all · id) (map_eq_map hfg h)
  rwa [List.all_map, List.all_map] at hmap

theorem SameFlags.isOptional {c : α} {d : β} (h : SameFlags c d) : isOptional c = isOptional d := by
  rw [Quorum.isOptional, Quorum.isOptional, h.1, h.2]

theorem SameFlags.isDemanded {c : α} {d : β} (h : SameFlags c d) : isDemanded c = isDemanded d := by
  rw [Quorum.isDemanded, Quorum.isDemanded, h.1, h.2]

theorem SameVote.optional {c : α} {d : β} (h : SameVote p q c d) :
    (Quorum.isOptional c && p c) = (Quorum.isOptional d && q d) := by
  rw [h.1.isOptional]
  by_cases he : enabled c = true
  · rw [h.2 he]
  · have hd : enabled d = false := by rw [← h.1.1]; simpa using he
    simp [Quorum.isOptional, hd]

theorem SameVote.demanded {c : α} {d : β} (h : SameVote p q c d) :
    (!Quorum.isDemanded c || p c) = (!Quorum.isDemanded d || q d) := by
  rw [h.1.isDemanded]
  by_cases he : enabled c = true
  · rw [h.2 he]
  · have hd : enabled d = false := by rw [← h.1.1]; simpa using he
    simp [Quorum.isDemanded, hd]

theorem meets_congr (h : List.Forall₂ (SameVote p q) cs ds) :
    meets cs minPass p = meets ds minPass q := by
  unfold meets
  rw [any_eq_any (fun _ _ hcd => hcd.1.1) h, all_eq_all (fun _ _ hcd => hcd.demanded) h,
    countP_eq_countP (fun _ _ hcd => hcd.1.isOptional) h,
    countP_eq_countP (fun _ _ hcd => hcd.optional) h]

theorem plan_minPass_congr (h : List.Forall₂ SameFlags cs ds) :
    (plan cs minPass).minPass = (plan ds minPass).minPass := by
  have hany := any_eq_any (fun _ _ hcd => hcd.1) h
  rw [any_enabled, any_enabled] at hany
  simp only [plan, Bool.not_inj hany, length_optionalOf, countP_eq_countP (fun _ _ hcd => hcd.isOptional) h]

theorem live_live : live (live cs) = live cs := by
  unfold live
  rw [List.filter_filter]
  simp

theorem filter_live {f : α → Bool} (hf : ∀ c, f c = true → enabled c = true) :
    (live cs).filter f = cs.filter f := by
  rw [live, List.filter_filter]
  refine List.filter_congr fun c _ => Bool.eq_iff_iff.mpr ?_
  rw [Bool.and_eq_true]
  exact ⟨fun h => h.1, fun h => ⟨h, hf c h⟩⟩

theorem countP_live {f : α → Bool} (hf : ∀ c, f c = true → enabled c = true) :
    (live cs).countP f = cs.countP f := by
  rw [List.countP_eq_length_filter, filter_live hf, ← List.countP_eq_length_filter]

theorem isDemanded_enabled {c : α} (h : isDemanded c = true) : enabled c = true :=
  (Bool.and_eq_true_iff.mp h).1

theorem isOptional_enabled {c : α} (h : isOptional c = true) : enabled c = true :=
  (Bool.and_eq_true_iff.mp h).1

theorem meets_live : meets (live cs) minPass p = meets cs minPass p := by
  unfold meets
  rw [any_enabled, any_enabled, live_live, countP_live fun _ => isOptional_enabled,
    countP_live fun _ h => isOptional_enabled (Bool.and_eq_true_iff.mp h).1]
  congr 2
  rw [Bool.eq_iff_iff, List.all_eq_true, List.all_eq_true]
  constructor
  · intro h c hc
    by_cases he : enabled c = true
    · exact h c (mem_live.mpr ⟨hc, he⟩)
    · simp [isDemanded, he]
  · intro h c hc
    exact h c (mem_live.mp hc).1

theorem plan_minPass_live : (plan (live cs) minPass).minPass = (plan cs minPass).minPass := by
  simp only [plan, live_live, length_optionalOf, countP_live fun _ => isOptional_enabled]

theorem fits_iff : Fits cs minPass ↔ (cs.any enabled = false → 1 ≤ minPass) ∧
    (cs.countP isOptional ≠ 0 → minPass ≤ (cs.countP isOptional : Int)) := by
  rw [Fits, any_enabled, ← length_optionalOf, Bool.not_eq_false', List.isEmpty_iff, ne_eq, ne_eq,
    List.length_eq_zero_iff]

theorem fits_congr (h : List.Forall₂ SameFlags cs ds) : Fits cs minPass ↔ Fits ds minPass := by
  rw [fits_iff, fits_iff, any_eq_any (fun _ _ hcd => hcd.1) h,
    countP_eq_countP (fun _ _ hcd => hcd.isOptional) h]

theorem fits_live : Fits (live cs) minPass ↔ Fits cs minPass := by
  rw [fits_iff, fits_iff, any_enabled, any_enabled, live_live, countP_live fun _ => isOptional_enabled]

theorem SameVote.flags (h : List.Forall₂ (SameVote p q) cs ds) : List.Forall₂ SameFlags cs ds :=
  h.imp fun _ _ hcd => hcd.1

/-- A level that fits is judged by what another one asks for, if their children vote alike. -/
theorem tally_congr (hfits : Fits cs minPass) (h : List.Forall₂ (SameVote p q) cs ds) :
    (tally cs minPass p).passed = meets ds minPass q := by
  rw [tally_passed_of_fits hfits, meets_congr h]

theorem meets_congr_live {p q : α → Bool} (h : ∀ c ∈ live cs, p c = q c) :
    meets cs minPass p = meets cs minPass q := by
  refine meets_congr (List.forall₂_same.mpr fun c hc => ⟨⟨rfl, rfl⟩, fun he => ?_⟩)
  exact h c (mem_live.mpr ⟨hc, he⟩)

/-- A compiled level is judged by what its source asks for: the disabled children are gone, the threshold
is clamped, and the others vote as they did. -/
theorem tally_compiled {f : α → β} (hf : ∀ c ∈ live cs, SameVote p q c (f c)) :
    (tally ((live cs).map f) (plan cs minPass).minPass q).passed = meets cs minPass p := by
  have hvotes : List.Forall₂ (SameVote p q) (live cs) ((live cs).map f) := by
    rw [List.forall₂_map_right_iff, List.forall₂_same]
    exact hf
  have hfits : Fits ((live cs).map f) (plan cs minPass).minPass :=
    (fits_congr (SameVote.flags hvotes)).mp (fits_live.mpr fits_plan)
  calc (tally ((live cs).map f) (plan cs minPass).minPass q).passed
      = meets ((live cs).map f) (plan cs minPass).minPass q := tally_passed_of_fits hfits
    _ = meets (live cs) (plan cs minPass).minPass p := (meets_congr hvotes).symm
    _ = meets cs (plan cs minPass).minPass p := meets_live
    _ = meets cs minPass p := meets_plan

end Alike

/-! ## Levels that compiling leaves alone -/

section Settled

variable {cs : List α} {ds : List β} {minPass : Int}

/-- The threshold of a compiled level is in range. -/
theorem plan_compiled {f : α → β} (hf : ∀ c ∈ live cs, SameFlags c (f c)) :
    (plan ((live cs).map f) (plan cs minPass).minPass).minPass = (plan cs minPass).minPass := by
  have hflags : List.Forall₂ SameFlags (live cs) ((live cs).map f) := by
    rw [List.forall₂_map_right_iff, List.forall₂_same]
    exact hf
  rw [← plan_minPass_congr hflags, plan_minPass_live, plan_minPass_idem]

/-- Children that compile to given ones, all enabled, make up a level that compiles to the given one. -/
theorem compiled_of_forall₂ (f : β → α) (minPass : Int) (hf : ∀ d, enabled d = true → SameFlags d (f d))
    (h : List.Forall₂ (fun c d => f d = c ∧ enabled d = true) cs ds) :
    (live ds).map f = cs ∧ (plan ds minPass).minPass = (plan cs minPass).minPass := by
  have hlive : live ds = ds :=
    List.filter_eq_self.mpr (forall_right h fun _ _ hcd => hcd.2)
  have hmap : ds.map f = cs := by
    rw [← List.forall₂_eq_eq_eq, List.forall₂_map_left_iff]
    exact List.Forall₂.flip (h.imp fun _ _ hcd => hcd.1)
  have hflags : List.Forall₂ SameFlags ds cs :=
    List.Forall₂.flip (h.imp fun c d hcd => hcd.1 ▸ hf d hcd.2)
  exact ⟨by rw [hlive, hmap], plan_minPass_congr hflags⟩

end Settled

/-! ## Levels that answer alike -/

section Answers

variable {ε : Type} {p : α → Except ε Bool} {q : β → Except ε Bool} {cs : List α} {ds : List β}

omit [Flagged α] [Flagged β] in
theorem filter_alike {R : α → β → Prop} {f : α → Bool} {g : β → Bool} (hfg : ∀ c d, R c d → f c = g d)
    (h : List.Forall₂ R cs ds) : List.Forall₂ R (cs.filter f) (ds.filter g) :=
  List.rel_filter (fun c d hcd => iff_of_eq (congrArg (· = true) (hfg c d hcd))) h

omit [Flagged α] [Flagged β] in
theorem countPassing_congr (h : List.Forall₂ (fun c d => p c = q d) cs ds) :
    countPassing p cs = countPassing q ds := by
  induction h with
  | nil => rfl
  | cons hcd _ ih => rw [countPassing, countPassing, hcd, ih]

theorem live_alike {R : α → β → Prop} (hR : ∀ c d, R c d → SameFlags c d) (h : List.Forall₂ R cs ds) :
    List.Forall₂ R (live cs) (live ds) :=
  filter_alike (fun c d hcd => (hR c d hcd).1) h

/-- Levels whose children have the same flags and give the same answers. -/
theorem judge_congr (minPass : Int) (h : List.Forall₂ (fun c d => SameFlags c d ∧ p c = q d) cs ds) :
    judge cs minPass p = judge ds minPass q := by
  have hlive := live_alike (fun c d hcd => hcd.1) h
  have hrequired : List.Forall₂ _ (requiredOf cs) (requiredOf ds) := filter_alike (fun c d hcd => hcd.1.2) hlive
  have hoptional : List.Forall₂ _ (optionalOf cs) (optionalOf ds) :=
    filter_alike (fun c d hcd => by rw [hcd.1.2]) hlive
  have hempty : (live cs).isEmpty = (live ds).isEmpty := by
    rw [Bool.eq_iff_iff, List.isEmpty_iff_length_eq_zero, List.isEmpty_iff_length_eq_zero, hlive.length_eq]
  rw [judge, judge, hempty, countPassing_congr (hrequired.imp fun c d hcd => hcd.2),
    countPassing_congr (hoptional.imp fun c d hcd => hcd.2), hrequired.length_eq, hoptional.length_eq]

section Exchange

variable {γ : Type} {h : α → α} {f : α → β} {a : β → γ}

/-- Children that are exchanged before a level is compiled, for others that have the same flags and answer alike
once they are compiled. -/
theorem compiled_alike (hflags : ∀ c, SameFlags c (h c)) (hf : ∀ c, SameFlags (f (h c)) (f c))
    (ha : ∀ c ∈ cs, a (f (h c)) = a (f c)) :
    List.Forall₂ (fun c d => SameFlags c d ∧ a c = a d) ((live (cs.map h)).map f) ((live cs).map f) := by
  have hlive : live (cs.map h) = (live cs).map h := by
    rw [live, List.filter_map, live]
    exact congrArg _ (List.filter_congr fun c _ => (hflags c).1.symm)
  rw [hlive, List.map_map, List.forall₂_map_left_iff, List.forall₂_map_right_iff, List.forall₂_same]
  exact fun c hc => ⟨hf c, ha c (mem_live.mp hc).1⟩

omit [Flagged β] in
theorem plan_minPass_map (hflags : ∀ c, SameFlags c (h c)) (cs : List α) (minPass : Int) :
    (plan (cs.map h) minPass).minPass = (plan cs minPass).minPass := by
  refine (plan_minPass_congr ?_).symm
  rw [List.forall₂_map_right_iff, List.forall₂_same]
  exact fun c _ => hflags c

end Exchange

end Answers

/-! ## Passing on little -/

section Monotone

variable {p q : α → Bool} {cs : List α} {minPass : Int}

theorem all_demanded_mono (hpq : ∀ c ∈ live cs, p c = true → q c = true)
    (h : cs.all (fun c => !isDemanded c || p c) = true) : cs.all (fun c => !isDemanded c || q c) = true := by
  rw [List.all_eq_true] at h ⊢
  intro c hc
  by_cases hd : isDemanded c = true
  · have hp : p c = true := by simpa [hd] using h c hc
    rw [hpq c (mem_live.mpr ⟨hc, (Bool.and_eq_true_iff.mp hd).1⟩) hp, Bool.or_true]
  · rw [Bool.not_eq_true] at hd
    rw [hd]
    rfl

theorem countP_optional_mono (hpq : ∀ c ∈ live cs, p c = true → q c = true) :
    (cs.countP fun c => isOptional c && p c) ≤ cs.countP fun c => isOptional c && q c := by
  refine List.countP_mono_left fun c hc hp => ?_
  rw [Bool.and_eq_true] at hp ⊢
  exact ⟨hp.1, hpq c (mem_live.mpr ⟨hc, isOptional_enabled hp.1⟩) hp.2⟩

/-- A level that passes still passes when more of its children do. -/
theorem meets_mono (hpq : ∀ c ∈ live cs, p c = true → q c = true) (h : meets cs minPass p = true) :
    meets cs minPass q = true := by
  rw [meets, Bool.and_eq_true, Bool.and_eq_true, decide_eq_true_eq] at h ⊢
  obtain ⟨⟨hany, hall⟩, hcount⟩ := h
  have hle := countP_optional_mono hpq
  exact ⟨⟨hany, all_demanded_mono hpq hall⟩, by omega⟩

/-- So does one that is judged by a threshold out of range. -/
theorem tally_mono (hpq : ∀ c ∈ live cs, p c = true → q c = true) (h : (tally cs minPass p).passed = true) :
    (tally cs minPass q).passed = true := by
  rw [tally_passed] at h ⊢
  by_cases hempty : (live cs).isEmpty = true
  · rwa [if_pos hempty] at h ⊢
  · rw [if_neg hempty, Bool.and_eq_true, Bool.or_eq_true, decide_eq_true_eq] at h ⊢
    obtain ⟨hall, hcount⟩ := h
    have hle := countP_optional_mono hpq
    exact ⟨all_demanded_mono hpq hall, hcount.imp_right fun hcount => by omega⟩

/-- A level of which no child passes is passed exactly if it has enabled children, none of them required,
and its threshold asks for none. -/
theorem meets_none : meets cs minPass (fun _ => false) =
    (cs.any enabled && !cs.any isDemanded && decide (minPass ≤ 0)) := by
  have hall : (cs.all fun c => !isDemanded c || false) = !cs.any isDemanded := by
    rw [List.not_any_eq_all_not]
    simp only [Bool.or_false]
  have hzero : (cs.countP fun c => isOptional c && false) = 0 := by simp
  rw [meets, hall, hzero]
  by_cases hany : cs.any enabled = true
  · by_cases hd : cs.any isDemanded = true
    · rw [hd, Bool.not_true, Bool.and_false, Bool.false_and, Bool.false_and]
    · obtain ⟨c, hc, he⟩ := List.any_eq_true.mp hany
      have hopt : isOptional c = true := by
        rw [Bool.not_eq_true, List.any_eq_false] at hd
        have hnot := hd c hc
        rw [isDemanded, he, Bool.true_and] at hnot
        simpa [isOptional, he] using hnot
      have hpos : 0 < cs.countP isOptional := List.countP_pos_iff.mpr ⟨c, hc, hopt⟩
      congr 1
      rw [decide_eq_decide]
      omega
  · rw [Bool.not_eq_true] at hany
    rw [hany]
    simp only [Bool.false_and]

end Monotone

end Stratagem.Quorum
