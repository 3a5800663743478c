import Mathlib.Data.List.DropRight
import Stratagem.ValueRef

/-!
# Normal forms of texts

Trimming and upper-casing are done once: a text that went through them comes back unchanged. A trimmed text
is one whose first and whose last character are no blanks, and upper-casing keeps that.
-/

namespace Stratagem

namespace Text

/-! ## Trimming -/

/-- No blank stands at either end. -/
structure Bare (cs : List Char) : Prop where
  front : ∀ c ∈ cs.head?, isBlank c = false
  back : ∀ c ∈ cs.getLast?, isBlank c = false

theorem trimChars_eq (cs : List Char) : trimChars cs = (cs.dropWhile isBlank).rdropWhile isBlank := rfl

theorem Bare.trimChars {cs : List Char} (h : Bare cs) : trimChars cs = cs := by
  have hfront : cs.dropWhile isBlank = cs := by
    cases cs with
    | nil => rfl
    | cons c cs => exact List.dropWhile_cons_of_neg (by simp [h.front c rfl])
  rw [trimChars_eq, hfront, List.rdropWhile_eq_self_iff]
  intro hne
  rw [h.back _ (List.getLast?_eq_getLast_of_ne_nil hne)]
  exact Bool.false_ne_true

theorem bare_trimChars (cs : List Char) : Bare (trimChars cs) := by
  rw [trimChars_eq]
  constructor
  · intro c hc
    have hmem : c ∈ (cs.dropWhile isBlank).head? := by
      obtain ⟨rest, hrest⟩ := List.rdropWhile_prefix isBlank (cs.dropWhile isBlank)
      rw [← hrest, List.head?_append, Option.mem_def.mp hc]
      rfl
    have hfirst := List.head?_dropWhile_not isBlank cs
    rw [Option.mem_def.mp hmem] at hfirst
    exact hfirst
  · intro c hc
    obtain ⟨hne, rfl⟩ := List.mem_getLast?_eq_getLast hc
    have hlast := List.rdropWhile_last_not isBlank _ hne
    rwa [Bool.not_eq_true] at hlast

theorem Bare.trim {s : String} (h : Bare s.toList) : trim s = s := by
  rw [Text.trim, h.trimChars, String.ofList_toList]

theorem bare_trim (s : String) : Bare (trim s).toList := by
  rw [trim, String.toList_ofList]
  exact bare_trimChars s.toList

theorem trim_trim (s : String) : trim (trim s) = trim s :=
  (bare_trim s).trim

theorem mem_of_mem_trimChars {cs : List Char} {c : Char} (h : c ∈ trimChars cs) : c ∈ cs := by
  rw [trimChars_eq] at h
  exact (List.dropWhile_suffix isBlank).subset ((List.rdropWhile_prefix isBlank _).subset h)

/-- Trimming takes away blanks only. -/
theorem filter_trimChars (cs : List Char) :
    (trimChars cs).filter (fun c => !isBlank c) = cs.filter fun c => !isBlank c := by
  have hdrop : ∀ cs : List Char, (cs.dropWhile isBlank).filter (fun c => !isBlank c) =
      cs.filter fun c => !isBlank c := by
    intro cs
    conv_rhs => rw [← List.takeWhile_append_dropWhile (p := isBlank) (l := cs), List.filter_append]
    have hnone : (cs.takeWhile isBlank).filter (fun c => !isBlank c) = [] := by
      refine List.filter_eq_nil_iff.mpr fun c hc => ?_
      simp [List.mem_takeWhile_imp hc]
    rw [hnone, List.nil_append]
  rw [trimChars, List.filter_reverse, hdrop, List.filter_reverse, List.reverse_reverse, hdrop]

/-! ## ASCII -/

/-- What is checked for the code points below 128 holds of ASCII characters. -/
theorem forall_ascii {p : Char → Prop} (hall : ∀ n < 0x80, p (Char.ofNat n)) {c : Char} (h : c.toNat < 0x80) :
    p c := by
  have hc := hall c.toNat h
  rwa [Char.ofNat_toNat] at hc

/-! ## Upper case -/

def bits (ns : List Nat) : Nat := ns.foldr (fun n m => 1 <<< n ||| m) 0

theorem testBit_bits (ns : List Nat) (n : Nat) : (bits ns).testBit n = decide (n ∈ ns) := by
  induction ns with
  | nil => exact Nat.zero_testBit n
  | cons k ns ih =>
      show (1 <<< k ||| bits ns).testBit n = _
      rw [Nat.testBit_or, ih, Nat.one_shiftLeft, Nat.testBit_two_pow, ← Bool.decide_or]
      exact decide_eq_decide.mpr (by rw [List.mem_cons, eq_comm])

def CaseRun.points (r : CaseRun) : List Nat :=
  (List.range ((r.last - r.first) / r.step + 1)).map fun k => r.first + k * r.step

theorem CaseRun.mem_points {r : CaseRun} {n : Nat} (h : r.contains n = true) : n ∈ r.points := by
  rw [contains, Bool.and_eq_true, Bool.and_eq_true, decide_eq_true_eq, decide_eq_true_eq, beq_iff_eq] at h
  obtain ⟨⟨hfirst, hlast⟩, hstep⟩ := h
  have hdiv := Nat.div_mul_cancel (Nat.dvd_of_mod_eq_zero hstep)
  have hle : (n - r.first) / r.step ≤ (r.last - r.first) / r.step := Nat.div_le_div_right (by omega)
  exact List.mem_map.mpr ⟨(n - r.first) / r.step, List.mem_range.mpr (by omega), by omega⟩

/-- The code points that the tables take to others. -/
def moved : List Nat :=
  upperRuns.flatMap CaseRun.points ++ upperExpansions.map Prod.fst

def capitals : List Nat :=
  (upperRuns.flatMap fun r => r.points.map fun n : Nat => (n + r.delta : Int).toNat) ++
    upperExpansions.flatMap Prod.snd

/-- No capital is taken further. The lists are compared bit by bit, all at once. -/
theorem not_mem_moved {n : Nat} (h : n ∈ capitals) : n ∉ moved := by
  have hdisjoint : bits moved &&& bits capitals = 0 := by
    decide +kernel
  intro hn
  have hbit := congrArg (Nat.testBit · n) hdisjoint
  rw [Nat.testBit_and, testBit_bits, testBit_bits, decide_eq_true hn, decide_eq_true h,
    Nat.zero_testBit] at hbit
  cases hbit

theorem capitals_visible {n : Nat} (h : n ∈ capitals) :
    (Char.ofNat n).toNat = n ∧ isBlank (Char.ofNat n) = false := by
  have hall : (capitals.all fun n => (Char.ofNat n).toNat == n && !isBlank (Char.ofNat n)) = true := by
    decide +kernel
  have hn := List.all_eq_true.mp hall n h
  rwa [Bool.and_eq_true, beq_iff_eq, Bool.not_eq_true'] at hn

theorem toUpper_cases {c : Char} (h : c.toNat < 0x80) :
    c.toUpper = c ∨ c.toNat ∈ moved ∧ c.toUpper.toNat ∈ capitals :=
  forall_ascii (p := fun c => c.toUpper = c ∨ c.toNat ∈ moved ∧ c.toUpper.toNat ∈ capitals) (by decide +kernel) h

theorem upperChar_of_not_moved {c : Char} (h : c.toNat ∉ moved) : upperChar c = [c] := by
  by_cases hascii : c.toNat < 0x80
  · rw [upperChar_ascii hascii, (toUpper_cases hascii).resolve_right fun hmoved => h hmoved.1]
  · have hruns : upperRuns.find? (·.contains c.toNat) = none := List.find?_eq_none.mpr fun r hr hc =>
      h (List.mem_append_left _ (List.mem_flatMap.mpr ⟨r, hr, CaseRun.mem_points hc⟩))
    have hexpansions : upperExpansions.lookup c.toNat = none := List.lookup_eq_none_iff.mpr fun e he => by
      rw [bne_iff_ne]
      rintro heq
      exact h (List.mem_append_right _ (List.mem_map.mpr ⟨e, he, heq.symm⟩))
    rw [upperChar, if_neg hascii, hexpansions]
    dsimp only
    rw [mapRuns, hruns, Char.ofNat_toNat]

/-- A character stays, or becomes capitals. -/
theorem upperChar_cases (c : Char) :
    upperChar c = [c] ∨ upperChar c ≠ [] ∧ ∀ d ∈ upperChar c, ∃ n ∈ capitals, d = Char.ofNat n := by
  by_cases hascii : c.toNat < 0x80
  · rw [upperChar_ascii hascii]
    rcases toUpper_cases hascii with h | ⟨-, h⟩
    · exact Or.inl (by rw [h])
    · refine Or.inr ⟨List.cons_ne_nil _ _, fun d hd => ⟨_, h, ?_⟩⟩
      rw [Char.ofNat_toNat]
      exact List.mem_singleton.mp hd
  · rw [upperChar, if_neg hascii]
    cases hlookup : upperExpansions.lookup c.toNat with
    | some ns =>
        right
        obtain ⟨before, after, hsplit, -⟩ := List.lookup_eq_some_iff.mp hlookup
        have hmem : (c.toNat, ns) ∈ upperExpansions :=
          hsplit ▸ List.mem_append_right _ List.mem_cons_self
        constructor
        · have hne : ∀ e ∈ upperExpansions, e.2 ≠ [] := by decide
          exact fun hnil => hne _ hmem (List.map_eq_nil_iff.mp hnil)
        · intro d hd
          obtain ⟨n, hn, rfl⟩ := List.mem_map.mp hd
          exact ⟨n, List.mem_append_right _ (List.mem_flatMap.mpr ⟨_, hmem, hn⟩), rfl⟩
    | none =>
        dsimp only
        rw [mapRuns]
        cases hfind : upperRuns.find? (·.contains c.toNat) with
        | none => exact Or.inl (by rw [Char.ofNat_toNat])
        | some r =>
            refine Or.inr ⟨List.cons_ne_nil _ _, fun d hd => ⟨_, ?_, List.mem_singleton.mp hd⟩⟩
            refine List.mem_append_left _ (List.mem_flatMap.mpr ⟨r, List.mem_of_find?_eq_some hfind, ?_⟩)
            have hcontains : r.contains c.toNat = true := List.find?_some (p := (CaseRun.contains · c.toNat)) hfind
            exact List.mem_map.mpr ⟨c.toNat, CaseRun.mem_points hcontains, rfl⟩

/-- The upper-case form of a character is its own. -/
theorem upperChar_upperChar {c d : Char} (h : d ∈ upperChar c) : upperChar d = [d] := by
  rcases upperChar_cases c with hc | ⟨-, hc⟩
  · rw [hc, List.mem_singleton] at h
    rw [h, hc]
  · obtain ⟨n, hn, rfl⟩ := hc d h
    apply upperChar_of_not_moved
    rw [(capitals_visible hn).1]
    exact not_mem_moved hn

theorem isBlank_upperChar {c d : Char} (hc : isBlank c = false) (h : d ∈ upperChar c) : isBlank d = false := by
  rcases upperChar_cases c with hstay | ⟨-, hcapitals⟩
  · rw [hstay, List.mem_singleton] at h
    rwa [h]
  · obtain ⟨n, hn, rfl⟩ := hcapitals d h
    exact (capitals_visible hn).2

theorem upperChar_ne_nil (c : Char) : upperChar c ≠ [] := by
  rcases upperChar_cases c with hc | ⟨hc, -⟩
  · rw [hc]
    exact List.cons_ne_nil _ _
  · exact hc

theorem upper_upper (s : String) : upper (upper s) = upper s := by
  unfold upper
  rw [String.toList_ofList]
  congr 1
  -- the second pass takes each character to itself
  conv_rhs => rw [← List.flatMap_singleton' (s.toList.flatMap upperChar)]
  refine List.flatMap_congr fun d hd => ?_
  obtain ⟨c, -, hc⟩ := List.mem_flatMap.mp hd
  exact upperChar_upperChar hc

theorem Bare.upper {cs : List Char} (h : Bare cs) : Bare (cs.flatMap upperChar) := by
  constructor
  · intro d hd
    cases cs with
    | nil => cases hd
    | cons c cs =>
        obtain ⟨e, es, he⟩ := List.exists_cons_of_ne_nil (upperChar_ne_nil c)
        rw [List.flatMap_cons, he] at hd
        cases hd
        exact isBlank_upperChar (h.front c rfl) (he ▸ List.mem_cons_self)
  · intro d hd
    rcases List.eq_nil_or_concat cs with rfl | ⟨cs, c, rfl⟩
    · cases hd
    · have hlast : d ∈ (upperChar c).getLast? := by
        rw [List.concat_eq_append, List.flatMap_append, List.flatMap_singleton, List.getLast?_append] at hd
        rw [List.getLast?_eq_getLast_of_ne_nil (upperChar_ne_nil c)] at hd ⊢
        exact hd
      refine isBlank_upperChar (h.back c ?_) (List.mem_of_getLast? hlast)
      rw [List.concat_eq_append, List.getLast?_concat]
      rfl

theorem trim_upper_trim (s : String) : trim (upper (trim s)) = upper (trim s) := by
  apply Bare.trim
  rw [upper, String.toList_ofList]
  exact (bare_trim s).upper

end Text

/-- The key of a column is its own key. -/
theorem Kline.key_key (name : String) : key (key name) = key name := by
  unfold key
  rw [Text.trim_upper_trim, Text.upper_upper]

end Stratagem
