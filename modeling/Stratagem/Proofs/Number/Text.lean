import Mathlib.Data.List.Basic
import Mathlib.Data.List.TakeDrop
import Mathlib.Data.List.TakeWhile
import Mathlib.Tactic.Ring
import Stratagem.Number

/-!
# Written numbers are read

Digits are read back as their number, wherever the point is placed and whatever the exponent is, and a sign
before them is the sign of the number.
-/

namespace Stratagem.Number

open Stratagem.Text

/-! ## Digits -/

theorem toNat_of_isDigit {c : Char} (h : c.isDigit = true) : 48 ≤ c.toNat ∧ c.toNat ≤ 57 := by
  rw [Char.isDigit, Bool.and_eq_true, decide_eq_true_eq, decide_eq_true_eq] at h
  exact ⟨UInt32.le_iff_toNat_le.mp h.1, UInt32.le_iff_toNat_le.mp h.2⟩

/-- The first run of digits is that of the ASCII ones. -/
theorem digit?_of_isDigit {c : Char} (h : c.isDigit = true) : digit? c = some (c.toNat - 48) := by
  obtain ⟨hlow, hhigh⟩ := toNat_of_isDigit h
  unfold digit? digitZeros
  rw [List.findSome?_cons, if_pos]
  simp only [Bool.and_eq_true, decide_eq_true_eq]
  omega

theorem isDecimalDigit_of_isDigit {c : Char} (h : c.isDigit = true) : isDecimalDigit c = true := by
  rw [isDecimalDigit, digit?_of_isDigit h]
  rfl

/-- Reading goes on from the number read so far. -/
theorem natOfDigits_append (cs ds : List Char) :
    natOfDigits (cs ++ ds) = natOfDigits cs * 10 ^ ds.length + natOfDigits ds := by
  have hfrom : ∀ (ds : List Char) (n : Nat),
      ds.foldl (fun n c => 10 * n + (digit? c).getD 0) n = n * 10 ^ ds.length + natOfDigits ds := by
    intro ds
    induction ds with
    | nil =>
        intro n
        rw [List.foldl_nil, List.length_nil, pow_zero, mul_one]
        rfl
    | cons d ds ih =>
        intro n
        have hcons : natOfDigits (d :: ds) =
            (10 * 0 + (digit? d).getD 0) * 10 ^ ds.length + natOfDigits ds := ih _
        rw [List.foldl_cons, ih, hcons, List.length_cons, pow_succ]
        ring
  rw [natOfDigits, List.foldl_append, hfrom]
  rfl

@[simp] theorem length_zeros (n : Nat) : (zeros n).length = n := List.length_replicate

theorem isDigit_zeros {n : Nat} {c : Char} (h : c ∈ zeros n) : c.isDigit = true := by
  rw [(List.mem_replicate.mp h).2]
  rfl

@[simp] theorem natOfDigits_zeros (n : Nat) : natOfDigits (zeros n) = 0 := by
  induction n with
  | zero => rfl
  | succ n ih =>
      show natOfDigits (['0'] ++ zeros n) = 0
      rw [natOfDigits_append, ih, show natOfDigits ['0'] = 0 from rfl, zero_mul]

theorem natOfDigits_zeros_append (n : Nat) (ds : List Char) :
    natOfDigits (zeros n ++ ds) = natOfDigits ds := by
  rw [natOfDigits_append, natOfDigits_zeros, zero_mul, zero_add]

theorem natOfDigits_append_zeros (ds : List Char) (n : Nat) :
    natOfDigits (ds ++ zeros n) = natOfDigits ds * 10 ^ n := by
  rw [natOfDigits_append, natOfDigits_zeros, length_zeros, add_zero]

theorem isDigit_digitsOf {n : Nat} {c : Char} (h : c ∈ digitsOf n) : c.isDigit = true :=
  Nat.isDigit_of_mem_toDigits (by norm_num) (by norm_num) h

theorem digitsOf_ne_nil (n : Nat) : digitsOf n ≠ [] := Nat.toDigits_ne_nil

theorem natOfDigits_eq_ofDigitChars {cs : List Char} (h : ∀ c ∈ cs, c.isDigit = true) :
    natOfDigits cs = Nat.ofDigitChars 10 cs 0 := by
  rw [Nat.ofDigitChars_eq_foldl, natOfDigits]
  refine List.foldl_ext _ _ _ fun n c hc => ?_
  rw [digit?_of_isDigit (h c hc)]
  rfl

theorem natOfDigits_digitsOf (n : Nat) : natOfDigits (digitsOf n) = n := by
  rw [natOfDigits_eq_ofDigitChars fun c hc => isDigit_digitsOf hc]
  exact Nat.ofDigitChars_ten_toDigits

/-- Zeros at the end are all that is dropped. -/
theorem dropTrailingZeros_append {ds : List Char} (h : ds ≠ []) :
    dropTrailingZeros ds ≠ [] ∧ ∃ n, ds = dropTrailingZeros ds ++ zeros n := by
  have hsplit : ds = (ds.reverse.dropWhile (· == '0')).reverse ++
      (ds.reverse.takeWhile (· == '0')).reverse := by
    rw [← List.reverse_append, List.takeWhile_append_dropWhile, List.reverse_reverse]
  have hzeros : (ds.reverse.takeWhile (· == '0')).reverse =
      zeros (ds.reverse.takeWhile (· == '0')).reverse.length := by
    refine List.eq_replicate_iff.mpr ⟨rfl, fun c hc => ?_⟩
    have hzero := List.mem_takeWhile_imp (List.mem_reverse.mp hc)
    exact beq_iff_eq.mp hzero
  rw [hzeros] at hsplit
  generalize (ds.reverse.takeWhile (· == '0')).reverse.length = n at hsplit
  unfold dropTrailingZeros
  split
  · rename_i hkept
    rw [hkept, List.nil_append] at hsplit
    cases n with
    | zero => exact absurd hsplit h
    | succ n => exact ⟨List.cons_ne_nil _ _, n, hsplit⟩
  · rename_i hkept
    exact ⟨hkept, n, hsplit⟩

/-! ## Decimals -/

/-- What ends a run of digits. -/
def EndsDigits (cs : List Char) : Prop := ∀ c ∈ cs.head?, isDecimalDigit c = false

/-- A run ends where the next part begins with something else. -/
theorem run_append {α : Type} {p : α → Bool} {xs ys : List α} (hxs : ∀ x ∈ xs, p x = true)
    (hys : ∀ y ∈ ys.head?, p y = false) : (xs ++ ys).takeWhile p = xs ∧ (xs ++ ys).dropWhile p = ys := by
  rw [List.takeWhile_append_of_pos hxs, List.dropWhile_append_of_pos hxs]
  cases ys with
  | nil => exact ⟨List.append_nil xs, rfl⟩
  | cons y ys =>
      have hy : p y = false := hys y rfl
      rw [List.takeWhile_cons, List.dropWhile_cons, hy]
      exact ⟨List.append_nil xs, rfl⟩

theorem span_digits {ds cs : List Char} (hds : ∀ c ∈ ds, c.isDigit = true) (hcs : EndsDigits cs) :
    (ds ++ cs).span isDecimalDigit = (ds, cs) := by
  obtain ⟨htake, hdrop⟩ := run_append (fun c hc => isDecimalDigit_of_isDigit (hds c hc)) hcs
  rw [List.span_eq_takeWhile_dropWhile, htake, hdrop]

/-- A decimal with a point. -/
theorem readDecimal?_point {ds fs cs : List Char} (hds : ∀ c ∈ ds, c.isDigit = true)
    (hfs : ∀ c ∈ fs, c.isDigit = true) (hne : ds ≠ []) (hcs : EndsDigits cs) :
    readDecimal? (ds ++ '.' :: (fs ++ cs)) =
      (readExponent? cs).map fun e : Int => (natOfDigits (ds ++ fs), e - fs.length) := by
  have hpoint : EndsDigits ('.' :: (fs ++ cs)) := by
    intro c hc
    rw [← Option.some.inj hc]
    decide
  unfold readDecimal?
  rw [span_digits hds hpoint]
  simp only [span_digits hfs hcs]
  rw [if_neg]
  simp [hne]

/-- A decimal without a point. -/
theorem readDecimal?_whole {ds cs : List Char} (hds : ∀ c ∈ ds, c.isDigit = true) (hne : ds ≠ [])
    (hcs : EndsDigits cs) (hpoint : ∀ r, cs ≠ '.' :: r) :
    readDecimal? (ds ++ cs) = (readExponent? cs).map fun e => (natOfDigits ds, e) := by
  unfold readDecimal?
  rw [span_digits hds hcs]
  dsimp only
  split
  · rename_i r
    exact absurd rfl (hpoint r)
  · rw [if_neg (by simp [hne]), List.append_nil]
    simp only [List.length_nil, Nat.cast_zero, sub_zero]

/-- The exponent is read back. -/
theorem readExponent?_exponentText (l : Layout) (k : Int) : readExponent? (exponentText l k) = some k := by
  generalize hzeros : zeros (l.exponentDigits - (digitsOf k.natAbs).length) = pad
  have hdigits : ∀ c ∈ pad ++ digitsOf k.natAbs, c.isDigit = true :=
    List.forall_mem_append.mpr ⟨hzeros ▸ fun _ => isDigit_zeros, fun _ => isDigit_digitsOf⟩
  have hvalue : natOfDigits (pad ++ digitsOf k.natAbs) = k.natAbs := by
    rw [← hzeros, natOfDigits_zeros_append, natOfDigits_digitsOf]
  have hne : (pad ++ digitsOf k.natAbs).isEmpty = false := by
    rw [List.isEmpty_eq_false_iff]
    exact List.append_ne_nil_of_right_ne_nil _ (digitsOf_ne_nil _)
  have hall : (pad ++ digitsOf k.natAbs).all isDecimalDigit = true :=
    List.all_eq_true.mpr fun c hc => isDecimalDigit_of_isDigit (hdigits c hc)
  unfold exponentText
  dsimp only
  rw [hzeros, List.append_assoc]
  generalize pad ++ digitsOf k.natAbs = ds at hvalue hne hall
  by_cases hk : k < 0
  · rw [if_pos hk]
    show (if (ds.isEmpty || !ds.all isDecimalDigit) = true then none
      else some (-(natOfDigits ds : Int))) = some k
    rw [hne, hall, hvalue]
    exact congrArg some (by omega)
  · rw [if_neg hk]
    show (if (ds.isEmpty || !ds.all isDecimalDigit) = true then none
      else some (natOfDigits ds : Int)) = some k
    rw [hne, hall, hvalue]
    exact congrArg some (by omega)

theorem endsDigits_nil : EndsDigits [] := nofun

theorem endsDigits_exponentText (l : Layout) (k : Int) : EndsDigits (exponentText l k) := by
  intro c hc
  rw [← Option.some.inj hc]
  decide

section Place

variable {ds : List Char} {leading : Int}

/-- Below one. -/
theorem readDecimal?_place_fraction (hds : ∀ c ∈ ds, c.isDigit = true) (hlow : -4 ≤ leading)
    (hneg : leading < 0) :
    readDecimal? (place plain ds leading) = some (natOfDigits ds, leading + 1 - ds.length) := by
  have hplace : place plain ds leading = ['0'] ++ '.' :: ((zeros (-leading - 1).toNat ++ ds) ++ []) := by
    have hhigh : leading < 16 := by omega
    unfold place
    rw [if_pos (by simp [plain, hlow, hhigh]), if_pos hneg, List.append_nil]
    rfl
  rw [hplace, readDecimal?_point (List.forall_mem_singleton.mpr rfl)
    (List.forall_mem_append.mpr ⟨fun _ => isDigit_zeros, hds⟩) (List.cons_ne_nil _ _) endsDigits_nil,
    show ['0'] = zeros 1 from rfl, natOfDigits_zeros_append, natOfDigits_zeros_append]
  show some (_, (0 : Int) - _) = _
  rw [List.length_append, length_zeros]
  congr 2
  omega

/-- From one on, the last digit of the whole part being behind the digits or the last of them. -/
theorem readDecimal?_place_padded (hds : ∀ c ∈ ds, c.isDigit = true) (hne : ds ≠ []) (hpos : 0 ≤ leading)
    (hhigh : leading < 16) (hlen : ds.length ≤ leading.toNat + 1) :
    readDecimal? (place plain ds leading) =
      some (natOfDigits ds * 10 ^ (leading.toNat + 1 - ds.length + 1), -1) := by
  have hplace : place plain ds leading =
      (ds ++ zeros (leading.toNat + 1 - ds.length)) ++ '.' :: (['0'] ++ []) := by
    have hlow : -4 ≤ leading := by omega
    unfold place
    rw [if_pos (by simp [plain, hlow, hhigh]), if_neg (by omega)]
    dsimp only
    rw [if_pos hlen, List.take_of_length_le hlen, List.append_assoc]
    rfl
  rw [hplace, readDecimal?_point (List.forall_mem_append.mpr ⟨hds, fun _ => isDigit_zeros⟩)
    (List.forall_mem_singleton.mpr rfl) (List.append_ne_nil_of_left_ne_nil hne _) endsDigits_nil,
    show ['0'] = zeros 1 from rfl, natOfDigits_append_zeros, natOfDigits_append_zeros, mul_assoc, ← pow_add]
  rfl

/-- From one on, the last digit of the whole part being within the digits. -/
theorem readDecimal?_place_within (hds : ∀ c ∈ ds, c.isDigit = true) (hne : ds ≠ []) (hpos : 0 ≤ leading)
    (hhigh : leading < 16) (hlen : leading.toNat + 1 < ds.length) :
    readDecimal? (place plain ds leading) = some (natOfDigits ds, leading + 1 - ds.length) := by
  have hplace : place plain ds leading =
      ds.take (leading.toNat + 1) ++ '.' :: (ds.drop (leading.toNat + 1) ++ []) := by
    have hlow : -4 ≤ leading := by omega
    unfold place
    rw [if_pos (by simp [plain, hlow, hhigh]), if_neg (by omega)]
    dsimp only
    rw [if_neg (by omega), Nat.sub_eq_zero_of_le hlen.le, List.append_nil]
    show List.take _ ds ++ [] ++ ['.'] ++ _ = _
    rw [List.append_nil, List.append_assoc]
    rfl
  rw [hplace, readDecimal?_point (fun c hc => hds c (List.mem_of_mem_take hc))
    (fun c hc => hds c (List.mem_of_mem_drop hc)) (by simp [hne]) endsDigits_nil, List.take_append_drop]
  show some (_, (0 : Int) - _) = _
  rw [List.length_drop]
  congr 2
  omega

/-- With an exponent. -/
theorem readDecimal?_place_exponent (hds : ∀ c ∈ ds, c.isDigit = true) (hne : ds ≠ [])
    (hout : ¬ (-4 ≤ leading ∧ leading < 16)) :
    readDecimal? (place plain ds leading) = some (natOfDigits ds, leading + 1 - ds.length) := by
  have hlen : 0 < ds.length := List.length_pos_iff.mpr hne
  unfold place
  have hplain : ¬ (decide (plain.low ≤ leading) && decide (leading < plain.high)) = true := by
    rw [Bool.and_eq_true, decide_eq_true_eq, decide_eq_true_eq]
    exact hout
  rw [if_neg hplain]
  by_cases hone : ds.length ≤ 1
  · rw [if_pos hone, List.take_of_length_le hone, List.append_nil, readDecimal?_whole hds hne
      (endsDigits_exponentText plain leading) (fun r h => absurd (List.head_eq_of_cons_eq h) (by decide)),
      readExponent?_exponentText]
    show some (_, _) = _
    congr 2
    omega
  · rw [if_neg hone, List.append_assoc, List.cons_append,
      readDecimal?_point (fun c hc => hds c (List.mem_of_mem_take hc))
      (fun c hc => hds c (List.mem_of_mem_drop hc)) (by simp [hne]) (endsDigits_exponentText plain leading),
      readExponent?_exponentText, List.take_append_drop]
    show some (_, _) = _
    rw [List.length_drop]
    congr 2
    omega

/-- **Digits are read back wherever they are placed.** Zeros may have been put behind them. -/
theorem readDecimal?_place (hds : ∀ c ∈ ds, c.isDigit = true) (hne : ds ≠ []) (leading : Int) :
    ∃ n : Nat, n ≤ 17 ∧ readDecimal? (place plain ds leading) =
      some (natOfDigits ds * 10 ^ n, leading + 1 - ds.length - n) := by
  have hlen : 0 < ds.length := List.length_pos_iff.mpr hne
  by_cases hout : -4 ≤ leading ∧ leading < 16
  · obtain ⟨hlow, hhigh⟩ := hout
    by_cases hneg : leading < 0
    · refine ⟨0, by omega, ?_⟩
      rw [readDecimal?_place_fraction hds hlow hneg, pow_zero, mul_one, Nat.cast_zero, sub_zero]
    · by_cases hlen : ds.length ≤ leading.toNat + 1
      · refine ⟨leading.toNat + 1 - ds.length + 1, by omega, ?_⟩
        rw [readDecimal?_place_padded hds hne (by omega) hhigh hlen]
        congr 2
        omega
      · refine ⟨0, by omega, ?_⟩
        rw [readDecimal?_place_within hds hne (by omega) hhigh (by omega), pow_zero, mul_one, Nat.cast_zero,
          sub_zero]
  · refine ⟨0, by omega, ?_⟩
    rw [readDecimal?_place_exponent hds hne hout, pow_zero, mul_one, Nat.cast_zero, sub_zero]

end Place

/-! ## Signs -/

def isNumeral (c : Char) : Bool := c.isDigit || c == '.' || c == 'e' || c == '-' || c == '+'

theorem isNumberBlank_of_isNumeral {c : Char} (h : isNumeral c = true) : isNumberBlank c = false := by
  unfold isNumeral at h
  simp only [Bool.or_eq_true, beq_iff_eq] at h
  rcases h with (((h | rfl) | rfl) | rfl) | rfl
  · have hrange := toNat_of_isDigit h
    unfold isNumberBlank isBlank
    generalize c.toNat = n at hrange
    simp only [Bool.and_eq_false_iff, Bool.or_eq_false_iff, decide_eq_false_iff_not, beq_eq_false_iff_ne]
    omega
  · decide
  · decide
  · decide
  · decide

theorem ne_underscore_of_isNumeral {c : Char} (h : isNumeral c = true) : c ≠ '_' := by
  rintro rfl
  cases h

theorem dropWhile_of_isNumeral {cs : List Char} (h : ∀ c ∈ cs, isNumeral c = true) :
    cs.dropWhile isNumberBlank = cs := by
  cases cs with
  | nil => rfl
  | cons c cs =>
      rw [List.dropWhile_cons, isNumberBlank_of_isNumeral (h c List.mem_cons_self)]
      rfl

theorem trimNumber_of_isNumeral {cs : List Char} (h : ∀ c ∈ cs, isNumeral c = true) :
    trimNumber cs = cs := by
  unfold trimNumber
  rw [dropWhile_of_isNumeral h, dropWhile_of_isNumeral fun c hc => h c (List.mem_reverse.mp hc),
    List.reverse_reverse]

theorem dropSeparators_of_isNumeral {cs : List Char} (h : ∀ c ∈ cs, isNumeral c = true) (after : Bool) :
    dropSeparators after cs = cs := by
  induction cs generalizing after with
  | nil => rfl
  | cons c cs ih =>
      have hc : (c == '_') = false :=
        beq_eq_false_iff_ne.mpr (ne_underscore_of_isNumeral (h c List.mem_cons_self))
      rw [dropSeparators, hc, Bool.false_and, Bool.false_and, if_neg Bool.false_ne_true,
        ih fun d hd => h d (List.mem_cons_of_mem c hd)]

/-- A decimal is read as such and not as a name. -/
theorem readUnsigned?_of_digit {c : Char} {cs : List Char} (hc : c.isDigit = true) {n : Nat} {k : Int}
    (h : readDecimal? (c :: cs) = some (n, k)) : readUnsigned? (c :: cs) = some (ofDecimal n k) := by
  obtain ⟨hlow, hhigh⟩ := toNat_of_isDigit hc
  have hlower : c.toLower = c := by
    refine dif_neg fun hupper => ?_
    have hge : 65 ≤ c.toNat := UInt32.le_iff_toNat_le.mp hupper.1
    omega
  have hname : ∀ (d : Char) (ds : List Char), 57 < d.toNat →
      (String.ofList ((c :: cs).map Char.toLower) == String.ofList (d :: ds)) = false := by
    intro d ds hd
    refine beq_eq_false_iff_ne.mpr fun heq => ?_
    have hhead := List.head_eq_of_cons_eq (String.ofList_injective heq)
    rw [hlower] at hhead
    rw [hhead] at hhigh
    omega
  unfold readUnsigned?
  dsimp only
  have hinf : (String.ofList ((c :: cs).map Char.toLower) == "inf") = false :=
    hname 'i' ['n', 'f'] (by decide)
  have hinfinity : (String.ofList ((c :: cs).map Char.toLower) == "infinity") = false :=
    hname 'i' ['n', 'f', 'i', 'n', 'i', 't', 'y'] (by decide)
  have hnan : (String.ofList ((c :: cs).map Char.toLower) == "nan") = false :=
    hname 'n' ['a', 'n'] (by decide)
  rw [hinf, hinfinity, hnan, h]
  rfl

/-- The sign of a text is the sign of the number. -/
theorem readReal?_signText {c : Char} {cs : List Char} (hc : c.isDigit = true)
    (hcs : ∀ d ∈ cs, isNumeral d = true) {n : Nat} {k : Int} (h : readDecimal? (c :: cs) = some (n, k))
    (s : Float.Model.UnpackedFloat.Sign) :
    readReal? (String.ofList (signText s ++ c :: cs)) =
      some (match s with
        | .positive => ofDecimal n k
        | .negative => -ofDecimal n k) := by
  have hall : ∀ d ∈ signText s ++ c :: cs, isNumeral d = true := by
    intro d hd
    rcases List.mem_append.mp hd with hd | hd
    · cases s with
      | positive => cases hd
      | negative =>
          rw [List.mem_singleton.mp hd]
          rfl
    · rcases List.mem_cons.mp hd with rfl | hd
      · rw [isNumeral, hc]
        rfl
      · exact hcs d hd
  obtain ⟨hlow, hhigh⟩ := toNat_of_isDigit hc
  unfold readReal?
  rw [String.toList_ofList, trimNumber_of_isNumeral hall, dropSeparators_of_isNumeral hall]
  cases s with
  | positive =>
      -- no digit is a sign
      have hsign : splitSign (c :: cs) = (false, c :: cs) := by
        unfold splitSign
        split
        · rename_i heq
          rw [List.head_eq_of_cons_eq heq] at hlow
          exact absurd hlow (by decide)
        · rename_i heq
          rw [List.head_eq_of_cons_eq heq] at hlow
          exact absurd hlow (by decide)
        · rfl
      rw [show signText .positive ++ c :: cs = c :: cs from rfl, hsign]
      dsimp only
      rw [readUnsigned?_of_digit hc h]
      rfl
  | negative =>
      show (readUnsigned? (c :: cs)).map _ = _
      rw [readUnsigned?_of_digit hc h]
      rfl

theorem isNumeral_of_isDigit {c : Char} (h : c.isDigit = true) : isNumeral c = true := by
  rw [isNumeral, h]
  rfl

theorem isNumeral_exponentText (l : Layout) (k : Int) : ∀ c ∈ exponentText l k, isNumeral c = true := by
  unfold exponentText
  simp only [List.forall_mem_append]
  refine ⟨⟨?_, fun c hc => isNumeral_of_isDigit (isDigit_zeros hc)⟩,
    fun c hc => isNumeral_of_isDigit (isDigit_digitsOf hc)⟩
  split
  · exact List.forall_mem_cons.mpr ⟨rfl, List.forall_mem_singleton.mpr rfl⟩
  · exact List.forall_mem_cons.mpr ⟨rfl, List.forall_mem_singleton.mpr rfl⟩

theorem isNumeral_place {ds : List Char} (hds : ∀ c ∈ ds, c.isDigit = true) (leading : Int) :
    ∀ c ∈ place plain ds leading, isNumeral c = true := by
  have hdigits : ∀ c ∈ ds, isNumeral c = true := fun c hc => isNumeral_of_isDigit (hds c hc)
  have hzeros : ∀ n, ∀ c ∈ zeros n, isNumeral c = true := fun n c hc =>
    isNumeral_of_isDigit (isDigit_zeros hc)
  have htake : ∀ n, ∀ c ∈ ds.take n, isNumeral c = true := fun n c hc => hdigits c (List.mem_of_mem_take hc)
  have hdrop : ∀ n, ∀ c ∈ ds.drop n, isNumeral c = true := fun n c hc => hdigits c (List.mem_of_mem_drop hc)
  unfold place
  split
  · split
    · simp only [List.forall_mem_append]
      exact ⟨⟨List.forall_mem_cons.mpr ⟨rfl, List.forall_mem_singleton.mpr rfl⟩, hzeros _⟩, hdigits⟩
    · simp only [List.forall_mem_append]
      refine ⟨⟨⟨htake _, hzeros _⟩, List.forall_mem_singleton.mpr rfl⟩, ?_⟩
      split
      · exact List.forall_mem_singleton.mpr rfl
      · exact hdrop _
  · simp only [List.forall_mem_append]
    refine ⟨⟨htake _, ?_⟩, isNumeral_exponentText plain leading⟩
    split
    · exact nofun
    · exact List.forall_mem_cons.mpr ⟨rfl, hdrop _⟩

theorem place_eq_cons {ds : List Char} (hds : ∀ c ∈ ds, c.isDigit = true) (hne : ds ≠ []) (leading : Int) :
    ∃ c cs, place plain ds leading = c :: cs ∧ c.isDigit = true := by
  obtain ⟨d, ds, rfl⟩ := List.exists_cons_of_ne_nil hne
  unfold place
  split
  · split
    · exact ⟨'0', _, rfl, rfl⟩
    · exact ⟨d, _, rfl, hds d List.mem_cons_self⟩
  · exact ⟨d, _, rfl, hds d List.mem_cons_self⟩

/-! ## Characters -/

def isWritten (c : Char) : Bool := isNumeral c || c == 'i' || c == 'n' || c == 'f' || c == 'a'

theorem isWritten_of_isNumeral {c : Char} (h : isNumeral c = true) : isWritten c = true := by
  rw [isWritten, h]
  rfl

theorem isWritten_signText (s : Float.Model.UnpackedFloat.Sign) : ∀ c ∈ signText s, isWritten c = true := by
  cases s with
  | positive => exact nofun
  | negative => exact List.forall_mem_singleton.mpr rfl

theorem isWritten_digitsOf (n : Nat) : ∀ c ∈ digitsOf n, isWritten c = true :=
  fun _ hc => isWritten_of_isNumeral (isNumeral_of_isDigit (isDigit_digitsOf hc))

theorem isWritten_render (x : Float) : ∀ c ∈ (render plain x).toList, isWritten c = true := by
  unfold render
  cases x.toModel.unpack with
  | notANumber => exact List.all_eq_true.mp rfl
  | infinity s => cases s <;> exact List.all_eq_true.mp rfl
  | zero s => cases s <;> exact List.all_eq_true.mp rfl
  | finite s m e hm =>
      dsimp only
      rw [String.toList_ofList, List.forall_mem_append]
      refine ⟨isWritten_signText s, fun c hc => isWritten_of_isNumeral (isNumeral_place ?_ _ c hc)⟩
      obtain ⟨-, n, hsplit⟩ := dropTrailingZeros_append (digitsOf_ne_nil (shortest m e).digits)
      intro d hd
      apply isDigit_digitsOf (n := (shortest m e).digits)
      rw [hsplit]
      exact List.mem_append_left _ hd

theorem isWritten_briefText (x : Float) : ∀ c ∈ (briefText x).toList, isWritten c = true := by
  unfold briefText
  cases integral? x with
  | none => exact isWritten_render x
  | some n =>
      dsimp only
      rw [decimal, String.toList_ofList, List.forall_mem_append]
      refine ⟨?_, isWritten_digitsOf _⟩
      split
      · exact List.forall_mem_singleton.mpr rfl
      · exact nofun

/-- A written character is a visible one of the basic range. -/
theorem toNat_of_isWritten {c : Char} (h : isWritten c = true) : 43 ≤ c.toNat ∧ c.toNat ≤ 122 := by
  simp only [isWritten, isNumeral, Bool.or_eq_true, beq_iff_eq, or_assoc] at h
  rcases h with h | rfl | rfl | rfl | rfl | rfl | rfl | rfl | rfl
  · have hrange := toNat_of_isDigit h
    omega
  all_goals decide

end Stratagem.Number
