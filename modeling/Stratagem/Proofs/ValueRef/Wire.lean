import Stratagem.Proofs.Number.RoundTrip
import Stratagem.Proofs.Sequencing
import Stratagem.Proofs.Text
import Stratagem.Proofs.Writable
import Stratagem.Tree.Compile
import Stratagem.ValueRef.Wire

/-!
# References come back from their records

Whatever makes a reference leaves it `Admissible`: its parts are in the normal form that the next reader
would bring them to. The record of an admissible reference is read as the reference itself; only an output
channel that was no text has become one, if it can be written.

A number is compiled to a literal and comes back from it as a number. Arguments are literals, numbers or
texts, and decompiling makes them operands: each is the number that its argument stands for, or a reference
that stands for none.
-/

namespace Stratagem

/-! ## Literals of numbers -/

/-- The literal of a number stands for it. -/
theorem literalValue_ofNumber (x : Float) (timeframe calcMode : String) :
    ∃ y, (ValueRef.ofNumber x timeframe calcMode).literalValue = some y ∧ Number.Same y x := by
  obtain ⟨y, hy, hsame⟩ := Number.readReal?_briefText x
  refine ⟨y, ?_, hsame⟩
  unfold ValueRef.literalValue
  exact (if_pos rfl).trans hy

/-- The literal of a number is that of every number that is the same. -/
theorem ofNumber_congr {x y : Float} (h : Number.Same x y) (timeframe calcMode : String) :
    ValueRef.ofNumber x timeframe calcMode = .ofNumber y timeframe calcMode := by
  rw [ValueRef.ofNumber, ValueRef.ofNumber, h.briefText]

theorem isLiteral_of_literalValue {r : ValueRef} {x : Float} (h : r.literalValue = some x) :
    r.isLiteral = true := by
  rw [ValueRef.literalValue] at h
  by_cases hlit : r.isLiteral = true
  · exact hlit
  · rw [if_neg hlit] at h
    cases h

/-! ## Arguments -/

def Argument.number? : Argument → Option Float
  | .ref r => r.literalValue
  | .number x => some x
  | .text s => Number.readReal? (Text.trim s)

/-- An operand is the number that its argument stands for, or a reference that stands for none. -/
theorem Argument.toOperand_cases {a : Argument} {o : Operand} (h : a.toOperand = .ok o) :
    (∃ x, a.number? = some x ∧ o = .number x) ∨ ∃ r, a = .ref r ∧ r.literalValue = none ∧ o = .ref r := by
  cases a with
  | ref r =>
      rw [toOperand, Except.ok.injEq, Operand.ofRef] at h
      split at h
      · rename_i x hx
        exact Or.inl ⟨x, hx, h.symm⟩
      · rename_i hx
        exact Or.inr ⟨r, rfl, hx, h.symm⟩
  | number x =>
      cases h
      exact Or.inl ⟨x, rfl, rfl⟩
  | text s =>
      left
      unfold toOperand Operand.ofDocument at h
      dsimp only at h
      split at h
      · rename_i x hx
        cases h
        exact ⟨x, hx, rfl⟩
      · cases h

/-- A left operand is the reference that the argument is, or the literal of its number. -/
theorem Argument.toLeft_cases {a : Argument} {r : ValueRef} (h : a.toLeft = .ok r) :
    a = .ref r ∨ ∃ x, a.number? = some x ∧ r = .ofNumber x "" ValueRef.defaultCalcMode := by
  cases a with
  | ref r' =>
      cases h
      exact Or.inl rfl
  | number x =>
      cases h
      exact Or.inr ⟨x, rfl, rfl⟩
  | text s =>
      right
      obtain ⟨o, ho, h⟩ := bind_eq_ok.mp h
      rcases toOperand_cases ho with ⟨x, hx, rfl⟩ | ⟨r', hr, -, -⟩
      · cases h
        exact ⟨x, hx, rfl⟩
      · cases hr

open Document (member)

namespace Document

theorem isEmpty_orElse {a d : Document} (h : d.isEmpty = false) : (a.orElse d).isEmpty = false := by
  rw [Document.orElse]
  by_cases ha : a.isEmpty = true
  · rwa [if_pos ha]
  · rw [if_neg ha]
    exact Bool.eq_false_of_not_eq_true ha

theorem displayOr_of_full {d : Document} (h : d.isEmpty = false) (default : String) :
    d.displayOr default = d.display := by
  rw [displayOr, h, if_neg Bool.false_ne_true]

theorem displayOr_text_eq (s default : String) :
    (Document.text s).displayOr default = .ok (if s.isEmpty then default else s) := by
  rw [displayOr, Document.isEmpty, apply_ite Except.ok]
  rfl

theorem displayOr_text {s : String} (h : s.isEmpty = false) (default : String) :
    (Document.text s).displayOr default = .ok s :=
  displayOr_of_full (d := .text s) h default

@[simp]
theorem displayOr_empty (s : String) : (Document.text s).displayOr "" = .ok s := by
  by_cases h : s.isEmpty = true
  · rw [Document.displayOr, Document.isEmpty, if_pos h, String.isEmpty_iff.mp h]
  · exact displayOr_text (Bool.eq_false_of_not_eq_true h) ""

end Document

open Document (displayOr_text displayOr_empty isEmpty_orElse)

namespace ValueRef

/-! ## Parameters -/

theorem unsignedZero_unsignedZero (x : Float) : unsignedZero (unsignedZero x) = unsignedZero x := by
  by_cases hx : (x == 0) = true
  · have hzero : unsignedZero x = 0 := if_pos hx
    rw [hzero]
    exact ite_self 0
  · have hself : unsignedZero x = x := if_neg hx
    rw [hself, hself]

/-- A double is read as it was written, without the sign of a zero. -/
theorem toReal_ofReal (x : Float) : (Document.ofReal x).toReal = .ok (unsignedZero x) := by
  by_cases hx : (x == 0) = true
  · obtain ⟨s, hs⟩ := Number.unpack_of_beq_zero hx
    have hint : Document.ofReal x = .int 0 := by
      rw [Document.ofReal, Number.integral?_of_unpack_zero hs]
    have hzero : unsignedZero x = 0 := if_pos hx
    have hread : (Document.int 0).toReal = .ok 0 := by
      rw [Document.toReal, show Number.ofInt? 0 = some 0 from rfl]
      rfl
    rw [hint, hzero, hread]
  · have hself : unsignedZero x = x := if_neg hx
    rw [Document.ofReal, hself]
    cases hk : Number.integral? x with
    | none => rfl
    | some k =>
        obtain ⟨y, hy, hsame⟩ := Number.ofInt?_integral hk
        dsimp only
        rw [Document.toReal, hy, hsame.eq_or_zero.resolve_right fun hzero => hx hzero.2]
        rfl

/-! ## Making references -/

def normalInput (kind : RefKind) (input : String) : String :=
  match kind with
  | .indicator => input
  | .field => Kline.key input
  | .literal => if (Text.trim input).isEmpty then "0" else Text.trim input

/-- What each kind asks for. -/
def Accepts (kind : RefKind) (indicator input : String) : Prop :=
  match kind with
  | .indicator => indicator.isEmpty = false
  | .field => input.isEmpty = false
  | .literal => (Number.readReal? input).isSome = true

theorem normalInput_normalInput (kind : RefKind) (input : String) :
    normalInput kind (normalInput kind input) = normalInput kind input := by
  cases kind with
  | indicator => rfl
  | field => exact Kline.key_key input
  | literal =>
      unfold normalInput
      dsimp only
      by_cases hempty : (Text.trim input).isEmpty = true
      · have hzero : Text.trim "0" = "0" := rfl
        rw [if_pos hempty, hzero]
        exact ite_self _
      · rw [if_neg hempty, Text.trim_trim, if_neg hempty]

section Make

variable {kind : RefKind} {indicator timeframe input calcMode : String} {params : List Float}
  {output : Document} {low high : Int} {r : ValueRef}

/-- The reference with the given parts in normal form. -/
def normal (kind : RefKind) (indicator timeframe input : String) (params : List Float) (output : Document)
    (window : Window) (calcMode : String) : ValueRef where
  kind
  indicator
  timeframe
  input := normalInput kind input
  params := params.map unsignedZero
  output := output.orElse (.text defaultOutput)
  window
  calcMode := if calcMode.isEmpty then defaultCalcMode else calcMode

theorem make_eq_ok :
    make kind indicator timeframe input params output low high calcMode = .ok r ↔
      ∃ window, Window.ofInts low high = .ok window ∧ Accepts kind indicator (normalInput kind input) ∧
        normal kind indicator timeframe input params output window calcMode = r := by
  unfold make
  rw [bind_eq_ok]
  refine exists_congr fun window => and_congr_right fun _ => ?_
  cases kind with
  | indicator =>
      show (if indicator.isEmpty = true then _ else _) = _ ↔ indicator.isEmpty = false ∧ _
      by_cases hcode : indicator.isEmpty = true
      · simp [hcode]
      · rw [if_neg hcode, Except.ok.injEq]
        exact (and_iff_right (Bool.eq_false_of_not_eq_true hcode)).symm
  | field =>
      show (if (Kline.key input).isEmpty = true then _ else _) = _ ↔ (Kline.key input).isEmpty = false ∧ _
      by_cases hkey : (Kline.key input).isEmpty = true
      · simp [hkey]
      · rw [if_neg hkey, Except.ok.injEq]
        exact (and_iff_right (Bool.eq_false_of_not_eq_true hkey)).symm
  | literal =>
      show (if (Number.readReal? (normalInput .literal input)).isSome = true then _ else _) = _ ↔
        (Number.readReal? (normalInput .literal input)).isSome = true ∧ _
      by_cases hread : (Number.readReal? (normalInput .literal input)).isSome = true
      · rw [if_pos hread, Except.ok.injEq]
        exact (and_iff_right hread).symm
      · simp [hread]

/-- The output is named by a text. -/
def NamesOutput (r : ValueRef) : Prop := ∃ output, r.output = .text output

instance (r : ValueRef) : Decidable r.NamesOutput :=
  match h : r.output with
  | .text output => isTrue ⟨output, h⟩
  | .null | .bool _ | .int _ | .real _ | .list _ | .record _ =>
    isFalse fun ⟨_, htext⟩ => by rw [h] at htext; cases htext

/-- The output can be shown. -/
def Showable (r : ValueRef) : Prop := r.output.Writable

theorem NamesOutput.showable {r : ValueRef} (h : r.NamesOutput) : r.Showable := by
  obtain ⟨output, houtput⟩ := h
  rw [Showable, houtput]
  trivial

/-- A reference whose parts are in normal form. -/
structure Admissible (r : ValueRef) : Prop where
  accepts : Accepts r.kind r.indicator r.input
  input : normalInput r.kind r.input = r.input
  params : r.params.map unsignedZero = r.params
  output : r.output.isEmpty = false
  calcMode : r.calcMode.isEmpty = false

theorem make_admissible (h : make kind indicator timeframe input params output low high calcMode = .ok r) :
    r.Admissible := by
  obtain ⟨window, -, haccepts, rfl⟩ := make_eq_ok.mp h
  refine ⟨haccepts, normalInput_normalInput kind input, ?_, isEmpty_orElse rfl, ?_⟩
  · exact List.map_map.trans (List.map_congr_left fun x _ => unsignedZero_unsignedZero x)
  · show (if calcMode.isEmpty = true then defaultCalcMode else calcMode).isEmpty = false
    by_cases hmode : calcMode.isEmpty = true
    · rw [if_pos hmode]
      rfl
    · rw [if_neg hmode]
      exact Bool.eq_false_of_not_eq_true hmode

end Make

/-! ## Records -/

theorem unlessTooLarge_eq_ok {α : Type} {cause : String → Failure.Reference} {d : Document}
    {run : Except Failure α} {a : α} : unlessTooLarge cause d run = .ok a ↔ run = .ok a := by
  cases run with
  | ok b => rfl
  | error f =>
      unfold unlessTooLarge
      dsimp only
      split
      · exact iff_of_false bind_throw_ne_ok (by simp)
      · simp

theorem readParam_ofReal (x : Float) : readParam (.ofReal x) = .ok (unsignedZero x) := by
  have hread : readParam (.ofReal x) =
      unlessTooLarge .paramNotNumeric (.ofReal x) (Document.ofReal x).toReal := by
    unfold Document.ofReal
    cases Number.integral? x <;> rfl
  rw [hread]
  exact unlessTooLarge_eq_ok.mpr (toReal_ofReal x)

/-- Parameters come back without the signs of zeros. An empty list is written as one, and read like no
list. -/
theorem readParams_ofReal (xs : List Float) :
    readParams ((Document.list (xs.map .ofReal)).orElse .null) = .ok (xs.map unsignedZero) := by
  cases xs with
  | nil => rfl
  | cons x xs =>
      show ((x :: xs).map Document.ofReal).mapM readParam = _
      rw [List.mapM_map]
      exact mapM_ok fun x _ => readParam_ofReal x

theorem read_name (kind : RefKind) : RefKind.read (.text kind.name) = .ok kind := by
  cases kind <;> rfl

theorem ofDocument_record {ms : List (String × Document)} {r : ValueRef} :
    ofDocument (.record ms) = .ok r ↔
      ∃ indicator timeframe input output calcMode,
        (member ms "indicator").displayOr "" = .ok indicator ∧
        (member ms "timeframe").displayOr "" = .ok timeframe ∧
        (member ms "input").displayOr "" = .ok input ∧
        (member ms "output").displayOr defaultOutput = .ok output ∧
        (member ms "calcMode").displayOr defaultCalcMode = .ok calcMode ∧
        readParts (member ms "refType") indicator timeframe input ((member ms "params").orElse .null)
          (.text output) ((member ms "offsetRange").orElse .null) calcMode = .ok r := by
  rw [ofDocument, placed_eq_ok]
  simp only [bind_eq_ok, exists_and_left]

/-- The reference with its output as a text, if the output can be written. -/
def spelledOut (r : ValueRef) : ValueRef :=
  match r.output.display with
  | .ok output => { r with output := (Document.text output).orElse (.text defaultOutput) }
  | .error _ => r

/-- **The record of an admissible reference is read as the reference**, its output as a text. -/
theorem Admissible.reread {r : ValueRef} (h : r.Admissible) (hwritable : r.Showable) :
    ofDocument r.toDocument = .ok r.spelledOut := by
  obtain ⟨output, houtput⟩ := (Document.display_writesIf r.output).exists_ok hwritable
  rw [toDocument, ofDocument_record]
  refine ⟨r.indicator, r.timeframe, r.input, output, r.calcMode, displayOr_empty _, displayOr_empty _,
    displayOr_empty _, (Document.displayOr_of_full h.output _).trans houtput, displayOr_text h.calcMode _, ?_⟩
  show readParts (.text r.kind.name) r.indicator r.timeframe r.input
    ((Document.list (r.params.map .ofReal)).orElse .null) (.text output)
    ((Document.list [.int r.window.low, .int r.window.high]).orElse .null) r.calcMode = .ok r.spelledOut
  rw [readParts, read_name, ok_bind, readParams_ofReal, h.params, ok_bind]
  refine make_eq_ok.mpr ⟨r.window, Window.ofInts_ofNat _, ?_, ?_⟩
  · rw [h.input]
    exact h.accepts
  · rw [normal, h.input, h.params, h.calcMode, spelledOut, houtput]
    rfl

/-- Only an output that can be shown is read. -/
theorem showable_of_reread {r q : ValueRef} (h : ofDocument r.toDocument = .ok q) : r.Showable := by
  obtain ⟨_, _, _, output, _, -, -, -, houtput, -⟩ := ofDocument_record.mp h
  exact (Document.displayOr_writesIf defaultOutput r.output).of_ok houtput

theorem Admissible.spelledOut_eq {r : ValueRef} (h : r.Admissible) {output : String}
    (houtput : r.output = .text output) : r.spelledOut = r := by
  have hempty := h.output
  rw [houtput] at hempty
  rw [spelledOut, houtput, Document.display_text]
  dsimp only
  rw [Document.orElse, hempty, ← houtput]
  rfl

/-- What was read from a record is admissible, and its output is a text. -/
theorem ofDocument_admissible {raw : Document} {r : ValueRef} (h : ofDocument raw = .ok r) :
    r.Admissible ∧ ∃ output, r.output = .text output := by
  cases raw with
  | record ms =>
      obtain ⟨_, _, _, _, _, -, -, -, -, -, h⟩ := ofDocument_record.mp h
      rw [readParts] at h
      obtain ⟨kind, -, h⟩ := bind_eq_ok.mp h
      obtain ⟨params, -, h⟩ := bind_eq_ok.mp h
      obtain ⟨⟨low, high⟩, -, h⟩ := bind_eq_ok.mp h
      refine ⟨make_admissible h, ?_⟩
      obtain ⟨window, -, -, rfl⟩ := make_eq_ok.mp h
      rw [normal, Document.orElse]
      split
      · exact ⟨_, rfl⟩
      · exact ⟨_, rfl⟩
  | _ => cases h

/-! ## Literals -/

theorem isEmpty_briefText (x : Float) : (Number.briefText x).isEmpty = false := by
  obtain ⟨y, hy, -⟩ := Number.readReal?_briefText x
  refine Bool.eq_false_of_not_eq_true fun hempty => ?_
  have hnone : Number.readReal? "" = none := rfl
  rw [String.isEmpty_iff.mp hempty, hnone] at hy
  cases hy

theorem trim_briefText (x : Float) : Text.trim (Number.briefText x) = Number.briefText x := by
  have hvisible : ∀ c ∈ (Number.briefText x).toList, Text.isBlank c = false := by
    intro c hc
    have hrange := Number.toNat_of_isWritten (Number.isWritten_briefText x c hc)
    unfold Text.isBlank
    generalize c.toNat = n at hrange
    simp only [Bool.and_eq_false_iff, Bool.or_eq_false_iff, decide_eq_false_iff_not, beq_eq_false_iff_ne]
    omega
  exact Text.Bare.trim ⟨fun c hc => hvisible c (List.mem_of_head? hc), fun c hc =>
    hvisible c (List.mem_of_getLast? hc)⟩

/-- The literal of a number is admissible. -/
theorem ofNumber_admissible (x : Float) (timeframe : String) {calcMode : String}
    (h : calcMode.isEmpty = false) : (ofNumber x timeframe calcMode).Admissible := by
  refine ⟨?_, ?_, rfl, rfl, h⟩
  · obtain ⟨y, hy, -⟩ := Number.readReal?_briefText x
    show (Number.readReal? (Number.briefText x)).isSome = true
    rw [hy]
    rfl
  · show (if (Text.trim (Number.briefText x)).isEmpty = true then "0" else Text.trim (Number.briefText x)) =
      Number.briefText x
    rw [trim_briefText, isEmpty_briefText]
    rfl

end ValueRef

end Stratagem
