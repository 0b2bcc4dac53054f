import AccumulatorMachine.Conversion
import AccumulatorMachine.Proofs.Instruction
import AccumulatorMachine.Proofs.Layout
import AccumulatorMachine.Simulator

/-! Conversion seen from the assembler: it turns each kind of line into a kind of the same size.
The image stays as it was just when every token that had no value in the old base stands for 0 in
the new one; a token such as `FF` loses this on the way from base 10 to base 16. -/
namespace AccumulatorMachine

/-- The token that the last cell of a line is read from. -/
def Line.Kind.token? : Line.Kind → Option Text
  | .blank => none
  | .instruction m operand =>
    match m.arity with
    | .implied => none
    | .address => operand
  | .literal code => some code

namespace Conversion

open Line (Kind classify tokens)
open Numeral (parse? byte write)

def convertLiteral (old new : Base) (code : Text) : Text :=
  match parse? old code with
  | some v => dataLiteral new v
  | none => code

def convertKind (old new : Base) : Kind → Kind
  | .blank => .blank
  | .instruction m operand => .instruction m (operand.map (convertToken old new))
  | .literal code => .literal (convertLiteral old new code)

/-- What a line holds without a value in the old base stands for 0 in the new one. -/
def Survives (old new : Base) (line : Text) : Prop :=
  ∀ t ∈ (classify line).token?, parse? old t = none → byte new t = 0

instance (old new : Base) (line : Text) : Decidable (Survives old new line) :=
  inferInstanceAs (Decidable (∀ t ∈ (classify line).token?, parse? old t = none → byte new t = 0))

variable {old new b : Base} {line t : Text} {lines later : List Text} {v : Int64} {m : Mnemonic}

theorem nonneg_of_mnemonic (h : (Mnemonic.ofToken? (write b v)).isSome) :
    write b v = Numeral.writeNat b v.toInt.natAbs := by
  apply Numeral.write_of_nonneg
  intro hneg
  rw [Numeral.write_of_neg hneg, Mnemonic.ofToken?_mark (.inr rfl)] at h
  exact absurd h (by simp)

theorem dataLiteral_mnemonic (h : (Mnemonic.ofToken? (write b v)).isSome) :
    dataLiteral b v = '0' :: write b v := if_pos h

theorem dataLiteral_plain (h : ¬ (Mnemonic.ofToken? (write b v)).isSome) :
    dataLiteral b v = write b v := if_neg h

/-- A converted data line is data again, and of the same value. -/
theorem ofToken?_dataLiteral (b : Base) (v : Int64) :
    Mnemonic.ofToken? (dataLiteral b v) = none := by
  by_cases h : (Mnemonic.ofToken? (write b v)).isSome
  · rw [dataLiteral_mnemonic h, Mnemonic.ofToken?_mark (.inl rfl)]
  · rw [dataLiteral_plain h]
    simpa using h

theorem parse?_dataLiteral (b : Base) (v : Int64) : parse? b (dataLiteral b v) = some v := by
  by_cases h : (Mnemonic.ofToken? (write b v)).isSome
  · -- No name has a minus sign, so the 0 stands in front of digits.
    have hdigits := Numeral.digits_writeNat b v.toInt.natAbs
    rw [← nonneg_of_mnemonic h] at hdigits
    rw [dataLiteral_mnemonic h, Numeral.parse?_zero hdigits, Numeral.parse?_write]
  · rw [dataLiteral_plain h, Numeral.parse?_write]

theorem word_dataLiteral (b : Base) (v : Int64) : Line.Word (dataLiteral b v) := by
  have hword := Numeral.word_write b v
  by_cases h : (Mnemonic.ofToken? (write b v)).isSome
  · rw [dataLiteral_mnemonic h]
    exact ⟨List.cons_ne_nil _ _, hword.solid.cons (by decide) (by decide)⟩
  · rw [dataLiteral_plain h]
    exact hword

theorem word_convertToken (h : Line.Word t) : Line.Word (convertToken old new t) := by
  unfold convertToken
  split
  · exact Numeral.word_write new _
  · exact h

theorem word_convertOperand (h : ∀ t ∈ later, Line.Word t) :
    ∀ t ∈ convertOperand old new later, Line.Word t := by
  cases later with
  | nil => exact h
  | cons operand rest =>
    intro t ht
    rcases List.mem_cons.mp ht with rfl | ht
    · exact word_convertToken (h operand List.mem_cons_self)
    · exact h t (List.mem_cons_of_mem operand ht)

theorem head_convertOperand (old new : Base) (later : List Text) :
    (convertOperand old new later).head? = later.head?.map (convertToken old new) := by
  cases later <;> rfl

def suffix (line : Text) : Text :=
  match Line.comment line with
  | some c => ' ' :: ';' :: c
  | none => []

theorem isSuffix_suffix (line : Text) : Line.IsSuffix (suffix line) := by
  unfold suffix
  split
  · exact .inr ⟨_, rfl⟩
  · exact .inl rfl

theorem convertLine_blank (h : Line.code line = []) (old new : Base) :
    convertLine old new line = line := if_pos h

theorem convertLine_instruction (hcode : Line.code line ≠ [])
    (hm : Mnemonic.ofToken? (tokens (Line.code line)).1 = some m) :
    convertLine old new line =
      Line.join ((tokens (Line.code line)).1 ::
        convertOperand old new (tokens (Line.code line)).2) ++ suffix line := by
  unfold convertLine
  rw [if_neg hcode]
  simp only [hm]
  rfl

theorem convertLine_literal (hcode : Line.code line ≠ [])
    (hm : Mnemonic.ofToken? (tokens (Line.code line)).1 = none) :
    convertLine old new line =
      match parse? old (Line.code line) with
      | some v => dataLiteral new v ++ suffix line
      | none => line := by
  unfold convertLine
  rw [if_neg hcode, Numeral.parse?_code]
  simp only [hm]
  rfl

/-- Converted lines are the old ones, or words with single blanks between them and the comment
behind them. -/
theorem convertLine_cases (old new : Base) (line : Text) :
    convertLine old new line = line ∨
    ∃ word words, (Line.Word word ∧ ∀ w ∈ words, Line.Word w) ∧
      convertLine old new line = Line.join (word :: words) ++ suffix line := by
  by_cases hcode : Line.code line = []
  · exact .inl (convertLine_blank hcode old new)
  · obtain ⟨hfirst, hlater⟩ := Line.solid_tokens (Line.semicolon_code line)
    cases hm : Mnemonic.ofToken? (tokens (Line.code line)).1 with
    | some m =>
      have hword : Line.Word (tokens (Line.code line)).1 :=
        ⟨Mnemonic.ne_nil_of_ofToken? hm, hfirst⟩
      exact .inr ⟨_, _, ⟨hword, word_convertOperand hlater⟩, convertLine_instruction hcode hm⟩
    | none =>
      rw [convertLine_literal hcode hm]
      cases Numeral.parse? old (Line.code line) with
      | none => exact .inl rfl
      | some v =>
        refine .inr ⟨dataLiteral new v, [], ⟨word_dataLiteral new v, by simp⟩, ?_⟩
        rw [Line.join, List.intercalate_singleton]

/-- Comments, spacing and further tokens do not get in the way of what a line is. -/
theorem classify_convertLine (old new : Base) (line : Text) :
    classify (convertLine old new line) = convertKind old new (classify line) := by
  by_cases hcode : Line.code line = []
  · rw [convertLine_blank hcode, Line.classify_blank hcode]
    rfl
  · obtain ⟨hfirst, hlater⟩ := Line.solid_tokens (Line.semicolon_code line)
    cases hm : Mnemonic.ofToken? (tokens (Line.code line)).1 with
    | some m =>
      -- Only the first token may be empty, and then it names no instruction.
      have hne := Mnemonic.ne_nil_of_ofToken? hm
      rw [convertLine_instruction hcode hm, Line.classify_join hm ⟨hne, hfirst⟩
        (word_convertOperand hlater) (isSuffix_suffix line), head_convertOperand,
        Line.classify_instruction hcode hm]
      rfl
    | none =>
      rw [convertLine_literal hcode hm, Line.classify_literal hcode hm, convertKind, convertLiteral]
      cases parse? old (Line.code line) with
      | none => exact Line.classify_literal hcode hm
      | some v =>
        exact Line.classify_word (ofToken?_dataLiteral new v) (word_dataLiteral new v)
          (isSuffix_suffix line)

theorem byte_convertToken (old new : Base) (t : Text) :
    byte new (convertToken old new t) = byte old t ↔ (parse? old t = none → byte new t = 0) := by
  unfold convertToken
  cases h : parse? old t with
  | none => simp [byte, h]
  | some v => simp [Numeral.byte_write old new h]

theorem byte_convertLiteral (old new : Base) (code : Text) :
    byte new (convertLiteral old new code) = byte old code ↔
      (parse? old code = none → byte new code = 0) := by
  unfold convertLiteral
  cases h : parse? old code with
  | none => simp [byte, h]
  | some v => simp [byte, parse?_dataLiteral, h]

def mark (x : Cell) : Option (UInt8 × Category) := x.2.map (x.1, ·)

/-- Opcodes and tags depend on no base, neither one that a line is written in nor one that it is
read in. -/
theorem marks_convertKind (old new b₁ b₂ : Base) (k : Kind) :
    ((convertKind old new k).image b₁).map mark = (k.image b₂).map mark := by
  cases k with
  | blank => rfl
  | instruction m operand => cases m <;> rfl
  | literal code => rfl

theorem size_convertKind (old new : Base) (k : Kind) : (convertKind old new k).size = k.size := by
  cases k <;> rfl

theorem image_convertKind (old new : Base) (k : Kind) :
    (convertKind old new k).image new = k.image old ↔
      ∀ t ∈ k.token?, parse? old t = none → byte new t = 0 := by
  cases k with
  | blank => simp [convertKind, Kind.image, Kind.token?]
  | literal code =>
    simp [convertKind, Kind.image, Kind.token?, byte_convertLiteral]
  | instruction m operand =>
    cases harity : m.arity with
    | implied => simp [convertKind, Kind.image, Kind.token?, harity]
    | address =>
      cases operand with
      | none => simp [convertKind, Kind.image, Kind.token?, harity]
      | some t => simp [convertKind, Kind.image, Kind.token?, harity, byte_convertToken]

theorem marks_convert (old new b₁ b₂ : Base) (lines : List Text) :
    (Assembly.image b₁ (convert old new lines)).map mark = (Assembly.image b₂ lines).map mark := by
  induction lines with
  | nil => rfl
  | cons line rest ih =>
    rw [convert, List.map_cons, Assembly.image_cons, Assembly.image_cons, List.map_append,
      List.map_append, classify_convertLine, marks_convertKind old new b₁ b₂, ← ih]
    rfl

theorem tag_eq_of_mark (x : Cell) : x.2 = (mark x).map Prod.snd := by
  obtain ⟨v, t⟩ := x
  cases t <;> rfl

theorem tags_convert (old new : Base) (lines : List Text) :
    (Assembly.image new (convert old new lines)).map Prod.snd =
      (Assembly.image old lines).map Prod.snd := by
  have hsnd : (Prod.snd : Cell → Option Category) = Option.map Prod.snd ∘ mark :=
    funext tag_eq_of_mark
  rw [hsnd, ← List.map_map, ← List.map_map, marks_convert old new new old]

theorem length_convert (old new : Base) (lines : List Text) :
    (Assembly.image new (convert old new lines)).length = (Assembly.image old lines).length := by
  have h := congrArg List.length (tags_convert old new lines)
  rwa [List.length_map, List.length_map] at h

theorem image_convert (old new : Base) (lines : List Text) :
    Assembly.image new (convert old new lines) = Assembly.image old lines ↔
      ∀ line ∈ lines, Survives old new line := by
  induction lines with
  | nil => exact ⟨fun _ => by simp, fun _ => rfl⟩
  | cons line rest ih =>
    have hline : (classify (convertLine old new line)).image new = (classify line).image old ↔
        Survives old new line := by
      rw [classify_convertLine]
      exact image_convertKind old new (classify line)
    have hlength : ((classify (convertLine old new line)).image new).length =
        ((classify line).image old).length := by
      rw [Kind.length_image, Kind.length_image, classify_convertLine, size_convertKind]
    rw [convert, List.map_cons, Assembly.image_cons, Assembly.image_cons, List.forall_mem_cons,
      ← hline, ← ih]
    constructor
    · exact fun h => List.append_inj h hlength
    · rintro ⟨hfirst, hrest⟩
      exact congrArg₂ _ hfirst hrest

theorem size_convertLine (old new : Base) (line : Text) :
    Line.size (convertLine old new line) = Line.size line := by
  rw [Line.size, classify_convertLine, size_convertKind, Line.size]

theorem sizes_convert (old new : Base) (lines : List Text) :
    (convert old new lines).map Line.size = lines.map Line.size := by
  rw [convert, List.map_map]
  exact List.map_congr_left fun line _ => size_convertLine old new line

theorem fitFrom_convert (old new : Base) (start : ℕ) (lines : List Text) :
    Layout.fitFrom start (convert old new lines) = Layout.fitFrom start lines :=
  Layout.fitFrom_congr (sizes_convert old new lines) start

theorem kept_convert (old new : Base) (lines : List Text) :
    Assembly.kept (convert old new lines) = convert old new (Assembly.kept lines) := by
  rw [Assembly.kept, Assembly.kept, Layout.fitLines, Layout.fitLines, fitFrom_convert, convert,
    convert, List.map_take]

theorem tag_assemble (base : Base) (lines : List Text) (a : UInt8) :
    (assemble base lines).memory.tag a =
      ((Assembly.image base (Assembly.kept lines)).map Prod.snd)[a.toNat]?.getD none := by
  have h := congrArg Prod.snd (Assembly.cell_assemble base lines a)
  rw [List.getElem?_map]
  exact h.trans (Option.getD_map Prod.snd (0, none) _).symm

/-- What a converted program assembles to differs from the original at most in bytes, and does not
differ at all just when every line that was assembled survives. -/
theorem assemble_convert_iff (old new : Base) (lines : List Text) :
    (assemble new (convert old new lines)).report = (assemble old lines).report ∧
    (∀ a, (assemble new (convert old new lines)).memory.tag a =
      (assemble old lines).memory.tag a) ∧
    ((assemble new (convert old new lines)).memory = (assemble old lines).memory ↔
      ∀ line ∈ lines.take (assemble old lines).report.linesAssembled, Survives old new line) ∧
    ∀ s : Simulator,
      let before := (s.assemble old lines).2
      let converted := before.convertBase new lines
      let after := (converted.2.assemble converted.2.base converted.1).2
      after.machine.memory = before.machine.memory ↔
        ∀ line ∈ lines.take (assemble old lines).report.linesAssembled, Survives old new line := by
  have hkept := kept_convert old new lines
  have hlength : (Assembly.image new (Assembly.kept (convert old new lines))).length =
      (Assembly.image old (Assembly.kept lines)).length := by
    rw [hkept, length_convert]
  have hmemory : (assemble new (convert old new lines)).memory = (assemble old lines).memory ↔
      ∀ line ∈ lines.take (assemble old lines).report.linesAssembled, Survives old new line := by
    rw [Assembly.memory_eq_iff hlength, hkept, image_convert, Assembly.report_assemble]
    rfl
  refine ⟨?_, ?_, hmemory, fun s => hmemory⟩
  · have hfit : Layout.fitLines (convert old new lines) = Layout.fitLines lines :=
      fitFrom_convert old new 0 lines
    rw [Assembly.report_assemble, Assembly.report_assemble, hlength, hfit, convert, List.length_map]
  · intro a
    rw [tag_assemble, tag_assemble, hkept, tags_convert]

/-- `FF` is no numeral in base 10, so its cell is 0; conversion to base 16 leaves it as it is. -/
theorem convert_changes_operand :
    convert .dec .hex ["LDA FF".toList] = ["LDA FF".toList] ∧
    (assemble .dec ["LDA FF".toList]).memory.read 1 = 0 ∧
    (assemble .hex (convert .dec .hex ["LDA FF".toList])).memory.read 1 = 255 := by
  decide

/-- Only the way from base 10 to base 16 can change a program. -/
theorem survives_of_not_dec_hex (h : ¬ (old = .dec ∧ new = .hex)) (line : Text) :
    Survives old new line := by
  intro t _ hnone
  cases old with
  | hex =>
    cases new with
    | hex => simp [byte, hnone]
    | dec => exact Numeral.byte_dec_of_hex hnone
  | dec =>
    cases new with
    | hex => exact absurd ⟨rfl, rfl⟩ h
    | dec => simp [byte, hnone]

example : ¬ Survives .dec .hex "ADD -c, 1".toList ∧ Survives .dec .hex "ADD x".toList := by decide

end Conversion

end AccumulatorMachine
