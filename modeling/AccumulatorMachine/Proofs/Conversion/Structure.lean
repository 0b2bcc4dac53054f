import AccumulatorMachine.Proofs.Assembly.Tiling
import AccumulatorMachine.Proofs.Conversion

/-! Conversion rewrites numerals and nothing else. Every line keeps its kind, its size and its
comment, whatever it holds and whichever bases it is converted between; so the cells of a program
keep their places, their tags and their opcodes, whichever bases it is read in. -/
namespace AccumulatorMachine

inductive Line.Shape where
  | blank
  | instruction (mnemonic : Mnemonic) (hasOperand : Bool)
  | literal
  deriving DecidableEq, Repr

def Line.Kind.shape : Line.Kind → Line.Shape
  | .blank => .blank
  | .instruction m operand => .instruction m operand.isSome
  | .literal _ => .literal

namespace Conversion

open Layout (offset fitLines lineAddresses)
open Line (classify)

variable {old new b₁ b₂ : Base} {lines : List Text} {line : Text} {m : Mnemonic}
  {operand : Option Text} {i : ℕ}

theorem shape_convertKind (old new : Base) (k : Line.Kind) :
    (convertKind old new k).shape = k.shape := by
  cases k with
  | blank => rfl
  | instruction m operand => simp [convertKind, Line.Kind.shape]
  | literal code => rfl

theorem comment_suffix (line : Text) : Line.comment (suffix line) = Line.comment line := by
  unfold suffix
  split
  · next c hc =>
    rw [hc]
    rfl
  · next hc =>
    rw [hc]
    rfl

theorem comment_convertLine (old new : Base) (line : Text) :
    Line.comment (convertLine old new line) = Line.comment line := by
  rcases convertLine_cases old new line with heq | ⟨word, words, ⟨hword, hwords⟩, heq⟩
  · rw [heq]
  · have hsemi := (Line.trimmed_join hword hwords).2
    rw [heq, Line.comment_append hsemi, comment_suffix]

theorem marks_assemble (old new b₁ b₂ : Base) (lines : List Text) (a : UInt8) :
    mark ((assemble b₁ (convert old new lines)).memory.cell a) =
      mark ((assemble b₂ lines).memory.cell a) := by
  have hmarks := marks_convert old new b₁ b₂ (Assembly.kept lines)
  have hcell (b : Base) (ls : List Text) : mark ((assemble b ls).memory.cell a) =
      ((Assembly.image b (Assembly.kept ls)).map mark)[a.toNat]?.getD none := by
    rw [Assembly.cell_assemble, List.getElem?_map]
    exact (Option.getD_map mark (0, none) _).symm
  rw [hcell, hcell, kept_convert, hmarks]

/-- The place and the byte of an opcode, in the converted program and in the original. -/
theorem opcode_convert (old new b₁ b₂ : Base) (hi : i < fitLines lines)
    (hline : lines[i]? = some line) (hkind : classify line = .instruction m operand) :
    (assemble b₁ (convert old new lines)).memory.read (UInt8.ofNat (offset lines i)) = m.opcode ∧
    (assemble b₂ lines).memory.read (UInt8.ofNat (offset lines i)) = m.opcode := by
  have hsizes := sizes_convert old new lines
  have hfit : i < fitLines (convert old new lines) := by
    rw [fitLines, Layout.fitFrom_congr hsizes]
    exact hi
  have hconverted : (convert old new lines)[i]? = some (convertLine old new line) := by
    rw [convert, List.getElem?_map, hline]
    rfl
  have hkind' : classify (convertLine old new line) =
      .instruction m (operand.map (convertToken old new)) := by
    rw [classify_convertLine, hkind]
    rfl
  have hcell := Assembly.cell_of_line b₂ hi hline (Line.Kind.size_pos _)
  have hcell' := Assembly.cell_of_line b₁ hfit hconverted (Line.Kind.size_pos _)
  rw [hkind, Nat.add_zero] at hcell
  rw [hkind', Nat.add_zero, Layout.offset_congr hsizes] at hcell'
  exact ⟨congrArg Prod.fst hcell', congrArg Prod.fst hcell⟩

structure SameLine (line line' : Text) : Prop where
  shape : (classify line').shape = (classify line).shape
  size : Line.size line' = Line.size line
  comment : Line.comment line' = Line.comment line

structure SameProgram (b b' : Base) (lines lines' : List Text) : Prop where
  addresses : lineAddresses lines' = lineAddresses lines
  fit : fitLines lines' = fitLines lines
  report : (assemble b' lines').report = (assemble b lines).report
  tags : ∀ a, (assemble b' lines').memory.tag a = (assemble b lines).memory.tag a
  tagged : ∀ a, (assemble b lines).memory.tag a ≠ none →
    (assemble b' lines').memory.read a = (assemble b lines).memory.read a
  opcodes : ∀ i line m operand, i < (assemble b lines).report.linesAssembled →
    lines[i]? = some line → classify line = .instruction m operand →
      (assemble b' lines').memory.read (UInt8.ofNat (offset lines i)) = m.opcode ∧
      (assemble b lines).memory.read (UInt8.ofNat (offset lines i)) = m.opcode

/-- Tokens that are no numerals, code that begins with a comma and bases that do not belong to the
program are no exception. -/
theorem convert_keeps_structure (old new b₁ b₂ : Base) :
    (∀ line, SameLine line (convertLine old new line)) ∧
    ∀ lines, SameProgram b₂ b₁ lines (convert old new lines) := by
  constructor
  · intro line
    refine ⟨?_, size_convertLine old new line, comment_convertLine old new line⟩
    rw [classify_convertLine, shape_convertKind]
  · intro lines
    have hsizes := sizes_convert old new lines
    have hmarks := marks_assemble old new b₁ b₂ lines
    have htags (a : UInt8) : (assemble b₁ (convert old new lines)).memory.tag a =
        (assemble b₂ lines).memory.tag a :=
      (tag_eq_of_mark _).trans ((congrArg _ (hmarks a)).trans (tag_eq_of_mark _).symm)
    constructor
    · exact Layout.addressesFrom_congr hsizes 0
    · exact Layout.fitFrom_congr hsizes 0
    · exact Layout.report_congr hsizes b₁ b₂
    · exact htags
    · intro a htagged
      obtain ⟨c, hc⟩ := Option.ne_none_iff_exists'.mp htagged
      have hmark := hmarks a
      simpa [mark, Memory.cell, htags, hc] using hmark
    · intro i line m operand hi hline hkind
      rw [Layout.linesAssembled_assemble] at hi
      exact opcode_convert old new b₁ b₂ hi hline hkind

end Conversion

end AccumulatorMachine
