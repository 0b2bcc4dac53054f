import AccumulatorMachine.Proofs.Layout
import AccumulatorMachine.Proofs.Line
import Mathlib.Logic.ExistsUnique

/-! The assembled image, cell by cell. The lines that fit tile the cells that are used: each cell
belongs to one line and holds what that line says, and the cells above are as if never touched. -/
namespace AccumulatorMachine.Assembly

open Layout (offset fitLines)
open Line (tokens)

variable {base : Base} {lines : List Text} {line : Text} {i j k n a : ℕ}

theorem getElem?_image (base : Base) (hline : lines[i]? = some line) (hk : k < Line.size line) :
    (image base lines)[offset lines i + k]? = ((Line.classify line).image base)[k]? := by
  induction lines generalizing i with
  | nil => simp at hline
  | cons first rest ih =>
    have hlength : ((Line.classify first).image base).length = Line.size first :=
      Line.Kind.length_image base _
    rw [image_cons]
    cases i with
    | zero =>
      obtain rfl : first = line := by simpa using hline
      rw [Layout.offset_zero, Nat.zero_add, List.getElem?_append_left (by rw [hlength]; exact hk)]
    | succ i =>
      have hrest : rest[i]? = some line := by simpa using hline
      rw [Layout.offset_cons, Nat.add_assoc, List.getElem?_append_right (by rw [hlength]; omega),
        hlength, Nat.add_sub_cancel_left]
      exact ih hrest

theorem getElem?_kept (hi : i < fitLines lines) : (kept lines)[i]? = lines[i]? :=
  List.getElem?_take_of_lt hi

theorem offset_kept (hi : i ≤ fitLines lines) : offset (kept lines) i = offset lines i := by
  rw [offset, kept, List.take_take, Nat.min_eq_left hi]
  rfl

/-- A cell of a line that fits holds its part of what the line says, whatever the other lines. -/
theorem cell_of_line (base : Base) (hi : i < fitLines lines) (hline : lines[i]? = some line)
    (hk : k < Line.size line) :
    (assemble base lines).memory.cell (UInt8.ofNat (offset lines i + k)) =
      ((Line.classify line).image base)[k]?.getD (0, none) := by
  have hend := Layout.offset_end_le_of_lt_fitLines hi hline
  have hindex : (UInt8.ofNat (offset lines i + k)).toNat = offset lines i + k := by
    simp
    omega
  have hline' : (kept lines)[i]? = some line := by rw [getElem?_kept hi, hline]
  rw [cell_assemble, hindex, ← offset_kept (Nat.le_of_lt hi), getElem?_image base hline' hk]

structure Shows (base : Base) (m : Memory) (start : ℕ) (line : Text) : Prop where
  inside : start + Line.size line ≤ 256
  blank : Line.code line = [] → m.cell (UInt8.ofNat start) = (0, none)
  opcode : Line.code line ≠ [] → ∀ mnemonic,
    Mnemonic.ofToken? (tokens (Line.code line)).1 = some mnemonic →
      m.cell (UInt8.ofNat start) = (mnemonic.opcode, some mnemonic.category)
  operand : Line.code line ≠ [] → ∀ mnemonic,
    Mnemonic.ofToken? (tokens (Line.code line)).1 = some mnemonic → mnemonic.arity = .address →
      start ≤ 254 ∧ m.cell (UInt8.ofNat (start + 1)) =
        (match (tokens (Line.code line)).2.head? with
          | some token => Numeral.byte base token
          | none => 0, none)
  literal : Line.code line ≠ [] → Mnemonic.ofToken? (tokens (Line.code line)).1 = none →
    m.cell (UInt8.ofNat start) = (Numeral.byte base (Line.code line), none)

structure Tiled (base : Base) (lines : List Text) : Prop where
  counted : (assemble base lines).report.linesAssembled = fitLines lines
  used : (assemble base lines).report.cellsUsed = offset lines (fitLines lines)
  shows : ∀ i line, i < (assemble base lines).report.linesAssembled → lines[i]? = some line →
    Shows base (assemble base lines).memory (offset lines i) line
  above : ∀ a : UInt8, (assemble base lines).report.cellsUsed ≤ a.toNat →
    (assemble base lines).memory.cell a = (0, none)
  tile : ∀ a : UInt8, a.toNat < (assemble base lines).report.cellsUsed →
    ∃! i, i < (assemble base lines).report.linesAssembled ∧
      offset lines i ≤ a.toNat ∧ a.toNat < offset lines (i + 1)
  omitted : (assemble base lines).memory =
    (assemble base (lines.take (assemble base lines).report.linesAssembled)).memory

end AccumulatorMachine.Assembly
