import AccumulatorMachine.Proofs.Assembly
import Mathlib.Algebra.GroupWithZero.Nat

/-! Where lines land, foretold without assembling them. The layout adds up sizes, the assembler
stops at the end of memory; they agree on the lines that fit, on their addresses and on the first
line left out, which has an address only if it is cut in two by the end of memory. -/
namespace AccumulatorMachine.Layout

open Assembly (image kept)

variable {base : Base} {lines rest : List Text} {line : Text} {used i j : ℕ}

/-- The cells of the lines before a line. -/
def offset (lines : List Text) (i : ℕ) : ℕ := ((lines.take i).map Line.size).sum

@[simp] theorem offset_zero (lines : List Text) : offset lines 0 = 0 := rfl

@[simp] theorem offset_cons (line : Text) (rest : List Text) (i : ℕ) :
    offset (line :: rest) (i + 1) = Line.size line + offset rest i := by
  simp [offset]

theorem offset_succ (h : lines[i]? = some line) :
    offset lines (i + 1) = offset lines i + Line.size line := by
  simp [offset, List.take_add_one, h]

theorem offset_mono (lines : List Text) (h : i ≤ j) : offset lines i ≤ offset lines j := by
  obtain ⟨k, rfl⟩ := Nat.exists_eq_add_of_le h
  simp [offset, List.take_add]

theorem length_image (base : Base) (lines : List Text) :
    (image base lines).length = (lines.map Line.size).sum := by
  induction lines with
  | nil => rfl
  | cons line rest ih =>
    rw [Assembly.image_cons, List.length_append, Line.Kind.length_image, ih, List.map_cons,
      List.sum_cons]
    rfl

/-- Addresses and what fits are read off the sizes of lines alone. -/
theorem addressesFrom_congr {lines' : List Text} (h : lines.map Line.size = lines'.map Line.size)
    (start : ℕ) : addressesFrom start lines = addressesFrom start lines' := by
  induction lines generalizing lines' start with
  | nil =>
    rw [List.map_eq_nil_iff.mp h.symm]
  | cons line rest ih =>
    obtain ⟨line', rest', rfl, hline, hrest⟩ := List.map_eq_cons_iff.mp h.symm
    rw [addressesFrom, addressesFrom, hline, ih hrest.symm]

theorem fitFrom_congr {lines' : List Text} (h : lines.map Line.size = lines'.map Line.size)
    (used : ℕ) : fitFrom used lines = fitFrom used lines' := by
  induction lines generalizing lines' used with
  | nil =>
    rw [List.map_eq_nil_iff.mp h.symm]
  | cons line rest ih =>
    obtain ⟨line', rest', rfl, hline, hrest⟩ := List.map_eq_cons_iff.mp h.symm
    rw [fitFrom, fitFrom, hline, ih hrest.symm]

theorem offset_congr {lines' : List Text} (h : lines.map Line.size = lines'.map Line.size)
    (i : ℕ) : offset lines i = offset lines' i := by
  rw [offset, offset, List.map_take, List.map_take, h]

theorem offset_fitLines_le (lines : List Text) : offset lines (fitLines lines) ≤ 256 := by
  have h := Assembly.length_image_kept .dec lines
  rwa [length_image] at h

theorem linesAssembled_assemble (base : Base) (lines : List Text) :
    (assemble base lines).report.linesAssembled = fitLines lines := by
  rw [Assembly.report_assemble]

theorem offset_end_le_of_lt_fitLines (hi : i < fitLines lines) (hline : lines[i]? = some line) :
    offset lines i + Line.size line ≤ 256 := by
  have hmono : offset lines (i + 1) ≤ offset lines (fitLines lines) := offset_mono lines hi
  rw [offset_succ hline] at hmono
  exact Nat.le_trans hmono (offset_fitLines_le lines)

theorem size_cases (line : Text) : Line.size line = 1 ∨ Line.size line = 2 := by
  rw [Line.size]
  cases Line.classify line with
  | blank => exact .inl rfl
  | instruction m operand =>
    rw [Line.Kind.size, Mnemonic.size]
    cases m.arity with
    | implied => exact .inl rfl
    | address => exact .inr rfl
  | literal code => exact .inl rfl

theorem report_congr {lines' : List Text} (h : lines.map Line.size = lines'.map Line.size)
    (base base' : Base) : (assemble base lines).report = (assemble base' lines').report := by
  have hfit : fitLines lines = fitLines lines' := fitFrom_congr h 0
  have hlength : lines.length = lines'.length := by simpa using congrArg List.length h
  rw [Assembly.report_assemble, Assembly.report_assemble, length_image, length_image, kept, kept,
    List.map_take, List.map_take, h, hfit, hlength]

end AccumulatorMachine.Layout
