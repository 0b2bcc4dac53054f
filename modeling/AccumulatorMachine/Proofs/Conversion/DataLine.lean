import AccumulatorMachine.Proofs.Conversion

/-! What a data line is worth. The assembler reads its whole code and conversion its first token
alone, and they read the same: a number ends before the first separator, for no separator is a sign,
a mark or a digit. So a sign or a mark that stands by itself takes no digits from the next token, and
code that begins with a comma has no value. -/
namespace AccumulatorMachine.Conversion

open Line (classify tokens)
open Numeral (parse? byte)

theorem byte_code (b : Base) (line : Text) :
    byte b (Line.code line) = byte b (tokens (Line.code line)).1 := by
  rw [byte, byte, Numeral.parse?_code]

/-- The cell could be assembled from the first token, and the line converted from its whole code. -/
theorem data_line_read_alike (line : Text) (b : Base) :
    parse? b (Line.code line) = parse? b (tokens (Line.code line)).1 ∧
    ∀ code, classify line = .literal code →
      (∀ m start, Assembly.place b m start (classify line) =
        m.write (UInt8.ofNat start) (byte b (tokens (Line.code line)).1)) ∧
      ∀ new, convertLine b new line =
        match parse? b code with
        | some v => dataLiteral new v ++ suffix line
        | none => line := by
  refine ⟨Numeral.parse?_code b line, ?_⟩
  intro code hkind
  obtain ⟨hcode, hm, rfl⟩ := Line.of_classify_literal hkind
  constructor
  · intro m start
    rw [hkind, ← byte_code]
    rfl
  · intro new
    exact convertLine_literal hcode hm

/-- None of these has a value, although digits follow. -/
theorem data_line_read_alike_of_separated :
    ∀ line ∈ [",5".toList, "- 5".toList, "0x,1F ;x".toList],
      parse? .hex (Line.code line) = none ∧ classify line = .literal (Line.code line) ∧
        (assemble .hex [line]).memory.read 0 = 0 ∧ convertLine .hex .dec line = line := by
  intro line hline
  have hfirst : parse? .hex (tokens (Line.code line)).1 = none := by
    revert line
    decide
  have hkind : classify line = .literal (Line.code line) := by
    revert line
    decide
  have hcell : (assemble .hex [line]).memory.read 0 = 0 := by
    revert line
    decide
  obtain ⟨hread, hdata⟩ := data_line_read_alike line .hex
  have hnone := hread.trans hfirst
  refine ⟨hnone, hkind, hcell, ?_⟩
  rw [(hdata _ hkind).2, hnone]

end AccumulatorMachine.Conversion
