import AccumulatorMachine.Proofs.Numeral.Reading

/-! What a written value is read as. Its numeral has a sign only if the value is negative, no mark
and nothing to ignore, and its digits stand for the magnitude itself. The lowest value is no
exception, although no word holds its magnitude. -/
namespace AccumulatorMachine.Numeral

def Parts.written (b : Base) (v : Int64) : Parts where
  blanks := []
  sign := if v < 0 then ['-'] else []
  mark := []
  digits := writeNat b v.toInt.natAbs
  ignored := []

variable {b : Base} {t rest : Text} {v : Int64}

theorem write_eq (b : Base) (v : Int64) :
    write b v = (Parts.written b v).sign ++ (Parts.written b v).digits := by
  by_cases hneg : v < 0
  · simp [write_of_neg hneg, Parts.written, hneg]
  · simp [write_of_nonneg hneg, Parts.written, hneg]

theorem isDigit_of_isSome {c : Char} (h : (digitValue? b c).isSome) : IsDigit b c := by
  by_contra hnot
  simp [digitValue?_eq, hnot] at h

/-- Digits do not begin with an option that has a sign or a mark in it. -/
theorem choice_digits {options : List Text} (ht : Digits b t)
    (hoptions : ∀ o ∈ options, ∃ c ∈ o, c ∈ [';', '-', '+', 'x', 'X']) :
    Choice options [] t := by
  refine .inr ⟨rfl, ?_⟩
  intro o ho hfront
  obtain ⟨c, hc, hmark⟩ := hoptions o ho
  exact ht.mark c (hfront.subset hc) hmark

theorem marked_signs : ∀ o ∈ signs, ∃ c ∈ o, c ∈ [';', '-', '+', 'x', 'X'] := by
  simp [signs]

theorem marked_marks (b : Base) : ∀ o ∈ marks b, ∃ c ∈ o, c ∈ [';', '-', '+', 'x', 'X'] := by
  cases b <;> simp [marks]

theorem run_digits (ht : Digits b t) : Run (IsDigit b) t [] where
  all c hc := isDigit_of_isSome (ht.digit c hc)
  stop := by simp

theorem written_of_write (b : Base) (v : Int64) : (Parts.written b v).Of b (write b v) := by
  have hdigits : Digits b (Parts.written b v).digits := digits_writeNat b v.toInt.natAbs
  have hword := word_write b v
  constructor
  · simp [write_eq, Parts.written]
  · refine ⟨by simp [Parts.written], ?_⟩
    intro c hc hblank
    have hfirst : c ∈ (write b v).head? := by
      rw [write_eq]
      simpa [Parts.written] using hc
    have hsolid := Line.isBlank_eq_false (hword.solid c (List.mem_of_mem_head? hfirst)).1
    exact Bool.false_ne_true (hsolid.symm.trans hblank)
  · by_cases hneg : v < 0
    · simp [Parts.written, hneg, Choice, signs]
    · have hnone := choice_digits hdigits marked_signs
      simpa [Parts.written, hneg] using hnone
  · simpa [Parts.written] using choice_digits hdigits (marked_marks b)
  · exact run_digits hdigits

theorem number_written (b : Base) (v : Int64) :
    (Parts.written b v).number b = v.toInt.natAbs := by
  have hdigits := digits_writeNat b v.toInt.natAbs
  have hworth := leadingDigits_run (run_digits hdigits)
  rw [List.append_nil] at hworth
  calc (Parts.written b v).number b
      = value b ((writeNat b v.toInt.natAbs).map worth) := (value_eq_ofDigits b _).symm
    _ = value b (leadingDigits b (writeNat b v.toInt.natAbs)) := by rw [hworth]
    _ = v.toInt.natAbs := value_writeNat b _

/-- No wrapping is needed to say what a written numeral stands for. -/
theorem signed_written (b : Base) (v : Int64) : (Parts.written b v).signed b = v.toInt := by
  unfold Parts.signed
  rw [number_written]
  by_cases hneg : v < 0
  · have hlow := neg_iff_toInt_neg.mp hneg
    simp only [Parts.written, hneg, ↓reduceIte]
    omega
  · have hlow := mt neg_iff_toInt_neg.mpr hneg
    simp only [Parts.written, hneg, ↓reduceIte, List.nil_eq, reduceCtorEq]
    omega

theorem byte_write_eq (b : Base) (v : Int64) : ((byte b (write b v)).toNat : ℤ) = v.toInt % 256 := by
  rw [(written_of_write b v).byte_eq, signed_written]

theorem write_injective (b : Base) : Function.Injective (write b) := by
  intro v w h
  have hread := congrArg (parse? b) h
  rw [parse?_write, parse?_write] at hread
  exact Option.some.inj hread

/-- Writing loses nothing, and what is written stands for the value as an integer and not only
modulo the word. -/
theorem written_numeral_reads_back (b : Base) :
    (∀ v, parse? b (write b v) = some v ∧
      ((byte b (write b v)).toNat : ℤ) = v.toInt % 256 ∧
      ∃ p : Parts, p.Of b (write b v) ∧ p.signed b = v.toInt ∧
        p.blanks = [] ∧ p.mark = [] ∧ p.ignored = []) ∧
    Function.Injective (write b) := by
  refine ⟨?_, write_injective b⟩
  intro v
  refine ⟨parse?_write b v, byte_write_eq b v, ?_⟩
  exact ⟨Parts.written b v, written_of_write b v, signed_written b v, rfl, rfl, rfl⟩

example : write .hex Int64.minValue = "-8000000000000000".toList := by decide +kernel

end AccumulatorMachine.Numeral
