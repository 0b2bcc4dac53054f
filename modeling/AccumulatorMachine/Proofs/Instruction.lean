import AccumulatorMachine.Proofs.Numeral

/-! Which tokens name an instruction. Of all numerals only `ADD` does, in base 16. -/
namespace AccumulatorMachine.Mnemonic

open Numeral (Digits digitValue? leadingDigits value writeNat)

variable {b : Base} {t : Text} {c : Char} {m : Mnemonic} {v : UInt8} {n : ℕ}

theorem upper_of_ofToken? (h : ofToken? t = some m) : Text.upper t = m.name.toList := by
  have := List.find?_some h
  simpa using (of_decide_eq_true this).symm

theorem ne_nil_of_ofToken? (h : ofToken? t = some m) : t ≠ [] := by
  rintro rfl
  contradiction

theorem ofToken?_name (m : Mnemonic) : ofToken? m.name.toList = some m := by cases m <;> rfl

theorem word_name (m : Mnemonic) : Line.Word m.name.toList := by
  have hall : m.name.toList.all (fun c => !Line.isSeparator c && c != ';') := by
    cases m <;> decide
  refine ⟨by cases m <;> decide, ?_⟩
  intro c hc
  simpa using List.all_eq_true.mp hall c hc

theorem ofToken?_mark (hc : c = '0' ∨ c = '-') (t : Text) : ofToken? (c :: t) = none := by
  have hfirst (m : Mnemonic) : '0' ∉ m.name.toList.head? ∧ '-' ∉ m.name.toList.head? := by
    cases m <;> decide
  cases h : ofToken? (c :: t) with
  | none => rfl
  | some m =>
    have hname := congrArg List.head? (upper_of_ofToken? h)
    rcases hc with rfl | rfl
    · exact absurd hname.symm (hfirst m).1
    · exact absurd hname.symm (hfirst m).2

theorem digits_name (h : Digits b m.name.toList) :
    value b (leadingDigits b m.name.toList) = 2781 := by
  have honly : m.name.toList.all (fun c => (digitValue? b c).isSome) → b = .hex ∧ m = .add := by
    cases b <;> cases m <;> decide
  obtain ⟨rfl, rfl⟩ := honly (List.all_eq_true.mpr h.digit)
  rfl

theorem eq_of_ofToken?_writeNat (h : ofToken? (writeNat b n) = some m) : n = 2781 := by
  have hname := upper_of_ofToken? h
  rw [Numeral.upper_writeNat] at hname
  have hdigits := Numeral.digits_writeNat b n
  have hvalue := Numeral.value_writeNat b n
  rw [hname] at hdigits hvalue
  rw [← hvalue, digits_name hdigits]

/-- The numeral of a byte is too small to name an instruction. -/
theorem ofToken?_byte (b : Base) (v : UInt8) : ofToken? (writeNat b v.toNat) = none := by
  cases h : ofToken? (writeNat b v.toNat) with
  | none => rfl
  | some m =>
    have hlt := v.toNat_lt
    have heq := eq_of_ofToken?_writeNat h
    omega

end AccumulatorMachine.Mnemonic
