import AccumulatorMachine.Cli.Command
import AccumulatorMachine.Proofs.Instruction

/-! Lines of output. What is printed line by line can be taken apart again, since no line has a line
feed in it: registers, instructions and faults are each shown on one line, and faults that are shown
alike are the same. -/
namespace AccumulatorMachine

section Message

variable {c : Char} {n k : ℕ}

theorem isDigit_of_mem_toString (h : c ∈ (toString n).toList) : c.isDigit = true := by
  rw [Nat.toString_eq_ofList_toDigits, String.toList_ofList] at h
  exact Nat.isDigit_of_mem_toDigits (by decide) (by decide) h

theorem toString_injective (h : (toString n).toList = (toString k).toList) : n = k := by
  rw [Nat.toString_eq_ofList_toDigits, Nat.toString_eq_ofList_toDigits, String.toList_ofList,
    String.toList_ofList] at h
  calc
    n = Nat.ofDigitChars 10 (Nat.toDigits 10 n) 0 := Nat.ofDigitChars_ten_toDigits.symm
    _ = Nat.ofDigitChars 10 (Nat.toDigits 10 k) 0 := by rw [h]
    _ = k := Nat.ofDigitChars_ten_toDigits

/-- Digits end before anything that is no digit. -/
theorem takeWhile_toString (n : ℕ) (rest : Text) (hc : c.isDigit = false) :
    ((toString n).toList ++ c :: rest).takeWhile Char.isDigit = (toString n).toList := by
  rw [List.takeWhile_append_of_pos fun d hd => isDigit_of_mem_toString hd,
    List.takeWhile_cons_of_neg (by simp [hc]), List.append_nil]

theorem toList_message_pcOutOfBounds (pc : ℕ) :
    (Fault.pcOutOfBounds pc).message.toList =
      "Program Counter out of bounds (".toList ++ ((toString pc).toList ++ [')']) := by
  have htext : (Fault.pcOutOfBounds pc).message =
      "Program Counter out of bounds (" ++ toString pc ++ ")" := rfl
  rw [htext, String.toList_append, String.toList_append, List.append_assoc]
  rfl

theorem toList_message_invalidOpcode (opcode a : UInt8) :
    (Fault.invalidOpcode opcode a).message.toList =
      "Invalid opcode ".toList ++ ((toString opcode.toNat).toList ++
        ' ' :: ("at address ".toList ++ (toString a.toNat).toList)) := by
  have htext : (Fault.invalidOpcode opcode a).message =
      "Invalid opcode " ++ toString opcode.toNat ++ " at address " ++ toString a.toNat := rfl
  have hblank : " at address ".toList = ' ' :: "at address ".toList := by decide
  rw [htext, String.toList_append, String.toList_append, String.toList_append, hblank,
    List.append_assoc, List.append_assoc]
  rfl

theorem Fault.message_injective : Function.Injective message := by
  intro f g h
  have htext := congrArg String.toList h
  cases f with
  | pcOutOfBounds pc =>
    cases g with
    | pcOutOfBounds pc' =>
      rw [toList_message_pcOutOfBounds, toList_message_pcOutOfBounds] at htext
      have hdigits := List.append_cancel_right (List.append_cancel_left htext)
      rw [toString_injective hdigits]
    | invalidOpcode opcode a =>
      rw [toList_message_pcOutOfBounds, toList_message_invalidOpcode] at htext
      exact absurd (congrArg List.head? htext) (by simp)
  | invalidOpcode opcode a =>
    cases g with
    | pcOutOfBounds pc =>
      rw [toList_message_pcOutOfBounds, toList_message_invalidOpcode] at htext
      exact absurd (congrArg List.head? htext) (by simp)
    | invalidOpcode opcode' a' =>
      rw [toList_message_invalidOpcode, toList_message_invalidOpcode] at htext
      have hrest := List.append_cancel_left htext
      -- The blank behind it ends the first number.
      have hopcode := congrArg (List.takeWhile Char.isDigit) hrest
      rw [takeWhile_toString _ _ rfl, takeWhile_toString _ _ rfl] at hopcode
      rw [hopcode] at hrest
      have haddress := (List.cons_eq_cons.mp (List.append_cancel_left hrest)).2
      rw [UInt8.toNat_inj.mp (toString_injective hopcode),
        UInt8.toNat_inj.mp (toString_injective (List.append_cancel_left haddress))]

end Message

namespace Cli

/-- The lines that are printed, each of which ends in a line feed. -/
def printed (output : String) : List Text := (output.toList.splitOn '\n').dropLast

variable {s t : String}

def OneLine (s : String) : Prop := '\n' ∉ s.toList

instance (s : String) : Decidable (OneLine s) := inferInstanceAs (Decidable ('\n' ∉ s.toList))

theorem oneLine_append : OneLine (s ++ t) ↔ OneLine s ∧ OneLine t := by
  unfold OneLine
  rw [String.toList_append, List.mem_append, not_or]

theorem toList_pushn (s : String) (c : Char) (n : ℕ) :
    (s.pushn c n).toList = s.toList ++ List.replicate n c := by
  rw [String.pushn_eq_repeat_push]
  induction n with
  | zero => simp [Nat.repeat]
  | succ n ih => rw [Nat.repeat, String.toList_push, ih, List.append_assoc, ← List.replicate_succ']

theorem oneLine_pushn (hs : OneLine s) (n : ℕ) : OneLine (s.pushn ' ' n) := by
  intro h
  rw [toList_pushn, List.mem_append, List.mem_replicate] at h
  rcases h with h | ⟨-, h⟩
  · exact hs h
  · contradiction

theorem oneLine_toString (n : ℕ) : OneLine (toString n) := by
  intro h
  exact absurd (isDigit_of_mem_toString h) (by decide)

theorem oneLine_writeNat (base : Base) (n : ℕ) :
    OneLine (String.ofList (Numeral.writeNat base n)) := by
  intro h
  rw [String.toList_ofList] at h
  exact (Numeral.digits_writeNat base n).word.newline h

theorem oneLine_dump (base : Base) (r : Registers) : OneLine (r.dump base) := by
  have hflag (b : Bool) : OneLine (Registers.flagDigit b) := by cases b <;> decide
  have hlanes : OneLine (", ".intercalate (r.vac.toList.map fun v =>
      String.ofList (Numeral.writeNat base v.toNat))) := by
    intro h
    rw [String.toList_intercalate] at h
    rcases Text.mem_of_mem_intercalate h with h | ⟨t, ht, h⟩
    · exact absurd h (by decide)
    · obtain ⟨lane, hlane, rfl⟩ := List.mem_map.mp ht
      obtain ⟨v, -, rfl⟩ := List.mem_map.mp hlane
      exact oneLine_writeNat base v.toNat h
  unfold Registers.dump
  simp only [oneLine_append, oneLine_writeNat, hlanes, hflag, and_true]
  decide

theorem newline_instructionText (base : Base) (m : Mnemonic) (operand : Option UInt8) :
    '\n' ∉ Listing.instructionText base m operand := by
  have hname := (Mnemonic.word_name m).newline
  cases operand with
  | none => exact hname
  | some v =>
    have hnumeral := (Numeral.digits_writeNat base v.toNat).word.newline
    simp [Listing.instructionText, hname, hnumeral]

theorem newline_rowAt (base : Base) (memory : Memory) (a : UInt8) :
    '\n' ∉ (Listing.rowAt base memory a).1 := by
  unfold Listing.rowAt
  split
  · exact (Numeral.digits_writeNat base _).word.newline
  · split
    · exact newline_instructionText base _ none
    · split
      · exact newline_instructionText base _ (some 0)
      · exact newline_instructionText base _ (some _)

theorem oneLine_nextText (base : Base) (m : Machine) : OneLine (nextText base m) := by
  unfold nextText
  split
  · intro h
    rw [String.toList_ofList] at h
    exact newline_rowAt base m.memory _ h
  · decide

theorem oneLine_message (f : Fault) : OneLine f.message := by
  cases f with
  | pcOutOfBounds pc =>
    have hpc := oneLine_toString pc
    rw [OneLine, toList_message_pcOutOfBounds, List.mem_append, List.mem_append]
    rintro (h | h | h)
    · exact absurd h (by decide)
    · exact hpc h
    · exact absurd h (by decide)
  | invalidOpcode opcode a =>
    have hopcode := oneLine_toString opcode.toNat
    have ha := oneLine_toString a.toNat
    rw [OneLine, toList_message_invalidOpcode, List.mem_append, List.mem_append, List.mem_cons,
      List.mem_append]
    rintro (h | h | h | h | h)
    · exact absurd h (by decide)
    · exact hopcode h
    · contradiction
    · exact absurd h (by decide)
    · exact ha h

/-- Printing lines and taking the output apart again loses nothing. -/
theorem printed_unlines {lines : List String} (h : ∀ line ∈ lines, OneLine line) :
    printed (unlines lines) = lines.map String.toList := by
  have hpieces : (unlines lines).toList.splitOn '\n' = lines.map String.toList ++ [[]] := by
    induction lines with
    | nil => rfl
    | cons line rest ih =>
      have htext : (unlines (line :: rest)).toList =
          line.toList ++ '\n' :: (unlines rest).toList := by
        unfold unlines
        simp [String.toList_join]
      rw [htext, List.splitOn_append_cons_self_of_not_mem (h line List.mem_cons_self),
        ih fun l hl => h l (List.mem_cons_of_mem line hl)]
      rfl
  rw [printed, hpieces, List.dropLast_concat]

end Cli

end AccumulatorMachine
