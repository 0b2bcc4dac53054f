import AccumulatorMachine.Proofs.Conversion.Structure

/-! Converted lines are in normal form. Where the numeral of a line can be read, conversion keeps its
full value, and converting in two steps is converting at once; so a second conversion changes
nothing, and there and back leads to the line one started from. -/
namespace AccumulatorMachine

/-- The token that conversion writes anew if it can read it. Unlike the assembler it also reads the
token behind a mnemonic that takes none. -/
def Line.Kind.numeral? : Line.Kind → Option Text
  | .blank => none
  | .instruction _ operand => operand
  | .literal code => some (Line.tokens code).1

namespace Conversion

open Line (classify tokens IsSuffix Word)
open Numeral (parse? write)

/-- The numeral of the line has a value. Code that begins with a separator has no numeral. -/
def Readable (b : Base) (line : Text) : Prop :=
  ∀ t ∈ (classify line).numeral?, t ≠ [] → (parse? b t).isSome

instance (b : Base) (line : Text) : Decidable (Readable b line) :=
  inferInstanceAs (Decidable (∀ t ∈ (classify line).numeral?, t ≠ [] → (parse? b t).isSome))

variable {a b c old new : Base} {line word s t : Text} {words later : List Text} {v : Int64}
  {m : Mnemonic}

theorem Readable.operand (h : Readable b line) (hcode : Line.code line ≠ [])
    (hm : Mnemonic.ofToken? (tokens (Line.code line)).1 = some m) :
    ∀ t ∈ (tokens (Line.code line)).2.head?, (parse? b t).isSome := by
  intro t ht
  have hword := (Line.solid_tokens (Line.semicolon_code line)).2 t (List.mem_of_mem_head? ht)
  refine h t ?_ hword.nonempty
  rw [Line.classify_instruction hcode hm]
  exact ht

/-- Data without a value begins with a separator, so it has a value in no base. -/
theorem Readable.literal (h : Readable b line) (hcode : Line.code line ≠ [])
    (hm : Mnemonic.ofToken? (tokens (Line.code line)).1 = none)
    (hnone : parse? b (Line.code line) = none) (c : Base) : parse? c (Line.code line) = none := by
  rw [Numeral.parse?_code] at hnone ⊢
  have hempty : (tokens (Line.code line)).1 = [] := by
    by_contra hne
    have hmem : (tokens (Line.code line)).1 ∈ (classify line).numeral? := by
      rw [Line.classify_literal hcode hm]
      rfl
    simpa [hnone] using h _ hmem hne
  rw [hempty, Numeral.parse?_nil]

theorem suffix_append (ht : ';' ∉ t) (hs : IsSuffix s) : suffix (t ++ s) = s := by
  unfold suffix
  rw [Line.comment_append ht]
  rcases hs with rfl | ⟨comment, rfl⟩
  · rfl
  · rfl

theorem convertLine_join (hm : Mnemonic.ofToken? word = some m) (hw : Word word)
    (hws : ∀ w ∈ words, Word w) (hs : IsSuffix s) :
    convertLine old new (Line.join (word :: words) ++ s) =
      Line.join (word :: convertOperand old new words) ++ s := by
  obtain ⟨htrim, hsemi⟩ := Line.trimmed_join hw hws
  have hcode := Line.code_append htrim hsemi hs
  have htokens := Line.tokens_join hw.solid hws
  have hne : Line.code (Line.join (word :: words) ++ s) ≠ [] := by
    rw [hcode]
    exact Line.join_ne_nil hw.nonempty words
  rw [convertLine_instruction hne (by rw [hcode, htokens]; exact hm), hcode, htokens,
    suffix_append hsemi hs]

theorem convertLine_dataLiteral (hs : IsSuffix s) :
    convertLine old new (dataLiteral old v ++ s) = dataLiteral new v ++ s := by
  have hword := word_dataLiteral old v
  have hsemi := hword.solid.semicolon
  have hcode := Line.code_append hword.solid.trimmed hsemi hs
  have hne : Line.code (dataLiteral old v ++ s) ≠ [] := by
    rw [hcode]
    exact hword.nonempty
  have hnone := ofToken?_dataLiteral old v
  rw [convertLine_literal hne (by rw [hcode, Line.tokens_word hword.solid]; exact hnone), hcode,
    parse?_dataLiteral]
  dsimp only
  rw [suffix_append hsemi hs]

theorem convertToken_trans (h : (parse? a t).isSome) :
    convertToken b c (convertToken a b t) = convertToken a c t := by
  obtain ⟨v, hv⟩ := Option.isSome_iff_exists.mp h
  simp [convertToken, hv, Numeral.parse?_write]

theorem convertOperand_trans (h : ∀ t ∈ later.head?, (parse? a t).isSome) :
    convertOperand b c (convertOperand a b later) = convertOperand a c later := by
  cases later with
  | nil => rfl
  | cons operand rest => exact congrArg (· :: rest) (convertToken_trans (h operand rfl))

theorem convertLine_trans (h : Readable a line) (b c : Base) :
    convertLine b c (convertLine a b line) = convertLine a c line := by
  by_cases hcode : Line.code line = []
  · simp only [convertLine_blank hcode]
  · cases hm : Mnemonic.ofToken? (tokens (Line.code line)).1 with
    | some m =>
      obtain ⟨hfirst, hlater⟩ := Line.solid_tokens (Line.semicolon_code line)
      have hword : Word (tokens (Line.code line)).1 := ⟨Mnemonic.ne_nil_of_ofToken? hm, hfirst⟩
      rw [convertLine_instruction hcode hm, convertLine_instruction hcode hm,
        convertLine_join hm hword (word_convertOperand hlater) (isSuffix_suffix line),
        convertOperand_trans (h.operand hcode hm)]
    | none =>
      cases hv : parse? a (Line.code line) with
      | some v =>
        rw [convertLine_literal hcode hm, convertLine_literal hcode hm, hv]
        exact convertLine_dataLiteral (isSuffix_suffix line)
      | none =>
        have hkept (d e : Base) : convertLine d e line = line := by
          rw [convertLine_literal hcode hm, h.literal hcode hm hv]
        rw [hkept, hkept, hkept]

theorem value_convertToken (h : (parse? old t).isSome) (new : Base) :
    parse? new (convertToken old new t) = parse? old t := by
  obtain ⟨v, hv⟩ := Option.isSome_iff_exists.mp h
  simp [convertToken, hv, Numeral.parse?_write]

/-- Not only the byte that is assembled but the whole value is kept. -/
theorem value_convertLine (h : Readable old line) (new : Base) :
    (classify (convertLine old new line)).numeral?.map (parse? new) =
      (classify line).numeral?.map (parse? old) := by
  rw [classify_convertLine]
  by_cases hcode : Line.code line = []
  · rw [Line.classify_blank hcode]
    rfl
  · cases hm : Mnemonic.ofToken? (tokens (Line.code line)).1 with
    | some m =>
      rw [Line.classify_instruction hcode hm, convertKind, Line.Kind.numeral?, Line.Kind.numeral?,
        Option.map_map]
      exact Option.map_congr fun t ht => value_convertToken (h.operand hcode hm t ht) new
    | none =>
      rw [Line.classify_literal hcode hm, convertKind, Line.Kind.numeral?, Line.Kind.numeral?,
        Option.map_some, Option.map_some, ← Numeral.parse?_code, convertLiteral]
      cases hv : parse? old (Line.code line) with
      | some v =>
        dsimp only
        rw [Line.tokens_word (word_dataLiteral new v).solid, parse?_dataLiteral]
      | none =>
        dsimp only
        rw [← Numeral.parse?_code, h.literal hcode hm hv]

/-- Converted, the line has the kind it had and a numeral of the same value, and neither a further
conversion nor the way there and back changes it. -/
structure Normal (old new : Base) (line : Text) : Prop where
  shape : (classify (convertLine old new line)).shape = (classify line).shape
  value : (classify (convertLine old new line)).numeral?.map (parse? new) =
    (classify line).numeral?.map (parse? old)
  stable : convertLine new new (convertLine old new line) = convertLine old new line
  back : convertLine old new (convertLine new old (convertLine old new line)) =
    convertLine old new line
  blank : Line.code line = [] → ∀ b b', convertLine b b' line = line

theorem normal_of_readable (h : Readable old line) (new : Base) : Normal old new line := by
  constructor
  · rw [classify_convertLine, shape_convertKind]
  · exact value_convertLine h new
  · exact convertLine_trans h new new
  · rw [convertLine_trans h new old, convertLine_trans h old new]
  · intro hblank b b'
    exact convertLine_blank hblank b b'

/-- The least value of all, with a mark, a separator and a second comment sign. -/
theorem normal_of_minimum :
    Readable .hex "\tLdA,+0x8000000000000000 zz;; k".toList ∧
    convertLine .hex .dec "\tLdA,+0x8000000000000000 zz;; k".toList =
      "LdA -9223372036854775808 zz ;; k".toList ∧
    Normal .hex .dec "\tLdA,+0x8000000000000000 zz;; k".toList := by
  have hread : Readable .hex "\tLdA,+0x8000000000000000 zz;; k".toList := by decide
  exact ⟨hread, by decide +kernel, normal_of_readable hread .dec⟩

/-- A token that first has a value in the new base is written anew by the second conversion. -/
example : convertLine .dec .hex "FFx".toList = "FFx".toList ∧
    convertLine .hex .hex "FFx".toList = "FF".toList := by decide +kernel

end Conversion

end AccumulatorMachine
