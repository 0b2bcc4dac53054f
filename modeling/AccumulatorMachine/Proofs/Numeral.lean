import AccumulatorMachine.Numeral
import AccumulatorMachine.Proofs.Line
import Mathlib.Data.Nat.Notation
import Mathlib.Tactic.IntervalCases

/-! Numerals written in a base are read back as the value they were written for, whatever follows
them. Reading wraps at 64 bits, so it is the sum of the digits taken as a word. -/
namespace AccumulatorMachine.Numeral

def value (b : Base) (ds : List ℕ) : ℕ := ds.foldl (fun v d => v * b.radix + d) 0

structure Digits (b : Base) (t : Text) : Prop where
  nonempty : t ≠ []
  digit : ∀ c ∈ t, (digitValue? b c).isSome

variable {b : Base} {s t : Text} {c : Char} {d n : ℕ} {v : Int64}

theorem accumulate_eq (b : Base) (ds : List ℕ) : accumulate b ds = Int64.ofNat (value b ds) := by
  have from_start (v : ℕ) : ds.foldl (fun v d => v * Int64.ofNat b.radix + Int64.ofNat d)
      (Int64.ofNat v) = Int64.ofNat (ds.foldl (fun v d => v * b.radix + d) v) := by
    induction ds generalizing v with
    | nil => rfl
    | cons d ds ih => rw [List.foldl_cons, List.foldl_cons, ← ih, Int64.ofNat_add, Int64.ofNat_mul]
  exact from_start 0

theorem value_append (b : Base) (ds : List ℕ) (d : ℕ) :
    value b (ds ++ [d]) = value b ds * b.radix + d := by simp [value]

theorem isSome_digitValue? : (digitValue? b c).isSome ↔
    (48 ≤ c.toNat ∧ c.toNat ≤ 57) ∨
      b = .hex ∧ (65 ≤ c.toNat ∧ c.toNat ≤ 70 ∨ 97 ≤ c.toNat ∧ c.toNat ≤ 102) := by
  have lower (x : Char) : x ≤ c ↔ x.toNat ≤ c.toNat := Iff.rfl
  have upper (x : Char) : c ≤ x ↔ c.toNat ≤ x.toNat := Iff.rfl
  unfold digitValue?
  simp only [lower, upper, Char.reduceToNat]
  split
  · simp [*]
  · split
    · simp [*]
    · split
      · simp [*]
      · simp only [Option.isSome_none, Bool.false_eq_true, false_iff]
        tauto

/-- Digits are neither separators nor signs nor marks. -/
theorem isSome_digitValue?_ne (h : (digitValue? b c).isSome) :
    Line.isSeparator c = false ∧ c ∉ [';', '-', '+', 'x', 'X'] := by
  rw [isSome_digitValue?] at h
  have ne_of (x : Char) (hx : x.toNat ≠ c.toNat) : c ≠ x := fun heq => hx (heq ▸ rfl)
  constructor
  · have hcomma : c ≠ ',' := ne_of ',' (by simp; omega)
    simp [Line.isSeparator, Text.isBlank, Text.blankCodes, hcomma]
    omega
  · simp only [List.mem_cons, List.not_mem_nil, or_false, not_or]
    refine ⟨ne_of _ ?_, ne_of _ ?_, ne_of _ ?_, ne_of _ ?_, ne_of _ ?_⟩ <;> simp <;> omega

theorem digitValue?_digitChar (hd : d < b.radix) : digitValue? b (digitChar d) = some d := by
  cases b with
  | dec =>
    have : d < 10 := hd
    interval_cases d <;> rfl
  | hex =>
    have : d < 16 := hd
    interval_cases d <;> rfl

theorem leadingDigits_append (h : ∀ c ∈ t, (digitValue? b c).isSome) (s : Text) :
    leadingDigits b (t ++ s) = leadingDigits b t ++ leadingDigits b s := by
  induction t with
  | nil => rfl
  | cons c t ih =>
    obtain ⟨d, hd⟩ := Option.isSome_iff_exists.mp (h c List.mem_cons_self)
    simp [leadingDigits, hd, ih fun x hx => h x (List.mem_cons_of_mem c hx)]

theorem leadingDigits_ne_nil (h : Digits b t) : leadingDigits b t ≠ [] := by
  cases t with
  | nil => exact absurd rfl h.nonempty
  | cons c t =>
    obtain ⟨d, hd⟩ := Option.isSome_iff_exists.mp (h.digit c List.mem_cons_self)
    simp [leadingDigits, hd]

theorem Digits.word (h : Digits b t) : Line.Word t := by
  refine ⟨h.nonempty, ?_⟩
  intro c hc
  obtain ⟨hsep, hmark⟩ := isSome_digitValue?_ne (h.digit c hc)
  exact ⟨hsep, by simp_all⟩

def tokenDigits (b : Base) (t : Text) : List ℕ :=
  leadingDigits b (dropMark b (splitSign (Text.trimStart t)).2)

theorem parse?_eq (b : Base) (t : Text) :
    parse? b t =
      if tokenDigits b t = [] then none
      else
        let magnitude := Int64.ofNat (value b (tokenDigits b t))
        some (if (splitSign (Text.trimStart t)).1 then -magnitude else magnitude) := by
  simp only [← accumulate_eq]
  unfold parse? tokenDigits
  dsimp only
  split
  · next h => rw [h]; rfl
  · next hne => rw [if_neg hne]

theorem parse?_eq_none : parse? b t = none ↔ tokenDigits b t = [] := by
  rw [parse?_eq]
  split <;> simp [*]

theorem parse?_nil (b : Base) : parse? b [] = none := by cases b <;> rfl

theorem byte_eq_zero (h : value b (tokenDigits b t) = 0) : byte b t = 0 := by
  rw [byte, parse?_eq, h]
  by_cases hnil : tokenDigits b t = []
  · simp [hnil]
  · simp only [hnil, ↓reduceIte]
    split <;> rfl

/-- A token that base 16 cannot read is worth 0 in base 10, whose digits are among those of 16 and
which reads a mark as its 0 alone. -/
theorem byte_dec_of_hex (h : parse? .hex t = none) : byte .dec t = 0 := by
  have hhex := parse?_eq_none.mp h
  apply byte_eq_zero
  unfold tokenDigits at hhex ⊢
  generalize (splitSign (Text.trimStart t)).2 = rest at hhex ⊢
  rw [show dropMark .dec rest = rest from rfl]
  unfold dropMark at hhex
  split at hhex
  · rfl
  · rfl
  · next rest _ _ _ _ =>
    cases rest with
    | nil => rfl
    | cons c rest =>
      have hdec : digitValue? .dec c = none := by
        by_contra hsome
        have hdigit := isSome_digitValue?.mp (Option.isSome_iff_ne_none.mpr hsome)
        obtain ⟨d, hd⟩ := Option.isSome_iff_exists.mp
          (isSome_digitValue?.mpr (.inl (hdigit.resolve_right (by simp))) :
            (digitValue? .hex c).isSome)
        simp [leadingDigits, hd] at hhex
      simp [leadingDigits, hdec, value]

theorem splitSign_eq (h : ∀ c ∈ t.head?, c ≠ '-' ∧ c ≠ '+') : splitSign t = (false, t) := by
  cases t with
  | nil => rfl
  | cons c t =>
    obtain ⟨hminus, hplus⟩ := h c rfl
    unfold splitSign
    split
    · next heq => cases heq; exact absurd rfl hminus
    · next heq => cases heq; exact absurd rfl hplus
    · rfl

theorem dropMark_eq (h : ∀ c ∈ t.tail.head?, c ≠ 'x' ∧ c ≠ 'X') : dropMark b t = t := by
  unfold dropMark
  split
  · exact absurd rfl (h 'x' rfl).1
  · exact absurd rfl (h 'X' rfl).2
  · rfl

theorem Digits.mark (h : Digits b t) : ∀ c ∈ t, c ∉ [';', '-', '+', 'x', 'X'] :=
  fun c hc => (isSome_digitValue?_ne (h.digit c hc)).2

theorem Digits.dropMark (h : Digits b t) : dropMark b t = t := by
  apply dropMark_eq
  intro c hc
  have := h.mark c (List.mem_of_mem_tail (List.mem_of_mem_head? hc))
  simp_all

theorem parse?_digits (h : Digits b t) :
    parse? b t = some (Int64.ofNat (value b (leadingDigits b t))) := by
  have hsign : splitSign t = (false, t) := by
    apply splitSign_eq
    intro c hc
    have := h.mark c (List.mem_of_mem_head? hc)
    simp_all
  have htrim : Text.trimStart t = t := Text.trimStart_eq_self h.word.solid.trimmed.head
  rw [parse?_eq, tokenDigits, htrim, hsign, h.dropMark]
  simp [leadingDigits_ne_nil h]

theorem parse?_minus (h : Digits b t) :
    parse? b ('-' :: t) = some (-Int64.ofNat (value b (leadingDigits b t))) := by
  have htrim : Text.trimStart ('-' :: t) = '-' :: t := Text.trimStart_eq_self (by simp; decide)
  have hsign : splitSign ('-' :: t) = (true, t) := rfl
  rw [parse?_eq, tokenDigits, htrim, hsign, h.dropMark]
  simp [leadingDigits_ne_nil h]

/-- A leading 0 does not change what digits stand for. -/
theorem parse?_zero (h : Digits b t) : parse? b ('0' :: t) = parse? b t := by
  have hzero : digitValue? b '0' = some 0 := rfl
  have hdigits : Digits b ('0' :: t) := by
    refine ⟨List.cons_ne_nil _ _, ?_⟩
    intro c hc
    rcases List.mem_cons.mp hc with rfl | hc
    · rfl
    · exact h.digit c hc
  rw [parse?_digits hdigits, parse?_digits h]
  simp [leadingDigits, hzero, value]

section Separator

/-! A token ends where a separator begins, and reading stops there. -/

theorem ne_of_isSeparator (h : Line.isSeparator c = true) :
    digitValue? b c = none ∧ c ∉ ['0', '-', '+', 'x', 'X'] := by
  constructor
  · by_contra hdigit
    have := (isSome_digitValue?_ne (Option.isSome_iff_ne_none.mpr hdigit)).1
    simp_all
  · intro hmem
    simp only [List.mem_cons, List.not_mem_nil, or_false] at hmem
    rcases hmem with rfl | rfl | rfl | rfl | rfl <;> exact absurd h (by decide)

variable (hs : ∀ c ∈ s.head?, Line.isSeparator c = true)
include hs

theorem splitSign_append : splitSign (t ++ s) = ((splitSign t).1, (splitSign t).2 ++ s) := by
  cases t with
  | nil =>
    refine splitSign_eq ?_
    intro c hc
    have := (ne_of_isSeparator (b := .dec) (hs c hc)).2
    simp_all
  | cons c t =>
    by_cases hminus : c = '-'
    · subst hminus; rfl
    · by_cases hplus : c = '+'
      · subst hplus; rfl
      · rw [List.cons_append, splitSign_eq (by simp [hminus, hplus]),
          splitSign_eq (by simp [hminus, hplus])]
        rfl

theorem dropMark_append : dropMark b (t ++ s) = dropMark b t ++ s := by
  have hmark (c : Char) (hc : c ∈ s.head?) : c ≠ '0' ∧ c ≠ 'x' ∧ c ≠ 'X' := by
    have := (ne_of_isSeparator (b := b) (hs c hc)).2
    simp_all
  cases b with
  | dec => rfl
  | hex =>
    match t with
    | [] =>
      cases s with
      | nil => rfl
      | cons c s =>
        unfold dropMark
        split <;> simp_all
    | [d] => rw [dropMark_eq (by simpa using fun c hc => (hmark c hc).2), dropMark_eq (by simp)]
    | '0' :: 'x' :: t => rfl
    | '0' :: 'X' :: t => rfl
    | d :: e :: t =>
      unfold dropMark
      split <;> split <;> simp_all

theorem leadingDigits_stop : leadingDigits b (t ++ s) = leadingDigits b t := by
  induction t with
  | nil =>
    cases s with
    | nil => rfl
    | cons c s => simp [leadingDigits, (ne_of_isSeparator (b := b) (hs c rfl)).1]
  | cons c t ih =>
    rw [List.cons_append, leadingDigits, leadingDigits, ih]

theorem parse?_append (htrim : Text.Trimmed (t ++ s)) (ht : Line.Solid t) :
    parse? b (t ++ s) = parse? b t := by
  rw [parse?_eq, parse?_eq, tokenDigits, tokenDigits, Text.trimStart_eq_self htrim.head,
    Text.trimStart_eq_self ht.trimmed.head, splitSign_append hs, dropMark_append hs,
    leadingDigits_stop hs]

end Separator

/-- Code is read as its first token is. -/
theorem parse?_code (b : Base) (line : Text) :
    parse? b (Line.code line) = parse? b (Line.tokens (Line.code line)).1 := by
  obtain ⟨rest, hrest, hhead⟩ := Line.exists_rest (Line.code line)
  have htrim := Line.trimmed_code line
  have hsolid := (Line.solid_tokens (Line.semicolon_code line)).1
  conv_lhs => rw [hrest]
  exact parse?_append hhead (hrest ▸ htrim) hsolid

theorem mem_writeNat (hc : c ∈ writeNat b n) : ∃ d < b.radix, c = digitChar d := by
  have hradix := b.one_lt_radix
  induction n using writeNat.induct b with
  | case1 n hn =>
    rw [writeNat, if_pos hn, List.mem_singleton] at hc
    exact ⟨n, hn, hc⟩
  | case2 n hn ih =>
    rw [writeNat, if_neg hn, List.mem_append, List.mem_singleton] at hc
    rcases hc with hc | hc
    · exact ih hc
    · exact ⟨n % b.radix, Nat.mod_lt _ (by omega), hc⟩

theorem digits_writeNat (b : Base) (n : ℕ) : Digits b (writeNat b n) where
  nonempty := by
    rw [writeNat]
    split <;> simp
  digit c hc := by
    obtain ⟨d, hd, rfl⟩ := mem_writeNat hc
    rw [digitValue?_digitChar hd]
    rfl

theorem value_writeNat (b : Base) (n : ℕ) : value b (leadingDigits b (writeNat b n)) = n := by
  have hradix := b.one_lt_radix
  have hsingle (d : ℕ) (hd : d < b.radix) : leadingDigits b [digitChar d] = [d] := by
    simp [leadingDigits, digitValue?_digitChar hd]
  induction n using writeNat.induct b with
  | case1 n hn =>
    rw [writeNat, if_pos hn, hsingle n hn]
    simp [value]
  | case2 n hn ih =>
    have hlow : n % b.radix < b.radix := Nat.mod_lt _ (by omega)
    rw [writeNat, if_neg hn, leadingDigits_append (digits_writeNat b _).digit, hsingle _ hlow,
      value_append, ih, Nat.mul_comm]
    exact Nat.div_add_mod n b.radix

theorem parse?_writeNat (b : Base) (n : ℕ) : parse? b (writeNat b n) = some (Int64.ofNat n) := by
  rw [parse?_digits (digits_writeNat b n), value_writeNat]

theorem byte_writeNat (b : Base) (v : UInt8) : byte b (writeNat b v.toNat) = v := by
  rw [byte, parse?_writeNat]
  simp

theorem write_of_neg {v : Int64} (h : v < 0) : write b v = '-' :: writeNat b v.toInt.natAbs :=
  if_pos h

theorem write_of_nonneg {v : Int64} (h : ¬ v < 0) : write b v = writeNat b v.toInt.natAbs :=
  if_neg h

theorem neg_iff_toInt_neg {v : Int64} : v < 0 ↔ v.toInt < 0 := by
  rw [Int64.lt_iff_toInt_lt]
  rfl

theorem parse?_write (b : Base) (v : Int64) : parse? b (write b v) = some v := by
  by_cases hneg : v < 0
  · have hlow := neg_iff_toInt_neg.mp hneg
    have habs : -(v.toInt.natAbs : ℤ) = v.toInt := by omega
    rw [write_of_neg hneg, parse?_minus (digits_writeNat b _), value_writeNat,
      ← Int64.ofInt_eq_ofNat, ← Int64.ofInt_neg, habs, Int64.ofInt_toInt]
  · have hlow := mt neg_iff_toInt_neg.mpr hneg
    have habs : (v.toInt.natAbs : ℤ) = v.toInt := by omega
    rw [write_of_nonneg hneg, parse?_writeNat, ← Int64.ofInt_eq_ofNat, habs, Int64.ofInt_toInt]

theorem byte_write (old new : Base) (h : parse? old t = some v) :
    byte new (write new v) = byte old t := by
  rw [byte, byte, parse?_write, h]

theorem word_write (b : Base) (v : Int64) : Line.Word (write b v) := by
  have hword := (digits_writeNat b v.toInt.natAbs).word
  by_cases hneg : v < 0
  · rw [write_of_neg hneg]
    exact ⟨List.cons_ne_nil _ _, hword.solid.cons (by decide) (by decide)⟩
  · rw [write_of_nonneg hneg]
    exact hword

theorem upper_writeNat (b : Base) (n : ℕ) : Text.upper (writeNat b n) = writeNat b n := by
  have hupper : ∀ c ∈ writeNat b n, Text.upperChar c = [c] := by
    intro c hc
    obtain ⟨d, hd, rfl⟩ := mem_writeNat hc
    have : d < 16 := by cases b <;> simp [Base.radix] at hd <;> omega
    interval_cases d <;> rfl
  rw [Text.upper, List.flatMap_congr hupper, List.flatMap_singleton']

end AccumulatorMachine.Numeral
