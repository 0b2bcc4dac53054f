import AccumulatorMachine.Proofs.Numeral
import Mathlib.Data.Nat.Digits.Defs

/-! How a token is read. There is one way to cut it into blanks, a sign, a mark, digits and a rest
that is ignored. Its value is the number that the digits stand for, however many there are, taken as
a word with its sign; and its byte is that number modulo 256, as if no word had come in between. -/
namespace AccumulatorMachine.Numeral

structure Run (p : Char → Prop) (taken rest : Text) : Prop where
  all : ∀ c ∈ taken, p c
  stop : ∀ c ∈ rest.head?, ¬ p c

def Choice (options : List Text) (taken rest : Text) : Prop :=
  taken ∈ options ∨ taken = [] ∧ ∀ o ∈ options, ¬ o <+: rest

def signs : List Text := [['+'], ['-']]

def marks : Base → List Text
  | .dec => []
  | .hex => [['0', 'x'], ['0', 'X']]

def figures : Text := "0123456789ABCDEF".toList

/-- Letters are digits in either case. -/
def IsDigit (b : Base) (c : Char) : Prop := c.toUpper ∈ figures.take b.radix

instance (b : Base) (c : Char) : Decidable (IsDigit b c) :=
  inferInstanceAs (Decidable (c.toUpper ∈ figures.take b.radix))

def worth (c : Char) : ℕ := figures.idxOf c.toUpper

structure Parts where
  blanks : Text
  sign : Text
  mark : Text
  digits : Text
  ignored : Text
  deriving DecidableEq, Repr

structure Parts.Of (p : Parts) (b : Base) (token : Text) : Prop where
  text : token = p.blanks ++ (p.sign ++ (p.mark ++ (p.digits ++ p.ignored)))
  blanks : Run (Text.isBlank ·) p.blanks (p.sign ++ (p.mark ++ (p.digits ++ p.ignored)))
  sign : Choice signs p.sign (p.mark ++ (p.digits ++ p.ignored))
  mark : Choice (marks b) p.mark (p.digits ++ p.ignored)
  digits : Run (IsDigit b) p.digits p.ignored

def Parts.number (p : Parts) (b : Base) : ℕ := Nat.ofDigits b.radix (p.digits.map worth).reverse

def Parts.signed (p : Parts) (b : Base) : ℤ := if p.sign = ['-'] then -p.number b else p.number b

section Cut

variable {p : Char → Prop} {options : List Text} {taken rest taken' rest' : Text} {c : Char}

theorem Run.of_cons (h : Run p (c :: taken) rest) : p c ∧ Run p taken rest :=
  ⟨h.all c List.mem_cons_self, fun d hd => h.all d (List.mem_cons_of_mem c hd), h.stop⟩

theorem Run.unique (h : Run p taken rest) (h' : Run p taken' rest')
    (heq : taken ++ rest = taken' ++ rest') : taken = taken' ∧ rest = rest' := by
  induction taken generalizing taken' with
  | nil =>
    cases taken' with
    | nil => exact ⟨rfl, heq⟩
    | cons c taken' =>
      have hhead : c ∈ rest.head? := by
        rw [← List.nil_append rest, heq]
        rfl
      exact absurd (h'.all c List.mem_cons_self) (h.stop c hhead)
  | cons c taken ih =>
    cases taken' with
    | nil =>
      have hhead : c ∈ rest'.head? := by
        rw [← List.nil_append rest', ← heq]
        rfl
      exact absurd (h.all c List.mem_cons_self) (h'.stop c hhead)
    | cons c' taken' =>
      obtain ⟨rfl, htail⟩ := List.cons_eq_cons.mp heq
      obtain ⟨rfl, rfl⟩ := ih h.of_cons.2 h'.of_cons.2 htail
      exact ⟨rfl, rfl⟩

theorem exists_run (p : Char → Prop) (t : Text) :
    ∃ taken rest, t = taken ++ rest ∧ Run p taken rest := by
  induction t with
  | nil => exact ⟨[], [], rfl, by simp, by simp⟩
  | cons c t ih =>
    by_cases hc : p c
    · obtain ⟨taken, rest, rfl, hrun⟩ := ih
      refine ⟨c :: taken, rest, rfl, ?_, hrun.stop⟩
      simpa using ⟨hc, hrun.all⟩
    · exact ⟨[], c :: t, rfl, by simp, by simpa using hc⟩

theorem exists_choice (options : List Text) (t : Text) :
    ∃ taken rest, t = taken ++ rest ∧ Choice options taken rest := by
  by_cases h : ∃ o ∈ options, o <+: t
  · obtain ⟨o, ho, rest, rfl⟩ := h
    exact ⟨o, rest, rfl, .inl ho⟩
  · push Not at h
    exact ⟨[], t, rfl, .inr ⟨rfl, h⟩⟩

/-- No option goes on from another one. -/
def Distinct (options : List Text) : Prop := ∀ o ∈ options, ∀ o' ∈ options, o <+: o' → o = o'

theorem Choice.unique (hd : Distinct options) (h : Choice options taken rest)
    (h' : Choice options taken' rest') (heq : taken ++ rest = taken' ++ rest') :
    taken = taken' ∧ rest = rest' := by
  have hsame : taken = taken' := by
    rcases h with ho | ⟨rfl, hnone⟩
    · rcases h' with ho' | ⟨rfl, hnone'⟩
      · have hfirst : taken <+: taken ++ rest := List.prefix_append taken rest
        have hsecond : taken' <+: taken ++ rest := heq ▸ List.prefix_append taken' rest'
        rcases List.prefix_or_prefix_of_prefix hfirst hsecond with hle | hle
        · exact hd taken ho taken' ho' hle
        · exact (hd taken' ho' taken ho hle).symm
      · exact absurd ⟨rest, heq⟩ (hnone' taken ho)
    · rcases h' with ho' | ⟨rfl, -⟩
      · exact absurd ⟨rest', heq.symm⟩ (hnone taken' ho')
      · rfl
  subst hsame
  exact ⟨rfl, List.append_cancel_left heq⟩

theorem distinct_signs : Distinct signs := by unfold Distinct; decide

theorem distinct_marks (b : Base) : Distinct (marks b) := by cases b <;> (unfold Distinct; decide)

end Cut

variable {b : Base} {token taken rest : Text} {p q : Parts} {c : Char}

theorem Parts.Of.unique (hp : p.Of b token) (hq : q.Of b token) : p = q := by
  obtain ⟨blanks, sign, mark, digits, ignored⟩ := p
  obtain ⟨blanks', sign', mark', digits', ignored'⟩ := q
  obtain ⟨rfl, hbody⟩ := hp.blanks.unique hq.blanks (hp.text.symm.trans hq.text)
  obtain ⟨rfl, hunsigned⟩ := hp.sign.unique distinct_signs hq.sign hbody
  obtain ⟨rfl, hunmarked⟩ := hp.mark.unique (distinct_marks b) hq.mark hunsigned
  obtain ⟨rfl, rfl⟩ := hp.digits.unique hq.digits hunmarked
  rfl

theorem exists_parts (b : Base) (token : Text) : ∃ p : Parts, p.Of b token := by
  obtain ⟨blanks, body, rfl, hblanks⟩ := exists_run (Text.isBlank ·) token
  obtain ⟨sign, unsigned, rfl, hsign⟩ := exists_choice signs body
  obtain ⟨mark, unmarked, rfl, hmark⟩ := exists_choice (marks b) unsigned
  obtain ⟨digits, ignored, rfl, hdigits⟩ := exists_run (IsDigit b) unmarked
  exact ⟨⟨blanks, sign, mark, digits, ignored⟩, rfl, hblanks, hsign, hmark, hdigits⟩

theorem trimStart_run (h : Run (Text.isBlank ·) taken rest) :
    Text.trimStart (taken ++ rest) = rest := by
  rw [Text.trimStart, List.dropWhile_append_of_pos h.all]
  exact Text.trimStart_eq_self fun c hc => by simpa using h.stop c hc

theorem splitSign_choice (h : Choice signs taken rest) :
    splitSign (taken ++ rest) = (decide (taken = ['-']), rest) := by
  rcases h with hmem | ⟨rfl, hnone⟩
  · rcases List.mem_pair.mp hmem with rfl | rfl <;> rfl
  · apply splitSign_eq
    intro c hc
    obtain ⟨tail, rfl⟩ := List.head?_eq_some_iff.mp hc
    constructor
    · rintro rfl
      exact hnone ['-'] (by decide) (List.prefix_append ['-'] tail)
    · rintro rfl
      exact hnone ['+'] (by decide) (List.prefix_append ['+'] tail)

theorem dropMark_choice (h : Choice (marks b) taken rest) : dropMark b (taken ++ rest) = rest := by
  cases b with
  | dec =>
    obtain rfl : taken = [] := (h.resolve_left List.not_mem_nil).1
    rfl
  | hex =>
    rcases h with hmem | ⟨rfl, hnone⟩
    · rcases List.mem_pair.mp hmem with rfl | rfl <;> rfl
    · unfold dropMark
      split
      · next t _ heq =>
        exact absurd ⟨t, heq.symm⟩ (hnone ['0', 'x'] (by decide))
      · next t _ heq =>
        exact absurd ⟨t, heq.symm⟩ (hnone ['0', 'X'] (by decide))
      · rfl

/-- Outside ASCII there is no digit. -/
theorem digitValue?_eq (b : Base) (c : Char) :
    digitValue? b c = if IsDigit b c then some (worth c) else none := by
  have hascii : ∀ b : Base, ∀ n < 128, digitValue? b (Char.ofNat n) =
      if IsDigit b (Char.ofNat n) then some (worth (Char.ofNat n)) else none := by
    intro b
    cases b <;> decide +kernel
  by_cases hc : c.toNat < 128
  · have h := hascii b c.toNat hc
    rwa [Char.ofNat_toNat] at h
  · have hupper : c.toUpper = c := by
      refine dif_neg ?_
      rintro ⟨-, hle⟩
      have : c.toNat ≤ 122 := hle
      omega
    have hfigures : ∀ f ∈ figures, f.toNat < 128 := by
      have hall : figures.all (·.toNat < 128) = true := by decide
      simpa using hall
    have hnot : ¬ IsDigit b c := by
      intro h
      rw [IsDigit, hupper] at h
      exact hc (hfigures c (List.mem_of_mem_take h))
    rw [if_neg hnot]
    by_contra hsome
    have hrange := isSome_digitValue?.mp (Option.isSome_iff_ne_none.mpr hsome)
    omega

theorem leadingDigits_run (h : Run (IsDigit b) taken rest) :
    leadingDigits b (taken ++ rest) = taken.map worth := by
  induction taken with
  | nil =>
    cases rest with
    | nil => rfl
    | cons c rest =>
      have hc : ¬ IsDigit b c := h.stop c rfl
      simp [leadingDigits, digitValue?_eq, hc]
  | cons c taken ih =>
    obtain ⟨hc, hrun⟩ := h.of_cons
    simp [leadingDigits, digitValue?_eq, hc, ih hrun]

/-- Multiplying and adding from the front gives every digit the power of its place. -/
theorem value_eq_ofDigits (b : Base) (ds : List ℕ) :
    value b ds = Nat.ofDigits b.radix ds.reverse := by
  rw [Nat.ofDigits_eq_foldr, List.foldr_reverse, value]
  congr 1
  funext v d
  rw [Nat.cast_id, Nat.add_comm, Nat.mul_comm]

theorem Parts.Of.digits_read (h : p.Of b token) :
    tokenDigits b token = p.digits.map worth ∧
      (splitSign (Text.trimStart token)).1 = decide (p.sign = ['-']) := by
  have hsign : splitSign (Text.trimStart token) =
      (decide (p.sign = ['-']), p.mark ++ (p.digits ++ p.ignored)) := by
    rw [h.text, trimStart_run h.blanks, splitSign_choice h.sign]
  refine ⟨?_, congrArg Prod.fst hsign⟩
  rw [tokenDigits, hsign, dropMark_choice h.mark, leadingDigits_run h.digits]

theorem Parts.Of.parse?_eq (h : p.Of b token) :
    parse? b token = if p.digits = [] then none else some (Int64.ofInt (p.signed b)) := by
  obtain ⟨hdigits, hsign⟩ := h.digits_read
  have hnumber : value b (p.digits.map worth) = p.number b := value_eq_ofDigits b _
  rw [Numeral.parse?_eq, hdigits, hsign, hnumber]
  by_cases hnil : p.digits = []
  · simp [hnil]
  · by_cases hminus : p.sign = ['-']
    · simp [hnil, hminus, Parts.signed, ← Int64.ofInt_eq_ofNat, Int64.ofInt_neg]
    · simp [hnil, hminus, Parts.signed, ← Int64.ofInt_eq_ofNat]

theorem toNat_lowByte (z : ℤ) : (((Int64.ofInt z).toUInt64.toUInt8).toNat : ℤ) = z % 256 := by
  have hword : ((Int64.ofInt z).toUInt64.toNat : ℤ) = z % 2 ^ 64 := by
    rw [← UInt64.toNat_toBitVec, Int64.toBitVec_toUInt64, Int64.toBitVec_ofInt, BitVec.toNat_ofInt]
    exact Int.toNat_of_nonneg (Int.emod_nonneg _ (by decide))
  rw [UInt64.toNat_toUInt8, Int.natCast_emod, hword]
  exact Int.emod_emod_of_dvd z (by decide)

theorem Parts.Of.byte_eq (h : p.Of b token) : ((byte b token).toNat : ℤ) = p.signed b % 256 := by
  unfold byte
  rw [h.parse?_eq]
  by_cases hnil : p.digits = []
  · have hzero : p.signed b = 0 := by simp [Parts.signed, Parts.number, hnil]
    rw [if_pos hnil, hzero]
    rfl
  · rw [if_neg hnil]
    exact toNat_lowByte (p.signed b)

/-- Signs without digits, marks without digits and marks in base 10 are no exception, nor are digits
that exceed the word many times over. -/
theorem exists_unique_reading (b : Base) (token : Text) :
    ∃ p : Parts, (∀ q : Parts, q.Of b token ↔ q = p) ∧
      (parse? b token).map Int64.toInt =
        (if p.digits = [] then none else some ((p.signed b).bmod Int64.size)) ∧
      ((byte b token).toNat : ℤ) = if p.digits = [] then 0 else p.signed b % 256 := by
  obtain ⟨p, hp⟩ := exists_parts b token
  refine ⟨p, ?_, ?_, ?_⟩
  · intro q
    constructor
    · intro hq
      exact hq.unique hp
    · rintro rfl
      exact hp
  · rw [hp.parse?_eq]
    split
    · rfl
    · rw [Option.map_some, Int64.toInt_ofInt]
  · rw [hp.byte_eq]
    split
    · next hnil => simp [Parts.signed, Parts.number, hnil]
    · rfl

/-- The word has wrapped from its largest value, and the byte is still that of the number. -/
example : parse? .hex " -0x1FFFFFFFFFFFFFFFFg".toList = some 1 ∧
    byte .hex " -0x1FFFFFFFFFFFFFFFFg".toList = 1 := by decide +kernel

end AccumulatorMachine.Numeral
