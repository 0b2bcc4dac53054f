import AccumulatorMachine.Json.Number
import AccumulatorMachine.Proofs.Json.Grammar

/-! Numbers as they are scanned. A scan takes the whole of a number and finds the same value in it
whatever stands behind; and the decimal numeral of a natural number is read as that number if it
fits 64 bits. -/
namespace AccumulatorMachine.Json

open NumberScan (digitsOf afterDigits atPoint atExponent unsigned natural)

def stops : List Char := [' ', '\t', '\n', '\r', ',', ']', '\x7d']

def breaks : List Char := '.' :: 'e' :: 'E' :: stops

def Begins (cs : List Char) (t : Text) : Prop := ∀ c ∈ t.head?, c ∈ cs

/-- A scan that takes the whole of a text and leaves any text that may stand behind a value. -/
def Scans (scan : Text → NumberScan) (taken : Text) : Prop :=
  ∃ value, ∀ rest, Begins stops rest → scan (taken ++ rest) = ⟨value, none, rest⟩

variable {t ds rest fraction exponent whole : Text} {cs cs' : List Char} {c : Char} {n : ℕ}

theorem begins_nil (cs : List Char) : Begins cs [] := by simp [Begins]

theorem begins_cons (hc : c ∈ cs) (t : Text) : Begins cs (c :: t) := by
  intro d hd
  obtain rfl : c = d := by simpa using hd
  exact hc

theorem Begins.mono (h : Begins cs t) (hsub : cs ⊆ cs') : Begins cs' t :=
  fun c hc => hsub (h c hc)

theorem Begins.avoids (h : Begins cs t) {p : Char → Prop} (hall : ∀ c ∈ cs, ¬ p c) :
    ∀ c ∈ t.head?, ¬ p c :=
  fun c hc => hall c (h c hc)

theorem marks_breaks : 'e' :: 'E' :: stops ⊆ breaks := List.subset_cons_self _ _

theorem stops_breaks : stops ⊆ breaks :=
  List.Subset.trans (List.subset_append_right ['e', 'E'] stops) marks_breaks

theorem Exponent.begins (h : Exponent exponent) (hrest : Begins stops rest) :
    Begins ('e' :: 'E' :: stops) (exponent ++ rest) := by
  cases h with
  | none => exact hrest.mono (by simp)
  | some he =>
    refine begins_cons ?_ _
    rcases List.mem_pair.mp he with rfl | rfl <;> simp

theorem Fraction.begins (h : Fraction fraction) (he : Exponent exponent)
    (hrest : Begins stops rest) : Begins breaks (fraction ++ (exponent ++ rest)) := by
  cases h with
  | none => exact (he.begins hrest).mono marks_breaks
  | some => exact begins_cons (by simp [breaks]) _

theorem digitsOf_append (h : ∀ c ∈ ds, c.isDigit) (hrest : Begins breaks rest) :
    digitsOf (ds ++ rest) = ds ∧ afterDigits (ds ++ rest) = rest := by
  have hstop : ∀ c ∈ rest.head?, ¬ c.isDigit := hrest.avoids (by simp [breaks, stops])
  have hnone : rest.takeWhile Char.isDigit = [] ∧ rest.dropWhile Char.isDigit = rest := by
    cases rest with
    | nil => exact ⟨rfl, rfl⟩
    | cons c rest =>
      exact ⟨List.takeWhile_cons_of_neg (hstop c rfl), List.dropWhile_cons_of_neg (hstop c rfl)⟩
  unfold digitsOf afterDigits
  rw [List.takeWhile_append_of_pos h, List.dropWhile_append_of_pos h, hnone.1, hnone.2,
    List.append_nil]
  exact ⟨rfl, rfl⟩

theorem atExponent_stops (negative : Bool) (whole fraction : Text) (hrest : Begins stops rest) :
    atExponent negative whole fraction rest = atExponent.atEnd negative whole fraction rest := by
  cases rest with
  | nil => rfl
  | cons c rest =>
    have hmark : ¬ (c = 'e' ∨ c = 'E') :=
      hrest.avoids (p := fun c => c = 'e' ∨ c = 'E') (by simp [stops]) c rfl
    rw [atExponent, if_neg hmark]

theorem atPoint_stops (negative : Bool) (whole : Text)
    (hrest : Begins ('e' :: 'E' :: stops) rest) :
    atPoint negative whole rest = atExponent negative whole [] rest := by
  cases rest with
  | nil => rfl
  | cons c rest =>
    have hpoint : ¬ c = '.' := hrest.avoids (p := (· = '.')) (by simp [stops]) c rfl
    rw [atPoint, if_neg hpoint]

theorem atEnd_eq (negative : Bool) (whole fraction rest : Text) :
    atExponent.atEnd negative whole fraction rest =
      ⟨(atExponent.atEnd negative whole fraction []).value, none, rest⟩ := by
  unfold atExponent.atEnd
  dsimp only
  split <;> rfl

theorem exists_sign {sign : Text} (hsign : sign ∈ [[], ['+'], ['-']]) (h : Digits ds) :
    ∃ down, ∀ rest, NumberScan.sign (sign ++ (ds ++ rest)) = (down, ds ++ rest) := by
  simp only [List.mem_cons, List.not_mem_nil, or_false] at hsign
  rcases hsign with rfl | rfl | rfl
  · cases ds with
    | nil => exact absurd rfl h.1
    | cons d ds =>
      have hd := h.2 d List.mem_cons_self
      have hminus : d ≠ '-' := by rintro rfl; exact absurd hd (by decide)
      have hplus : d ≠ '+' := by rintro rfl; exact absurd hd (by decide)
      refine ⟨false, ?_⟩
      intro rest
      simp [NumberScan.sign, hminus, hplus]
  · exact ⟨false, fun rest => rfl⟩
  · exact ⟨true, fun rest => rfl⟩

theorem scans_exponent (negative : Bool) (whole fraction : Text) (h : Exponent exponent) :
    Scans (atExponent negative whole fraction) exponent := by
  cases h with
  | none =>
    refine ⟨(atExponent.atEnd negative whole fraction []).value, ?_⟩
    intro rest hrest
    rw [List.nil_append, atExponent_stops negative whole fraction hrest, atEnd_eq]
  | @some e sign ds he hsign hds =>
    obtain ⟨down, hdown⟩ := exists_sign hsign hds
    have hmark : e = 'e' ∨ e = 'E' := List.mem_pair.mp he
    refine ⟨NumberScan.range whole fraction (if down then -natural ds else natural ds), ?_⟩
    intro rest hrest
    obtain ⟨htaken, hleft⟩ := digitsOf_append hds.2 (hrest.mono stops_breaks)
    rw [List.cons_append, List.append_assoc, atExponent, if_pos hmark, hdown rest]
    dsimp only
    rw [htaken, hleft, if_neg hds.1]

theorem scans_fraction (negative : Bool) (whole : Text) (h : Fraction fraction)
    (he : Exponent exponent) : Scans (atPoint negative whole) (fraction ++ exponent) := by
  cases h with
  | none =>
    obtain ⟨value, hvalue⟩ := scans_exponent negative whole [] he
    refine ⟨value, ?_⟩
    intro rest hrest
    rw [← hvalue rest hrest, List.nil_append, atPoint_stops negative whole (he.begins hrest)]
  | @some ds hds =>
    obtain ⟨value, hvalue⟩ := scans_exponent negative whole ds he
    refine ⟨value, ?_⟩
    intro rest hrest
    obtain ⟨htaken, hleft⟩ := digitsOf_append hds.2 ((he.begins hrest).mono marks_breaks)
    rw [← hvalue rest hrest, List.append_assoc, List.cons_append, atPoint, if_pos rfl, htaken,
      hleft, if_neg hds.1]

theorem unsigned_whole (negative : Bool) (h : Whole whole) (hrest : Begins breaks rest) :
    unsigned negative (whole ++ rest) = atPoint negative whole rest := by
  cases h with
  | zero =>
    have hempty : ∀ c ∈ ([] : Text), c.isDigit := by simp
    obtain ⟨htaken, hleft⟩ := digitsOf_append hempty hrest
    rw [List.nil_append] at htaken hleft
    rw [List.singleton_append, unsigned, if_pos (by decide), if_neg (by simp [htaken]), htaken,
      hleft]
  | @nonzero d ds hd hds =>
    obtain ⟨htaken, hleft⟩ :=
      digitsOf_append (fun c hc => hds.2 c (List.mem_cons_of_mem d hc)) hrest
    rw [List.cons_append, unsigned, if_pos (hds.2 d List.mem_cons_self), if_neg (by simp [hd]),
      htaken, hleft]

theorem scans_unsigned (negative : Bool) (h : Whole whole) (hf : Fraction fraction)
    (he : Exponent exponent) :
    Scans (unsigned negative) (whole ++ (fraction ++ exponent)) := by
  obtain ⟨value, hvalue⟩ := scans_fraction negative whole hf he
  refine ⟨value, ?_⟩
  intro rest hrest
  have hbreak := hf.begins he hrest
  rw [← hvalue rest hrest, List.append_assoc, List.append_assoc, unsigned_whole negative h hbreak]

def numberScan : Text → NumberScan
  | '-' :: t => unsigned true t
  | t => unsigned false t

theorem numberScan_whole (h : Whole whole) (t : Text) :
    numberScan (whole ++ t) = unsigned false (whole ++ t) := by
  have hminus : ∀ rest, whole ++ t ≠ '-' :: rest := by
    cases h with
    | zero => simp
    | @nonzero d ds hd hds =>
      have hdigit := hds.2 d List.mem_cons_self
      intro rest heq
      obtain rfl : d = '-' := (List.cons_eq_cons.mp heq).1
      exact absurd hdigit (by decide)
  unfold numberScan
  split
  · next rest heq => exact absurd heq (hminus rest)
  · rfl

theorem scans_number (h : Number t) : Scans numberScan t := by
  cases h with
  | mk hsign hwhole hfraction hexponent =>
    rcases List.mem_pair.mp hsign with rfl | rfl
    · obtain ⟨value, hvalue⟩ := scans_unsigned false hwhole hfraction hexponent
      refine ⟨value, ?_⟩
      intro rest hrest
      rw [← hvalue rest hrest, List.nil_append, List.append_assoc, numberScan_whole hwhole]
    · obtain ⟨value, hvalue⟩ := scans_unsigned true hwhole hfraction hexponent
      exact ⟨value, hvalue⟩

theorem numberScan_append (h : Number t) (hrest : Begins stops rest) :
    numberScan (t ++ rest) = ⟨(numberScan t).value, none, rest⟩ := by
  obtain ⟨value, hvalue⟩ := scans_number h
  have halone := hvalue [] (begins_nil stops)
  rw [List.append_nil] at halone
  rw [hvalue rest hrest, halone]

theorem natural_toDigits (n : ℕ) : natural (Nat.toDigits 10 n) = n := by
  have h := Nat.ofDigitChars_ten_toDigits (n := n)
  rw [Nat.ofDigitChars_eq_foldl] at h
  simpa only [natural, Nat.mul_comm, Char.reduceToNat] using h

theorem head_toDigits (hn : 0 < n) : (Nat.toDigits 10 n).head? ≠ some '0' := by
  induction n using Nat.strongRecOn with
  | _ n ih =>
    by_cases hsmall : n < 10
    · rw [Nat.toDigits_of_lt_base hsmall]
      interval_cases n <;> decide
    · have hfirst := ih (n / 10) (by omega) (by omega)
      rw [Nat.toDigits_of_base_le (by omega) (by omega),
        List.head?_append_of_ne_nil _ Nat.toDigits_ne_nil]
      exact hfirst

theorem whole_toDigits (n : ℕ) : Whole (Nat.toDigits 10 n) := by
  by_cases hn : n = 0
  · subst hn
    exact .zero
  · have hfirst := head_toDigits (Nat.pos_of_ne_zero hn)
    have hdigits : Digits (Nat.toDigits 10 n) :=
      ⟨Nat.toDigits_ne_nil, fun c hc => Nat.isDigit_of_mem_toDigits (by omega) (by omega) hc⟩
    cases heq : Nat.toDigits 10 n with
    | nil => exact absurd heq Nat.toDigits_ne_nil
    | cons d ds =>
      rw [heq] at hfirst hdigits
      exact .nonzero (by simpa using hfirst) hdigits

theorem value_toDigits (hn : n < 2 ^ 64) :
    (numberScan (Nat.toDigits 10 n)).value = .ok (some n) := by
  have hwhole := whole_toDigits n
  have hscan := numberScan_whole hwhole []
  rw [unsigned_whole false hwhole (begins_nil breaks), List.append_nil] at hscan
  rw [hscan, atPoint, atExponent, atExponent.atEnd, natural_toDigits,
    if_pos ⟨rfl, hn⟩]
  rfl

end AccumulatorMachine.Json
