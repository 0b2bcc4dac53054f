import AccumulatorMachine.Json.Quoted
import AccumulatorMachine.Proofs.Json.Grammar

/-! Strings as they are scanned. A reader gets the characters that the units of a string encode, and
nothing if a half of a surrogate pair lacks the other half. One who skips the string does not mind
that, and goes on behind its closing quote in any case. -/
namespace AccumulatorMachine.Json

open StringScan (isHighHalf isLowHalf joinHalves scan)

def decode : List ℕ → Except Problem Text
  | [] => .ok []
  | [u] => if isHighHalf u ∨ isLowHalf u then .error .malformed else .ok [Char.ofNat u]
  | u :: l :: us =>
    if isHighHalf u then
      if isLowHalf l then (decode us).map (joinHalves u l :: ·) else .error .malformed
    else if isLowHalf u then .error .malformed
    else (decode (l :: us)).map (Char.ofNat u :: ·)

variable {c e : Char} {t rest : Text} {us : List ℕ} {u l : ℕ} {half : Option ℕ}

theorem decode_pair (hu : isHighHalf u) (hl : isLowHalf l) :
    decode (u :: l :: us) = (decode us).map (joinHalves u l :: ·) := by
  simp [decode, hu, hl]

theorem decode_high (hu : isHighHalf u) (h : ∀ l ∈ us.head?, ¬ isLowHalf l) :
    decode (u :: us) = .error .malformed := by
  cases us with
  | nil => simp [decode, hu]
  | cons l us => simp [decode, hu, h l rfl]

theorem decode_low (hu : ¬ isHighHalf u) (hl : isLowHalf u) :
    decode (u :: us) = .error .malformed := by
  cases us <;> simp [decode, hu, hl]

theorem decode_single (hu : ¬ isHighHalf u) (hl : ¬ isLowHalf u) :
    decode (u :: us) = (decode us).map (Char.ofNat u :: ·) := by
  cases us with
  | nil => simp [decode, hu, hl, Except.map]
  | cons l us => simp [decode, hu, hl]

theorem isHighHalf_iff : isHighHalf u ↔ 0xD800 ≤ u ∧ u ≤ 0xDBFF := by simp [isHighHalf]

theorem isLowHalf_iff : isLowHalf u ↔ 0xDC00 ≤ u ∧ u ≤ 0xDFFF := by simp [isLowHalf]

/-- No character is a half of a surrogate pair. -/
theorem toNat_valid (c : Char) : c.toNat < 0xD800 ∨ 0xDFFF < c.toNat ∧ c.toNat < 0x110000 := c.valid

theorem decode_units (c : Char) (us : List ℕ) :
    decode (units c ++ us) = (decode us).map (c :: ·) := by
  have hvalid := toNat_valid c
  unfold units
  split
  · next hsmall =>
    have hu : ¬ isHighHalf c.toNat := by rw [isHighHalf_iff]; omega
    have hl : ¬ isLowHalf c.toNat := by rw [isLowHalf_iff]; omega
    rw [List.singleton_append, decode_single hu hl, Char.ofNat_toNat]
  · next hlarge =>
    have hu : isHighHalf (0xD800 + (c.toNat - 0x10000) / 0x400) := by rw [isHighHalf_iff]; omega
    have hl : isLowHalf (0xDC00 + (c.toNat - 0x10000) % 0x400) := by rw [isLowHalf_iff]; omega
    have hjoin : joinHalves (0xD800 + (c.toNat - 0x10000) / 0x400)
        (0xDC00 + (c.toNat - 0x10000) % 0x400) = c := by
      have hcode : 0x10000 + (0xD800 + (c.toNat - 0x10000) / 0x400 - 0xD800) * 0x400 +
          (0xDC00 + (c.toNat - 0x10000) % 0x400 - 0xDC00) = c.toNat := by omega
      rw [joinHalves, hcode, Char.ofNat_toNat]
    rw [List.cons_append, List.singleton_append, decode_pair hu hl, hjoin]

theorem decode_utf16 (t : Text) : decode (utf16 t) = .ok t := by
  induction t with
  | nil => rfl
  | cons c t ih =>
    have hcons : utf16 (c :: t) = units c ++ utf16 t := rfl
    rw [hcons, decode_units, ih]
    rfl

/-- The units of a character do not complete a pair that began before it. -/
theorem decode_high_units (hu : isHighHalf u) (c : Char) (us : List ℕ) :
    decode (u :: (units c ++ us)) = .error .malformed := by
  have hvalid := toNat_valid c
  refine decode_high hu ?_
  intro l hl
  rw [isLowHalf_iff]
  unfold units at hl
  split at hl
  · obtain rfl : c.toNat = l := by simpa using hl
    omega
  · obtain rfl : 0xD800 + (c.toNat - 0x10000) / 0x400 = l := by simpa using hl
    omega

/-- A scanned string of which only the text between the quotes matters. -/
def scanned (us : List ℕ) (rest : Text) : StringScan := ⟨decode us, none, rest⟩

theorem settle_push (hhalf : ∀ u ∈ half, isHighHalf u) (c : Char) :
    ((scanned us rest).push c).settle half = scanned (half.toList ++ (units c ++ us)) rest := by
  cases half with
  | none =>
    simp [scanned, StringScan.settle, StringScan.push, decode_units]
  | some u =>
    have hdecode := decode_high_units (hhalf u rfl) c us
    simp [scanned, StringScan.settle, StringScan.refuse, StringScan.push, hdecode]

theorem scan_quote (hhalf : ∀ u ∈ half, isHighHalf u) (rest : Text) :
    scan half ('"' :: rest) = scanned half.toList rest := by
  rw [StringScan.scan.eq_def]
  cases half with
  | none => rfl
  | some u =>
    have hdecode : decode [u] = .error .malformed := decode_high (hhalf u rfl) (by simp)
    simp [scanned, StringScan.settle, StringScan.refuse, hdecode]

theorem scan_plain (hquote : c ≠ '"') (hbackslash : c ≠ '\\') (hcontrol : 0x20 ≤ c.toNat)
    (half : Option ℕ) (t : Text) : scan half (c :: t) = ((scan none t).push c).settle half := by
  have hcontrol : ¬ c.toNat < 0x20 := by omega
  rw [StringScan.scan.eq_def]
  simp [hquote, hbackslash, hcontrol]

theorem scan_escape (h : (e, c) ∈ escapes) (half : Option ℕ) (t : Text) :
    scan half ('\\' :: e :: t) = ((scan none t).push c).settle half := by
  have hall : ∀ p ∈ escapes, p.1 ≠ 'u' ∧ StringScan.escape? p.1 = some p.2 := by
    simp [escapes, StringScan.escape?]
  obtain ⟨hunit, hescape⟩ := hall _ h
  rw [StringScan.scan.eq_def]
  simp [hunit, hescape]

theorem hexDigit?_eq (c : Char) :
    StringScan.hexDigit? c =
      if Numeral.IsDigit .hex c then some (Numeral.worth c) else none := by
  rw [← Numeral.digitValue?_eq]
  simp [StringScan.hexDigit?, Numeral.digitValue?]

theorem unit?_eq {a b c d : Char} (h : ∀ x ∈ [a, b, c, d], Numeral.IsDigit .hex x) :
    StringScan.unit? a b c d = some (Nat.ofDigits 16
      [Numeral.worth d, Numeral.worth c, Numeral.worth b, Numeral.worth a]) := by
  simp only [List.forall_mem_cons, List.not_mem_nil, false_implies, implies_true, and_true] at h
  obtain ⟨ha, hb, hc, hd⟩ := h
  simp only [StringScan.unit?, hexDigit?_eq, ha, hb, hc, hd, if_true, Option.pure_def,
    Option.bind_eq_bind, Option.bind_some, Nat.ofDigits_cons, Nat.ofDigits_nil, Option.some.injEq]
  push_cast
  omega

/-- What comes of a unit depends on the unit before it. -/
theorem scan_unit {a b c d : Char} (h : ∀ x ∈ [a, b, c, d], Numeral.IsDigit .hex x)
    (hu : u = Nat.ofDigits 16
      [Numeral.worth d, Numeral.worth c, Numeral.worth b, Numeral.worth a])
    (half : Option ℕ) (t : Text) :
    scan half ('\\' :: 'u' :: a :: b :: c :: d :: t) =
      match half with
      | some high =>
        if isLowHalf u then (scan none t).push (joinHalves high u) else (scan none t).refuse
      | none =>
        if isHighHalf u then scan (some u) t
        else if isLowHalf u then (scan none t).refuse
        else (scan none t).push (Char.ofNat u) := by
  rw [StringScan.scan.eq_def]
  cases half <;> simp [unit?_eq h, ← hu]

theorem scan_spelled (h : Spelled t us) (hhalf : ∀ u ∈ half, isHighHalf u) (rest : Text) :
    scan half (t ++ '"' :: rest) = scanned (half.toList ++ us) rest := by
  induction h generalizing half with
  | nil => rw [List.append_nil, List.nil_append, scan_quote hhalf]
  | @cons t t' us us' hpiece _ ih =>
    have hnone : scan none (t' ++ '"' :: rest) = scanned us' rest := ih (by simp)
    rw [List.append_assoc]
    cases hpiece with
    | plain hquote hbackslash hcontrol =>
      rw [List.singleton_append, scan_plain hquote hbackslash hcontrol, hnone, settle_push hhalf]
    | escape hescape =>
      rw [List.cons_append, List.singleton_append, scan_escape hescape, hnone, settle_push hhalf]
    | unit hdigits =>
      generalize hu : Nat.ofDigits 16 _ = u
      have hscan := scan_unit hdigits hu.symm half (t' ++ '"' :: rest)
      simp only [List.cons_append, List.nil_append]
      rw [hscan, hnone]
      cases half with
      | some high =>
        have hhigh := hhalf high rfl
        by_cases hlow : isLowHalf u
        · simp [hlow, scanned, StringScan.push, decode_pair hhigh hlow]
        · have hdecode : decode (high :: u :: us') = .error .malformed :=
            decode_high hhigh (by simpa using hlow)
          simp [hlow, scanned, StringScan.refuse, hdecode]
      | none =>
        by_cases hhigh : isHighHalf u
        · -- The pair is completed, or not, by the piece that follows.
          have hpair : scan (some u) (t' ++ '"' :: rest) = scanned (u :: us') rest :=
            ih (by simpa using hhigh)
          simpa [hhigh] using hpair
        · by_cases hlow : isLowHalf u
          · simp [hhigh, hlow, scanned, StringScan.refuse, decode_low]
          · simp [hhigh, hlow, scanned, StringScan.push, decode_single]

end AccumulatorMachine.Json
