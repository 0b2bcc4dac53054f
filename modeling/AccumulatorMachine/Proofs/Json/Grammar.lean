import AccumulatorMachine.Proofs.Numeral.Reading

/-! The grammar of JSON texts, apart from any reader. A value is a tree: its strings are the UTF-16
units they stand for, in which a half of a surrogate pair may lack the other half, and its numbers
are the text they are spelled with. Records keep their members in order, repeated keys too. -/
namespace AccumulatorMachine.Json

def units (c : Char) : List ℕ :=
  if c.toNat < 0x10000 then [c.toNat]
  else [0xD800 + (c.toNat - 0x10000) / 0x400, 0xDC00 + (c.toNat - 0x10000) % 0x400]

def utf16 (t : Text) : List ℕ := t.flatMap units

inductive Tree where
  | null
  | bool (b : Bool)
  | number (literal : Text)
  | string (units : List ℕ)
  | list (items : List Tree)
  | record (members : List (List ℕ × Tree))

def Spaces (t : Text) : Prop := ∀ c ∈ t, c ∈ [' ', '\t', '\n', '\r']

def escapes : List (Char × Char) :=
  [('"', '"'), ('\\', '\\'), ('/', '/'), ('b', '\x08'), ('f', '\x0c'), ('n', '\n'), ('r', '\r'),
    ('t', '\t')]

inductive Piece : Text → List ℕ → Prop where
  | plain {c : Char} (hquote : c ≠ '"') (hbackslash : c ≠ '\\') (hcontrol : 0x20 ≤ c.toNat) :
      Piece [c] (units c)
  | escape {e c : Char} (h : (e, c) ∈ escapes) : Piece ['\\', e] (units c)
  | unit {a b c d : Char} (h : ∀ x ∈ [a, b, c, d], Numeral.IsDigit .hex x) :
      Piece ['\\', 'u', a, b, c, d]
        [Nat.ofDigits 16 [Numeral.worth d, Numeral.worth c, Numeral.worth b, Numeral.worth a]]

inductive Spelled : Text → List ℕ → Prop where
  | nil : Spelled [] []
  | cons {t t' : Text} {us us' : List ℕ} (h : Piece t us) (hrest : Spelled t' us') :
      Spelled (t ++ t') (us ++ us')

def Digits (t : Text) : Prop := t ≠ [] ∧ ∀ c ∈ t, c.isDigit

/-- No zero stands in front of another digit. -/
inductive Whole : Text → Prop where
  | zero : Whole ['0']
  | nonzero {d : Char} {ds : Text} (hd : d ≠ '0') (h : Digits (d :: ds)) : Whole (d :: ds)

inductive Fraction : Text → Prop where
  | none : Fraction []
  | some {ds : Text} (h : Digits ds) : Fraction ('.' :: ds)

inductive Exponent : Text → Prop where
  | none : Exponent []
  | some {e : Char} {sign ds : Text} (he : e ∈ ['e', 'E']) (hsign : sign ∈ [[], ['+'], ['-']])
      (h : Digits ds) : Exponent (e :: (sign ++ ds))

inductive Number : Text → Prop where
  | mk {sign whole fraction exponent : Text} (hsign : sign ∈ [[], ['-']]) (hwhole : Whole whole)
      (hfraction : Fraction fraction) (hexponent : Exponent exponent) :
      Number (sign ++ (whole ++ (fraction ++ exponent)))

/-- The phrases of the grammar. An element is a value with spaces around it, and of elements and
members there is at least one. -/
inductive Phrase where
  | value (v : Tree)
  | element (v : Tree)
  | elements (items : List Tree)
  | member (key : List ℕ) (v : Tree)
  | members (members : List (List ℕ × Tree))

inductive Written : Phrase → Text → Prop where
  | null : Written (.value .null) "null".toList
  | true : Written (.value (.bool true)) "true".toList
  | false : Written (.value (.bool false)) "false".toList
  | number {t : Text} (h : Number t) : Written (.value (.number t)) t
  | string {t : Text} {us : List ℕ} (h : Spelled t us) :
      Written (.value (.string us)) ('"' :: (t ++ ['"']))
  | emptyList {s : Text} (hs : Spaces s) : Written (.value (.list [])) ('[' :: (s ++ [']']))
  | list {t : Text} {items : List Tree} (h : Written (.elements items) t) :
      Written (.value (.list items)) ('[' :: (t ++ [']']))
  | emptyRecord {s : Text} (hs : Spaces s) :
      Written (.value (.record [])) ('\x7b' :: (s ++ ['\x7d']))
  | record {t : Text} {members : List (List ℕ × Tree)} (h : Written (.members members) t) :
      Written (.value (.record members)) ('\x7b' :: (t ++ ['\x7d']))
  | element {s t s' : Text} {v : Tree} (hs : Spaces s) (h : Written (.value v) t)
      (hs' : Spaces s') : Written (.element v) (s ++ (t ++ s'))
  | lastElement {t : Text} {v : Tree} (h : Written (.element v) t) : Written (.elements [v]) t
  | elements {t t' : Text} {v : Tree} {items : List Tree} (h : Written (.element v) t)
      (hrest : Written (.elements items) t') : Written (.elements (v :: items)) (t ++ ',' :: t')
  | member {s t s' t' : Text} {key : List ℕ} {v : Tree} (hs : Spaces s) (hkey : Spelled t key)
      (hs' : Spaces s') (h : Written (.element v) t') :
      Written (.member key v) (s ++ '"' :: (t ++ '"' :: (s' ++ ':' :: t')))
  | lastMember {t : Text} {key : List ℕ} {v : Tree} (h : Written (.member key v) t) :
      Written (.members [(key, v)]) t
  | members {t t' : Text} {key : List ℕ} {v : Tree} {members : List (List ℕ × Tree)}
      (h : Written (.member key v) t) (hrest : Written (.members members) t') :
      Written (.members ((key, v) :: members)) (t ++ ',' :: t')

def IsText (v : Tree) (t : Text) : Prop := Written (.element v) t

instance (t : Text) : Decidable (Spaces t) :=
  decidable_of_iff (t.all fun c => c ∈ [' ', '\t', '\n', '\r']) (by simp [Spaces])

instance (t : Text) : Decidable (Digits t) :=
  decidable_of_iff (t ≠ [] ∧ t.all Char.isDigit) (by simp [Digits])

theorem Piece.unit_of_all {a b c d : Char}
    (h : [a, b, c, d].all fun x => Numeral.IsDigit .hex x) :
    Piece ['\\', 'u', a, b, c, d]
      [Nat.ofDigits 16 [Numeral.worth d, Numeral.worth c, Numeral.worth b, Numeral.worth a]] :=
  .unit (by simpa using h)

/-- Most texts may stand between quotes as they are. -/
theorem spelled_utf16 {t : Text} (h : t.all fun c => c ≠ '"' ∧ c ≠ '\\' ∧ 0x20 ≤ c.toNat) :
    Spelled t (utf16 t) := by
  replace h : ∀ c ∈ t, c ≠ '"' ∧ c ≠ '\\' ∧ 0x20 ≤ c.toNat := by simpa using h
  induction t with
  | nil => exact .nil
  | cons c t ih =>
    obtain ⟨hquote, hbackslash, hcontrol⟩ := h c List.mem_cons_self
    exact .cons (.plain hquote hbackslash hcontrol) (ih fun d hd => h d (List.mem_cons_of_mem c hd))

theorem number_of_digits {d : Char} {ds : Text} (hd : d ≠ '0') (h : Digits (d :: ds)) :
    Number (d :: ds) := by
  have hwhole : Number ([] ++ (d :: ds ++ ([] ++ []))) :=
    .mk (by simp) (.nonzero hd h) .none .none
  simpa using hwhole

end AccumulatorMachine.Json
