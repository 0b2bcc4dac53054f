import AccumulatorMachine.Json.Number
import AccumulatorMachine.Json.Quoted

/-! JSON text as a list of lexemes. A lexeme with a flaw is the last one: nothing behind it is ever
looked at. -/
namespace AccumulatorMachine.Json

inductive Word where
  | null
  | true
  | false
  deriving DecidableEq, Repr

inductive Lexeme where
  | openList
  | closeList
  | openRecord
  | closeRecord
  | comma
  | colon
  | word (value : Except Problem Word)
  | number (value : Except Problem (Option Nat)) (flaw : Option Problem)
  | string (value : Except Problem Text) (flaw : Option Problem)
  /-- A character that begins no lexeme. -/
  | stray

def isSpace (c : Char) : Bool := c = ' ' || c = '\t' || c = '\n' || c = '\r'

def followWord : List Char → Text → Except Problem Text
  | [], t => .ok t
  | _ :: _, [] => .error .ended
  | e :: es, c :: t => if c = e then followWord es t else .error .malformed

def wordAt? (c : Char) : Option (Word × List Char) :=
  if c = 'n' then some (.null, "ull".toList)
  else if c = 't' then some (.true, "rue".toList)
  else if c = 'f' then some (.false, "alse".toList)
  else none

theorem followWord_length {es : List Char} {t rest : Text} (h : followWord es t = .ok rest) :
    rest.length ≤ t.length := by
  induction es generalizing t with
  | nil => simp only [followWord, Except.ok.injEq] at h; simp [h]
  | cons e es ih =>
    cases t with
    | nil => simp [followWord] at h
    | cons c t =>
      simp only [followWord] at h
      split at h
      · exact Nat.le_succ_of_le (ih h)
      · simp at h

/-- The lexeme that begins with a character, and the text behind it. Nothing is left behind a
lexeme with a flaw. -/
def lexeme (c : Char) (t : Text) : Lexeme × Text :=
  if c = '[' then (.openList, t)
  else if c = ']' then (.closeList, t)
  else if c = '\x7b' then (.openRecord, t)
  else if c = '\x7d' then (.closeRecord, t)
  else if c = ',' then (.comma, t)
  else if c = ':' then (.colon, t)
  else if c = '"' then ofString (StringScan.scan none t)
  else if c = '-' then ofNumber (NumberScan.unsigned true t)
  else if c.isDigit then ofNumber (NumberScan.unsigned false (c :: t))
  else match wordAt? c with
    | none => (.stray, [])
    | some (word, ending) => match followWord ending t with
      | .error p => (.word (.error p), [])
      | .ok rest => (.word (.ok word), rest)
where
  ofString (s : StringScan) : Lexeme × Text :=
    (.string s.value s.flaw, if s.flaw.isSome then [] else s.rest)
  ofNumber (s : NumberScan) : Lexeme × Text :=
    (.number s.value s.flaw, if s.flaw.isSome then [] else s.rest)

theorem lexeme_length (c : Char) (t : Text) : (lexeme c t).2.length ≤ t.length := by
  have ofString (s : StringScan) : (lexeme.ofString s).2.length ≤ s.rest.length := by
    unfold lexeme.ofString
    split <;> simp
  have ofNumber (s : NumberScan) : (lexeme.ofNumber s).2.length ≤ s.rest.length := by
    unfold lexeme.ofNumber
    split <;> simp
  unfold lexeme
  iterate 6
    split
    · exact Nat.le_refl _
  split
  · exact Nat.le_trans (ofString _) (StringScan.rest_scan_length none t)
  split
  · exact Nat.le_trans (ofNumber _)
      (Nat.le_trans (NumberScan.rest_unsigned_length true t) (Nat.sub_le ..))
  split
  · exact Nat.le_trans (ofNumber _) (NumberScan.rest_unsigned_length false (c :: t))
  split
  · simp
  split
  · simp
  · exact followWord_length ‹_›

def lex : Text → List Lexeme
  | [] => []
  | c :: t =>
    if isSpace c then lex t
    else match _h : lexeme c t with
      | (l, rest) => l :: lex rest
termination_by t => t.length
decreasing_by
  · simp
  · have := lexeme_length c t
    rw [‹lexeme c t = (l, rest)›] at this
    exact Nat.lt_succ_of_le this

end AccumulatorMachine.Json
