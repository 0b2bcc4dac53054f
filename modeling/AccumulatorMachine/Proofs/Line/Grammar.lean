import AccumulatorMachine.Proofs.Instruction

/-! The grammar of source lines. The code of a line is what stands between blanks in front of its
comment; it is an instruction just when a mnemonic stands at its very beginning, alone or with
separators behind it, and then the next token is the operand. All other code is data. -/
namespace AccumulatorMachine.Line

def Blank (t : Text) : Prop := ∀ c ∈ t, Text.isBlank c = true

def Gap (w : Text) : Prop := ∀ c ∈ w, isSeparator c = true

def Token (t : Text) : Prop := ∀ c ∈ t, isSeparator c = false

structure IsCode (line code : Text) : Prop where
  trimmed : Text.Trimmed code
  semicolon : ';' ∉ code
  place : ∃ before after rest, line = before ++ (code ++ (after ++ rest)) ∧
    Blank before ∧ Blank after ∧ ∀ c ∈ rest.head?, c = ';'

structure Spells (s : Text) (m : Mnemonic) : Prop where
  token : Token s
  name : Text.upper s = m.name.toList

/-- A mnemonic, a gap, a token and anything that does not go on with the token. -/
def WithOperand (code : Text) (m : Mnemonic) (t : Text) : Prop :=
  ∃ s w r, code = s ++ (w ++ (t ++ r)) ∧ Spells s m ∧ (w ≠ [] ∧ Gap w) ∧ (t ≠ [] ∧ Token t) ∧
    ∀ c ∈ r.head?, isSeparator c = true

def WithoutOperand (code : Text) (m : Mnemonic) : Prop :=
  ∃ s w, code = s ++ w ∧ Spells s m ∧ Gap w

/-- Texts that differ in their gaps alone. A gap between tokens is never empty, one at the end may
be. -/
inductive Respaced : Text → Text → Prop where
  | last {w w' : Text} : Gap w → Gap w' → Respaced w w'
  | gap {w w' s s' : Text} : w ≠ [] → Gap w → w' ≠ [] → Gap w' → Respaced s s' →
      Respaced (w ++ s) (w' ++ s')
  | letter {c : Char} {s s' : Text} : isSeparator c = false → Respaced s s' →
      Respaced (c :: s) (c :: s')

/-- Of data only that it is data, since its text is the code with all gaps. -/
def Kind.outline : Kind → Kind
  | .literal _ => .literal []
  | k => k

variable {line code before after s s' t t' w x : Text} {m : Mnemonic} {o : Option Text} {c : Char}

theorem Gap.of_cons (h : Gap (c :: w)) : isSeparator c = true ∧ Gap w :=
  ⟨h c List.mem_cons_self, fun d hd => h d (List.mem_cons_of_mem c hd)⟩

theorem Token.of_cons (h : Token (c :: t)) : isSeparator c = false ∧ Token t :=
  ⟨h c List.mem_cons_self, fun d hd => h d (List.mem_cons_of_mem c hd)⟩

theorem blank_nil : Blank [] := fun _ h => absurd h List.not_mem_nil

theorem trim_blanks (hb : Blank before) (ha : Blank after) (t : Text) :
    Text.trim (before ++ (t ++ after)) = Text.trim t := by
  have hstart : Text.trim (before ++ (t ++ after)) = Text.trim (t ++ after) := by
    unfold Text.trim Text.trimStart
    rw [List.dropWhile_append_of_pos hb]
  rw [hstart]
  clear hstart
  induction after generalizing t with
  | nil => rw [List.append_nil]
  | cons c after ih =>
    rw [List.append_cons, ih fun d hd => ha d (List.mem_cons_of_mem c hd)]
    exact Text.trim_append_blank t (ha c List.mem_cons_self)

theorem exists_trim (t : Text) :
    ∃ before after, t = before ++ (Text.trim t ++ after) ∧ Blank before ∧ Blank after := by
  refine ⟨t.takeWhile Text.isBlank, (Text.trimStart t).rtakeWhile Text.isBlank, ?_, ?_, ?_⟩
  · have hend : Text.trim t ++ (Text.trimStart t).rtakeWhile Text.isBlank = Text.trimStart t :=
      List.rdropWhile_append_rtakeWhile ..
    rw [hend]
    exact List.takeWhile_append_dropWhile.symm
  · exact fun c hc => List.mem_takeWhile_imp hc
  · exact fun c hc => List.mem_rtakeWhile_imp hc

theorem code_comment (line comment : Text) :
    Line.code (line ++ ';' :: comment) = Line.code line := by
  unfold Line.code
  rw [List.takeWhile_append]
  split
  · next hopen =>
    have hall : line.takeWhile (· != ';') = line := (List.takeWhile_prefix _).eq_of_length hopen
    rw [hall, List.takeWhile_cons_of_neg (by simp), List.append_nil]
  · rfl

/-- A blank is no semicolon, so blanks in front do not reach into the comment. -/
theorem code_blanks (hb : Blank before) (ha : Blank after) (line : Text) :
    Line.code (before ++ (line ++ after)) = Line.code line := by
  have hfront (t : Text) : Line.code (before ++ t) = Line.code t := by
    have hkept : ∀ c ∈ before, (c != ';') = true := by
      intro c hc
      rw [bne_iff_ne]
      rintro rfl
      exact absurd (hb ';' hc) (by decide)
    have htrim := trim_blanks hb blank_nil (t.takeWhile (· != ';'))
    rw [List.append_nil] at htrim
    rw [Line.code, List.takeWhile_append_of_pos hkept, htrim, Line.code]
  rw [hfront]
  induction after generalizing line with
  | nil => rw [List.append_nil]
  | cons c after ih =>
    rw [List.append_cons, ih fun d hd => ha d (List.mem_cons_of_mem c hd)]
    exact code_append_blank (ha c List.mem_cons_self) line

theorem IsCode.code_eq (h : IsCode line code) : Line.code line = code := by
  obtain ⟨before, after, rest, rfl, hbefore, hafter, hrest⟩ := h.place
  have hclear : Line.code (before ++ (code ++ after)) = code := by
    have hplain := code_append h.trimmed h.semicolon (.inl rfl)
    rw [List.append_nil] at hplain
    rw [code_blanks hbefore hafter, hplain]
  cases rest with
  | nil => rwa [List.append_nil]
  | cons c comment =>
    obtain rfl : c = ';' := hrest c rfl
    have h := code_comment (before ++ (code ++ after)) comment
    rw [hclear] at h
    simpa using h

theorem isCode_code (line : Text) : IsCode line (Line.code line) := by
  refine ⟨trimmed_code line, semicolon_code line, ?_⟩
  obtain ⟨before, after, heq, hbefore, hafter⟩ := exists_trim (line.takeWhile (· != ';'))
  refine ⟨before, after, line.dropWhile (· != ';'), ?_, hbefore, hafter, ?_⟩
  · have h : line.takeWhile (· != ';') ++ line.dropWhile (· != ';') = line :=
      List.takeWhile_append_dropWhile
    rw [heq] at h
    simpa [Line.code] using h.symm
  · intro c hc
    have h := List.head?_dropWhile_not (· != ';') line
    rw [Option.mem_def.mp hc] at h
    simpa using h

theorem isCode_iff : IsCode line code ↔ code = Line.code line := by
  constructor
  · intro h
    exact h.code_eq.symm
  · rintro rfl
    exact isCode_code line

theorem tokens_token (ht : Token t) (x : Text) :
    tokens (t ++ x) = (t ++ (tokens x).1, (tokens x).2) := by
  induction t with
  | nil => rfl
  | cons c t ih => rw [List.cons_append, tokens_letter ht.of_cons.1, ih ht.of_cons.2]; rfl

/-- However long a gap is, it ends one token and starts another. -/
theorem tokens_gap (hne : w ≠ []) (hw : Gap w) (x : Text) :
    tokens (w ++ x) = ([], ((tokens x).1 :: (tokens x).2).filter (· ≠ [])) := by
  induction w with
  | nil => exact absurd rfl hne
  | cons c w ih =>
    rw [List.cons_append, tokens_separator hw.of_cons.1]
    by_cases hrest : w = []
    · rw [hrest, List.nil_append]
    · rw [ih hrest hw.of_cons.2]
      simp

theorem tokens_last (hw : Gap w) : tokens w = ([], []) := by
  by_cases hne : w = []
  · rw [hne]
    rfl
  · have h := tokens_gap hne hw []
    rwa [List.append_nil] at h

theorem tokens_stop (hx : ∀ c ∈ x.head?, isSeparator c = true) : (tokens x).1 = [] := by
  cases x with
  | nil => rfl
  | cons c x => rw [tokens_separator (hx c rfl)]

theorem Respaced.tokens_eq (h : Respaced s s') : tokens s = tokens s' := by
  induction h with
  | last hw hw' => rw [tokens_last hw, tokens_last hw']
  | gap hne hw hne' hw' _ ih => rw [tokens_gap hne hw, tokens_gap hne' hw', ih]
  | letter hc _ ih => rw [tokens_letter hc, tokens_letter hc, ih]

theorem token_first (code : Text) : Token (tokens code).1 := by
  induction code with
  | nil => simp [tokens, Token]
  | cons c code ih =>
    by_cases hc : isSeparator c
    · rw [tokens_separator hc]
      simp [Token]
    · have hc : isSeparator c = false := by simpa using hc
      rw [tokens_letter hc]
      simpa [Token] using ⟨hc, ih⟩

theorem tokens_alone (hs : Token s) (hw : Gap w) : tokens (s ++ w) = (s, []) := by
  rw [tokens_token hs, tokens_last hw, List.append_nil]

theorem exists_tokens_operand (hs : Token s) (hne : w ≠ []) (hw : Gap w) (htne : t ≠ [])
    (ht : Token t) (hx : ∀ c ∈ x.head?, isSeparator c = true) :
    ∃ later, tokens (s ++ (w ++ (t ++ x))) = (s, t :: later) := by
  have hsecond : tokens (t ++ x) = (t, (tokens x).2) := by
    rw [tokens_token ht, tokens_stop hx, List.append_nil]
  have hkept : (t :: (tokens x).2).filter (· ≠ []) = t :: (tokens x).2.filter (· ≠ []) :=
    List.filter_cons_of_pos (by simpa using htne)
  rw [tokens_token hs, tokens_gap hne hw, hsecond, List.append_nil]
  exact ⟨_, congrArg (s, ·) hkept⟩

/-- Behind the first token there is a gap, and behind the gap either nothing or another token. -/
theorem exists_cut (code : Text) :
    (∃ w, code = (tokens code).1 ++ w ∧ Gap w) ∨
    ∃ w t r, code = (tokens code).1 ++ (w ++ (t ++ r)) ∧ (w ≠ [] ∧ Gap w) ∧ (t ≠ [] ∧ Token t) ∧
      ∀ c ∈ r.head?, isSeparator c = true := by
  obtain ⟨rest, hcode, hrest⟩ := exists_rest code
  have hsplit : rest.takeWhile isSeparator ++ rest.dropWhile isSeparator = rest :=
    List.takeWhile_append_dropWhile
  have hgap : Gap (rest.takeWhile isSeparator) := fun c hc => List.mem_takeWhile_imp hc
  cases hx : rest.dropWhile isSeparator with
  | nil =>
    rw [hx, List.append_nil] at hsplit
    exact .inl ⟨rest, hcode, hsplit ▸ hgap⟩
  | cons c x =>
    have hc : isSeparator c = false := by
      have h := List.head?_dropWhile_not isSeparator rest
      rwa [hx] at h
    obtain ⟨r, hr, hstop⟩ := exists_rest (c :: x)
    have htoken : (tokens (c :: x)).1 ≠ [] := by simp [tokens_letter hc]
    have hne : rest.takeWhile isSeparator ≠ [] := by
      intro hnil
      rw [hnil, List.nil_append, hx] at hsplit
      exact absurd (hrest c (hsplit ▸ rfl)) (by simp [hc])
    refine .inr ⟨_, _, r, ?_, ⟨hne, hgap⟩, ⟨htoken, token_first _⟩, hstop⟩
    rw [← hr, ← hx, hsplit, ← hcode]

theorem classify_eq_instruction_iff : classify line = .instruction m o ↔
    Mnemonic.ofToken? (tokens (Line.code line)).1 = some m ∧
      (tokens (Line.code line)).2.head? = o := by
  by_cases hcode : Line.code line = []
  · rw [classify_blank hcode, hcode]
    constructor
    · intro h
      contradiction
    · rintro ⟨h, -⟩
      exact absurd rfl (Mnemonic.ne_nil_of_ofToken? h)
  · cases hm : Mnemonic.ofToken? (tokens (Line.code line)).1 with
    | none => simp [classify_literal hcode hm]
    | some m' => simp [classify_instruction hcode hm]

theorem ofToken?_eq_some_iff : Mnemonic.ofToken? s = some m ↔ Text.upper s = m.name.toList := by
  constructor
  · exact Mnemonic.upper_of_ofToken?
  · intro h
    rw [Mnemonic.ofToken?, h]
    exact Mnemonic.ofName?_name m

theorem spells_first (h : Mnemonic.ofToken? (tokens code).1 = some m) :
    Spells (tokens code).1 m := ⟨token_first code, ofToken?_eq_some_iff.mp h⟩

theorem classify_operand_iff :
    classify line = .instruction m (some t) ↔ WithOperand (Line.code line) m t := by
  rw [classify_eq_instruction_iff]
  constructor
  · rintro ⟨hm, hsecond⟩
    have hs := spells_first hm
    rcases exists_cut (Line.code line) with ⟨w, hcode, hw⟩ | ⟨w, t', r, hcode, hw, ht, hr⟩
    · rw [hcode, tokens_alone hs.token hw] at hsecond
      contradiction
    · obtain ⟨later, htokens⟩ := exists_tokens_operand hs.token hw.1 hw.2 ht.1 ht.2 hr
      rw [hcode, htokens] at hsecond
      obtain rfl : t' = t := Option.some.inj hsecond
      exact ⟨_, w, r, hcode, hs, hw, ht, hr⟩
  · rintro ⟨s, w, r, hcode, hs, hw, ht, hr⟩
    obtain ⟨later, htokens⟩ := exists_tokens_operand hs.token hw.1 hw.2 ht.1 ht.2 hr
    rw [hcode, htokens]
    exact ⟨ofToken?_eq_some_iff.mpr hs.name, rfl⟩

theorem classify_alone_iff :
    classify line = .instruction m none ↔ WithoutOperand (Line.code line) m := by
  rw [classify_eq_instruction_iff]
  constructor
  · rintro ⟨hm, hsecond⟩
    have hs := spells_first hm
    rcases exists_cut (Line.code line) with ⟨w, hcode, hw⟩ | ⟨w, t, r, hcode, hw, ht, hr⟩
    · exact ⟨_, w, hcode, hs, hw⟩
    · obtain ⟨later, htokens⟩ := exists_tokens_operand hs.token hw.1 hw.2 ht.1 ht.2 hr
      rw [hcode, htokens] at hsecond
      contradiction
  · rintro ⟨s, w, hcode, hs, hw⟩
    rw [hcode, tokens_alone hs.token hw]
    exact ⟨ofToken?_eq_some_iff.mpr hs.name, rfl⟩

theorem classify_blank_iff : classify line = .blank ↔ Line.code line = [] := by
  constructor
  · intro h
    by_contra hcode
    cases hm : Mnemonic.ofToken? (tokens (Line.code line)).1 with
    | none =>
      rw [classify_literal hcode hm] at h
      contradiction
    | some m =>
      rw [classify_instruction hcode hm] at h
      contradiction
  · exact classify_blank

theorem code_of_literal (h : classify line = .literal code) : code = Line.code line :=
  (of_classify_literal h).2.2

theorem classify_literal_iff : classify line = .literal code ↔
    code = Line.code line ∧ Line.code line ≠ [] ∧
      ∀ m, ¬ WithoutOperand (Line.code line) m ∧ ∀ t, ¬ WithOperand (Line.code line) m t := by
  simp only [← classify_operand_iff, ← classify_alone_iff, ← classify_blank_iff, ne_eq]
  constructor
  · intro h
    refine ⟨code_of_literal h, ?_⟩
    simp [h]
  · rintro ⟨hcode, hblank, hinstruction⟩
    cases hkind : classify line with
    | blank => exact absurd hkind hblank
    | instruction m o =>
      cases o with
      | none => exact absurd hkind (hinstruction m).1
      | some t => exact absurd hkind ((hinstruction m).2 t)
    | literal c => rw [code_of_literal hkind, hcode]

theorem outline_of_respaced (hs : Line.code s ≠ []) (hs' : Line.code s' ≠ [])
    (h : Respaced (Line.code s) (Line.code s')) :
    (classify s').outline = (classify s).outline := by
  have htokens := h.tokens_eq
  cases hm : Mnemonic.ofToken? (tokens (Line.code s)).1 with
  | none =>
    rw [classify_literal hs hm, classify_literal hs' (htokens ▸ hm)]
    rfl
  | some m => rw [classify_instruction hs hm, classify_instruction hs' (htokens ▸ hm), htokens]

/-- A comma is no blank, so trimming keeps it. -/
theorem exists_code_comma (x : Text) : ∃ y, Line.code (',' :: x) = ',' :: y := by
  have hkept : (',' :: x).takeWhile (· != ';') = ',' :: x.takeWhile (· != ';') := rfl
  have hstart (z : Text) : Text.trimStart (',' :: z) = ',' :: z := rfl
  rw [Line.code, hkept, Text.trim, hstart]
  obtain ⟨z, hz⟩ := Text.trimEnd_isPrefix (',' :: x.takeWhile (· != ';'))
  cases hend : Text.trimEnd (',' :: x.takeWhile (· != ';')) with
  | nil =>
    have hall := List.rdropWhile_eq_nil_iff.mp hend
    exact absurd (hall ',' List.mem_cons_self) (by decide)
  | cons c y =>
    rw [hend] at hz
    obtain rfl : c = ',' := (List.cons_eq_cons.mp hz).1
    exact ⟨y, rfl⟩

theorem classify_comma (hb : Blank before) (x : Text) :
    classify (before ++ ',' :: x) = .literal (Line.code (before ++ ',' :: x)) := by
  obtain ⟨y, hy⟩ := exists_code_comma x
  have hcode : Line.code (before ++ ',' :: x) = ',' :: y := by
    have hfront := code_blanks hb blank_nil (',' :: x)
    rwa [List.append_nil, hy] at hfront
  apply classify_literal
  · rw [hcode]
    exact List.cons_ne_nil ',' y
  · rw [hcode, tokens_separator (by decide)]
    rfl

structure Grammar (line : Text) : Prop where
  code : ∀ code, IsCode line code ↔ code = Line.code line
  blank : classify line = .blank ↔ Line.code line = []
  operand : ∀ m t, classify line = .instruction m (some t) ↔ WithOperand (Line.code line) m t
  alone : ∀ m, classify line = .instruction m none ↔ WithoutOperand (Line.code line) m
  literal : ∀ code, classify line = .literal code ↔
    code = Line.code line ∧ Line.code line ≠ [] ∧
      ∀ m, ¬ WithoutOperand (Line.code line) m ∧ ∀ t, ¬ WithOperand (Line.code line) m t
  comment : ∀ comment, classify (line ++ ';' :: comment) = classify line
  blanks : ∀ before after, Blank before → Blank after →
    classify (before ++ (line ++ after)) = classify line
  gaps : ∀ line', Line.code line ≠ [] → Line.code line' ≠ [] →
    Respaced (Line.code line) (Line.code line') → (classify line').outline = (classify line).outline
  comma : ∀ before x, Blank before → line = before ++ ',' :: x →
    classify line = .literal (Line.code line)

theorem obeys_grammar (line : Text) : Grammar line where
  code _ := isCode_iff
  blank := classify_blank_iff
  operand _ _ := classify_operand_iff
  alone _ := classify_alone_iff
  literal _ := classify_literal_iff
  comment comment := classify_congr (code_comment line comment)
  blanks before after hb ha := classify_congr (code_blanks hb ha line)
  gaps line' h h' hspaced := outline_of_respaced h h' hspaced
  comma before x hb hline := by
    subst hline
    exact classify_comma hb x

/-- A ligature is upper case letters too, and a comma behind a token is not part of it. -/
example : classify "ﬆA,, 0x1F, 2 ; k".toList = .instruction .sta (some "0x1F".toList) ∧
    classify " , LDA 10".toList = .literal ", LDA 10".toList := by decide +kernel

end AccumulatorMachine.Line
