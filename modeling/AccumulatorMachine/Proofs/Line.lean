import AccumulatorMachine.Line
import AccumulatorMachine.Proofs.Text

/-! The code of a line does not reach into its comment, and words joined by single blanks are the
tokens of what they make. What a line is depends on its code alone. -/
namespace AccumulatorMachine.Line

def Solid (t : Text) : Prop := ∀ c ∈ t, isSeparator c = false ∧ c ≠ ';'

structure Word (t : Text) : Prop where
  nonempty : t ≠ []
  solid : Solid t

/-- What may follow the code of a line without becoming part of it. -/
def IsSuffix (s : Text) : Prop := s = [] ∨ ∃ comment, s = ' ' :: ';' :: comment

def join (words : List Text) : Text := [' '].intercalate words

variable {code s t word : Text} {c : Char} {words : List Text} {m : Mnemonic}

theorem isBlank_eq_false (h : isSeparator c = false) : Text.isBlank c = false := by
  simp only [isSeparator, Bool.or_eq_false_iff] at h
  exact h.1

theorem Solid.cons (h : Solid t) (hc : isSeparator c = false) (hne : c ≠ ';') :
    Solid (c :: t) := by
  intro d hd
  rcases List.mem_cons.mp hd with rfl | hd
  · exact ⟨hc, hne⟩
  · exact h d hd

theorem Solid.trimmed (h : Solid t) : Text.Trimmed t :=
  Text.trimmed_of_forall fun c hc => isBlank_eq_false (h c hc).1

theorem Solid.semicolon (h : Solid t) : ';' ∉ t := fun hc => (h _ hc).2 rfl

theorem Word.newline (h : Word t) : '\n' ∉ t := by
  intro hmem
  exact absurd (h.solid _ hmem).1 (by decide)

theorem trimmed_code (line : Text) : Text.Trimmed (Line.code line) := Text.trimmed_trim _

theorem semicolon_code (line : Text) : ';' ∉ Line.code line := by
  intro h
  have hc := List.mem_takeWhile_imp (Text.mem_of_mem_trim h)
  simp at hc

theorem code_append (ht : Text.Trimmed t) (hc : ';' ∉ t) (hs : IsSuffix s) :
    Line.code (t ++ s) = t := by
  have hkept : ∀ c ∈ t, (c != ';') = true := by
    intro c hmem
    simpa using fun heq : c = ';' => hc (heq ▸ hmem)
  unfold Line.code
  rw [List.takeWhile_append_of_pos hkept]
  rcases hs with rfl | ⟨comment, rfl⟩
  · simpa using Text.trim_eq_self ht
  · have hblank : (' ' :: ';' :: comment).takeWhile (· != ';') = [' '] := by simp
    rw [hblank, Text.trim_append_blank t (by decide), Text.trim_eq_self ht]

theorem code_append_blank (hc : Text.isBlank c) (line : Text) :
    Line.code (line ++ [c]) = Line.code line := by
  unfold Line.code
  rw [List.takeWhile_append]
  split
  · next hopen =>
    -- No comment begins in the line, so the blank is code and is trimmed away.
    have hall : line.takeWhile (· != ';') = line :=
      (List.takeWhile_prefix _).eq_of_length hopen
    have hkept : [c].takeWhile (· != ';') = [c] := by
      refine List.takeWhile_cons_of_pos (bne_iff_ne.mpr ?_)
      rintro rfl
      contradiction
    rw [hall, hkept]
    exact Text.trim_append_blank line hc
  · rfl

theorem comment_append (ht : ';' ∉ t) (s : Text) : comment (t ++ s) = comment s := by
  have hpassed : ∀ c ∈ t, (c != ';') = true := by
    intro c hmem
    simpa using fun heq : c = ';' => ht (heq ▸ hmem)
  unfold comment
  rw [List.dropWhile_append_of_pos hpassed]

theorem tokens_separator (hc : isSeparator c = true) (t : Text) :
    tokens (c :: t) = ([], ((tokens t).1 :: (tokens t).2).filter (· ≠ [])) := by
  unfold tokens
  rw [List.splitOnP_cons_eq_if_modifyHead, if_pos hc]
  obtain ⟨first, later, h⟩ := List.exists_cons_of_ne_nil (List.splitOnP_ne_nil isSeparator t)
  by_cases hfirst : first = [] <;> simp [h, hfirst]

theorem tokens_letter (hc : isSeparator c = false) (t : Text) :
    tokens (c :: t) = (c :: (tokens t).1, (tokens t).2) := by
  unfold tokens
  rw [List.splitOnP_cons_eq_if_modifyHead, if_neg (by simp [hc])]
  obtain ⟨first, later, h⟩ := List.exists_cons_of_ne_nil (List.splitOnP_ne_nil isSeparator t)
  simp [h]

/-- The first token ends before a separator or with the code. -/
theorem exists_rest (code : Text) :
    ∃ rest, code = (tokens code).1 ++ rest ∧ ∀ c ∈ rest.head?, isSeparator c = true := by
  induction code with
  | nil => exact ⟨[], rfl, by simp⟩
  | cons c t ih =>
    by_cases hc : isSeparator c
    · exact ⟨c :: t, by rw [tokens_separator hc]; rfl, by simpa using hc⟩
    · obtain ⟨rest, hrest, hhead⟩ := ih
      refine ⟨rest, ?_, hhead⟩
      rw [tokens_letter (by simpa using hc), List.cons_append, ← hrest]

theorem solid_tokens (h : ';' ∉ code) :
    Solid (tokens code).1 ∧ ∀ t ∈ (tokens code).2, Word t := by
  induction code with
  | nil => exact ⟨by simp [tokens, Solid], by simp [tokens]⟩
  | cons c t ih =>
    simp only [List.mem_cons, not_or] at h
    obtain ⟨hfirst, hlater⟩ := ih h.2
    by_cases hc : isSeparator c
    · rw [tokens_separator hc]
      refine ⟨by simp [Solid], ?_⟩
      intro w hw
      rw [List.mem_filter, List.mem_cons, decide_eq_true_eq] at hw
      rcases hw with ⟨rfl | hw, hne⟩
      · exact ⟨hne, hfirst⟩
      · exact hlater w hw
    · rw [tokens_letter (by simpa using hc)]
      exact ⟨hfirst.cons (by simpa using hc) (Ne.symm h.1), hlater⟩

theorem tokens_append (hw : Solid word) (hc : isSeparator c = true) (t : Text) :
    tokens (word ++ c :: t) = (word, ((tokens t).1 :: (tokens t).2).filter (· ≠ [])) := by
  induction word with
  | nil => exact tokens_separator hc t
  | cons d word ih =>
    have hd := (hw d List.mem_cons_self).1
    rw [List.cons_append, tokens_letter hd, ih fun x hx => hw x (List.mem_cons_of_mem d hx)]

theorem tokens_word (hw : Solid word) : tokens word = (word, []) := by
  unfold tokens
  rw [List.splitOnP_eq_singleton fun c hc => (hw c hc).1]
  rfl

theorem join_cons (word next : Text) (words : List Text) :
    join (word :: next :: words) = word ++ ' ' :: join (next :: words) := by
  rw [join, List.intercalate_cons_cons]
  simp [join]

theorem tokens_join (hw : Solid word) (hws : ∀ w ∈ words, Word w) :
    tokens (join (word :: words)) = (word, words) := by
  induction words generalizing word with
  | nil => rw [join, List.intercalate_singleton, tokens_word hw]
  | cons next words ih =>
    have hnext := (hws next List.mem_cons_self).solid
    have hrest : ∀ w ∈ words, Word w := fun w h => hws w (List.mem_cons_of_mem next h)
    have hkept : (next :: words).filter (· ≠ []) = next :: words :=
      List.filter_eq_self.mpr fun w h => decide_eq_true (hws w h).nonempty
    rw [join_cons, tokens_append hw (by decide), ih hnext hrest, hkept]

theorem join_ne_nil (hne : word ≠ []) (words : List Text) : join (word :: words) ≠ [] := by
  cases words with
  | nil => simpa [join] using hne
  | cons next words => simp [join_cons]

/-- Words make code that is its own code. -/
theorem trimmed_join (hw : Word word) (hws : ∀ w ∈ words, Word w) :
    Text.Trimmed (join (word :: words)) ∧ ';' ∉ join (word :: words) := by
  induction words generalizing word with
  | nil =>
    rw [join, List.intercalate_singleton]
    exact ⟨hw.solid.trimmed, hw.solid.semicolon⟩
  | cons next words ih =>
    have hnext := hws next List.mem_cons_self
    obtain ⟨htrim, hsemi⟩ := ih hnext fun w h => hws w (List.mem_cons_of_mem next h)
    have hjoin := join_ne_nil hnext.nonempty words
    rw [join_cons]
    refine ⟨hw.solid.trimmed.surround htrim hw.nonempty hjoin [' '], ?_⟩
    simp [hw.solid.semicolon, hsemi]

theorem classify_congr (h : Line.code s = Line.code t) : classify s = classify t := by
  unfold classify
  rw [h]

theorem classify_blank (h : Line.code t = []) : classify t = .blank := if_pos h

theorem classify_instruction (hcode : Line.code t ≠ [])
    (hm : Mnemonic.ofToken? (tokens (Line.code t)).1 = some m) :
    classify t = .instruction m (tokens (Line.code t)).2.head? := by
  unfold classify
  rw [if_neg hcode]
  simp [hm]

theorem classify_literal (hcode : Line.code t ≠ [])
    (hm : Mnemonic.ofToken? (tokens (Line.code t)).1 = none) :
    classify t = .literal (Line.code t) := by
  unfold classify
  rw [if_neg hcode]
  simp [hm]

theorem of_classify_literal (h : classify t = .literal code) :
    Line.code t ≠ [] ∧ Mnemonic.ofToken? (tokens (Line.code t)).1 = none ∧ code = Line.code t := by
  by_cases hcode : Line.code t = []
  · rw [classify_blank hcode] at h
    contradiction
  · cases hm : Mnemonic.ofToken? (tokens (Line.code t)).1 with
    | some m =>
      rw [classify_instruction hcode hm] at h
      contradiction
    | none =>
      rw [classify_literal hcode hm] at h
      cases h
      exact ⟨hcode, rfl, rfl⟩

theorem classify_join (hm : Mnemonic.ofToken? word = some m) (hw : Word word)
    (hws : ∀ w ∈ words, Word w) (hs : IsSuffix s) :
    classify (join (word :: words) ++ s) = .instruction m words.head? := by
  obtain ⟨htrim, hsemi⟩ := trimmed_join hw hws
  have hcode := code_append htrim hsemi hs
  have htokens := tokens_join hw.solid hws
  rw [← hcode] at htokens
  have h := classify_instruction (t := join (word :: words) ++ s)
    (by rw [hcode]; exact join_ne_nil hw.nonempty words) (by rw [htokens]; exact hm)
  rw [h, htokens]

theorem classify_word (hm : Mnemonic.ofToken? t = none) (ht : Word t) (hs : IsSuffix s) :
    classify (t ++ s) = .literal t := by
  have hcode := code_append ht.solid.trimmed ht.solid.semicolon hs
  have h := classify_literal (t := t ++ s) (by rw [hcode]; exact ht.nonempty)
    (by rw [hcode, tokens_word ht.solid]; exact hm)
  rw [h, hcode]

end AccumulatorMachine.Line
