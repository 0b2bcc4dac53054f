import AccumulatorMachine.Proofs.ProgramFile.Verbatim

/-! How the lines of a text end does not matter. A text that has line feeds alone reads as the same
text with carriage returns in front of them, and the ending of the last line may be there or not.
The empty text is one empty line with and without it. A carriage return of the text's own would be
taken for part of an ending, and then the last ending can matter. -/
namespace AccumulatorMachine.ProgramFile

def withReturns (text : Text) : Text := text.flatMap fun c => if c = '\n' then ['\r', '\n'] else [c]

variable {text line : Text} {c : Char}

theorem withReturns_newline (text : Text) :
    withReturns ('\n' :: text) = '\r' :: '\n' :: withReturns text := rfl

theorem withReturns_letter (hc : c ≠ '\n') (text : Text) :
    withReturns (c :: text) = c :: withReturns text := by
  simp [withReturns, hc]

theorem splitOn_newline (text : Text) :
    ('\n' :: text).splitOn '\n' = [] :: text.splitOn '\n' := by
  simp [List.splitOn_cons_eq_if_modifyHead]

theorem splitOn_letter (hc : c ≠ '\n') (text : Text) :
    (c :: text).splitOn '\n' = (text.splitOn '\n').modifyHead (c :: ·) := by
  simp [List.splitOn_cons_eq_if_modifyHead, hc]

theorem dropReturn_cons (hc : c ≠ '\r') (line : Text) :
    dropReturn (c :: line) = c :: dropReturn line := by
  cases line with
  | nil => simp [dropReturn, hc]
  | cons d line =>
    unfold dropReturn
    rw [List.getLast?_cons_cons]
    split <;> rfl

/-- What is put in front of a line feed is what a line loses. -/
theorem splitOn_withReturns (h : '\r' ∉ text) :
    ((withReturns text).splitOn '\n').map dropReturn = text.splitOn '\n' := by
  induction text with
  | nil => rfl
  | cons c text ih =>
    simp only [List.mem_cons, not_or] at h
    have hrest := ih h.2
    by_cases hc : c = '\n'
    · subst hc
      have hreturn : dropReturn ['\r'] = [] := rfl
      rw [withReturns_newline, splitOn_letter (by decide), splitOn_newline, splitOn_newline,
        List.modifyHead_cons, List.map_cons, hreturn, hrest]
    · obtain ⟨first, later, hsplit⟩ :=
        List.exists_cons_of_ne_nil (List.splitOn_ne_nil '\n' (withReturns text))
      rw [hsplit] at hrest
      rw [withReturns_letter hc, splitOn_letter hc, splitOn_letter hc, hsplit, ← hrest,
        List.modifyHead_cons, List.map_cons, List.map_cons, List.modifyHead_cons,
        dropReturn_cons (Ne.symm h.1)]

theorem mem_of_mem_splitOn (hline : line ∈ text.splitOn '\n') (hc : c ∈ line) : c ∈ text := by
  induction text generalizing line with
  | nil => simp_all
  | cons d text ih =>
    by_cases hd : d = '\n'
    · subst hd
      rw [splitOn_newline] at hline
      rcases List.mem_cons.mp hline with rfl | hline
      · exact absurd hc List.not_mem_nil
      · exact List.mem_cons_of_mem _ (ih hline hc)
    · obtain ⟨first, later, hsplit⟩ :=
        List.exists_cons_of_ne_nil (List.splitOn_ne_nil '\n' text)
      rw [splitOn_letter hd, hsplit, List.modifyHead_cons] at hline
      rw [hsplit] at ih
      rcases List.mem_cons.mp hline with rfl | hline
      · rcases List.mem_cons.mp hc with rfl | hc
        · exact List.mem_cons_self
        · exact List.mem_cons_of_mem _ (ih List.mem_cons_self hc)
      · exact List.mem_cons_of_mem _ (ih (List.mem_cons_of_mem _ hline) hc)

theorem map_dropReturn_splitOn (h : '\r' ∉ text) :
    (text.splitOn '\n').map dropReturn = text.splitOn '\n' := by
  rw [map_dropReturn_eq_self_iff]
  intro line hline hlast
  exact h (mem_of_mem_splitOn hline (List.mem_of_mem_getLast? hlast))

theorem splitLines_withReturns (h : '\r' ∉ text) :
    splitLines (withReturns text) = splitLines text := by
  unfold splitLines
  rw [splitOn_withReturns h, map_dropReturn_splitOn h]

theorem splitOn_ended (text : Text) :
    (text ++ ['\n']).splitOn '\n' = text.splitOn '\n' ++ [[]] := by
  induction text with
  | nil => rfl
  | cons c text ih =>
    by_cases hc : c = '\n'
    · subst hc
      rw [List.cons_append, splitOn_newline, splitOn_newline, ih, List.cons_append]
    · obtain ⟨first, later, hsplit⟩ :=
        List.exists_cons_of_ne_nil (List.splitOn_ne_nil '\n' text)
      rw [List.cons_append, splitOn_letter hc, splitOn_letter hc, ih, hsplit]
      rfl

/-- The ending behind the last line is all that is dropped. -/
theorem splitLines_ended (text : Text) :
    splitLines (text ++ ['\n']) = (text.splitOn '\n').map dropReturn := by
  have hmany : (text.splitOn '\n').length ≠ 0 := by simp
  have hempty : dropReturn [] = [] := rfl
  unfold splitLines
  rw [splitOn_ended, List.map_append, List.map_singleton, hempty]
  dsimp only
  rw [if_pos, List.dropLast_concat]
  refine ⟨?_, List.getLast?_concat⟩
  simp only [List.length_append, List.length_map, List.length_singleton]
  omega

/-- Only a text that ends in a line feed has an empty last line behind another one. -/
theorem getLast?_splitOn (hlast : (text.splitOn '\n').getLast? = some []) :
    text = [] ∨ text.getLast? = some '\n' := by
  induction text with
  | nil => exact .inl rfl
  | cons c text ih =>
    refine .inr ?_
    obtain ⟨first, later, hsplit⟩ := List.exists_cons_of_ne_nil (List.splitOn_ne_nil '\n' text)
    have hrest (h : (text.splitOn '\n').getLast? = some []) (hne : text ≠ []) :
        (c :: text).getLast? = some '\n' := by
      rw [List.getLast?_cons_of_ne_nil hne]
      exact (ih h).resolve_left hne
    by_cases hc : c = '\n'
    · subst hc
      rw [splitOn_newline, hsplit, List.getLast?_cons_cons, ← hsplit] at hlast
      by_cases hne : text = []
      · rw [hne]
        rfl
      · exact hrest hlast hne
    · rw [splitOn_letter hc, hsplit, List.modifyHead_cons] at hlast
      cases later with
      | nil => simp at hlast
      | cons next later =>
        rw [List.getLast?_cons_cons] at hlast
        refine hrest (by rw [hsplit, List.getLast?_cons_cons, hlast]) ?_
        rintro rfl
        simp at hsplit

theorem splitLines_open (hreturn : '\r' ∉ text) (hopen : text.getLast? ≠ some '\n') :
    splitLines text = text.splitOn '\n' := by
  unfold splitLines
  rw [map_dropReturn_splitOn hreturn]
  dsimp only
  rw [if_neg]
  rintro ⟨hmany, hlast⟩
  rcases getLast?_splitOn hlast with rfl | hend
  · simp at hmany
  · exact hopen hend

/-- Base, header and lines are those of the text as it stood. -/
theorem line_endings_do_not_matter (h : '\r' ∉ text) (default : Base) :
    parse default (withReturns text) = parse default text ∧
    (text.getLast? ≠ some '\n' → parse default (text ++ ['\n']) = parse default text) := by
  constructor
  · unfold parse
    rw [splitLines_withReturns h]
  · intro hopen
    unfold parse
    rw [splitLines_ended, map_dropReturn_splitOn h, splitLines_open h hopen]

/-- The header is found either way, and the empty line behind it is kept. -/
theorem line_endings_do_not_matter_of_headed_text :
    let text := " #hex \n\nLDA 1F".toList
    '\r' ∉ text ∧ text.getLast? ≠ some '\n' ∧
      parse .dec (withReturns text) = ⟨.hex, [[], "LDA 1F".toList]⟩ ∧
      parse .dec (text ++ ['\n']) = ⟨.hex, [[], "LDA 1F".toList]⟩ := by
  intro text
  have hreturn : '\r' ∉ text := by decide
  have hopen : text.getLast? ≠ some '\n' := by decide
  have hread : parse .dec text = ⟨.hex, [[], "LDA 1F".toList]⟩ := by decide
  obtain ⟨hreturns, hended⟩ := line_endings_do_not_matter hreturn .dec
  exact ⟨hreturn, hopen, hreturns.trans hread, (hended hopen).trans hread⟩

/-- With a carriage return in the last line the ending behind it does matter. -/
example : parse .dec "a\n\r".toList = ⟨.dec, [['a']]⟩ ∧
    parse .dec "a\n\r\n".toList = ⟨.dec, [['a'], []]⟩ := by decide

end AccumulatorMachine.ProgramFile
