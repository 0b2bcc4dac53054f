import AccumulatorMachine.Proofs.Cli.Inputs
import AccumulatorMachine.Proofs.Conversion
import AccumulatorMachine.Proofs.ProgramFile.Verbatim

/-! What the conversion of a program prints is a program file, and it holds the converted lines.
The line ending behind the last line is the one that reading drops, so that empty last lines are
not lost here; and no line gains an ending of its own by being converted. -/
namespace AccumulatorMachine

namespace Conversion

open Line (Word)

structure Whole (line : Text) : Prop where
  newline : '\n' ∉ line
  noReturn : line.getLast? ≠ some '\r'

variable {line word : Text} {words : List Text}

theorem newline_join (hw : Word word) (hws : ∀ w ∈ words, Word w) :
    '\n' ∉ Line.join (word :: words) := by
  intro hmem
  rcases Text.mem_of_mem_intercalate hmem with hblank | ⟨w, hword, hnewline⟩
  · exact absurd hblank (by decide)
  · rcases List.mem_cons.mp hword with rfl | hlater
    · exact hw.newline hnewline
    · exact (hws w hlater).newline hnewline

/-- The comment of a line and the semicolon before it are the end of the line. -/
theorem suffix_cases (line : Text) :
    suffix line = [] ∨ ∃ before comment, line = before ++ ';' :: comment ∧
      suffix line = ' ' :: ';' :: comment := by
  have hsplit : line.takeWhile (· != ';') ++ line.dropWhile (· != ';') = line :=
    List.takeWhile_append_dropWhile
  unfold suffix Line.comment
  cases hrest : line.dropWhile (· != ';') with
  | nil => exact .inl rfl
  | cons c comment =>
    have hc : c = ';' := by
      have h := List.head?_dropWhile_not (· != ';') line
      rw [hrest] at h
      simpa using h
    rw [hrest, hc] at hsplit
    exact .inr ⟨_, comment, hsplit.symm, rfl⟩

theorem whole_convertLine (h : Whole line) (old new : Base) :
    Whole (convertLine old new line) := by
  rcases convertLine_cases old new line with heq | ⟨word, words, ⟨hw, hws⟩, heq⟩
  · rwa [heq]
  · rw [heq]
    have hnewline := newline_join hw hws
    rcases suffix_cases line with hsuffix | ⟨before, comment, hline, hsuffix⟩
    · -- Without a comment the line ends in a word, and no word ends in a blank.
      rw [hsuffix, List.append_nil]
      refine ⟨hnewline, ?_⟩
      intro hlast
      exact absurd ((Line.trimmed_join hw hws).1.last '\r' hlast) (by decide)
    · -- With a comment it ends as it did before.
      obtain ⟨hnone, hreturn⟩ := h
      rw [hline] at hnone hreturn
      rw [hsuffix]
      constructor
      · simp only [List.mem_append, List.mem_cons, not_or] at hnone ⊢
        exact ⟨hnewline, by decide, hnone.2⟩
      · have hend (t : Text) : (t ++ ';' :: comment).getLast? = (';' :: comment).getLast? :=
          List.getLast?_append_of_ne_nil t (by simp)
        rw [List.append_cons, hend]
        rwa [hend] at hreturn

theorem whole_convert {lines : List Text} (h : ∀ line ∈ lines, Whole line) (old new : Base) :
    ∀ line ∈ convert old new lines, Whole line := by
  intro line hline
  obtain ⟨source, hsource, rfl⟩ := List.mem_map.mp hline
  exact whole_convertLine (h source hsource) old new

end Conversion

namespace ProgramFile

open Conversion (Whole)

variable {p : ProgramFile}

/-- The line feed behind a written program reads as one more line, which is empty. -/
theorem render_newline (p : ProgramFile) :
    p.render ++ ['\n'] = render ⟨p.base, p.lines ++ [[]]⟩ := by
  unfold render
  rw [List.flatMap_append, List.append_assoc]
  rfl

theorem parse_render_newline (hp : p.Unbroken) (default : Base) :
    parse default (p.render ++ ['\n']) = ⟨p.base, p.lines.map dropReturn⟩ := by
  have hmore : Unbroken ⟨p.base, p.lines ++ [[]]⟩ := by
    intro line hline
    rcases List.mem_append.mp hline with hline | hline
    · exact hp line hline
    · rw [List.mem_singleton.mp hline]
      exact List.not_mem_nil
  have hdrop : dropReturn [] = [] := rfl
  rw [render_newline, parse_render hmore, List.map_append, List.map_singleton, hdrop]
  unfold dropLastEmpty
  rw [if_pos List.getLast?_concat, List.dropLast_concat]

/-- The header that is written is the one that is read, so the base that holds without a header does
not matter. -/
theorem parse_convertProgram (hp : ∀ line ∈ p.lines, Whole line) (target other : Base) :
    parse other (Cli.convertProgram p target).toList =
      ⟨target, Conversion.convert p.base target p.lines⟩ := by
  have hwhole := Conversion.whole_convert hp p.base target
  have hprinted : (Cli.convertProgram p target).toList =
      render ⟨target, Conversion.convert p.base target p.lines⟩ ++ ['\n'] := by
    rw [Cli.convertProgram, String.toList_append, String.toList_ofList]
    rfl
  rw [hprinted, parse_render_newline fun line hline => (hwhole line hline).newline]
  congr 1
  exact map_dropReturn_eq_self_iff.mpr fun line hline => (hwhole line hline).noReturn

theorem printed_conversion_loads {text : Text} {default : Base}
    (h : ∀ line ∈ (parse default text).lines, line.getLast? ≠ some '\r') (target other : Base) :
    let source := parse default text
    let converted : ProgramFile :=
      ⟨target, Conversion.convert source.base target source.lines⟩
    parse other (Cli.convertProgram source target).toList = converted ∧
    ∀ (c : Cli.Common) (o : Cli.Surroundings) (i : Cli.Inputs),
      c.inputs o.read = .ok i → i.program = source →
        parse other ((Cli.Command.convert c target).perform o).output.toList = converted := by
  intro source converted
  have hprinted : parse other (Cli.convertProgram source target).toList = converted := by
    refine parse_convertProgram ?_ target other
    intro line hline
    exact ⟨unbroken_parse default text line hline, h line hline⟩
  refine ⟨hprinted, ?_⟩
  intro c o i hinputs hprogram
  have houtput : ((Cli.Command.convert c target).perform o).output =
      Cli.convertProgram i.program target := by
    unfold Cli.Command.perform
    rw [show (Cli.Command.convert c target).common = c from rfl, hinputs]
    rfl
  rw [houtput, hprogram, hprinted]

/-- The first line looks like a header and the last two are empty. -/
theorem printed_conversion_loads_of_headed_file :
    let text := "#HEX\n#DEC\nLDA 1F;x\n\n\n".toList
    let c : Cli.Common := ⟨"p", none, none, false⟩
    let o : Cli.Surroundings := ⟨fun _ => .ok (String.ofList text).toUTF8, none⟩
    (∀ line ∈ (parse .dec text).lines, line.getLast? ≠ some '\r') ∧
    (∃ i, c.inputs o.read = .ok i ∧ i.program = parse .dec text) ∧
    parse .hex ((Cli.Command.convert c .dec).perform o).output.toList =
      ⟨.dec, ["#DEC".toList, "LDA 31 ;x".toList, [], []]⟩ := by
  intro text c o
  have hreturn : ∀ line ∈ (parse .dec text).lines, line.getLast? ≠ some '\r' := by decide
  have hread : o.read.readText c.file = .ok (String.ofList text) :=
    FileReader.readText_of_bytes rfl
  have hinputs : c.inputs o.read = .ok ⟨{}, parse .dec text⟩ := by
    refine Cli.inputs_eq_ok_iff.mpr ⟨{}, _, rfl, hread, ?_⟩
    rw [String.toList_ofList]
    rfl
  refine ⟨hreturn, ⟨_, hinputs, rfl⟩, ?_⟩
  rw [(printed_conversion_loads hreturn .dec .hex).2 c o _ hinputs rfl]
  decide +kernel

end ProgramFile

end AccumulatorMachine
