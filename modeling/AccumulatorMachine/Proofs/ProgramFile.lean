import AccumulatorMachine.ProgramFile.Store
import AccumulatorMachine.Proofs.Assembly
import AccumulatorMachine.Proofs.FileSystem
import AccumulatorMachine.Proofs.Line

/-! A written program assembles to the same memory when it is read back. What can be lost on the way
is a carriage return at the end of a line and an empty last line, and no cell depends on them. -/
namespace AccumulatorMachine.ProgramFile

/-- No line has a line feed in it, so a file can keep the lines apart. -/
def Unbroken (p : ProgramFile) : Prop := ∀ line ∈ p.lines, '\n' ∉ line

instance (p : ProgramFile) : Decidable p.Unbroken :=
  inferInstanceAs (Decidable (∀ line ∈ p.lines, '\n' ∉ line))

def dropLastEmpty (lines : List Text) : List Text :=
  if lines.getLast? = some [] then lines.dropLast else lines

/-- Two programs in one base that leave the same bytes and tags in every cell. -/
structure SameImage (p q : ProgramFile) : Prop where
  base : q.base = p.base
  memory : (assemble q.base q.lines).memory = (assemble p.base p.lines).memory

variable {p : ProgramFile}

theorem ofHeader?_header (base : Base) : Base.ofHeader? base.header.toList = some base := by
  cases base <;> decide

theorem flatMap_eq_intercalate (first : Text) (lines : List Text) :
    first ++ lines.flatMap ('\n' :: ·) = ['\n'].intercalate (first :: lines) := by
  induction lines generalizing first with
  | nil => simp
  | cons next rest ih => simp [List.intercalate_cons_cons, ← ih]

theorem splitOn_render (hp : p.Unbroken) :
    p.render.splitOn '\n' = p.base.header.toList :: p.lines := by
  have hheader : '\n' ∉ p.base.header.toList := by cases p.base <;> decide
  rw [render, flatMap_eq_intercalate]
  refine List.splitOn_intercalate '\n' ?_ (List.cons_ne_nil _ _)
  intro line hline
  rcases List.mem_cons.mp hline with rfl | hline
  · exact hheader
  · exact hp line hline

theorem splitLines_render (hp : p.Unbroken) :
    splitLines p.render = p.base.header.toList :: dropLastEmpty (p.lines.map dropReturn) := by
  have hheader : dropReturn p.base.header.toList = p.base.header.toList := by
    cases p.base <;> decide
  unfold splitLines dropLastEmpty
  rw [splitOn_render hp, List.map_cons, hheader]
  cases p.lines.map dropReturn with
  | nil => rfl
  | cons line rest =>
    -- Behind the header stands a line, so the text has more than one.
    have hmany : (p.base.header.toList :: line :: rest).length > 1 := by simp
    simp only [hmany, true_and, List.getLast?_cons_cons, List.dropLast_cons_cons]
    split
    · rfl
    · rfl

/-- The written header hides the first line, which stays a line even if it looks like a header. -/
theorem parse_render (hp : p.Unbroken) (default : Base) :
    parse default p.render = ⟨p.base, dropLastEmpty (p.lines.map dropReturn)⟩ := by
  unfold parse
  rw [splitLines_render hp]
  simp only [ofHeader?_header]

theorem dropReturn_cases (line : Text) :
    dropReturn line = line ∨ line = dropReturn line ++ ['\r'] := by
  unfold dropReturn
  split
  · next h =>
    obtain ⟨init, rfl⟩ := List.getLast?_eq_some_iff.mp h
    rw [List.dropLast_concat]
    exact .inr rfl
  · exact .inl rfl

theorem classify_dropReturn (line : Text) :
    Line.classify (dropReturn line) = Line.classify line := by
  apply Line.classify_congr
  rcases dropReturn_cases line with h | h
  · rw [h]
  · conv_rhs => rw [h]
    exact (Line.code_append_blank (by decide) _).symm

theorem memory_dropReturn (base : Base) (lines : List Text) :
    (assemble base (lines.map dropReturn)).memory = (assemble base lines).memory := by
  have h : (lines.map dropReturn).map Line.classify = lines.map Line.classify := by
    rw [List.map_map]
    exact List.map_congr_left fun line _ => classify_dropReturn line
  exact congrArg Prod.fst (Assembly.placeAll_congr h base .empty 0)

theorem memory_dropLastEmpty (base : Base) (lines : List Text) :
    (assemble base (dropLastEmpty lines)).memory = (assemble base lines).memory := by
  unfold dropLastEmpty
  split
  · next h =>
    obtain ⟨init, rfl⟩ := List.getLast?_eq_some_iff.mp h
    rw [List.dropLast_concat]
    exact (Assembly.placeAll_append_blank rfl base .empty 0 init).symm
  · rfl

theorem sameImage_parse_render (hp : p.Unbroken) (default : Base) :
    SameImage p (parse default p.render) := by
  rw [parse_render hp]
  exact ⟨rfl, (memory_dropLastEmpty _ _).trans (memory_dropReturn _ _)⟩

theorem newline_splitOn (text : Text) : ∀ line ∈ text.splitOn '\n', '\n' ∉ line := by
  induction text with
  | nil => simp
  | cons c rest ih =>
    obtain ⟨first, later, hrest⟩ := List.exists_cons_of_ne_nil (List.splitOn_ne_nil '\n' rest)
    rw [hrest] at ih
    rw [List.splitOn_cons_eq_if_modifyHead, hrest]
    split
    · simpa using ih
    · next hc =>
      have hne : '\n' ≠ c := fun h => hc (beq_iff_eq.mpr h.symm)
      simpa [hne] using ih

theorem newline_splitLines (text : Text) : ∀ line ∈ splitLines text, '\n' ∉ line := by
  have hpieces : ∀ line ∈ (text.splitOn '\n').map dropReturn, '\n' ∉ line := by
    intro line hline
    obtain ⟨piece, hpiece, rfl⟩ := List.mem_map.mp hline
    have hnone := newline_splitOn text piece hpiece
    rcases dropReturn_cases piece with h | h
    · rwa [h]
    · rw [h] at hnone
      exact fun hmem => hnone (List.mem_append_left _ hmem)
  unfold splitLines
  dsimp only
  split
  · exact fun line hline => hpieces line (List.dropLast_subset _ hline)
  · exact hpieces

theorem unbroken_parse (default : Base) (text : Text) : (parse default text).Unbroken := by
  have hlines := newline_splitLines text
  unfold parse
  split
  · simp [Unbroken]
  · next first rest hsplit =>
    rw [hsplit] at hlines
    split
    · exact fun line hline => hlines line (List.mem_cons_of_mem first hline)
    · exact hlines

theorem fromUTF8?_toUTF8 (s : String) : String.fromUTF8? s.toUTF8 = some s := by
  unfold String.fromUTF8? String.toUTF8
  rw [dif_pos s.isValidUTF8]
  rfl

/-- Loading what has been saved fails only where saving does. -/
theorem load_save (p : ProgramFile) (fs : FileSystem) (path : String) (default : Base) :
    (do let saved ← p.save fs path; load saved.read path default) =
      (p.save fs path).map fun _ => parse default p.render := by
  cases h : p.save fs path with
  | error e => rfl
  | ok saved =>
    have htext : FileReader.readText saved.read path = .ok (String.ofList p.render) := by
      unfold FileReader.readText
      rw [FileSystem.read_write h]
      dsimp only [bind, Except.bind]
      rw [fromUTF8?_toUTF8]
    dsimp only [bind, Except.bind, Except.map]
    unfold load
    rw [htext]
    dsimp only [bind, Except.bind]
    rw [String.toList_ofList]

theorem reload_keeps_image :
    (∀ p : ProgramFile, p.Unbroken → ∀ default : Base,
      SameImage p (parse default p.render) ∧
      ∀ fs path, (do let saved ← p.save fs path; load saved.read path default) =
        (p.save fs path).map fun _ => parse default p.render) ∧
    ∀ (default : Base) (text : Text), (parse default text).Unbroken := by
  refine ⟨?_, unbroken_parse⟩
  intro p hp default
  exact ⟨sameImage_parse_render hp default, fun fs path => load_save p fs path default⟩

/-- Both carriage returns and the last line are lost; the line that looks like a header is not. -/
theorem reload_keeps_image_of_lossy_file :
    let p : ProgramFile := ⟨.hex, ["#DEC".toList, "STA 1F;x\r".toList, "\r".toList]⟩
    let q : ProgramFile := ⟨.hex, ["#DEC".toList, "STA 1F;x".toList]⟩
    p.Unbroken ∧ SameImage p q ∧
      ∀ fs path, (do let saved ← p.save fs path; load saved.read path .dec) =
        (p.save fs path).map fun _ => q := by
  intro p q
  have hp : p.Unbroken := by decide
  have hq : parse .dec p.render = q := by decide
  rw [← hq]
  exact ⟨hp, reload_keeps_image.1 p hp .dec⟩

end AccumulatorMachine.ProgramFile
