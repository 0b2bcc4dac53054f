import AccumulatorMachine.Proofs.ProgramFile

/-! Which programs are read back verbatim from the text that is written for them. A file cannot hold
a line feed within a line, a carriage return at its end or an empty last line; everything else it
keeps, and a first line that looks like a header too. -/
namespace AccumulatorMachine.ProgramFile

structure Verbatim (p : ProgramFile) : Prop where
  unbroken : p.Unbroken
  noReturn : ∀ line ∈ p.lines, line.getLast? ≠ some '\r'
  lastLine : p.lines.getLast? ≠ some []

instance (p : ProgramFile) : Decidable p.Verbatim :=
  decidable_of_iff
    (p.Unbroken ∧ (∀ line ∈ p.lines, line.getLast? ≠ some '\r') ∧ p.lines.getLast? ≠ some [])
    ⟨fun ⟨h₁, h₂, h₃⟩ => ⟨h₁, h₂, h₃⟩, fun ⟨h₁, h₂, h₃⟩ => ⟨h₁, h₂, h₃⟩⟩

variable {p : ProgramFile} {line : Text} {lines lines' : List Text}

theorem dropReturn_eq_self_iff : dropReturn line = line ↔ line.getLast? ≠ some '\r' := by
  unfold dropReturn
  split
  · next h =>
    obtain ⟨init, rfl⟩ := List.getLast?_eq_some_iff.mp h
    simp
  · next h => simp [h]

theorem map_dropReturn_eq_self_iff :
    lines.map dropReturn = lines ↔ ∀ line ∈ lines, line.getLast? ≠ some '\r' := by
  conv_lhs => rhs; rw [← List.map_id lines]
  rw [List.map_eq_map_iff]
  exact forall₂_congr fun line _ => dropReturn_eq_self_iff

theorem dropLastEmpty_eq_iff (hlength : lines.length = lines'.length) :
    dropLastEmpty lines = lines' ↔ lines = lines' ∧ lines'.getLast? ≠ some [] := by
  unfold dropLastEmpty
  split
  · next h =>
    obtain ⟨init, rfl⟩ := List.getLast?_eq_some_iff.mp h
    constructor
    · -- A list that has lost its last line is too short.
      intro hinit
      rw [← hinit] at hlength
      simp at hlength
    · rintro ⟨rfl, hlast⟩
      exact absurd h hlast
  · next h =>
    constructor
    · rintro rfl
      exact ⟨rfl, h⟩
    · exact And.left

theorem parse_render_eq_self_iff (p : ProgramFile) (default : Base) :
    parse default p.render = p ↔ p.Verbatim := by
  constructor
  · intro h
    -- Whatever is read from a text has no line feed in its lines.
    have hp : p.Unbroken := h ▸ unbroken_parse default p.render
    rw [parse_render hp] at h
    have hlines := congrArg ProgramFile.lines h
    obtain ⟨hreturn, hlast⟩ := (dropLastEmpty_eq_iff (List.length_map dropReturn)).mp hlines
    exact ⟨hp, map_dropReturn_eq_self_iff.mp hreturn, hlast⟩
  · rintro ⟨hp, hreturn, hlast⟩
    have hlines : dropLastEmpty (p.lines.map dropReturn) = p.lines :=
      (dropLastEmpty_eq_iff (List.length_map dropReturn)).mpr
        ⟨map_dropReturn_eq_self_iff.mpr hreturn, hlast⟩
    rw [parse_render hp, hlines]

/-- On its way through a disk a program may also be lost because it cannot be saved. -/
theorem survives_verbatim_iff (p : ProgramFile) (default : Base) :
    (parse default p.render = p ↔ p.Verbatim) ∧
    ∀ fs path, (do let saved ← p.save fs path; load saved.read path default) = .ok p ↔
      (∃ saved, p.save fs path = .ok saved) ∧ p.Verbatim := by
  have hiff := parse_render_eq_self_iff p default
  refine ⟨hiff, ?_⟩
  intro fs path
  rw [load_save, ← hiff]
  cases p.save fs path with
  | error e => simp [Except.map]
  | ok saved => simp [Except.map]

/-- No line and one empty line are not the same. -/
example : Verbatim ⟨.dec, []⟩ ∧ ¬ Verbatim ⟨.dec, [[]]⟩ ∧
    Verbatim ⟨.dec, [[], "#HEX".toList]⟩ := by decide

end AccumulatorMachine.ProgramFile
