import AccumulatorMachine.Cli.Command
import AccumulatorMachine.Proofs.ProgramFile

/-! What a command works on. A program file decodes to one text, its default base is that of the
options or else of the settings, and the machine that is prepared for it is ready to run. -/
namespace AccumulatorMachine

theorem FileReader.readText_of_bytes {read : FileReader} {path : String} {text : String}
    (h : read path = .ok text.toUTF8) : read.readText path = .ok text := by
  unfold readText
  rw [h]
  dsimp only [bind, Except.bind]
  rw [ProgramFile.fromUTF8?_toUTF8]

namespace Cli

def Common.Loads (c : Common) (read : FileReader) (loaded : Settings) : Prop :=
  match c.config with
  | some path => Settings.load read path = .ok loaded
  | none => loaded = {}

def Common.override (c : Common) (loaded : Settings) : Settings :=
  { loaded with
    base := c.base.getD loaded.base
    traceInstructions := c.trace || loaded.traceInstructions }

variable {c : Common} {read : FileReader} {i : Inputs}

theorem load_eq_ok_iff {path : String} {default : Base} {p : ProgramFile} :
    ProgramFile.load read path default = .ok p ↔
      ∃ text, read.readText path = .ok text ∧ p = .parse default text.toList := by
  unfold ProgramFile.load
  cases h : read.readText path with
  | error e => simp [bind, Except.bind]
  | ok text => simp [bind, Except.bind, eq_comm]

/-- The program is read when the settings are known. -/
theorem inputs_of_loads {loaded : Settings} (h : c.Loads read loaded) :
    c.inputs read = ((ProgramFile.load read c.file (c.override loaded).base).mapError
      (ProgramFile.accessMessage c.file)).map fun p => ⟨c.override loaded, p⟩ := by
  unfold Common.Loads at h
  unfold Common.inputs
  cases hconfig : c.config with
  | none =>
    rw [hconfig] at h
    subst h
    rfl
  | some path =>
    rw [hconfig] at h
    dsimp only at h ⊢
    rw [h]
    rfl

theorem loads_of_inputs (h : c.inputs read = .ok i) : ∃ loaded, c.Loads read loaded := by
  unfold Common.Loads
  cases hconfig : c.config with
  | none => exact ⟨{}, rfl⟩
  | some path =>
    cases hload : Settings.load read path with
    | ok loaded => exact ⟨loaded, hload⟩
    | error e =>
      unfold Common.inputs at h
      rw [hconfig] at h
      dsimp only at h
      rw [hload] at h
      contradiction

theorem inputs_eq_ok_iff : c.inputs read = .ok i ↔
    ∃ loaded text, c.Loads read loaded ∧ read.readText c.file = .ok text ∧
      i = ⟨c.override loaded, .parse (c.override loaded).base text.toList⟩ := by
  constructor
  · intro h
    obtain ⟨loaded, hloaded⟩ := loads_of_inputs h
    rw [inputs_of_loads hloaded] at h
    cases hp : ProgramFile.load read c.file (c.override loaded).base with
    | error e =>
      rw [hp] at h
      contradiction
    | ok p =>
      obtain ⟨text, htext, rfl⟩ := load_eq_ok_iff.mp hp
      rw [hp] at h
      exact ⟨loaded, text, hloaded, htext, (Except.ok.inj h).symm⟩
  · rintro ⟨loaded, text, hloaded, htext, rfl⟩
    rw [inputs_of_loads hloaded, load_eq_ok_iff.mpr ⟨text, htext, rfl⟩]
    rfl

theorem running_prepare (i : Inputs) : i.prepare.2.machine.state = .running := rfl

theorem base_prepare (i : Inputs) : i.prepare.2.base = i.program.base := rfl

end Cli

end AccumulatorMachine
