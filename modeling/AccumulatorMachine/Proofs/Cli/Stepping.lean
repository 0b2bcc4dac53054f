import AccumulatorMachine.Proofs.Cli.Inputs
import AccumulatorMachine.Proofs.Cli.Output
import AccumulatorMachine.Proofs.Machine.Guard

/-! Stepping a program shows a guarded run of it. The loop that prints and the loop that runs count
differently: a step that ends in a fault is printed with a number, but a run does not count it. They
stop after the same steps and in the same state, wherever the program halts or faults. -/
namespace AccumulatorMachine.Cli

open Machine (step)

/-- How many steps of a run are shown with a number. The one that ends in a fault is among them,
though it executes nothing. -/
def numbered (r : RunReport) : ℕ :=
  match r.outcome with
  | .faulted _ => r.steps + 1
  | .halted | .loopGuardTripped => r.steps

def front (base : Base) (m : Machine) : ℕ → String
  | 0 => "       "
  | k + 1 => Decimal.padLeft 4 (toString (k + 1)) ++ "  " ++
      Decimal.padRight 12 (nextText base (step^[k] m)) ++ " "

def dumpLine (base : Base) (m : Machine) (k : ℕ) : String :=
  front base m k ++ (step^[k] m).regs.dump base

def dumps (base : Base) (m : Machine) (r : RunReport) : List String :=
  (List.range (numbered r + 1)).map (dumpLine base m)

def haltLine : String := "[*] Program halted"

def faultLine (f : Fault) : String := s!"[!] {f.message}"

def closing : RunOutcome → List String
  | .halted => [haltLine]
  | .faulted f => [faultLine f]
  | .loopGuardTripped => []

def transcript (base : Base) (m : Machine) (r : RunReport) : List String :=
  dumps base m r ++ closing r.outcome

def stepExit : RunOutcome → ℕ
  | .faulted _ => 1
  | .halted | .loopGuardTripped => 0

section Text

variable {base : Base} {m : Machine} {r : RunReport} {s : String}

theorem oneLine_dumpLine (base : Base) (m : Machine) (k : ℕ) : OneLine (dumpLine base m k) := by
  rw [dumpLine, oneLine_append]
  refine ⟨?_, oneLine_dump base _⟩
  cases k with
  | zero => exact show OneLine "       " by decide
  | succ k =>
    have hnumber : OneLine (Decimal.padLeft 4 (toString (k + 1))) :=
      oneLine_append.mpr ⟨oneLine_pushn (by decide) _, oneLine_toString _⟩
    have htext : OneLine (Decimal.padRight 12 (nextText base (step^[k] m))) :=
      oneLine_pushn (oneLine_nextText base _) _
    simp only [front, oneLine_append, hnumber, htext, true_and]
    decide

theorem oneLine_transcript (base : Base) (m : Machine) (r : RunReport) :
    ∀ line ∈ transcript base m r, OneLine line := by
  intro line hline
  rcases List.mem_append.mp hline with hdump | hclosing
  · obtain ⟨k, -, rfl⟩ := List.mem_map.mp hdump
    exact oneLine_dumpLine base m k
  · cases houtcome : r.outcome with
    | loopGuardTripped => simp [houtcome, closing] at hclosing
    | halted =>
      rw [houtcome, closing, List.mem_singleton] at hclosing
      rw [hclosing]
      decide
    | faulted f =>
      rw [houtcome, closing, List.mem_singleton] at hclosing
      rw [hclosing]
      exact oneLine_append.mpr ⟨by decide, oneLine_message f⟩

theorem bracket_padLeft (width n : ℕ) :
    '[' ∉ (Decimal.padLeft width (toString n)).toList := by
  intro h
  rw [Decimal.padLeft, String.toList_append, toList_pushn, List.mem_append, List.mem_append,
    List.mem_replicate] at h
  rcases h with (h | ⟨-, h⟩) | h
  · exact absurd h (by decide)
  · contradiction
  · exact absurd (isDigit_of_mem_toString h) (by decide)

theorem padLeft_ne_nil (width n : ℕ) : (Decimal.padLeft width (toString n)).toList ≠ [] := by
  intro h
  rw [Decimal.padLeft, String.toList_append, List.append_eq_nil_iff,
    Nat.toString_eq_ofList_toDigits, String.toList_ofList] at h
  exact Nat.toDigits_ne_nil h.2

/-- A line with registers begins with a blank or a digit, unlike the one that says how it ended. -/
theorem head_dumpLine (base : Base) (m : Machine) (k : ℕ) :
    (dumpLine base m k).toList.head? ≠ some '[' := by
  rw [dumpLine, String.toList_append]
  cases k with
  | zero =>
    rw [front, List.head?_append_of_ne_nil _ (by decide)]
    decide
  | succ k =>
    simp only [front, String.toList_append, List.append_assoc]
    rw [List.head?_append_of_ne_nil _ (padLeft_ne_nil 4 _)]
    intro h
    exact bracket_padLeft 4 _ (List.mem_of_mem_head? h)

theorem toList_faultLine (f : Fault) :
    (faultLine f).toList = '[' :: '!' :: "] ".toList ++ f.message.toList := by
  have htext : faultLine f = "[!] " ++ f.message := rfl
  rw [htext, String.toList_append]
  rfl

theorem faultLine_injective : Function.Injective faultLine := by
  intro f g h
  have htext := congrArg String.toList h
  rw [toList_faultLine, toList_faultLine] at htext
  exact Fault.message_injective (String.toList_injective (List.append_cancel_left htext))

theorem haltLine_ne_faultLine (f : Fault) : haltLine ≠ faultLine f := by
  intro h
  have hsecond : haltLine.toList.tail.head? = some '!' := by
    rw [h, toList_faultLine]
    rfl
  exact absurd hsecond (by decide)

theorem not_mem_dumps (h : s.toList.head? = some '[') : s ∉ dumps base m r := by
  intro hmem
  obtain ⟨k, -, rfl⟩ := List.mem_map.mp hmem
  exact head_dumpLine base m k h

theorem haltLine_mem_iff (base : Base) (m : Machine) (r : RunReport) :
    haltLine ∈ transcript base m r ↔ r.outcome = .halted := by
  have hdumps : haltLine ∉ dumps base m r := not_mem_dumps (by decide)
  rw [transcript, List.mem_append, or_iff_right hdumps]
  cases r.outcome with
  | halted => simp [closing]
  | faulted f => simp [closing, haltLine_ne_faultLine]
  | loopGuardTripped => simp [closing]

theorem faultLine_mem_iff (base : Base) (m : Machine) (r : RunReport) (f : Fault) :
    faultLine f ∈ transcript base m r ↔ r.outcome = .faulted f := by
  have hhead : (faultLine f).toList.head? = some '[' := by
    rw [toList_faultLine]
    rfl
  have hdumps : faultLine f ∉ dumps base m r := not_mem_dumps hhead
  rw [transcript, List.mem_append, or_iff_right hdumps]
  cases r.outcome with
  | halted => simp [closing, (haltLine_ne_faultLine f).symm]
  | faulted g => simp [closing, faultLine_injective.eq_iff, eq_comm]
  | loopGuardTripped => simp [closing]

end Text

section Run

variable {base : Base} {m : Machine} {guard : ℕ}

theorem numbered_running (hs : m.state = .running) (hnext : m.step.state = .running) :
    numbered (m.run (guard + 1)).1 = numbered (m.step.run guard).1 + 1 := by
  rw [Machine.run_succ hs, hnext]
  unfold numbered ExecState.executed
  dsimp only
  split <;> omega

theorem numbered_stopped (hs : m.state = .running) (hnext : m.step.state ≠ .running) :
    numbered (m.run (guard + 1)).1 = 1 := by
  rw [Machine.run_succ hs, Machine.run_stopped hnext]
  cases hstate : m.step.state with
  | running => exact absurd hstate hnext
  | halted => rfl
  | faulted f => rfl

/-- The last numbered step is the last of the run. -/
theorem iterate_numbered (hs : m.state = .running) :
    step^[numbered (m.run guard).1] m = (m.run guard).2 := by
  induction guard generalizing m with
  | zero =>
    have hzero : numbered (m.run 0).1 = 0 := by
      rw [Machine.run, Machine.runFrom_zero, hs]
      rfl
    rw [hzero, Machine.run_last]
  | succ guard ih =>
    by_cases hnext : m.step.state = .running
    · rw [numbered_running hs hnext, Function.iterate_succ_apply, ih hnext, Machine.run_succ hs]
    · rw [numbered_stopped hs hnext, Machine.run_succ hs, Machine.run_stopped hnext]
      rfl

def numberedLine (base : Base) (m : Machine) (n k : ℕ) : String :=
  stepLine (n + k) (nextText base (step^[k] m)) base (step^[k + 1] m)

theorem numberedLine_succ (base : Base) (m : Machine) (n k : ℕ) :
    numberedLine base m n (k + 1) = numberedLine base m.step (n + 1) k := by
  have hnumber : n + (k + 1) = n + 1 + k := by omega
  unfold numberedLine
  rw [hnumber, Function.iterate_succ_apply, Function.iterate_succ_apply step (k + 1)]

theorem numberedLines_succ (base : Base) (m : Machine) (n count : ℕ) :
    (List.range (count + 1)).map (numberedLine base m n) =
      numberedLine base m n 0 :: (List.range count).map (numberedLine base m.step (n + 1)) := by
  rw [List.range_succ_eq_map, List.map_cons, List.map_map]
  refine congrArg (numberedLine base m n 0 :: ·) ?_
  exact List.map_congr_left fun k _ => numberedLine_succ base m n k

theorem stepLines_running (hnext : m.step.state = .running) (n left : ℕ) :
    stepLines base m n (left + 1) =
      (numberedLine base m n 0 :: (stepLines base m.step (n + 1) left).1,
        (stepLines base m.step (n + 1) left).2) := by
  rw [stepLines]
  simp only [hnext]
  rfl

theorem stepLines_stopped (hnext : m.step.state ≠ .running) (n left : ℕ) :
    stepLines base m n (left + 1) =
      (numberedLine base m n 0 :: closing m.step.state.outcome,
        stepExit m.step.state.outcome) := by
  rw [stepLines]
  cases hstate : m.step.state with
  | running => exact absurd hstate hnext
  | halted => rfl
  | faulted f => rfl

/-- Both loops take the same step and stop for the same reason. -/
theorem stepLines_eq (hs : m.state = .running) (n left : ℕ) :
    stepLines base m n left =
      ((List.range (numbered (m.run left).1)).map (numberedLine base m n) ++
        closing (m.run left).1.outcome, stepExit (m.run left).1.outcome) := by
  induction left generalizing m n with
  | zero =>
    rw [Machine.run, Machine.runFrom_zero, hs]
    rfl
  | succ left ih =>
    by_cases hnext : m.step.state = .running
    · rw [stepLines_running hnext, ih hnext, numbered_running hs hnext, numberedLines_succ,
        Machine.run_succ hs]
      rfl
    · rw [stepLines_stopped hnext, numbered_stopped hs hnext, Machine.run_succ hs,
        Machine.run_stopped hnext]
      rfl

theorem stepLines_first (hs : m.state = .running) (count : ℕ) :
    ("       " ++ m.regs.dump base) :: (stepLines base m 1 count).1 =
      transcript base m (m.run count).1 := by
  have hline (k : ℕ) : numberedLine base m 1 k = dumpLine base m (k + 1) := by
    unfold numberedLine
    rw [Nat.add_comm]
    rfl
  rw [stepLines_eq hs, transcript, dumps, List.range_succ_eq_map, List.map_cons, List.map_map,
    List.cons_append]
  refine congrArg (_ :: · ++ _) ?_
  exact List.map_congr_left fun k _ => hline k

end Run

structure AgreesWithRun (base : Base) (m : Machine) (count : ℕ) (o : Outcome) : Prop where
  output : o.output = unlines (transcript base m (m.run count).1)
  lines : printed o.output = (transcript base m (m.run count).1).map String.toList
  last : (dumps base m (m.run count).1).getLast? =
    some (front base m (numbered (m.run count).1) ++ (m.run count).2.regs.dump base)
  halted : haltLine.toList ∈ printed o.output ↔ (m.run count).1.outcome = .halted
  faulted : ∀ f, (faultLine f).toList ∈ printed o.output ↔ (m.run count).1.outcome = .faulted f
  failure : o.exit = 1 ↔ ∃ f, (m.run count).1.outcome = .faulted f
  success : o.exit = 0 ↔ ∀ f, (m.run count).1.outcome ≠ .faulted f

theorem agreesWithRun {base : Base} {m : Machine} {count : ℕ} {o : Outcome}
    (hs : m.state = .running) (houtput : o.output = unlines (transcript base m (m.run count).1))
    (hexit : o.exit = stepExit (m.run count).1.outcome) : AgreesWithRun base m count o := by
  have hlines : printed o.output = (transcript base m (m.run count).1).map String.toList := by
    rw [houtput, printed_unlines (oneLine_transcript base m _)]
  have hmem (s : String) :
      s.toList ∈ printed o.output ↔ s ∈ transcript base m (m.run count).1 := by
    rw [hlines]
    exact List.mem_map_of_injective fun _ _ h => String.toList_injective h
  constructor
  · exact houtput
  · exact hlines
  · rw [dumps, List.range_succ, List.map_append, List.map_singleton, List.getLast?_concat,
      dumpLine, iterate_numbered hs]
  · rw [hmem, haltLine_mem_iff]
  · intro f
    rw [hmem, faultLine_mem_iff]
  · rw [hexit]
    cases (m.run count).1.outcome <;> simp [stepExit]
  · rw [hexit]
    cases (m.run count).1.outcome <;> simp [stepExit]

theorem step_agrees_with_run {c : Common} {o : Surroundings} {i : Inputs}
    (h : c.inputs o.read = .ok i) (count : ℕ) :
    AgreesWithRun i.program.base i.prepare.2.machine count
      ((Command.step c count).perform o) := by
  have hs := running_prepare i
  have hperform : (Command.step c count).perform o =
      { stepProgram i.prepare.2 count with
        notices := (Command.step c count).notices i
          (Log.Filter.choose c.trace o.logSetting).shows } := by
    unfold Command.perform
    rw [show (Command.step c count).common = c from rfl, h]
    rfl
  rw [hperform]
  apply agreesWithRun hs
  · rw [← stepLines_first hs, ← base_prepare]
    rfl
  · exact congrArg Prod.snd (stepLines_eq hs 1 count)

/-- The fault comes with the last step that is asked for. It is the second that is numbered, but a
run counts only the first. -/
theorem step_agrees_with_run_of_last_fault :
    let c : Common := ⟨"p", none, none, false⟩
    let o : Surroundings := ⟨fun _ => .ok "NOP\n1".toUTF8, none⟩
    let i : Inputs := ⟨{}, ⟨.dec, ["NOP".toList, "1".toList]⟩⟩
    c.inputs o.read = .ok i ∧
    (i.prepare.2.machine.run 2).1 = ⟨.faulted (.invalidOpcode 1 1), 1⟩ ∧
    AgreesWithRun .dec i.prepare.2.machine 2 ((Command.step c 2).perform o) := by
  intro c o i
  have hread : o.read.readText c.file = .ok "NOP\n1" := FileReader.readText_of_bytes rfl
  have hparse : ProgramFile.parse .dec "NOP\n1".toList = i.program := by decide
  have hinputs : c.inputs o.read = .ok i := by
    refine inputs_eq_ok_iff.mpr ⟨{}, _, rfl, hread, ?_⟩
    rw [show (c.override {}).base = .dec from rfl, hparse]
    rfl
  exact ⟨hinputs, by decide +kernel, step_agrees_with_run hinputs 2⟩

end AccumulatorMachine.Cli
