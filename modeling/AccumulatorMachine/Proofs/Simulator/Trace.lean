import AccumulatorMachine.Proofs.Simulator.Transition
import Mathlib.Data.List.Chain

/-! The trace is a path through the program. It begins at address 0, and each instruction stands
where the one before it leads. As long as there is room for all that is executed, the counters are
those of the trace. -/
namespace AccumulatorMachine

/-- Whether execution may go on at an address. Behind HLT it does not go on, behind a conditional
branch it goes on in one of two places. -/
def Fetched.LeadsTo (i : Fetched) (pc : ℕ) : Prop :=
  match i.mnemonic with
  | .hlt => False
  | .jmp => i.operand.map UInt8.toNat = some pc
  | .jn | .jz => pc = i.pc.toNat + i.mnemonic.size ∨ i.operand.map UInt8.toNat = some pc
  | _ => pc = i.pc.toNat + i.mnemonic.size

def Fetched.WellFormed (i : Fetched) : Prop := i.operand.isSome ↔ i.mnemonic.arity = .address

structure IsPath (path : List Fetched) : Prop where
  first : ∀ i ∈ path.head?, i.pc = 0
  wellFormed : ∀ i ∈ path, i.WellFormed
  linked : path.IsChain fun i next => i.LeadsTo next.pc.toNat

def Reaches (path : List Fetched) (pc : ℕ) : Prop :=
  match path.getLast? with
  | none => pc = 0
  | some i => i.LeadsTo pc

/-- The counters of a path. Which of the conditional branches were taken, it does not tell. -/
structure Tallied (path : List Fetched) (c : Counts) : Prop where
  groups : ∀ g, c.ofGroup g = path.countP fun i => i.mnemonic.group = g
  jumps_le : path.countP (fun i => i.mnemonic = .jmp) ≤ c.branchesTaken
  le_branches : c.branchesTaken ≤ path.countP fun i => i.mnemonic.group = .branch

variable {path : List Fetched} {i : Fetched} {c : Counts}

theorem Fetched.leadsTo_next (h : i.WellFormed) (hhlt : i.mnemonic ≠ .hlt) (r : Registers) :
    i.LeadsTo (if i.jumps r then (i.operand.getD 0).toNat
      else i.pc.toNat + i.mnemonic.size) := by
  obtain ⟨pc, mnemonic, operand⟩ := i
  unfold LeadsTo jumps
  cases mnemonic with
  | hlt => exact absurd rfl hhlt
  | jmp =>
    obtain ⟨v, rfl⟩ := Option.isSome_iff_exists.mp (h.mpr rfl)
    rfl
  | jn | jz =>
    obtain ⟨v, rfl⟩ := Option.isSome_iff_exists.mp (h.mpr rfl)
    dsimp only
    split
    · exact .inr rfl
    · exact .inl rfl
  | _ => rfl

theorem Fetched.jumps_of_jmp (h : i.mnemonic = .jmp) (r : Registers) : i.jumps r := by
  simp [jumps, h]

theorem Fetched.group_of_jumps {r : Registers} (h : i.jumps r) : i.mnemonic.group = .branch := by
  unfold jumps at h
  split at h <;> simp_all [Mnemonic.group]

theorem Counts.ofGroup_record (c : Counts) (mnemonic : Mnemonic) (g : Group) :
    (c.record mnemonic).ofGroup g = c.ofGroup g + if mnemonic.group = g then 1 else 0 := by
  unfold record
  cases mnemonic.group <;> cases g <;> rfl

theorem isPath_nil : IsPath [] := ⟨by simp, by simp, .nil⟩

theorem IsPath.concat (h : IsPath path) (hnext : Reaches path i.pc.toNat) (hi : i.WellFormed) :
    IsPath (path ++ [i]) := by
  constructor
  · intro first hfirst
    cases path with
    | nil =>
      obtain rfl : i = first := by simpa using hfirst
      exact UInt8.toNat.inj hnext
    | cons => exact h.first first hfirst
  · intro j hj
    rcases List.mem_append.mp hj with hj | hj
    · exact h.wellFormed j hj
    · rw [List.mem_singleton.mp hj]
      exact hi
  · refine List.isChain_append.mpr ⟨h.linked, .singleton i, ?_⟩
    intro last hlast next hsingle
    obtain rfl : i = next := by simpa using hsingle
    rwa [Reaches, Option.mem_def.mp hlast] at hnext

theorem tallied_nil : Tallied [] .zero := ⟨by intro g; cases g <;> rfl, Nat.zero_le _, Nat.zero_le _⟩

theorem Tallied.concat (h : Tallied path c) (i : Fetched) (r : Registers) :
    Tallied (path ++ [i]) { c.record i.mnemonic with
      branchesTaken := c.branchesTaken + if i.jumps r then 1 else 0 } := by
  have hjmps := h.jumps_le
  have hbranches := h.le_branches
  constructor
  · intro g
    have hgroup : Counts.ofGroup { c.record i.mnemonic with
        branchesTaken := c.branchesTaken + if i.jumps r then 1 else 0 } g =
        (c.record i.mnemonic).ofGroup g := by cases g <;> rfl
    rw [hgroup, Counts.ofGroup_record, h.groups, List.countP_append, List.countP_singleton]
    simp only [decide_eq_true_eq]
  · rw [List.countP_append, List.countP_singleton]
    by_cases hjmp : i.mnemonic = .jmp
    · simp only [hjmp, i.jumps_of_jmp hjmp r, decide_true, if_true]
      omega
    · simp only [hjmp, decide_false, Bool.false_eq_true, if_false]
      omega
  · rw [List.countP_append, List.countP_singleton]
    by_cases htaken : i.jumps r
    · simp only [htaken, Fetched.group_of_jumps htaken, decide_true, if_true]
      omega
    · simp only [htaken, Bool.false_eq_true, if_false]
      omega

namespace Machine

variable {m n : Machine} {capacity : ℕ}

/-- A machine that has traced all it executed since its last reset, as far as there was room. Where
it stands, its trace only tells while it is not full. -/
structure Traced (capacity : ℕ) (m : Machine) : Prop where
  tracing : m.tracing
  room : m.traceCapacity = capacity
  size : m.trace.size = min m.counts.retired capacity
  path : IsPath m.trace.toList
  tallied : m.counts.retired ≤ capacity → Tallied m.trace.toList m.counts
  stands : m.counts.retired < capacity → m.state = .running → Reaches m.trace.toList m.regs.pc

theorem traced_new {s : Settings} (h : s.traceInstructions) : Traced s.loopGuard (new s) where
  tracing := h
  room := rfl
  size := (Nat.zero_min _).symm
  path := isPath_nil
  tallied _ := tallied_nil
  stands _ _ := rfl

/-- A fault is not traced, and leaves the counters of what was executed alone. -/
theorem Traced.fault (h : Traced capacity m) (f : Fault) : Traced capacity (m.fault f) where
  tracing := h.tracing
  room := h.room
  size := h.size
  path := h.path
  tallied hroom := by
    obtain ⟨hgroups, hjumps, hbranches⟩ := h.tallied hroom
    refine ⟨?_, hjumps, hbranches⟩
    intro g
    refine Eq.trans ?_ (hgroups g)
    cases g <;> rfl
  stands _ hs := by contradiction

theorem Traced.room_iff (h : Traced capacity m) :
    (m.tracing ∧ m.trace.size < m.traceCapacity) ↔ m.counts.retired < capacity := by
  rw [h.size, h.room]
  simp [h.tracing]

theorem Traced.executed (h : Traced capacity m) (hs : m.state = .running)
    (hpc : i.pc.toNat = m.regs.pc) (hi : i.WellFormed) :
    Traced capacity (((m.fetchInstruction i.pc).2.retire i).execute i) := by
  obtain ⟨hstate, hroom, hretired⟩ := m.executed_frame i.pc i
  obtain ⟨hnext, hcounts, htracing, htrace⟩ := m.executed_flow i.pc i
  simp only [h.room_iff] at htrace
  generalize ((m.fetchInstruction i.pc).2.retire i).execute i = n at *
  constructor
  · rw [htracing]
    exact h.tracing
  · rw [hroom]
    exact h.room
  · have hsize := h.size
    rw [htrace, hretired]
    split
    · rw [Array.size_push]
      omega
    · omega
  · rw [htrace]
    split
    · next hleft =>
      rw [Array.toList_push]
      exact h.path.concat (hpc ▸ h.stands hleft hs) hi
    · exact h.path
  · intro hlast
    rw [hretired] at hlast
    rw [htrace, if_pos (Nat.lt_of_succ_le hlast), hcounts, Array.toList_push]
    exact (h.tallied (Nat.le_of_succ_le hlast)).concat i m.regs
  · -- Behind HLT the machine does not run, so the path leads on.
    intro hleft hrunning
    have hhlt : i.mnemonic ≠ .hlt := by
      intro hhlt
      rw [hstate, if_pos hhlt] at hrunning
      contradiction
    rw [hretired] at hleft
    rw [if_neg hhlt] at hnext
    rw [Reaches, htrace, if_pos (Nat.lt_of_succ_lt hleft), Array.toList_push,
      List.getLast?_concat, hnext]
    exact Fetched.leadsTo_next hi hhlt m.regs

theorem Traced.step (h : Traced capacity m) : Traced capacity m.step := by
  by_cases hs : m.state = .running
  · have hmoves := step_moves hs
    generalize m.step = n at hmoves ⊢
    cases hmoves with
    | left => exact h.fault _
    | undecoded pc o =>
      have hfetched : Traced capacity (m.fetch pc).2 :=
        ⟨h.tracing, h.room, h.size, h.path, h.tallied, h.stands⟩
      exact hfetched.fault _
    | executed pc i hpc hf =>
      obtain ⟨rfl, hi⟩ := fetchInstruction_ok hf
      exact h.executed hs hpc hi
  · rw [step_stopped hs]
    exact h

theorem Traced.transition (h : Traced capacity m) (hmn : Transition m n) :
    Traced capacity n := by
  cases hmn with
  | step => exact h.step
  | reset =>
    exact ⟨h.tracing, h.room, (Nat.zero_min _).symm, isPath_nil, fun _ => tallied_nil,
      fun _ _ => rfl⟩
  | assemble | poke => exact ⟨h.tracing, h.room, h.size, h.path, h.tallied, h.stands⟩

end Machine

namespace Simulator

/-- Memory may have been replaced in mid-run, and more may have been executed than there is room
for. -/
theorem trace_connected {s : Settings} (htrace : s.traceInstructions) (ops : List Operation) :
    let m := ((new s).performAll ops).machine
    m.trace.size = min m.counts.retired s.loopGuard ∧
    IsPath m.trace.toList ∧
    (m.counts.retired ≤ s.loopGuard → Tallied m.trace.toList m.counts) := by
  have h : Machine.Traced s.loopGuard ((new s).performAll ops).machine :=
    ((new s).performAll_transitions ops).keep (fun hmn h => h.transition hmn)
      (Machine.traced_new htrace)
  exact ⟨h.size, h.path, h.tallied⟩

/-- The path goes on from one program into the next, and ends where the trace is just full. -/
theorem trace_connected_across_programs :
    let s : Settings := { traceInstructions := true, loopGuard := 3 }
    let ops : List Operation := [.assemble .dec ["NOT".toList, "JN 6".toList], .step, .step,
      .assemble .dec (List.replicate 6 [] ++ ["JZ 9".toList]), .step]
    let m := ((new s).performAll ops).machine
    s.traceInstructions ∧ s.flaw? = none ∧ m.counts.retired = 3 ∧
    m.trace = #[⟨0, .not, none⟩, ⟨1, .jn, some 6⟩, ⟨6, .jz, some 9⟩] ∧
    IsPath m.trace.toList ∧ Tallied m.trace.toList m.counts := by
  intro s ops
  have hretired : ((new s).performAll ops).machine.counts.retired = 3 := by decide +kernel
  have h := trace_connected (s := s) rfl ops
  exact ⟨rfl, by decide, hretired, by decide +kernel, h.2.1, h.2.2 (Nat.le_of_eq hretired)⟩

end Simulator

end AccumulatorMachine
