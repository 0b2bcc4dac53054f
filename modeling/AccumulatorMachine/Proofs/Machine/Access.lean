import AccumulatorMachine.Machine.Access
import AccumulatorMachine.Proofs.Machine.Step

/-! What one step touches. The instruction to be executed next can be read off memory, and executing
it is to fetch, to load and to store at its listed addresses, in this order and at no others.
A byte that is no opcode is fetched all the same. -/
namespace AccumulatorMachine

namespace Storage

def fetch (s : Storage) (a : UInt8) : Storage :=
  { s with icache := (s.icache.access s.memory a).2.2 }

def load (s : Storage) (a : UInt8) : Storage :=
  { s with dcache := (s.dcache.access s.memory a).2.2 }

def storeAll (s : Storage) (xs : List (UInt8 × UInt8)) : Storage :=
  xs.foldl (fun s x => s.store x.1 x.2) s

end Storage

theorem Fetched.pc_mem_fetches (i : Fetched) : i.pc ∈ i.fetches := by
  unfold fetches
  cases i.mnemonic.arity with
  | implied => exact List.mem_singleton_self _
  | address =>
    dsimp only
    split
    · exact List.mem_singleton_self _
    · exact List.mem_cons_self

namespace Machine

variable {m : Machine} {pc o : UInt8} {i : Fetched}

def next? (m : Machine) : Option Fetched :=
  if m.state = .running ∧ m.regs.pc < 256 then m.memory.instruction? (UInt8.ofNat m.regs.pc)
  else none

/-- The addresses that the next step reads, through either cache. -/
def reads (m : Machine) : List UInt8 :=
  match m.next? with
  | some i => i.fetches ++ i.loads
  | none => if m.state = .running ∧ m.regs.pc < 256 then [UInt8.ofNat m.regs.pc] else []

def writes (m : Machine) : List UInt8 :=
  match m.next? with
  | some i => (i.stores m.regs).map Prod.fst
  | none => []

theorem next?_stopped (hs : m.state ≠ .running) : m.next? = none := by
  rw [next?, if_neg (fun h => hs h.1)]

theorem next?_left (hpc : 256 ≤ m.regs.pc) : m.next? = none := by
  rw [next?, if_neg (fun h => Nat.not_lt_of_le hpc h.2)]

theorem next?_running (hs : m.state = .running) (hpc : pc.toNat = m.regs.pc) :
    m.next? = m.memory.instruction? pc := by
  have hlt : m.regs.pc < 256 := hpc ▸ pc.toNat_lt
  rw [next?, if_pos ⟨hs, hlt⟩, ← hpc, UInt8.ofNat_toNat]

theorem next?_of_error (hc : m.storage.Coherent) (hs : m.state = .running)
    (hpc : pc.toNat = m.regs.pc) (hf : (m.fetchInstruction pc).1 = .error o) : m.next? = none := by
  rw [next?_running hs hpc]
  exact ((fetchInstruction_eq_error_iff hc).mp hf).2

theorem next?_of_ok (hc : m.storage.Coherent) (hs : m.state = .running)
    (hpc : pc.toNat = m.regs.pc) (hf : (m.fetchInstruction pc).1 = .ok i) : m.next? = some i := by
  rw [next?_running hs hpc]
  exact (fetchInstruction_eq_ok_iff hc).mp hf

theorem reads_stopped (hs : m.state ≠ .running) : m.reads = [] := by
  rw [reads, next?_stopped hs]
  dsimp only
  rw [if_neg (fun h => hs h.1)]

theorem reads_left (hpc : 256 ≤ m.regs.pc) : m.reads = [] := by
  rw [reads, next?_left hpc]
  dsimp only
  rw [if_neg (fun h => Nat.not_lt_of_le hpc h.2)]

theorem reads_of_error (hc : m.storage.Coherent) (hs : m.state = .running)
    (hpc : pc.toNat = m.regs.pc) (hf : (m.fetchInstruction pc).1 = .error o) :
    m.reads = [pc] ∧ m.writes = [] := by
  have hnext := next?_of_error hc hs hpc hf
  have hlt : m.regs.pc < 256 := hpc ▸ pc.toNat_lt
  have hbyte : UInt8.ofNat m.regs.pc = pc := by rw [← hpc, UInt8.ofNat_toNat]
  simp only [reads, writes, hnext, if_pos (And.intro hs hlt), hbyte, and_self]

theorem reads_of_ok (hc : m.storage.Coherent) (hs : m.state = .running)
    (hpc : pc.toNat = m.regs.pc) (hf : (m.fetchInstruction pc).1 = .ok i) :
    m.reads = i.fetches ++ i.loads ∧ m.writes = (i.stores m.regs).map Prod.fst := by
  have hnext := next?_of_ok hc hs hpc hf
  simp only [reads, writes, hnext, and_self]

theorem storage_fetchInstruction (h : (m.fetchInstruction pc).1 = .ok i) :
    (m.fetchInstruction pc).2.storage = i.fetches.foldl Storage.fetch m.storage := by
  unfold fetchInstruction at h ⊢
  dsimp only at h ⊢
  split at h
  · contradiction
  · split at h
    · next harity =>
      obtain rfl := Except.ok.inj h
      simp only [Fetched.fetches, harity]
      rfl
    · next harity =>
      split at h
      · next hlast =>
        obtain rfl := Except.ok.inj h
        simp only [Fetched.fetches, harity, if_pos hlast]
        rfl
      · next hlast =>
        obtain rfl := Except.ok.inj h
        simp only [Fetched.fetches, harity, if_neg hlast]
        rfl

theorem storage_loadLanes (m : Machine) (start : UInt8) (f : UInt8 → UInt8 → UInt8) :
    (m.loadLanes start f).storage = ((lanes start).map (·.2)).foldl Storage.load m.storage := by
  unfold loadLanes
  induction lanes start generalizing m with
  | nil => rfl
  | cons x xs ih =>
    rw [List.foldl_cons, ih, List.map_cons, List.foldl_cons]
    rfl

theorem storage_storeLanes (m : Machine) (start : UInt8) :
    (m.storeLanes start).storage =
      m.storage.storeAll ((lanes start).map fun x => (x.2, m.regs.vac.get x.1)) := by
  unfold storeLanes Storage.storeAll
  induction lanes start generalizing m with
  | nil => rfl
  | cons x xs ih =>
    rw [List.foldl_cons, ih, List.map_cons, List.foldl_cons]
    rfl

theorem storage_execute (m : Machine) (i : Fetched) :
    (m.execute i).storage = (i.loads.foldl Storage.load m.storage).storeAll (i.stores m.regs) := by
  unfold execute Fetched.loads Fetched.stores
  cases i.mnemonic with
  | nop | not | jmp | hlt | veadd | vnot | sta | lda | add | or | and => rfl
  | jn | jz =>
    dsimp only
    split <;> rfl
  | vld | vadd | vor | vand => exact m.storage_loadLanes (i.operand.getD 0) _
  | vst => exact m.storage_storeLanes (i.operand.getD 0)

/-- An executed instruction fetches, then loads or stores. -/
theorem storage_executed (h : (m.fetchInstruction pc).1 = .ok i) :
    (((m.fetchInstruction pc).2.retire i).execute i).storage =
      (i.loads.foldl Storage.load (i.fetches.foldl Storage.fetch m.storage)).storeAll
        (i.stores m.regs) := by
  have hregs : ((m.fetchInstruction pc).2.retire i).regs = m.regs := by
    rw [retire_frame, fetchInstruction_frame]
  rw [storage_execute, hregs, storage_retire, storage_fetchInstruction h]

/-- A step touches the cells that it is said to read and to store to, and nothing else. -/
theorem storage_step (hc : m.storage.Coherent) :
    m.step.storage = match m.next? with
      | some i => (i.loads.foldl Storage.load (i.fetches.foldl Storage.fetch m.storage)).storeAll
          (i.stores m.regs)
      | none => m.reads.foldl Storage.fetch m.storage := by
  by_cases hs : m.state = .running
  · by_cases hpc : m.regs.pc < 256
    · obtain ⟨pc, hnat⟩ := exists_toNat_eq_pc hpc
      cases hf : (m.fetchInstruction pc).1 with
      | error o =>
        rw [step_of_error hs hnat hf, next?_of_error hc hs hnat hf,
          (reads_of_error hc hs hnat hf).1]
        rfl
      | ok i =>
        rw [step_of_ok hs hnat hf, next?_of_ok hc hs hnat hf, storage_executed hf]
    · have hleft := Nat.le_of_not_lt hpc
      rw [step_of_left hs hleft, next?_left hleft, reads_left hleft]
      rfl
  · rw [step_stopped hs, next?_stopped hs, reads_stopped hs]
    rfl

/-- What a step reads and stores to is all that it does to memory and caches. -/
def Touches (m : Machine) : Prop :=
  ∃ fetched loaded stored,
    m.reads = fetched ++ loaded ∧ m.writes = stored.map Prod.fst ∧
    m.step.storage =
      (loaded.foldl Storage.load (fetched.foldl Storage.fetch m.storage)).storeAll stored

theorem touches (hc : m.storage.Coherent) : m.Touches := by
  have hstep := storage_step hc
  cases hnext : m.next? with
  | some i =>
    rw [hnext] at hstep
    refine ⟨i.fetches, i.loads, i.stores m.regs, ?_, ?_, hstep⟩
    · rw [reads, hnext]
    · rw [writes, hnext]
  | none =>
    rw [hnext] at hstep
    refine ⟨m.reads, [], [], (List.append_nil _).symm, ?_, hstep⟩
    rw [writes, hnext, List.map_nil]

end Machine

end AccumulatorMachine
