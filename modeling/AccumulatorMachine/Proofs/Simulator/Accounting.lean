import AccumulatorMachine.Proofs.Machine.Access
import AccumulatorMachine.Proofs.Simulator.Isolation
import Mathlib.Algebra.GroupWithZero.Nat

/-! The cache counters are explained by the instructions that were executed since the last reset:
each is fetched byte by byte, and loads what its operand names. Nothing else is counted but the one
byte that turned out to be no opcode. -/
namespace AccumulatorMachine

theorem length_lanes (start : UInt8) : (lanes start).length = min 4 (256 - start.toNat) := by
  have hlt := start.toNat_lt
  have hsome (i : Fin 4) : (if start.toNat + i.val < 256 then
      some (i, UInt8.ofNat (start.toNat + i.val)) else none).isSome =
      decide (start.toNat + i.val < 256) := by
    split <;> simp_all
  have hindices : (List.finRange 4).map Fin.val = [0, 1, 2, 3] := rfl
  calc (lanes start).length
      = (List.finRange 4).countP (fun i => start.toNat + i.val < 256) := by
        rw [lanes, List.length_filterMap_eq_countP]
        simp only [hsome]
    _ = ((List.finRange 4).map Fin.val).countP (fun i => start.toNat + i < 256) := by
        rw [List.countP_map]
        rfl
    _ = min 4 (256 - start.toNat) := by
        simp only [hindices, List.countP_cons, List.countP_nil, decide_eq_true_eq]
        split_ifs <;> omega

namespace Fetched

/-- The bytes an instruction is fetched as. In the last cell there is no room for an operand. -/
def fetchCount (i : Fetched) : ℕ :=
  if i.mnemonic.arity = .address ∧ i.pc.toNat ≤ 254 then 2 else 1

/-- The bytes an instruction loads. A vector ends where memory ends. -/
def loadCount (i : Fetched) : ℕ :=
  match i.mnemonic with
  | .lda | .add | .or | .and => 1
  | .vld | .vadd | .vor | .vand => min 4 (256 - (i.operand.getD 0).toNat)
  | _ => 0

theorem length_fetches (i : Fetched) : i.fetches.length = i.fetchCount := by
  have hlast : i.pc = 255 ↔ ¬ i.pc.toNat ≤ 254 := by
    have hlt := i.pc.toNat_lt
    rw [← UInt8.toNat_inj, show (255 : UInt8).toNat = 255 from rfl]
    omega
  unfold fetches fetchCount
  cases i.mnemonic.arity with
  | implied => rfl
  | address =>
    by_cases hpc : i.pc = 255
    · simp [hpc]
    · have hroom : i.pc.toNat ≤ 254 := Decidable.not_not.mp (mt hlast.mpr hpc)
      simp [hpc, hroom]

theorem length_loads (i : Fetched) : i.loads.length = i.loadCount := by
  unfold loads loadCount
  cases i.mnemonic with
  | vld | vadd | vor | vand => exact (List.length_map _).trans (length_lanes _)
  | _ => rfl

end Fetched

def BlockCache.accesses (c : BlockCache) : ℕ := c.hits + c.misses

theorem BlockCache.accesses_access (c : BlockCache) (m : Memory) (a : UInt8) :
    (c.access m a).2.2.accesses = c.accesses + 1 := by
  unfold access
  split
  · exact Nat.add_right_comm _ _ _
  · rfl

namespace Storage

/-- A count that grows alike with each item has grown by as much as there are items. -/
theorem foldl_count {α : Type*} {f : Storage → α → Storage} {w : Storage → ℕ} {n : ℕ}
    (hf : ∀ s x, w (f s x) = w s + n) (xs : List α) (s : Storage) :
    w (xs.foldl f s) = w s + n * xs.length := by
  induction xs generalizing s with
  | nil => rfl
  | cons x xs ih =>
    rw [List.foldl_cons, ih, hf, List.length_cons, Nat.mul_succ]
    omega

/-- Of a count that no store changes, what an instruction adds is known from its accesses. -/
theorem count_executed {w : Storage → ℕ} {f l : ℕ} (hf : ∀ s a, w (fetch s a) = w s + f)
    (hl : ∀ s a, w (load s a) = w s + l) (hs : ∀ s a v, w (store s a v) = w s)
    (fetches loads : List UInt8) (stores : List (UInt8 × UInt8)) (s : Storage) :
    w ((loads.foldl load (fetches.foldl fetch s)).storeAll stores) =
      w s + f * fetches.length + l * loads.length := by
  have hstored := foldl_count (n := 0) (fun s x => hs s x.1 x.2) stores
    (loads.foldl load (fetches.foldl fetch s))
  rw [storeAll, hstored, foldl_count hl, foldl_count hf, Nat.zero_mul, Nat.add_zero]

end Storage

def ExecState.undecoded : ExecState → ℕ
  | faulted (.invalidOpcode _ _) => 1
  | running | halted | faulted (.pcOutOfBounds _) => 0

namespace Machine

variable {m : Machine} {path : List Fetched}

def executed (m : Machine) : ℕ → List Fetched
  | 0 => []
  | k + 1 => m.next?.toList ++ m.step.executed k

structure Accounted (path : List Fetched) (m : Machine) : Prop where
  fetched : m.icache.accesses = (path.map Fetched.fetchCount).sum + m.state.undecoded
  loaded : m.dcache.accesses = (path.map Fetched.loadCount).sum
  retired : m.counts.retired = path.length
  traced : m.tracing → m.trace.toList = path.take m.traceCapacity

theorem accesses_executed {pc : UInt8} {i : Fetched} (hf : (m.fetchInstruction pc).1 = .ok i) :
    let n := ((m.fetchInstruction pc).2.retire i).execute i
    n.icache.accesses = m.icache.accesses + i.fetchCount ∧
      n.dcache.accesses = m.dcache.accesses + i.loadCount := by
  intro n
  have hstorage := storage_executed hf
  have hfetches := Storage.count_executed (w := fun s => s.icache.accesses) (f := 1) (l := 0)
    (fun s a => s.icache.accesses_access s.memory a) (fun _ _ => rfl) (fun _ _ _ => rfl)
    i.fetches i.loads (i.stores m.regs) m.storage
  have hloads := Storage.count_executed (w := fun s => s.dcache.accesses) (f := 0) (l := 1)
    (fun _ _ => rfl) (fun s a => s.dcache.accesses_access s.memory a) (fun _ _ _ => rfl)
    i.fetches i.loads (i.stores m.regs) m.storage
  rw [← hstorage, i.length_fetches, Nat.one_mul, Nat.zero_mul, Nat.add_zero] at hfetches
  rw [← hstorage, i.length_loads, Nat.one_mul, Nat.zero_mul, Nat.add_zero] at hloads
  exact ⟨hfetches, hloads⟩

theorem Accounted.executed {pc : UInt8} {i : Fetched} (h : Accounted path m)
    (hs : m.state = .running) (hf : (m.fetchInstruction pc).1 = .ok i) :
    Accounted (path ++ [i]) (((m.fetchInstruction pc).2.retire i).execute i) := by
  obtain ⟨hstate, hcapacity, hretired⟩ := m.executed_frame pc i
  obtain ⟨-, -, htracing, htrace⟩ := m.executed_flow pc i
  obtain ⟨hfetches, hloads⟩ := accesses_executed hf
  generalize ((m.fetchInstruction pc).2.retire i).execute i = n at *
  constructor
  · have hbefore := h.fetched
    have hundecoded : n.state.undecoded = 0 := by
      rw [hstate, hs]
      split <;> rfl
    rw [hs] at hbefore
    rw [hfetches, hbefore, hundecoded, List.map_append, List.sum_append]
    rfl
  · rw [hloads, h.loaded, List.map_append, List.sum_append]
    rfl
  · rw [hretired, h.retired, List.length_append]
    rfl
  · intro hon
    rw [htracing] at hon
    have hbefore := h.traced hon
    have hsize : m.trace.size = min m.traceCapacity path.length := by
      rw [← Array.length_toList, hbefore, List.length_take]
    rw [hcapacity, htrace]
    by_cases hroom : m.trace.size < m.traceCapacity
    · have hfits : path.length < m.traceCapacity := by omega
      rw [if_pos ⟨hon, hroom⟩, Array.toList_push, hbefore, List.take_of_length_le hfits.le,
        List.take_of_length_le]
      rw [List.length_append]
      exact hfits
    · have hfull : m.traceCapacity ≤ path.length := by omega
      rw [if_neg (fun h => hroom h.2), hbefore, List.take_append_of_le_length hfull]

theorem Accounted.step (h : Accounted path m) (hc : m.storage.Coherent) :
    Accounted (path ++ m.next?.toList) m.step := by
  by_cases hs : m.state = .running
  · have hmoves := step_moves hs
    have hzero : m.state.undecoded = 0 := by rw [hs]; rfl
    have hbefore := h.fetched
    rw [hzero] at hbefore
    generalize m.step = n at hmoves ⊢
    cases hmoves with
    | left hpc =>
      rw [next?_left hpc, Option.toList_none, List.append_nil]
      exact ⟨hbefore, h.loaded, h.retired, h.traced⟩
    | undecoded pc o hpc hf =>
      rw [next?_of_error hc hs hpc hf, Option.toList_none, List.append_nil]
      refine ⟨?_, h.loaded, h.retired, h.traced⟩
      exact (m.icache.accesses_access m.memory pc).trans (congrArg (· + 1) hbefore)
    | executed pc i hpc hf =>
      rw [next?_of_ok hc hs hpc hf]
      exact h.executed hs hf
  · rw [step_stopped hs, next?_stopped hs, Option.toList_none, List.append_nil]
    exact h

theorem Accounted.iterate (h : Accounted path m) (hc : m.storage.Coherent) (k : ℕ) :
    Accounted (path ++ m.executed k) (Machine.step^[k] m) := by
  induction k generalizing m path with
  | zero =>
    rw [Machine.executed, List.append_nil]
    exact h
  | succ k ih =>
    rw [Machine.executed, ← List.append_assoc, Function.iterate_succ_apply]
    exact ih (h.step hc) (hc.accesses m.step_accesses)

end Machine

def Operation.Proceeds : Operation → Prop
  | step | run | runGuarded _ | poke _ _ | convert _ _ => True
  | assemble _ _ | load _ | reset => False

namespace Simulator

open Machine (Accounted)

variable {x : Simulator} {path : List Fetched}

def executedBy (x : Simulator) : Operation → List Fetched
  | .step => x.machine.executed 1
  | .run => x.machine.executed x.settings.loopGuard
  | .runGuarded guard => x.machine.executed guard
  | .assemble _ _ | .load _ | .reset | .poke _ _ | .convert _ _ => []

def executed (x : Simulator) : List Operation → List Fetched
  | [] => []
  | op :: ops => x.executedBy op ++ (x.perform op).2.executed ops

theorem accounted_reset (s : Settings) (past : List Event) :
    (after s past).reset.machine.Accounted [] ∧ (after s past).reset.machine.storage.Coherent := by
  rw [(builtFrom_after s past).reset]
  constructor
  · exact ⟨rfl, rfl, rfl, fun _ => List.take_nil.symm⟩
  · exact ⟨BlockCache.coherent_empty s.icacheBlock _, BlockCache.coherent_empty s.dcacheBlock _⟩

theorem accounted_perform (h : x.machine.Accounted path) (hc : x.machine.storage.Coherent)
    {op : Operation} (hop : op.Proceeds) :
    (x.perform op).2.machine.Accounted (path ++ x.executedBy op) := by
  cases op with
  | step => exact h.iterate hc 1
  | run =>
    have hrun := h.iterate hc x.settings.loopGuard
    rw [← Machine.run_last] at hrun
    exact hrun
  | runGuarded guard =>
    have hrun := h.iterate hc guard
    rw [← Machine.run_last] at hrun
    exact hrun
  | poke a v =>
    rw [executedBy, List.append_nil]
    exact ⟨h.fetched, h.loaded, h.retired, h.traced⟩
  | convert new lines =>
    rw [executedBy, List.append_nil]
    exact h
  | assemble | load | reset => exact absurd hop id

theorem accounted_performAll (h : x.machine.Accounted path) (hc : x.machine.storage.Coherent)
    {ops : List Operation} (hops : ∀ op ∈ ops, op.Proceeds) :
    (x.performAll ops).machine.Accounted (path ++ x.executed ops) := by
  induction ops generalizing x path with
  | nil =>
    rw [executed, List.append_nil]
    exact h
  | cons op ops ih =>
    have hfirst := accounted_perform h hc (hops op List.mem_cons_self)
    rw [executed, ← List.append_assoc]
    exact ih hfirst (coherent_perform hc op) (fun o ho => hops o (List.mem_cons_of_mem op ho))

/-- What the statistics of a simulator say of its caches, given the instructions that it has
executed. The trace is a second account of these, as far as it goes. -/
structure Explained (path : List Fetched) (x : Simulator) : Prop where
  fetched : x.statistics.icacheHits + x.statistics.icacheMisses =
    (path.map Fetched.fetchCount).sum + x.machine.state.undecoded
  loaded : x.statistics.dcacheHits + x.statistics.dcacheMisses =
    (path.map Fetched.loadCount).sum
  icache : x.statistics.icacheHits = x.machine.icache.hits ∧
    x.statistics.icacheMisses = x.machine.icache.misses
  dcache : x.statistics.dcacheHits = x.machine.dcache.hits ∧
    x.statistics.dcacheMisses = x.machine.dcache.misses
  retired : x.statistics.counts.retired = path.length
  traced : x.machine.tracing → x.machine.trace.toList = path.take x.machine.traceCapacity

/-- Before the reset, anything may have happened to the simulator. -/
theorem cache_accesses_explained (s : Settings) (past : List Event) {ops : List Operation}
    (hops : ∀ op ∈ ops, op.Proceeds) :
    let x := (after s past).reset
    Explained (x.executed ops) (x.performAll ops) := by
  intro x
  obtain ⟨hstart, hc⟩ := accounted_reset s past
  have h : (x.performAll ops).machine.Accounted (x.executed ops) :=
    accounted_performAll hstart hc hops
  exact ⟨h.fetched, h.loaded, ⟨rfl, rfl⟩, ⟨rfl, rfl⟩, h.retired, h.traced⟩

/-- Half a vector, then a store over the next instruction, whose operand becomes an opcode and is
none: six bytes are fetched and two loaded. -/
theorem cache_accesses_explained_of_fault :
    let past : List Event := [
      .operation (.assemble .hex ["VLD FE".toList, "STA 4".toList, "ADD 1".toList]),
      .operation .step, .intervention (.setPc 300), .operation .step]
    let ops : List Operation := [.step, .convert .dec [], .poke 7 9, .runGuarded 4]
    let x := (after {} past).reset
    (∀ op ∈ ops, op.Proceeds) ∧
    x.executed ops = [⟨0, .vld, some 254⟩, ⟨2, .sta, some 4⟩, ⟨4, .nop, none⟩] ∧
    (x.performAll ops).machine.state = .faulted (.invalidOpcode 1 5) ∧
    Explained (x.executed ops) (x.performAll ops) := by
  intro past ops x
  have hops : ∀ op ∈ ops, op.Proceeds := by simp [ops, Operation.Proceeds]
  refine ⟨hops, by decide +kernel, by decide +kernel, ?_⟩
  exact cache_accesses_explained {} past hops

end Simulator

end AccumulatorMachine
