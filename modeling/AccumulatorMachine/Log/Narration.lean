import AccumulatorMachine.Log.Event
import AccumulatorMachine.Machine.Access

/-! What the log tells of an execution, told from the machine before it. The machine itself does
not log, so what it does never depends on it. -/
namespace AccumulatorMachine.Log.Narration

def accesses (kind : CacheKind) (m : Memory) (c : BlockCache) : List UInt8 → List Event
  | [] => []
  | a :: rest => .accessed kind a (c.contains a) :: accesses kind m (c.access m a).2.2 rest

def execution (m : Machine) (i : Fetched) : List Event :=
  .executing i :: accesses .data m.memory m.dcache i.loads ++
    (i.stores m.regs).map (fun (a, v) => .written a v) ++
    if i.mnemonic = .hlt then [.halted i.pc] else []

def step (m : Machine) : List Event :=
  match m.state with
  | .halted | .faulted _ => []
  | .running =>
    if m.regs.pc < 256 then
      let pc := UInt8.ofNat m.regs.pc
      match (m.fetchInstruction pc).1 with
      | .error opcode =>
        accesses .instruction m.memory m.icache [pc] ++ [.faulted (.invalidOpcode opcode pc)]
      | .ok i => accesses .instruction m.memory m.icache i.fetches ++ execution m i
    else [.faulted (.pcOutOfBounds m.regs.pc)]

/-- Adds to what has been told the events of the steps of a run that are to be kept, and that the
guard was reached if it was. -/
def steps (keep : Event → Bool) (told : Array Event) (m : Machine) (done guard : Nat) :
    Array Event :=
  match m.state, guard with
  | .halted, _ | .faulted _, _ => told
  | .running, 0 => told ++ [Event.guardReached done].filter keep
  | .running, guard + 1 => steps keep (told ++ (step m).filter keep) m.step (done + 1) guard

def run (keep : Event → Bool) (m : Machine) (guard : Nat) : List Event :=
  (steps keep #[] m 0 guard).toList ++ [Event.finished (m.run guard).1].filter keep

end AccumulatorMachine.Log.Narration
