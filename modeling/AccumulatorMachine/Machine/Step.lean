import AccumulatorMachine.Machine.Basic

/-! One step of the machine: fetch through the instruction cache, decode, execute through the data
cache. Stores reach both caches and clear the tag of the cell. -/
namespace AccumulatorMachine

/-- The lanes of a vector at an address, each with the address of its cell. Lanes that would lie
past the end of memory are left out. -/
def lanes (start : UInt8) : List (Fin 4 × UInt8) :=
  (List.finRange 4).filterMap fun i =>
    if start.toNat + i.val < 256 then some (i, UInt8.ofNat (start.toNat + i.val)) else none

namespace Machine

def fetch (m : Machine) (a : UInt8) : UInt8 × Machine :=
  let (v, _, c) := m.icache.access m.memory a
  (v, { m with icache := c })

def load (m : Machine) (a : UInt8) : UInt8 × Machine :=
  let (v, _, c) := m.dcache.access m.memory a
  (v, { m with dcache := c })

def store (m : Machine) (a v : UInt8) : Machine :=
  { m with
    memory := (m.memory.write a v).setTag a none
    icache := m.icache.patch a v
    dcache := m.dcache.patch a v }

def setAc (m : Machine) (v : UInt8) : Machine := { m with regs := { m.regs with ac := v } }

def setLane (m : Machine) (i : Fin 4) (v : UInt8) : Machine :=
  { m with regs := { m.regs with vac := m.regs.vac.set i.val v } }

/-- Moves on to an address, which may be the first past the end of memory. -/
def goto (m : Machine) (pc : Nat) : Machine := { m with regs := { m.regs with pc } }

def jump (m : Machine) (target : UInt8) : Machine :=
  { m.goto target.toNat with
    counts := { m.counts with branchesTaken := m.counts.branchesTaken + 1 } }

def loadAc (m : Machine) (a : UInt8) (f : UInt8 → UInt8 → UInt8) : Machine :=
  let (v, m) := m.load a
  m.setAc (f m.regs.ac v)

def loadLanes (m : Machine) (start : UInt8) (f : UInt8 → UInt8 → UInt8) : Machine :=
  (lanes start).foldl (fun m (i, a) =>
    let (v, m) := m.load a
    m.setLane i (f (m.regs.vac.get i) v)) m

def storeLanes (m : Machine) (start : UInt8) : Machine :=
  (lanes start).foldl (fun m (i, a) => m.store a (m.regs.vac.get i)) m

def mapLanes (m : Machine) (f : UInt8 → UInt8) : Machine :=
  { m with regs := { m.regs with vac := m.regs.vac.map f } }

/-- The effect of an instruction. All but jumps and HLT move on to the next instruction. -/
def execute (m : Machine) (i : Fetched) : Machine :=
  let operand := i.operand.getD 0
  let next := i.pc.toNat + i.mnemonic.size
  match i.mnemonic with
  | .nop => m.goto next
  | .sta => (m.store operand m.regs.ac).goto next
  | .lda => (m.loadAc operand fun _ v => v).goto next
  | .add => (m.loadAc operand fun ac v => ac + v).goto next
  | .or => (m.loadAc operand fun ac v => ac ||| v).goto next
  | .and => (m.loadAc operand fun ac v => ac &&& v).goto next
  | .not => (m.setAc (~~~m.regs.ac)).goto next
  | .jmp => m.jump operand
  | .jn => if m.regs.negative then m.jump operand else m.goto next
  | .jz => if m.regs.zero then m.jump operand else m.goto next
  | .hlt => { m with state := .halted }
  | .vld => (m.loadLanes operand fun _ v => v).goto next
  | .vst => (m.storeLanes operand).goto next
  | .vadd => (m.loadLanes operand fun lane v => lane + v).goto next
  | .veadd => (m.mapLanes fun lane => lane + m.regs.ac).goto next
  | .vor => (m.loadLanes operand fun lane v => lane ||| v).goto next
  | .vand => (m.loadLanes operand fun lane v => lane &&& v).goto next
  | .vnot => (m.mapLanes fun lane => ~~~lane).goto next

/-- The instruction at an address, or the byte there that is no opcode. An address instruction in
the last cell has the operand 0, which is not fetched. -/
def fetchInstruction (m : Machine) (pc : UInt8) : Except UInt8 Fetched × Machine :=
  let (opcode, m) := m.fetch pc
  match Mnemonic.ofOpcode? opcode with
  | none => (.error opcode, m)
  | some mnemonic =>
    match mnemonic.arity with
    | .implied => (.ok ⟨pc, mnemonic, none⟩, m)
    | .address =>
      if pc = 255 then (.ok ⟨pc, mnemonic, some 0⟩, m)
      else
        let (operand, m) := m.fetch (pc + 1)
        (.ok ⟨pc, mnemonic, some operand⟩, m)

def retire (m : Machine) (i : Fetched) : Machine :=
  let m := m.record i
  { m with counts := m.counts.record i.mnemonic }

/-- A stopped machine stays as it is. -/
def step (m : Machine) : Machine :=
  match m.state with
  | .halted | .faulted _ => m
  | .running =>
    if m.regs.pc < 256 then
      let pc := UInt8.ofNat m.regs.pc
      match m.fetchInstruction pc with
      | (.error opcode, m) => m.fault (.invalidOpcode opcode pc)
      | (.ok i, m) => (m.retire i).execute i
    else m.fault (.pcOutOfBounds m.regs.pc)

end Machine

end AccumulatorMachine
