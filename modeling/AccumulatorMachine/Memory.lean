import AccumulatorMachine.Instruction

/-! Main memory: 256 byte cells, each with an optional tag that says what kind of instruction was
assembled there. Writing a cell leaves its tag alone. -/
namespace AccumulatorMachine

structure Memory where
  cells : Vector UInt8 256
  tags : Vector (Option Category) 256
  deriving DecidableEq, Repr

namespace Memory

def empty : Memory := ⟨Vector.replicate 256 0, Vector.replicate 256 none⟩

def read (m : Memory) (a : UInt8) : UInt8 :=
  have := a.toNat_lt
  m.cells[a.toNat]

/-- Reads by a wide index, which may lie past the end. -/
def get? (m : Memory) (i : Nat) : Option UInt8 := m.cells[i]?

def tag (m : Memory) (a : UInt8) : Option Category :=
  have := a.toNat_lt
  m.tags[a.toNat]

def write (m : Memory) (a v : UInt8) : Memory :=
  { m with cells := m.cells.set a.toNat v a.toNat_lt }

def setTag (m : Memory) (a : UInt8) (t : Option Category) : Memory :=
  { m with tags := m.tags.set a.toNat t a.toNat_lt }

def addresses : List UInt8 := (List.range 256).map UInt8.ofNat

@[simp] theorem read_empty (a : UInt8) : empty.read a = 0 := by simp [read, empty]

@[simp] theorem tag_empty (a : UInt8) : empty.tag a = none := by simp [tag, empty]

theorem read_write (m : Memory) (a b v : UInt8) :
    (m.write a v).read b = if a = b then v else m.read b := by
  simp [read, write, Vector.getElem_set, UInt8.toNat_inj]

@[simp] theorem tag_write (m : Memory) (a b v : UInt8) : (m.write a v).tag b = m.tag b := rfl

theorem tag_setTag (m : Memory) (a b : UInt8) (t : Option Category) :
    (m.setTag a t).tag b = if a = b then t else m.tag b := by
  simp [tag, setTag, Vector.getElem_set, UInt8.toNat_inj]

@[simp] theorem read_setTag (m : Memory) (a b : UInt8) (t : Option Category) :
    (m.setTag a t).read b = m.read b := rfl

theorem get?_toNat (m : Memory) (a : UInt8) : m.get? a.toNat = some (m.read a) := by
  simp [get?, read, Vector.getElem?_eq_getElem a.toNat_lt]

theorem get?_eq_read (m : Memory) {i : Nat} (hi : i < 256) :
    m.get? i = some (m.read (UInt8.ofNat i)) := by
  have h : (UInt8.ofNat i).toNat = i := by simp; omega
  rw [← m.get?_toNat, h]

theorem get?_eq_none (m : Memory) {i : Nat} (hi : 256 ≤ i) : m.get? i = none := by
  simp [get?, hi]

theorem get?_write (m : Memory) (a v : UInt8) (i : Nat) :
    (m.write a v).get? i = if a.toNat = i then some v else m.get? i := by
  simp [get?, write, Vector.getElem?_set]

@[simp] theorem get?_setTag (m : Memory) (a : UInt8) (t : Option Category) (i : Nat) :
    (m.setTag a t).get? i = m.get? i := rfl

end Memory

end AccumulatorMachine
