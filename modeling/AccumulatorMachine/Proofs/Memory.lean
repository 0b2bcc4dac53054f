import AccumulatorMachine.Memory

/-! A cell of memory is its byte together with its tag, and a memory is its cells. -/
namespace AccumulatorMachine.Memory

variable {m n : Memory}

def cell (m : Memory) (a : UInt8) : UInt8 × Option Category := (m.read a, m.tag a)

@[simp] theorem cell_empty (a : UInt8) : empty.cell a = (0, none) := by simp [cell]

theorem cell_write (m : Memory) (a b v : UInt8) :
    (m.write a v).cell b = if a = b then (v, m.tag b) else m.cell b := by
  simp only [cell, read_write, tag_write]
  split <;> rfl

theorem cell_setTag (m : Memory) (a b : UInt8) (t : Option Category) :
    (m.setTag a t).cell b = if a = b then (m.read b, t) else m.cell b := by
  simp only [cell, read_setTag, tag_setTag]
  split <;> rfl

/-- Writing a cell and its tag leaves nothing of what the cell held. -/
theorem cell_replace (m : Memory) (a b v : UInt8) (t : Option Category) :
    ((m.write a v).setTag a t).cell b = if a = b then (v, t) else m.cell b := by
  rw [cell_setTag, cell_write]
  by_cases h : a = b
  · simp [h, read_write]
  · simp [h]

/-- There is no cell behind the last one. -/
theorem getD_get?_succ (m : Memory) (a : UInt8) :
    (m.get? (a.toNat + 1)).getD 0 = if a = 255 then 0 else m.read (a + 1) := by
  by_cases ha : a = 255
  · rw [if_pos ha, ha, m.get?_eq_none (by decide)]
    rfl
  · have hne : a.toNat ≠ 255 := fun h => ha (UInt8.toNat.inj h)
    have hlt := a.toNat_lt
    have hnext : UInt8.ofNat (a.toNat + 1) = a + 1 := by
      apply UInt8.toNat.inj
      simp
    rw [if_neg ha, m.get?_eq_read (by omega), hnext]
    rfl

theorem drop_addresses (start : Nat) :
    addresses.drop start = (List.range' start (256 - start)).map UInt8.ofNat := by
  rw [addresses, ← List.map_drop, List.range_eq_range', List.drop_range', Nat.zero_add, Nat.mul_one]

theorem ext_cell (h : ∀ a, m.cell a = n.cell a) : m = n := by
  have at_index (i : Nat) (hi : i < 256) : (UInt8.ofNat i).toNat = i := by simp; omega
  obtain ⟨bytes, tags⟩ := m
  obtain ⟨bytes', tags'⟩ := n
  congr 1
  · apply Vector.ext
    intro i hi
    simpa [cell, read, at_index i hi] using congrArg Prod.fst (h (UInt8.ofNat i))
  · apply Vector.ext
    intro i hi
    simpa [cell, tag, at_index i hi] using congrArg Prod.snd (h (UInt8.ofNat i))

end AccumulatorMachine.Memory
