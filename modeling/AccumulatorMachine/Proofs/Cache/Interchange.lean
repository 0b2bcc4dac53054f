import AccumulatorMachine.Proofs.Cache.Coherence
import AccumulatorMachine.Proofs.Memory

/-! A write that reaches memory and a cache may be moved past accesses and writes of other cells, and
is gone once its own cell is written again. Nothing is asked of the cache: a refill copies the
cell along with its block, and no access looks at the copy but one of the cell itself. -/
namespace AccumulatorMachine

namespace Memory

variable {a x : UInt8}

theorem write_write (m : Memory) (x v w : UInt8) : (m.write x v).write x w = m.write x w := by
  simp [write]

theorem write_comm (m : Memory) (hne : a ≠ x) (v w : UInt8) :
    (m.write x v).write a w = (m.write a w).write x v := by
  have htoNat : x.toNat ≠ a.toNat := fun h => hne (UInt8.toNat.inj h).symm
  simp only [write]
  rw [Vector.set_comm _ _ htoNat]

end Memory

namespace BlockCache

variable {c : BlockCache} {a x : UInt8}

/-- Two cells of one block have different places there. -/
theorem offset_ne (hs : c.start a = c.start x) (hne : a ≠ x) : c.offset a ≠ c.offset x := by
  intro ho
  apply hne
  apply UInt8.toNat.inj
  rw [← c.start_add_offset a, ← c.start_add_offset x, hs, ho]

theorem contains_patch (c : BlockCache) (a x v : UInt8) :
    (c.patch x v).contains a = c.contains a := by
  rw [contains, start_of_size (c.size_patch x v), contains]
  rfl

theorem start_eq_of_contains (ha : c.contains a = true) (hx : c.contains x = true) :
    c.start a = c.start x :=
  Option.some.inj (((c.contains_iff a).mp ha).symm.trans ((c.contains_iff x).mp hx))

theorem getD_patched {b : Block} (hb : b.start = c.start a) (hne : a ≠ x) (v : UInt8) :
    (c.patched x v b).bytes.getD (c.offset a) 0 = b.bytes.getD (c.offset a) 0 := by
  by_cases hx : b.start = c.start x
  · have ho := offset_ne (hb.symm.trans hx) hne
    rw [patched, if_pos hx]
    simp [Array.getElem?_setIfInBounds_ne (Ne.symm ho)]
  · rw [patched, if_neg hx]

theorem getD_patch (ha : c.contains a = true) (hne : a ≠ x) (v : UInt8) :
    (c.patch x v).data.getD (c.offset a) 0 = c.data.getD (c.offset a) 0 := by
  obtain ⟨b, hb, hs⟩ := Option.map_eq_some_iff.mp ((c.contains_iff a).mp ha)
  have hp : (c.patch x v).resident = some (c.patched x v b) := by
    rw [resident_patch, hb, Option.map_some]
  rw [data_of_resident hp, data_of_resident hb, getD_patched hs hne]

/-- A block brought in from the written memory is the block of the old one, patched. -/
theorem fill_patch (c : BlockCache) (m : Memory) (a x v : UInt8) :
    (c.patch x v).fill (m.write x v) a = c.patched x v (c.fill m a) :=
  (fill_of_size (c.size_patch x v) _ a).trans (c.fill_write m x a v)

theorem refill_patch (c : BlockCache) (m : Memory) (a x v : UInt8) :
    (c.patch x v).refill (m.write x v) a = (c.refill m a).patch x v := by
  have hstart : (c.refill m a).start x = c.start x := start_of_size (c.size_refill m a) x
  have hoffset : (c.refill m a).offset x = c.offset x := offset_of_size (c.size_refill m a) x
  apply ext_resident (b := c.patched x v (c.fill m a))
  · rw [resident_refill, fill_patch]
  · rw [resident_patch, resident_refill, Option.map_some, patched, hstart, hoffset, patched]
  · rfl
  · rfl

/-- Byte and hit are those without the patch, and what it did to the block is done to it still. -/
theorem access_patch (c : BlockCache) (m : Memory) (hne : a ≠ x) (v : UInt8) :
    (c.patch x v).access (m.write x v) a =
      ((c.access m a).1, (c.access m a).2.1, (c.access m a).2.2.patch x v) := by
  have hoffset : (c.patch x v).offset a = c.offset a := offset_of_size (c.size_patch x v) a
  have hcontains := c.contains_patch a x v
  cases ha : c.contains a with
  | true =>
    rw [ha] at hcontains
    rw [access_of_contains hcontains, access_of_contains ha, hoffset, getD_patch ha hne]
    rfl
  | false =>
    rw [ha] at hcontains
    rw [access_of_not_contains hcontains, access_of_not_contains ha, hoffset, fill_patch,
      refill_patch, getD_patched rfl hne]

theorem patch_patch (c : BlockCache) (x v w : UInt8) : (c.patch x v).patch x w = c.patch x w := by
  cases hx : c.contains x with
  | false => rw [patch_of_not_contains hx]
  | true =>
    have hagain := (c.contains_patch x x v).trans hx
    rw [patch_of_contains hagain, offset_of_size (c.size_patch x v), patch_of_contains hx,
      patch_of_contains hx]
    simp

theorem patch_comm (c : BlockCache) (hne : a ≠ x) (v w : UInt8) :
    (c.patch x v).patch a w = (c.patch a w).patch x v := by
  cases hx : c.contains x with
  | false =>
    rw [patch_of_not_contains hx, patch_of_not_contains ((c.contains_patch x a w).trans hx)]
  | true =>
    cases ha : c.contains a with
    | false =>
      rw [patch_of_not_contains ha, patch_of_not_contains ((c.contains_patch a x v).trans ha)]
    | true =>
      have ho := offset_ne (start_eq_of_contains ha hx) hne
      have ha' := (c.contains_patch a x v).trans ha
      have hx' := (c.contains_patch x a w).trans hx
      rw [patch_of_contains ha', offset_of_size (c.size_patch x v), patch_of_contains hx',
        offset_of_size (c.size_patch a w), patch_of_contains hx, patch_of_contains ha]
      dsimp only
      rw [Array.setIfInBounds_comm _ _ ho]

end BlockCache

end AccumulatorMachine
