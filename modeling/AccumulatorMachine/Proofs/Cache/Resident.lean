import AccumulatorMachine.Cache
import Mathlib.Data.Nat.Notation

/-! A cache as an optional block. Flag, tag and bytes together hold a block or none, and what an
operation does to the three is what it does to that block. -/
namespace AccumulatorMachine

@[simp] theorem Block.size_ofMemory (m : Memory) (start : UInt8) (size : ℕ) :
    (ofMemory m start size).bytes.size = size := Array.size_ofFn

theorem Block.getElem?_ofMemory (m : Memory) (start : UInt8) (size i : ℕ) :
    (ofMemory m start size).bytes[i]? =
      if i < size then some ((m.get? (start.toNat + i)).getD 0) else none := by
  simp [ofMemory, Array.getElem?_ofFn]

namespace BlockCache

variable {c d : BlockCache} {m : Memory} {a : UInt8} {b : Block}

section Size

theorem offset_of_size (h : d.size = c.size) (a : UInt8) : d.offset a = c.offset a := by
  rw [offset, h, offset]

theorem start_of_size (h : d.size = c.size) (a : UInt8) : d.start a = c.start a := by
  rw [start, offset_of_size h, start]

theorem fill_of_size (h : d.size = c.size) (m : Memory) (a : UInt8) : d.fill m a = c.fill m a := by
  rw [fill, start_of_size h, h, fill]

@[simp] theorem size_refill (c : BlockCache) (m : Memory) (a : UInt8) :
    (c.refill m a).size = c.size := Block.size_ofMemory _ _ _

@[simp] theorem size_access (c : BlockCache) (m : Memory) (a : UInt8) :
    (c.access m a).2.2.size = c.size := by
  unfold access
  split
  · rfl
  · exact c.size_refill m a

@[simp] theorem size_patch (c : BlockCache) (a v : UInt8) : (c.patch a v).size = c.size := by
  unfold patch size
  dsimp only
  split
  · exact Array.size_setIfInBounds
  · rfl

@[simp] theorem size_empty (size : ℕ) : (empty size).size = max size 1 := Array.size_replicate

@[simp] theorem size_invalidate (c : BlockCache) : c.invalidate.size = c.size :=
  Array.size_replicate

end Size

theorem resident_eq_some_iff : c.resident = some b ↔ c.valid = true ∧ ⟨c.tag, c.data⟩ = b := by
  simp [resident]

theorem data_of_resident (h : c.resident = some b) : c.data = b.bytes :=
  congrArg Block.bytes (resident_eq_some_iff.mp h).2

theorem resident_eq_none_iff : c.resident = none ↔ c.valid = false := by
  simp [resident]

/-- A cache with a block is that block and its counters. -/
theorem ext_resident (hc : c.resident = some b) (hd : d.resident = some b) (hits : c.hits = d.hits)
    (misses : c.misses = d.misses) : c = d := by
  obtain ⟨hvalid, hblock⟩ := resident_eq_some_iff.mp hc
  obtain ⟨hvalid', hblock'⟩ := resident_eq_some_iff.mp hd
  obtain ⟨htag, hdata⟩ := Block.mk.inj (hblock.trans hblock'.symm)
  rcases c with ⟨valid, tag, data, _, _⟩
  rcases d with ⟨valid', tag', data', _, _⟩
  simp_all

theorem contains_iff (c : BlockCache) (a : UInt8) :
    c.contains a = true ↔ c.resident.map Block.start = some (c.start a) := by
  cases hv : c.valid <;> simp [contains, resident, hv]

theorem access_of_contains (h : c.contains a = true) (m : Memory) :
    c.access m a = (c.data.getD (c.offset a) 0, true, { c with hits := c.hits + 1 }) := by
  rw [access, if_pos h]

theorem access_of_not_contains (h : c.contains a = false) (m : Memory) :
    c.access m a = ((c.fill m a).bytes.getD (c.offset a) 0, false, c.refill m a) := by
  rw [access, h]
  rfl

theorem patch_of_contains (h : c.contains a = true) (v : UInt8) :
    c.patch a v = { c with data := c.data.setIfInBounds (c.offset a) v } := by
  rw [patch, if_pos h]

theorem patch_of_not_contains (h : c.contains a = false) (v : UInt8) : c.patch a v = c := by
  rw [patch, h]
  rfl

theorem hit_access (c : BlockCache) (m : Memory) (a : UInt8) :
    (c.access m a).2.1 = c.contains a := by
  cases h : c.contains a with
  | true => rw [access_of_contains h]
  | false => rw [access_of_not_contains h]

def patched (c : BlockCache) (x v : UInt8) (b : Block) : Block :=
  if b.start = c.start x then { b with bytes := b.bytes.setIfInBounds (c.offset x) v } else b

@[simp] theorem start_patched (c : BlockCache) (x v : UInt8) (b : Block) :
    (c.patched x v b).start = b.start := by
  unfold patched
  split <;> rfl

theorem bytes_patched (c : BlockCache) (x v : UInt8) (b : Block) :
    (c.patched x v b).bytes =
      if b.start = c.start x then b.bytes.setIfInBounds (c.offset x) v else b.bytes := by
  unfold patched
  split <;> rfl

theorem resident_empty (size : ℕ) : (empty size).resident = none := rfl

theorem resident_invalidate (c : BlockCache) : c.invalidate.resident = none := rfl

theorem resident_refill (c : BlockCache) (m : Memory) (a : UInt8) :
    (c.refill m a).resident = some (c.fill m a) := rfl

@[simp] theorem hits_refill (c : BlockCache) (m : Memory) (a : UInt8) :
    (c.refill m a).hits = c.hits := rfl

@[simp] theorem misses_refill (c : BlockCache) (m : Memory) (a : UInt8) :
    (c.refill m a).misses = c.misses + 1 := rfl

theorem resident_access (c : BlockCache) (m : Memory) (a : UInt8) :
    (c.access m a).2.2.resident = if c.contains a then c.resident else some (c.fill m a) := by
  cases h : c.contains a with
  | true =>
    rw [access_of_contains h]
    rfl
  | false =>
    rw [access_of_not_contains h]
    rfl

theorem resident_patch (c : BlockCache) (a v : UInt8) :
    (c.patch a v).resident = c.resident.map (c.patched a v) := by
  cases hv : c.valid with
  | false => simp [resident, patch, hv]
  | true =>
    by_cases ht : c.tag = c.start a <;>
      simp [resident, patch, patched, contains, hv, ht]

end BlockCache

end AccumulatorMachine
