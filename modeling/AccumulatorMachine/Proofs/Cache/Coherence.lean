import AccumulatorMachine.Proofs.Cache.Resident

/-! Cache coherence for one cache. A cache is coherent with a memory when its resident block is
what a refill would bring now; a hit then answers what memory holds.
Blocks of any positive size are covered, also those that reach past the end of memory. -/
namespace AccumulatorMachine.BlockCache

variable {c : BlockCache} {m : Memory}

theorem toNat_start (c : BlockCache) (a : UInt8) : (c.start a).toNat = a.toNat - c.offset a := by
  have := a.toNat_lt
  simp only [start, UInt8.toNat_ofNat']
  omega

theorem start_add_offset (c : BlockCache) (a : UInt8) :
    (c.start a).toNat + c.offset a = a.toNat := by
  have : c.offset a ≤ a.toNat := Nat.mod_le _ _
  rw [toNat_start]
  omega

theorem dvd_start (c : BlockCache) (a : UInt8) : c.size ∣ (c.start a).toNat := by
  rw [toNat_start]
  exact Nat.dvd_sub_mod a.toNat

@[simp] theorem start_start (c : BlockCache) (a : UInt8) : c.start (c.start a) = c.start a := by
  have hz : c.offset (c.start a) = 0 := Nat.mod_eq_zero_of_dvd (c.dvd_start a)
  apply UInt8.toNat.inj
  rw [toNat_start, hz, Nat.sub_zero]

/-- The address at a given place of a given block, read off start and offset. -/
theorem start_add_eq_iff (c : BlockCache) (a b : UInt8) {i : ℕ} (hi : i < c.size) :
    (c.start b).toNat + i = a.toNat ↔ c.start b = c.start a ∧ i = c.offset a := by
  constructor
  · intro h
    have ho : c.offset a = i := by
      obtain ⟨k, hk⟩ := c.dvd_start b
      rw [offset, ← h, hk, Nat.mul_add_mod, Nat.mod_eq_of_lt hi]
    refine ⟨?_, ho.symm⟩
    apply UInt8.toNat.inj
    have := c.start_add_offset a
    omega
  · rintro ⟨hs, rfl⟩
    rw [hs, start_add_offset]

theorem start_fill (c : BlockCache) (m : Memory) (a : UInt8) : (c.fill m a).start = c.start a := rfl

theorem getElem?_fill (c : BlockCache) (m : Memory) (a : UInt8) (i : ℕ) :
    (c.fill m a).bytes[i]? =
      if i < c.size then some ((m.get? ((c.start a).toNat + i)).getD 0) else none :=
  Block.getElem?_ofMemory m (c.start a) c.size i

@[simp] theorem size_fill (c : BlockCache) (m : Memory) (a : UInt8) :
    (c.fill m a).bytes.size = c.size := Block.size_ofMemory _ _ _

theorem fill_congr (m : Memory) {a b : UInt8} (h : c.start a = c.start b) :
    c.fill m a = c.fill m b := by
  simp only [fill, h]

theorem getD_fill (hp : 0 < c.size) (m : Memory) (a : UInt8) :
    (c.fill m a).bytes.getD (c.offset a) 0 = m.read a := by
  have ho : c.offset a < c.size := Nat.mod_lt _ hp
  rw [Array.getD_eq_getD_getElem?, getElem?_fill, if_pos ho, start_add_offset, Memory.get?_toNat]
  rfl

/-- A refill after a write brings the block that a refill before it brings, patched. -/
theorem fill_write (c : BlockCache) (m : Memory) (a b v : UInt8) :
    c.fill (m.write a v) b = c.patched a v (c.fill m b) := by
  have hbytes : (c.fill (m.write a v) b).bytes = (c.patched a v (c.fill m b)).bytes := by
    apply Array.ext_getElem?
    intro i
    rw [bytes_patched, start_fill, getElem?_fill, Memory.get?_write]
    by_cases hi : i < c.size
    · have hplace := c.start_add_eq_iff a b hi
      by_cases hb : c.start b = c.start a
      · by_cases ho : i = c.offset a
        · subst ho
          simp [hi, hb, start_add_offset]
        · have hne : a.toNat ≠ (c.start b).toNat + i := fun h => ho (hplace.mp h.symm).2
          rw [if_pos hb, Array.getElem?_setIfInBounds_ne (Ne.symm ho), getElem?_fill, if_neg hne]
      · have hne : a.toNat ≠ (c.start b).toNat + i := fun h => hb (hplace.mp h.symm).1
        rw [if_neg hb, getElem?_fill, if_neg hne]
    · rw [if_neg hi]
      have hout : c.size ≤ i := Nat.le_of_not_lt hi
      split <;> simp [hout]
  calc
    c.fill (m.write a v) b = ⟨c.start b, (c.fill (m.write a v) b).bytes⟩ := rfl
    _ = ⟨(c.patched a v (c.fill m b)).start, (c.patched a v (c.fill m b)).bytes⟩ := by
      rw [hbytes, start_patched, start_fill]

/-- A cache without a block is as it was when it was new, zeroed bytes and tag included. -/
structure Coherent (c : BlockCache) (m : Memory) : Prop where
  positive : 0 < c.size
  current : ∀ b, c.resident = some b → b = c.fill m b.start
  missed : ∀ b, c.resident = some b → 0 < c.misses
  vacant : c.resident = none → c = empty c.size

theorem coherent_empty (size : ℕ) (m : Memory) : (empty size).Coherent m := by
  have hmax : max (max size 1) 1 = max size 1 := Nat.max_eq_left (Nat.le_max_right size 1)
  constructor
  · rw [size_empty]
    exact Nat.le_max_right size 1
  · simp [resident_empty]
  · simp [resident_empty]
  · intro _
    rw [size_empty, empty, empty, hmax]

theorem invalidate_eq {size : ℕ} (h : c.size = max size 1) : c.invalidate = empty size := by
  rw [BlockCache.invalidate, empty, h]

theorem Coherent.invalidate (h : c.Coherent m) (n : Memory) : c.invalidate.Coherent n := by
  have hsize : c.size = max c.size 1 := (Nat.max_eq_left h.positive).symm
  rw [invalidate_eq hsize]
  exact coherent_empty c.size n

theorem Coherent.resident_eq (h : c.Coherent m) {a : UInt8} (ha : c.contains a = true) :
    c.resident = some (c.fill m a) := by
  obtain ⟨b, hb, hs⟩ := Option.map_eq_some_iff.mp ((c.contains_iff a).mp ha)
  have hfill : c.fill m b.start = c.fill m a := by
    apply fill_congr
    rw [hs, start_start]
  rw [hb, h.current b hb, hfill]

/-- Hit or miss, the byte read is the byte in memory. -/
theorem Coherent.access_value (h : c.Coherent m) (a : UInt8) : (c.access m a).1 = m.read a := by
  cases ha : c.contains a with
  | true =>
    rw [access_of_contains ha]
    dsimp only
    rw [data_of_resident (h.resident_eq ha)]
    exact getD_fill h.positive m a
  | false =>
    rw [access_of_not_contains ha]
    exact getD_fill h.positive m a

theorem Coherent.access (h : c.Coherent m) (a : UInt8) : (c.access m a).2.2.Coherent m := by
  cases ha : c.contains a with
  | true =>
    have hb := h.resident_eq ha
    rw [access_of_contains ha]
    refine ⟨h.positive, h.current, h.missed, ?_⟩
    intro hn
    exact absurd (hn.symm.trans hb) (by simp)
  | false =>
    rw [access_of_not_contains ha]
    refine ⟨?_, ?_, fun _ _ => Nat.succ_pos _, ?_⟩
    · rw [size_refill]
      exact h.positive
    · intro b hb
      obtain rfl : c.fill m a = b := Option.some.inj hb
      rw [fill_of_size (c.size_refill m a)]
      exact fill_congr m (c.start_start a).symm
    · intro hn
      contradiction

/-- A write that reaches memory and the resident copy alike. -/
theorem Coherent.patch (h : c.Coherent m) (a v : UInt8) :
    (c.patch a v).Coherent (m.write a v) := by
  refine ⟨by simpa using h.positive, ?_, ?_, ?_⟩
  · intro b hb
    rw [resident_patch] at hb
    obtain ⟨old, hr, rfl⟩ := Option.map_eq_some_iff.mp hb
    rw [fill_of_size (c.size_patch a v), start_patched, fill_write, ← h.current old hr]
  · intro b hb
    rw [resident_patch] at hb
    obtain ⟨old, hr, -⟩ := Option.map_eq_some_iff.mp hb
    exact h.missed old hr
  · intro hn
    rw [resident_patch, Option.map_eq_none_iff] at hn
    have hout : c.contains a = false := by rw [contains, resident_eq_none_iff.mp hn, Bool.false_and]
    rw [patch_of_not_contains hout]
    exact h.vacant hn

theorem Coherent.setTag (h : c.Coherent m) (a : UInt8) (t : Option Category) :
    c.Coherent (m.setTag a t) :=
  ⟨h.positive, h.current, h.missed, h.vacant⟩

end AccumulatorMachine.BlockCache
