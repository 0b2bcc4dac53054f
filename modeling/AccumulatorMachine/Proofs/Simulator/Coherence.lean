import AccumulatorMachine.Proofs.Cache.Coherence
import AccumulatorMachine.Proofs.Simulator.Storage
import AccumulatorMachine.Simulator.Snapshot

/-! Both caches stay coherent with memory through every history of driver operations, whatever
their block sizes. For admitted block sizes, which divide the size of memory, a resident block is
a whole aligned piece of memory, byte for byte. -/
namespace AccumulatorMachine

structure Storage.Coherent (s : Storage) : Prop where
  icache : s.icache.Coherent s.memory
  dcache : s.dcache.Coherent s.memory

namespace Storage.Coherent

variable {s t : Storage}

theorem poke (h : s.Coherent) (a v : UInt8) : (s.poke a v).Coherent :=
  ⟨h.icache.patch a v, h.dcache.patch a v⟩

theorem install (h : s.Coherent) (m : Memory) : (s.install m).Coherent :=
  ⟨h.icache.invalidate m, h.dcache.invalidate m⟩

theorem access (h : s.Coherent) (step : Access s t) : t.Coherent := by
  cases step with
  | fetch a => exact ⟨h.icache.access a, h.dcache⟩
  | load a => exact ⟨h.icache, h.dcache.access a⟩
  | store a v => exact ⟨(h.icache.patch a v).setTag a none, (h.dcache.patch a v).setTag a none⟩

theorem change (h : s.Coherent) (step : Change s t) : t.Coherent := by
  cases step with
  | access step => exact h.access step
  | clear => exact h.install s.memory
  | assemble base lines => exact h.install _

theorem accesses (h : s.Coherent) (steps : Accesses s t) : t.Coherent :=
  steps.changes.keep (fun step h => h.change step) h

end Storage.Coherent

namespace Storage

def sizes (s : Storage) : ℕ × ℕ := (s.icache.size, s.dcache.size)

theorem sizes_change {s t : Storage} (step : Change s t) : t.sizes = s.sizes := by
  cases step with
  | access step => cases step <;> simp [sizes, store]
  | clear => simp [sizes, install]
  | assemble => simp [sizes, install]

theorem sizes_poke (s : Storage) (a v : UInt8) : (s.poke a v).sizes = s.sizes := by
  simp [sizes, poke]

end Storage

namespace Simulator

theorem coherent_new (s : Settings) : (new s).machine.storage.Coherent :=
  ⟨BlockCache.coherent_empty s.icacheBlock _, BlockCache.coherent_empty s.dcacheBlock _⟩

theorem coherent_perform {x : Simulator} (h : x.machine.storage.Coherent) (op : Operation) :
    (x.perform op).2.machine.storage.Coherent :=
  perform_keeps (fun step h => h.change step) (fun _ h => h.poke _ _) h

theorem coherent_performAll (s : Settings) (ops : List Operation) :
    ((new s).performAll ops).machine.storage.Coherent :=
  performAll_keeps (fun step h => h.change step) (fun _ h => h.poke _ _) (coherent_new s)

theorem sizes_performAll (s : Settings) (ops : List Operation) :
    ((new s).performAll ops).machine.storage.sizes =
      (max s.icacheBlock 1, max s.dcacheBlock 1) :=
  performAll_keeps (P := fun t => t.sizes = (max s.icacheBlock 1, max s.dcacheBlock 1))
    (fun step h => (Storage.sizes_change step).trans h)
    (fun _ h => (Storage.sizes_poke _ _ _).trans h)
    (by simp [Storage.sizes, Machine.storage, new, Machine.new])

end Simulator

namespace Settings

theorem isBlockSize_iff {size : ℕ} : isBlockSize size ↔ ∃ k ≤ 8, size = Nat.pow 2 k := by
  simp [isBlockSize, Nat.lt_succ_iff]

theorem flaw?_eq_none_iff {s : Settings} :
    s.flaw? = none ↔ isBlockSize s.icacheBlock ∧ isBlockSize s.dcacheBlock ∧ s.loopGuard ≠ 0 := by
  unfold flaw?
  cases isBlockSize s.icacheBlock <;> cases isBlockSize s.dcacheBlock <;>
    by_cases s.loopGuard = 0 <;> simp_all

theorem dvd_memory_of_isBlockSize {size : ℕ} (h : isBlockSize size) : size ∣ 256 := by
  obtain ⟨k, hk, rfl⟩ := isBlockSize_iff.mp h
  exact Nat.pow_dvd_pow 2 hk

end Settings

def Memory.slice (m : Memory) (start size : ℕ) : List UInt8 :=
  (m.cells.toList.drop start).take size

namespace BlockCache

structure Mirrors (size : ℕ) (c : BlockCache) (m : Memory) : Prop where
  size_eq : c.size = size
  length : c.data.size = size
  aligned : ∀ b, c.resident = some b → size ∣ b.start.toNat
  inside : ∀ b, c.resident = some b → b.start.toNat + size ≤ 256
  current : ∀ b, c.resident = some b → ∀ i < size, c.data[i]? = m.get? (b.start.toNat + i)
  missed : ∀ b, c.resident = some b → 1 ≤ c.misses
  vacant : c.resident = none → (∀ v ∈ c.data, v = 0) ∧ c.hits = 0 ∧ c.misses = 0

/-- A block that begins inside memory at a multiple of its size does not reach past the end. -/
theorem block_fits {size start : ℕ} (hm : size ∣ 256) (hs : size ∣ start) (hlt : start < 256) :
    start + size ≤ 256 := by
  obtain ⟨n, hn⟩ := hm
  obtain ⟨k, rfl⟩ := hs
  rw [hn] at hlt ⊢
  have hkn : k + 1 ≤ n := Nat.lt_of_mul_lt_mul_left hlt
  exact Nat.mul_le_mul_left size hkn

theorem Coherent.mirrors {c : BlockCache} {m : Memory} {size : ℕ} (h : c.Coherent m)
    (hc : c.size = size) (hd : size ∣ 256) : c.Mirrors size m := by
  subst hc
  have haligned : ∀ b, c.resident = some b → c.size ∣ b.start.toNat := by
    intro b hb
    rw [congrArg Block.start (h.current b hb)]
    exact c.dvd_start b.start
  have hinside : ∀ b, c.resident = some b → b.start.toNat + c.size ≤ 256 :=
    fun b hb => block_fits hd (haligned b hb) b.start.toNat_lt
  refine ⟨rfl, rfl, haligned, hinside, ?_, h.missed, ?_⟩
  · intro b hb i hi
    have hin : b.start.toNat + i < 256 := by have := hinside b hb; omega
    have hstart : c.start b.start = b.start := (congrArg Block.start (h.current b hb)).symm
    rw [data_of_resident hb, h.current b hb, getElem?_fill, if_pos hi, ← h.current b hb, hstart]
    simp [Memory.get?, hin]
  · intro hn
    rw [h.vacant hn]
    simp [empty]

/-- The bytes that a driver is shown of a resident block are a piece of memory. -/
theorem Mirrors.data_eq {c : BlockCache} {m : Memory} {size : ℕ} (h : c.Mirrors size m) {b : Block}
    (hb : c.resident = some b) : c.data.toList = m.slice b.start.toNat size := by
  apply List.ext_getElem?
  intro i
  by_cases hi : i < size
  · have hcur := h.current b hb i hi
    rw [Array.getElem?_toList, hcur, Memory.slice, List.getElem?_take_of_lt hi,
      List.getElem?_drop]
    simp [Memory.get?]
  · have hlen := h.length
    rw [List.getElem?_eq_none (by simp; omega),
      List.getElem?_eq_none (by simp [Memory.slice]; omega)]

theorem Mirrors.snapshot {c : BlockCache} {m : Memory} {size : ℕ} (h : c.Mirrors size m)
    (kind : CacheKind) {b : Block} (hb : c.resident = some b) :
    ∃ rest, Snapshot.cache kind c =
      .record (("data", .list ((m.slice b.start.toNat size).map Snapshot.byte)) :: rest) := by
  rw [Snapshot.cache, h.data_eq hb]
  exact ⟨_, rfl⟩

end BlockCache

namespace Simulator

/-- Both caches, and what a snapshot tells of them, are memory as it is now, in blocks of the
sizes the settings ask for. -/
structure ShowsMemory (s : Settings) (x : Simulator) : Prop where
  icache : x.machine.icache.Mirrors s.icacheBlock x.machine.memory
  dcache : x.machine.dcache.Mirrors s.dcacheBlock x.machine.memory
  icache_snapshot : ∀ b, x.machine.icache.resident = some b → ∃ rest,
    Snapshot.cache .instruction x.machine.icache = .record (("data",
      .list ((x.machine.memory.slice b.start.toNat s.icacheBlock).map Snapshot.byte)) :: rest)
  dcache_snapshot : ∀ b, x.machine.dcache.resident = some b → ∃ rest,
    Snapshot.cache .data x.machine.dcache = .record (("data",
      .list ((x.machine.memory.slice b.start.toNat s.dcacheBlock).map Snapshot.byte)) :: rest)

/-- Admitted settings are all this asks for; the history is arbitrary, pokes and assembling in the
middle of a run included. -/
theorem caches_show_memory {s : Settings} (hs : s.flaw? = none) (ops : List Operation) :
    ((new s).performAll ops).ShowsMemory s := by
  obtain ⟨hi, hd, -⟩ := Settings.flaw?_eq_none_iff.mp hs
  obtain ⟨hci, hcd⟩ := coherent_performAll s ops
  have hsizes := sizes_performAll s ops
  simp only [Storage.sizes, Prod.mk.injEq] at hsizes
  have max_one {size : ℕ} (h : Settings.isBlockSize size) : max size 1 = size :=
    Nat.max_eq_left (Nat.pos_of_dvd_of_pos (Settings.dvd_memory_of_isBlockSize h) (by decide))
  have mi := hci.mirrors (hsizes.1.trans (max_one hi)) (Settings.dvd_memory_of_isBlockSize hi)
  have md := hcd.mirrors (hsizes.2.trans (max_one hd)) (Settings.dvd_memory_of_isBlockSize hd)
  exact ⟨mi, md, fun b hb => mi.snapshot .instruction hb, fun b hb => md.snapshot .data hb⟩

/-- The smallest and the largest block, a vector stored over the program, and a poke. -/
theorem caches_show_memory_extreme_blocks :
    ({ icacheBlock := 1, dcacheBlock := 256 } : Settings).flaw? = none ∧
    ((new { icacheBlock := 1, dcacheBlock := 256 }).performAll
      [.assemble .dec ["VLD 2".toList, "VST 0".toList], .step, .step, .poke 3 7, .run]).ShowsMemory
      { icacheBlock := 1, dcacheBlock := 256 } :=
  ⟨by decide, caches_show_memory (by decide) _⟩

end Simulator

end AccumulatorMachine
