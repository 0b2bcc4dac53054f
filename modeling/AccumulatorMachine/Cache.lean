import AccumulatorMachine.Memory

/-! A cache that holds one aligned block of memory. An access hits if the resident block contains
the address, and otherwise replaces the block. Writes go to memory and patch the resident copy;
they neither bring a block in nor count. Counters are unbounded. -/
namespace AccumulatorMachine

structure Block where
  start : UInt8
  bytes : Array UInt8
  deriving DecidableEq, Repr

/-- Zeros stand for what lies past the end of memory. -/
def Block.ofMemory (m : Memory) (start : UInt8) (size : Nat) : Block where
  start := start
  bytes := Array.ofFn fun i : Fin size => (m.get? (start.toNat + i.val)).getD 0

/-- The tag is the first address of the block in `data`. Without the valid flag neither means
anything. -/
structure BlockCache where
  valid : Bool
  tag : UInt8
  data : Array UInt8
  hits : Nat
  misses : Nat
  deriving DecidableEq, Repr

namespace BlockCache

/-- Blocks hold at least one byte. -/
def empty (size : Nat) : BlockCache := ⟨false, 0, Array.replicate (max size 1) 0, 0, 0⟩

def size (c : BlockCache) : Nat := c.data.size

def offset (c : BlockCache) (a : UInt8) : Nat := a.toNat % c.size

def start (c : BlockCache) (a : UInt8) : UInt8 := UInt8.ofNat (a.toNat - c.offset a)

def contains (c : BlockCache) (a : UInt8) : Bool := c.valid && c.tag == c.start a

def resident (c : BlockCache) : Option Block := if c.valid then some ⟨c.tag, c.data⟩ else none

def fill (c : BlockCache) (m : Memory) (a : UInt8) : Block := .ofMemory m (c.start a) c.size

def refill (c : BlockCache) (m : Memory) (a : UInt8) : BlockCache :=
  let b := c.fill m a
  { c with valid := true, tag := b.start, data := b.bytes, misses := c.misses + 1 }

/-- The byte read, whether it was a hit, and the cache afterwards. -/
def access (c : BlockCache) (m : Memory) (a : UInt8) : UInt8 × Bool × BlockCache :=
  if c.contains a then (c.data.getD (c.offset a) 0, true, { c with hits := c.hits + 1 })
  else
    let refilled := c.refill m a
    (refilled.data.getD (c.offset a) 0, false, refilled)

def patch (c : BlockCache) (a v : UInt8) : BlockCache :=
  { c with data := if c.contains a then c.data.setIfInBounds (c.offset a) v else c.data }

def invalidate (c : BlockCache) : BlockCache := ⟨false, 0, Array.replicate c.size 0, 0, 0⟩

end BlockCache

/-- The two caches of the machine: instructions are fetched through one, data through the other. -/
inductive CacheKind where
  | instruction
  | data
  deriving DecidableEq, Repr

def CacheKind.label : CacheKind → String
  | instruction => "I-Cache"
  | data => "D-Cache"

end AccumulatorMachine
