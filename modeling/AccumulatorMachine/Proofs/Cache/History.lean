import AccumulatorMachine.Proofs.Cache.Coherence
import AccumulatorMachine.Proofs.Memory
import Mathlib.Logic.Function.Basic

/-! A cache in front of a memory, and the log of what was asked of it and replied. The log alone
explains the replies: a byte is the one last written to its cell, and an access hits if the access
before it, since the cache was last emptied, went to the same block.
Blocks have any size, and memory holds anything at first. -/
namespace AccumulatorMachine

/-- A snooped write goes to memory past the cache, which is told of it. An instruction cache serves
no other write. -/
inductive Request where
  | access (a : UInt8)
  | write (a v : UInt8)
  | snoop (a v : UInt8)
  | invalidate
  deriving DecidableEq, Repr

/-- The byte read and whether it was a hit. Only accesses have a reply. -/
abbrev Reply := Option (UInt8 × Bool)

namespace Request

def address? : Request → Option UInt8
  | access a => some a
  | write _ _ | snoop _ _ | invalidate => none

def update (bytes : UInt8 → UInt8) : Request → UInt8 → UInt8
  | write a v | snoop a v => Function.update bytes a v
  | access _ | invalidate => bytes

def received (bytes : UInt8 → UInt8) (requests : List Request) : UInt8 → UInt8 :=
  requests.foldl update bytes

/-- What happened since the cache was last emptied, latest first. -/
def recent (log : List (Request × Reply)) : List (Request × Reply) :=
  log.reverse.takeWhile fun x => x.1 ≠ invalidate

def lastAccess (log : List (Request × Reply)) : Option UInt8 :=
  (recent log).findSome? fun x => x.1.address?

def outcomes (log : List (Request × Reply)) : List Bool :=
  (recent log).filterMap fun x => x.2.map Prod.snd

/-- The last access went to the block of the address, in blocks of the given size. -/
def Recalls (size : ℕ) (log : List (Request × Reply)) (a : UInt8) : Prop :=
  ∃ b, lastAccess log = some b ∧ b.toNat / max size 1 = a.toNat / max size 1

theorem received_append (bytes : UInt8 → UInt8) (requests : List Request) (r : Request) :
    received bytes (requests ++ [r]) = update (received bytes requests) r := by
  simp [received]

theorem recent_invalidate (log : List (Request × Reply)) (reply : Reply) :
    recent (log ++ [(invalidate, reply)]) = [] := by
  simp [recent]

theorem recent_append (log : List (Request × Reply)) {r : Request} (hr : r ≠ invalidate)
    (reply : Reply) : recent (log ++ [(r, reply)]) = (r, reply) :: recent log := by
  simp [recent, hr]

end Request

structure CachedMemory where
  cache : BlockCache
  memory : Memory
  deriving DecidableEq, Repr

namespace CachedMemory

open Request

def start (size : ℕ) (m : Memory) : CachedMemory := ⟨.empty size, m⟩

def serve (s : CachedMemory) : Request → Reply × CachedMemory
  | .access a =>
    let (v, hit, c) := s.cache.access s.memory a
    (some (v, hit), { s with cache := c })
  | .write a v => (none, ⟨s.cache.patch a v, s.memory.write a v⟩)
  | .snoop a v => (none, ⟨s.cache.patch a v, s.memory.write a v⟩)
  | .invalidate => (none, { s with cache := s.cache.invalidate })

def serveAll (s : CachedMemory) : List Request → CachedMemory
  | [] => s
  | r :: rs => (s.serve r).2.serveAll rs

def log (s : CachedMemory) : List Request → List (Request × Reply)
  | [] => []
  | r :: rs => (r, (s.serve r).1) :: (s.serve r).2.log rs

end CachedMemory

namespace BlockCache

variable {c : BlockCache} {a : UInt8}

/-- Blocks begin at multiples of their size, one for each quotient. -/
theorem start_eq_iff (c : BlockCache) (a b : UInt8) :
    c.start a = c.start b ↔ a.toNat / c.size = b.toNat / c.size := by
  constructor
  · intro h
    have hdiv (x : UInt8) : x.toNat / c.size = (c.start x).toNat / c.size := by
      rw [toNat_start]
      exact Nat.div_eq_sub_mod_div
    rw [hdiv a, hdiv b, h]
  · intro h
    have hmul (x : UInt8) : (c.start x).toNat = x.toNat / c.size * c.size := by
      rw [toNat_start]
      exact Nat.div_mul_self_eq_mod_sub_self.symm
    apply UInt8.toNat.inj
    rw [hmul a, hmul b, h]

/-- Hit or miss, the block of the address is resident afterwards. -/
theorem start_access (c : BlockCache) (m : Memory) (a : UInt8) :
    (c.access m a).2.2.resident.map Block.start = some (c.start a) := by
  rw [resident_access]
  cases h : c.contains a with
  | true => exact (c.contains_iff a).mp h
  | false => rfl

theorem start_patch (c : BlockCache) (a v : UInt8) :
    (c.patch a v).resident.map Block.start = c.resident.map Block.start := by
  have hstart : Block.start ∘ c.patched a v = Block.start := funext (c.start_patched a v)
  rw [resident_patch, Option.map_map, hstart]

end BlockCache

namespace CachedMemory

open Request

variable {size : ℕ} {m : Memory} {s : CachedMemory} {log : List (Request × Reply)}

structure Follows (size : ℕ) (m : Memory) (log : List (Request × Reply)) (s : CachedMemory) :
    Prop where
  size_eq : s.cache.size = max size 1
  coherent : s.cache.Coherent s.memory
  cell : ∀ a, s.memory.cell a = (received m.read (log.map Prod.fst) a, m.tag a)
  resident : s.cache.resident.map Block.start = (lastAccess log).map s.cache.start
  hits : s.cache.hits = (outcomes log).count true
  misses : s.cache.misses = (outcomes log).count false

theorem follows_start (size : ℕ) (m : Memory) : Follows size m [] (start size m) where
  size_eq := BlockCache.size_empty size
  coherent := BlockCache.coherent_empty size m
  cell _ := rfl
  resident := rfl
  hits := rfl
  misses := rfl

theorem Follows.cell_update (h : Follows size m log s) {n : Memory} {r : Request} {reply : Reply}
    (hn : ∀ b, n.cell b = (update s.memory.read r b, s.memory.tag b)) (b : UInt8) :
    n.cell b = (received m.read ((log ++ [(r, reply)]).map Prod.fst) b, m.tag b) := by
  have hread : s.memory.read = received m.read (log.map Prod.fst) :=
    funext fun x => congrArg Prod.fst (h.cell x)
  have htag : s.memory.tag b = m.tag b := congrArg Prod.snd (h.cell b)
  rw [hn b, List.map_append, List.map_singleton, received_append, hread, htag]

theorem Follows.access (h : Follows size m log s) (a v : UInt8) :
    Follows size m (log ++ [(.access a, some (v, s.cache.contains a))])
      ⟨(s.cache.access s.memory a).2.2, s.memory⟩ := by
  have hrecent := recent_append log (r := .access a) (by simp) (some (v, s.cache.contains a))
  have houtcomes : outcomes (log ++ [(.access a, some (v, s.cache.contains a))]) =
      s.cache.contains a :: outcomes log := by
    simp [outcomes, hrecent]
  have hstart : (s.cache.access s.memory a).2.2.start a = s.cache.start a :=
    BlockCache.start_of_size (s.cache.size_access s.memory a) a
  constructor
  · exact (s.cache.size_access s.memory a).trans h.size_eq
  · exact h.coherent.access a
  · exact h.cell_update fun b => rfl
  · rw [BlockCache.start_access, ← hstart, lastAccess, hrecent]
    rfl
  · rw [houtcomes]
    cases hc : s.cache.contains a with
    | true => simp [BlockCache.access_of_contains hc, h.hits]
    | false => simp [BlockCache.access_of_not_contains hc, h.hits]
  · rw [houtcomes]
    cases hc : s.cache.contains a with
    | true => simp [BlockCache.access_of_contains hc, h.misses]
    | false => simp [BlockCache.access_of_not_contains hc, h.misses]

theorem Follows.write (h : Follows size m log s) {r : Request} {a v : UInt8}
    (hr : r = .write a v ∨ r = .snoop a v) :
    Follows size m (log ++ [(r, none)]) ⟨s.cache.patch a v, s.memory.write a v⟩ := by
  have hrecent : recent (log ++ [(r, none)]) = (r, none) :: recent log := by
    apply recent_append
    rcases hr with rfl | rfl <;> simp
  have hlast : lastAccess (log ++ [(r, none)]) = lastAccess log := by
    rcases hr with rfl | rfl <;> simp [lastAccess, hrecent, address?]
  have houtcomes : outcomes (log ++ [(r, none)]) = outcomes log := by
    simp [outcomes, hrecent]
  constructor
  · exact (s.cache.size_patch a v).trans h.size_eq
  · exact h.coherent.patch a v
  · apply h.cell_update
    intro b
    have hupdate : update s.memory.read r = Function.update s.memory.read a v := by
      rcases hr with rfl | rfl <;> rfl
    rw [hupdate, Memory.cell_write, Function.update_apply]
    by_cases hb : b = a
    · rw [if_pos hb.symm, if_pos hb]
    · rw [if_neg (Ne.symm hb), if_neg hb]
      rfl
  · have hstart : (s.cache.patch a v).start = s.cache.start :=
      funext (BlockCache.start_of_size (s.cache.size_patch a v))
    rw [hlast, BlockCache.start_patch, hstart]
    exact h.resident
  · rw [houtcomes]
    exact h.hits
  · rw [houtcomes]
    exact h.misses

theorem Follows.invalidate (h : Follows size m log s) :
    Follows size m (log ++ [(.invalidate, none)]) ⟨s.cache.invalidate, s.memory⟩ := by
  have hrecent := recent_invalidate log none
  constructor
  · exact s.cache.size_invalidate.trans h.size_eq
  · exact h.coherent.invalidate s.memory
  · exact h.cell_update fun b => rfl
  · simp [lastAccess, hrecent, BlockCache.resident_invalidate]
  · simp [outcomes, hrecent, BlockCache.invalidate]
  · simp [outcomes, hrecent, BlockCache.invalidate]

theorem Follows.serve (h : Follows size m log s) (r : Request) :
    Follows size m (log ++ [(r, (s.serve r).1)]) (s.serve r).2 := by
  cases r with
  | access a =>
    have hnext := h.access a (s.cache.access s.memory a).1
    rw [← s.cache.hit_access s.memory a] at hnext
    exact hnext
  | write a v => exact h.write (.inl rfl)
  | snoop a v => exact h.write (.inr rfl)
  | invalidate => exact h.invalidate

theorem Follows.serveAll (h : Follows size m log s) (requests : List Request) :
    Follows size m (log ++ s.log requests) (s.serveAll requests) := by
  induction requests generalizing s log with
  | nil =>
    rw [CachedMemory.log, List.append_nil]
    exact h
  | cons r rest ih =>
    have hrest := ih (h.serve r)
    rw [List.append_assoc] at hrest
    exact hrest

theorem map_log (s : CachedMemory) (requests : List Request) :
    (s.log requests).map Prod.fst = requests := by
  induction requests generalizing s with
  | nil => rfl
  | cons r rest ih => rw [CachedMemory.log, List.map_cons, ih]

/-- A request is answered as the requests before it leave things. -/
theorem getElem?_log (s : CachedMemory) (past : List Request) (r : Request)
    (future : List Request) :
    (s.log (past ++ r :: future))[past.length]? = some (r, ((s.serveAll past).serve r).1) := by
  induction past generalizing s with
  | nil => rfl
  | cons q past ih =>
    rw [List.cons_append, CachedMemory.log, List.length_cons, List.getElem?_cons_succ]
    exact ih (s.serve q).2

theorem Follows.contains_iff (h : Follows size m log s) (a : UInt8) :
    s.cache.contains a = true ↔ Recalls size log a := by
  rw [BlockCache.contains_iff, h.resident, Option.map_eq_some_iff]
  apply exists_congr
  intro b
  rw [BlockCache.start_eq_iff, h.size_eq]

structure Explained (size : ℕ) (m : Memory) (requests : List Request) : Prop where
  reply : ∀ past a future, requests = past ++ .access a :: future → ∃ hit,
    ((start size m).log requests)[past.length]? =
      some (.access a, some (received m.read past a, hit)) ∧
    (hit = true ↔ Recalls size ((start size m).log past) a)
  memory : ∀ a, ((start size m).serveAll requests).memory.cell a =
    (received m.read requests a, m.tag a)
  hits : ((start size m).serveAll requests).cache.hits =
    (outcomes ((start size m).log requests)).count true
  misses : ((start size m).serveAll requests).cache.misses =
    (outcomes ((start size m).log requests)).count false
  contains : ∀ a, ((start size m).serveAll requests).cache.contains a = true ↔
    ∃ v, (((start size m).serveAll requests).serve (.access a)).1 = some (v, true)

/-- Block sizes that do not divide the size of memory and blocks larger than memory are no
exceptions; a block of no bytes is one of a single byte. -/
theorem explained_by_log (size : ℕ) (m : Memory) (requests : List Request) :
    Explained size m requests := by
  have follows (rs : List Request) :
      Follows size m ((start size m).log rs) ((start size m).serveAll rs) :=
    (follows_start size m).serveAll rs
  have cell (rs : List Request) (a : UInt8) :
      ((start size m).serveAll rs).memory.cell a = (received m.read rs a, m.tag a) := by
    have hcell := (follows rs).cell a
    rwa [map_log] at hcell
  constructor
  · intro past a future heq
    have hp := follows past
    have hread : ((start size m).serveAll past).memory.read a = received m.read past a :=
      congrArg Prod.fst (cell past a)
    refine ⟨((start size m).serveAll past).cache.contains a, ?_, hp.contains_iff a⟩
    rw [heq, getElem?_log]
    simp [CachedMemory.serve, BlockCache.hit_access, hp.coherent.access_value, hread]
  · exact cell requests
  · exact (follows requests).hits
  · exact (follows requests).misses
  · intro a
    simp [CachedMemory.serve, BlockCache.hit_access]

end CachedMemory

end AccumulatorMachine
