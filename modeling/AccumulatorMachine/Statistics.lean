import AccumulatorMachine.Counts
import AccumulatorMachine.Decimal

/-! The statistics of a run and their report. The report shows counters as 64-bit words and rates
as double-precision percentages. -/
namespace AccumulatorMachine

structure Statistics where
  counts : Counts := {}
  icacheHits : Nat := 0
  icacheMisses : Nat := 0
  dcacheHits : Nat := 0
  dcacheMisses : Nat := 0
  deriving DecidableEq, Repr

def shownCounter (n : Nat) : Nat := n % Nat.pow 2 64

/-- Hits in percent of all accesses, 0 without any. -/
def hitRate (hits misses : Nat) : Float :=
  let total := shownCounter (shownCounter hits + shownCounter misses)
  if total = 0 then 0 else 100 * Float.ofNat (shownCounter hits) / Float.ofNat total

namespace Statistics

def counters (s : Statistics) : List (String × Nat) :=
  [("instructions_retired", s.counts.retired), ("inst_load", s.counts.load),
    ("inst_store", s.counts.store), ("inst_alu", s.counts.alu), ("inst_branch", s.counts.branch),
    ("inst_vector", s.counts.vector), ("inst_system", s.counts.system),
    ("branches_taken", s.counts.branchesTaken), ("faults", s.counts.faults),
    ("icache_hits", s.icacheHits), ("icache_misses", s.icacheMisses),
    ("dcache_hits", s.dcacheHits), ("dcache_misses", s.dcacheMisses)].map
  fun (name, n) => (name, shownCounter n)

def share (s : Statistics) (n : Nat) : Float :=
  Float.ofNat (shownCounter n) / Float.ofNat (max (shownCounter s.counts.retired) 1) * 100

def heavyRule : String := "==========================================================\n"

def lightRule : String := "----------------------------------------------------------\n"

/-- The time a run took is measured outside and shown as given. -/
def summary (s : Statistics) (hostSeconds : String) : String :=
  "\n" ++ heavyRule ++ "NEANDERWEB-V SIMULATION STATISTICS\n" ++ heavyRule ++
  s!"host_seconds             {hostSeconds} s\n" ++
  s!"sim_insts                {shownCounter s.counts.retired}\n" ++
  s!"branches.taken           {shownCounter s.counts.branchesTaken}\n" ++
  s!"faults                   {shownCounter s.counts.faults}\n" ++ lightRule

def mixLine (s : Statistics) (label : String) (n : Nat) : String :=
  let percent := Decimal.ofFloat 2 (s.share n)
  s!"  {Decimal.padRight 21 label}{shownCounter n} ({percent}%)\n"

def instructionMix (s : Statistics) : String :=
  "INSTRUCTION MIX\n" ++ s.mixLine "op.load" s.counts.load ++ s.mixLine "op.store" s.counts.store ++
  s.mixLine "op.alu" s.counts.alu ++ s.mixLine "op.branch" s.counts.branch ++
  s.mixLine "op.vector" s.counts.vector ++ s.mixLine "op.system" s.counts.system ++ lightRule

def cacheLine (label : String) (hits misses : Nat) : String :=
  let column (n : Nat) : String := Decimal.padRight 8 (toString (shownCounter n))
  let rate := Decimal.ofFloat 2 (hitRate hits misses)
  "  " ++ Decimal.padRight 8 label ++ " accesses: " ++
    column (shownCounter hits + shownCounter misses) ++ " hits: " ++ column hits ++ " misses: " ++
    column misses ++ " rate: " ++ rate ++ "%\n"

def memoryHierarchy (s : Statistics) : String :=
  "MEMORY HIERARCHY\n" ++ cacheLine "icache" s.icacheHits s.icacheMisses ++
  cacheLine "dcache" s.dcacheHits s.dcacheMisses ++ heavyRule

/-- The sections named, in a fixed order; all of them if none is named. -/
def report (s : Statistics) (hostSeconds : String) (sections : List String) : String :=
  let wanted (name : String) : Bool := sections.isEmpty || sections.contains name
  (if wanted "summary" then s.summary hostSeconds else "") ++
  (if wanted "instruction_mix" then s.instructionMix else "") ++
  (if wanted "memory" then s.memoryHierarchy else "")

end Statistics

end AccumulatorMachine
