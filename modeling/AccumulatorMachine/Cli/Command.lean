import AccumulatorMachine.Cli.Arguments
import AccumulatorMachine.Listing
import AccumulatorMachine.Log.Filter
import AccumulatorMachine.Log.Narration
import AccumulatorMachine.ProgramFile.Store
import AccumulatorMachine.Settings.Store
import AccumulatorMachine.Simulator.Snapshot

/-! The commands. A command reads its files, does its work and answers with what it prints, what
it reports beside that, and its exit code. -/
namespace AccumulatorMachine.Cli

/-- What is reported beside the output: log events, and lines of plain text. -/
inductive Notice where
  | event (e : Log.Event)
  | line (s : String)
  deriving DecidableEq, Repr

structure Outcome where
  exit : Nat := 0
  output : String
  /-- Statistics to be reported behind the output. -/
  statistics : Option Statistics := none
  notices : List Notice := []
  deriving DecidableEq, Repr

/-- All that is printed, given the time the command took as it is to be shown. -/
def Outcome.text (o : Outcome) (hostSeconds : String) : String :=
  o.output ++ o.statistics.elim "" fun s => s.report hostSeconds []

structure Surroundings where
  read : FileReader
  logSetting : Option String

structure Inputs where
  settings : Settings
  program : ProgramFile
  deriving DecidableEq, Repr

/-- Reads the settings, then the program. Options override settings. -/
def Common.inputs (c : Common) (read : FileReader) : Except String Inputs := do
  let loaded ← match c.config with
    | some path => (Settings.load read path).mapError (·.message)
    | none => .ok {}
  let settings := { loaded with
    base := c.base.getD loaded.base
    traceInstructions := c.trace || loaded.traceInstructions }
  let program ← (ProgramFile.load read c.file settings.base).mapError
    (ProgramFile.accessMessage c.file)
  .ok ⟨settings, program⟩

def Inputs.prepare (i : Inputs) : AssemblyReport × Simulator :=
  (Simulator.new i.settings).loadProgram i.program

def Inputs.truncation (i : Inputs) (file : String) : List Notice :=
  let report := i.prepare.1
  if report.truncated then
    let assembled := report.linesAssembled
    let count := i.program.lines.length
    [.line s!"[!] {file}: only {assembled} of {count} lines fit in memory"]
  else []

def cacheLine (kind : CacheKind) (c : BlockCache) : String :=
  let rate := Decimal.ofFloat 2 (hitRate c.hits c.misses)
  s!"{kind.label}: hits={shownCounter c.hits} misses={shownCounter c.misses} rate={rate}%"

def outcomeLine (r : RunReport) : String :=
  match r.outcome with
  | .halted => s!"[*] Program halted after {r.steps} steps"
  | .faulted f => s!"[!] {f.message} after {r.steps} steps"
  | .loopGuardTripped => s!"[!] Infinite loop detected: stopped after {r.steps} steps"

def exitCode : RunOutcome → Nat
  | .halted => 0
  | .faulted _ => 1
  | .loopGuardTripped => 2

def runDocument (r : RunReport) (s : Simulator) : String :=
  (Json.Data.record [("report", Snapshot.report r), ("snapshot", Snapshot.simulator s)]).pretty

def runText (r : RunReport) (s : Simulator) : List String :=
  [outcomeLine r, s.machine.regs.dump s.base, cacheLine .instruction s.machine.icache,
    cacheLine .data s.machine.dcache]

def unlines (lines : List String) : String := String.join (lines.map (· ++ "\n"))

def runProgram (s : Simulator) (json stats : Bool) : Outcome :=
  let (report, s) := s.run
  { exit := exitCode report.outcome
    output := unlines (if json then [runDocument report s] else runText report s)
    statistics := if stats then some s.statistics else none }

def nextText (base : Base) (m : Machine) : String :=
  if m.regs.pc < 256 then
    String.ofList (Listing.rowAt base m.memory (UInt8.ofNat m.regs.pc)).1
  else "??"

def stepLine (n : Nat) (text : String) (base : Base) (m : Machine) : String :=
  Decimal.padLeft 4 (toString n) ++ "  " ++ Decimal.padRight 12 text ++ " " ++ m.regs.dump base

/-- The lines of at most `left` steps, the first of them numbered `n`, and the exit code. -/
def stepLines (base : Base) (m : Machine) (n left : Nat) : List String × Nat :=
  match left with
  | 0 => ([], 0)
  | left + 1 =>
    let after := m.step
    let line := stepLine n (nextText base m) base after
    match after.state with
    | .running =>
      let (lines, exit) := stepLines base after (n + 1) left
      (line :: lines, exit)
    | .halted => ([line, "[*] Program halted"], 0)
    | .faulted f => ([line, s!"[!] {f.message}"], 1)

def stepEvents (keep : Log.Event → Bool) (m : Machine) (left : Nat) : List Log.Event :=
  match left with
  | 0 => []
  | left + 1 =>
    let events := (Log.Narration.step m).filter keep
    match m.step.state with
    | .running => events ++ stepEvents keep m.step left
    | .halted | .faulted _ => events

def stepProgram (s : Simulator) (count : Nat) : Outcome :=
  let (lines, exit) := stepLines s.base s.machine 1 count
  { exit := exit, output := unlines (("       " ++ s.machine.regs.dump s.base) :: lines) }

def listingLine (base : Base) (row : Listing.Row) : String :=
  let address := String.ofList (Numeral.writeNat base row.address.toNat)
  let tag := match row.tag with
    | some t => "; " ++ t.name
    | none => ""
  Decimal.padLeft 3 address ++ "  " ++ Decimal.padRight 14 (String.ofList row.text) ++ tag

def listProgram (s : Simulator) : String :=
  unlines ((Listing.rows s.base s.machine.memory).map (listingLine s.base))

def convertProgram (p : ProgramFile) (target : Base) : String :=
  String.ofList (ProgramFile.render ⟨target, Conversion.convert p.base target p.lines⟩) ++ "\n"

def Command.common : Command → Common
  | run c _ _ | step c _ | asm c | convert c _ => c

def Command.outcome (c : Command) (i : Inputs) : Outcome :=
  let s := i.prepare.2
  match c with
  | run _ json stats => runProgram s json stats
  | step _ count => stepProgram s count
  | asm _ => { output := listProgram s }
  | convert _ target => { output := convertProgram i.program target }

def Command.notices (c : Command) (i : Inputs) (keep : Log.Event → Bool) : List Notice :=
  let file := c.common.file
  let shown (events : List Log.Event) : List Notice := (events.filter keep).map .event
  let (report, s) := i.prepare
  let loaded := shown [.loaded file i.program]
  let prepared :=
    loaded ++ shown [.assembled i.program.base report, .reset] ++ i.truncation file
  match c with
  | run _ _ _ =>
    prepared ++ (Log.Narration.run keep s.machine s.settings.loopGuard).map .event
  | step _ count => prepared ++ (stepEvents keep s.machine count).map .event
  | asm _ => prepared
  | convert _ target => loaded ++ shown [.converting i.program.base target i.program.lines.length]

/-- A command fails as a whole if one of its files cannot be read. -/
def Command.perform (c : Command) (o : Surroundings) : Outcome :=
  match c.common.inputs o.read with
  | .error message =>
    { exit := 1, output := "", notices := [.line "", .line s!"[!] FATAL: {message}"] }
  | .ok i =>
    let keep := (Log.Filter.choose c.common.trace o.logSetting).shows
    { c.outcome i with notices := c.notices i keep }

def version : String := "neander 0.3.0"

def help : String :=
  unlines [about, "", "Usage: neander <run|step|asm|convert> [OPTIONS] <FILE>"]

def firstLine (s : String) : String :=
  String.ofList (ProgramFile.dropReturn (s.toList.takeWhile (· ≠ '\n')))

def filesNamed (args : List String) : List String :=
  match readTop args with
  | .ok (.command c) => c.common.file :: c.common.config.toList
  | _ => []

/-- Runs the program on its arguments; a usage error is answered with its first line. -/
def perform (args : List String) (o : Surroundings) : Except String Outcome :=
  match readTop args with
  | .error e => .error (firstLine e.message)
  | .ok .version => .ok { output := version ++ "\n" }
  | .ok .help => .ok { output := help }
  | .ok (.command c) => .ok (c.perform o)

end AccumulatorMachine.Cli
