import AccumulatorMachine.Log.Directive

/-! Which events are shown. A filter is a list of directives separated by commas; of those that fit
an event the most specific one decides. -/
namespace AccumulatorMachine.Log

structure Filter where
  directives : List Directive
  deriving DecidableEq, Repr

namespace Filter

def upTo (level : Level) : Filter := ⟨[⟨[], [], false, level.verbosity⟩]⟩

/-- A filter without directives shows errors alone. -/
def parse? (text : String) : Option Filter := do
  let parts := (text.toList.splitOn ',').filter (· ≠ [])
  if parts.isEmpty then some (upTo .error) else some ⟨← parts.mapM Directive.parse?⟩

/-- Of equally specific directives the last one counts. -/
def deciding? (f : Filter) (e : Event) : Option Directive :=
  (f.directives.filter (·.fits e)).foldl (fun best d =>
    match best with
    | none => some d
    | some b => if b.yieldsTo d then some d else some b) none

def shows (f : Filter) (e : Event) : Bool :=
  match f.deciding? e with
  | some d => e.level.verbosity ≤ d.verbosity
  | none => false

/-- Everything on request, else what the setting says, and warnings if it says nothing. -/
def choose (everything : Bool) (setting : Option String) : Filter :=
  if everything then upTo .trace else (setting.bind parse?).getD (upTo .warn)

end Filter

end AccumulatorMachine.Log
