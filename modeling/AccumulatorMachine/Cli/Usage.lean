import AccumulatorMachine.Base
import AccumulatorMachine.Text.EscapeSequence

/-! The options of the command line, and how messages name them. -/
namespace AccumulatorMachine.Cli

inductive Subcommand where
  | run
  | step
  | asm
  | convert
  deriving DecidableEq, Repr

def Subcommand.ofName? (name : String) : Option Subcommand :=
  if name = "run" then some .run
  else if name = "step" then some .step
  else if name = "asm" then some .asm
  else if name = "convert" then some .convert
  else none

inductive Slot where
  | file
  | base
  | config
  | trace
  | json
  | stats
  | count
  | target
  | help
  deriving DecidableEq, Repr

namespace Slot

def takesValue : Slot → Bool
  | file | base | config | count | target => true
  | trace | json | stats | help => false

def shown : Slot → String
  | file => "<FILE>"
  | base => "--base <BASE>"
  | config => "--config <CONFIG>"
  | trace => "--trace"
  | json => "--json"
  | stats => "--stats"
  | count => "--count <COUNT>"
  | target => "--to <TO>"
  | help => "--help"

def ofLong? (c : Subcommand) (name : String) : Option Slot :=
  match name, c with
  | "base", _ => some base
  | "config", _ => some config
  | "trace", _ => some trace
  | "help", _ => some help
  | "json", .run => some json
  | "stats", .run => some stats
  | "count", .step => some count
  | "to", .convert => some target
  | _, _ => none

def ofShort? (c : Subcommand) (name : Char) : Option Slot :=
  if name = 'h' then some help
  else if name = 'n' ∧ c = .step then some count
  else none

end Slot

def about : String := "NeanderWeb-V accumulator machine simulator"

inductive UsageError where
  | missingSubcommand
  | unexpectedArgument (shown : String)
  | unrecognizedSubcommand (name : String)
  | missingArguments
  | missingValue (slot : String)
  | repeated (slot : String)
  | unexpectedValue (value : String) (slot : String)
  | invalidValue (value : String) (slot : String) (reason : String)
  deriving DecidableEq, Repr

/-- A text between two changes of style. -/
def marked (s : String) : String := "\x1b[m" ++ s ++ "\x1b[m"

def advice : String := "\n\nFor more information, try '" ++ marked "--help" ++ "'."

def UsageError.styled : UsageError → String
  | missingSubcommand => about
  | unexpectedArgument shown => s!"error: unexpected argument '{marked shown}' found"
  | unrecognizedSubcommand name => s!"error: unrecognized subcommand '{marked name}'"
  | missingArguments => "error: the following required arguments were not provided:"
  | missingValue slot => s!"error: a value is required for '{marked slot}' but none was supplied"
  | repeated slot => s!"error: the argument '{marked slot}' cannot be used multiple times"
  | unexpectedValue value slot =>
    s!"error: unexpected value '{marked value}' for '{marked slot}' found; no more were expected"
  | invalidValue value slot reason =>
    s!"error: invalid value '{marked value}' for '{marked slot}': {reason}{advice}"

/-- What is said on a plain terminal. The styles are taken out, and with them every escape sequence
that an argument brings along. -/
def UsageError.message (e : UsageError) : String :=
  String.ofList (Text.EscapeSequence.strip e.styled.toList)

end AccumulatorMachine.Cli
