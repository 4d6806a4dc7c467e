import BracketTally.CommandLine.Command

namespace BracketTally.CommandLine

inductive Flag
  | changesOnly
  | locate
  | verbose
  | noColour
  deriving DecidableEq

def Flag.name : Flag → String
  | changesOnly => "changes-only"
  | locate => "locate"
  | verbose => "verbose"
  | noColour => "no-color"

def Flag.letter? : Flag → Option Char
  | changesOnly => some 'c'
  | locate => some 'l'
  | verbose => some 'v'
  | noColour => none

structure Arguments where
  path : Option RawText
  changesOnly : Bool
  locate : Bool
  verbose : Bool
  noColour : Bool
  deriving DecidableEq

namespace Arguments

def command : Command Flag where
  flags := [.changesOnly, .locate, .verbose, .noColour]
  name := Flag.name
  letter? := Flag.letter?

theorem mem_flags_command (f : Flag) : f ∈ command.flags := by
  cases f <;> decide

def ofMatches (m : Matches Flag) : Arguments where
  path := m.operand
  changesOnly := m.flags.contains .changesOnly
  locate := m.flags.contains .locate
  verbose := m.flags.contains .verbose
  noColour := m.flags.contains .noColour

def has (a : Arguments) : Flag → Bool
  | .changesOnly => a.changesOnly
  | .locate => a.locate
  | .verbose => a.verbose
  | .noColour => a.noColour

theorem has_ofMatches (m : Matches Flag) (f : Flag) : (ofMatches m).has f = m.flags.contains f := by
  cases f <;> rfl

def parse {ε : Type} (parser : Parser Flag ε) (words : List RawText) : Except ε Arguments :=
  (parser command words).map ofMatches

end Arguments

end BracketTally.CommandLine
