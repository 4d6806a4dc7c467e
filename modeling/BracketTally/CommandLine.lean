import BracketTally.CommandLine.Help
import BracketTally.CommandLine.Word

namespace BracketTally.CommandLine

/-! ## What stops the reading -/

inductive Refusal
  | unexpectedArgument (text : String)
  | unexpectedValue (value : String) (name : String)
  | repeatedFlag (name : String)
  | emptyPath
  deriving DecidableEq

inductive Stop
  | help (detail : Detail)
  | version
  | refused (refusal : Refusal)
  deriving DecidableEq

def Refusal.message (r : Refusal) : Message :=
  Mark.failure.part "error:" ::
    match r with
    | unexpectedArgument text =>
        [unmarked " unexpected argument '", Mark.culprit.part text, unmarked "' found"]
    | unexpectedValue value name =>
        [unmarked " unexpected value '", Mark.culprit.part value, unmarked "' for '",
          Mark.literal.part ("--" ++ name), unmarked "' found; no more were expected"]
    | repeatedFlag name =>
        [unmarked " the argument '", Mark.culprit.part ("--" ++ name),
          unmarked "' cannot be used multiple times"]
    | emptyPath =>
        [unmarked " a value is required for '", Mark.culprit.part "[PATH]",
          unmarked "' but none was supplied"]

def Stop.message : Stop → Message
  | help detail => Help.message detail
  | version => Help.version
  | refused r => r.message

/-! ## Taking words -/

structure Taken (ι : Type) where
  flags : List ι
  operand : Option RawText
  closed : Bool

namespace Taken

variable {ι : Type} [DecidableEq ι] (c : Command ι) (s : Taken ι)

-- only here and at the end it is noticed that an operand is empty
def takeSwitch (switch : Switch ι) : Except Stop (Taken ι) :=
  if s.operand = some ⟨[]⟩ then .error (.refused .emptyPath)
  else match switch with
    | .help detail => .error (.help detail)
    | .version => .error .version
    | .flag f =>
        if f ∈ s.flags then .error (.refused (.repeatedFlag (c.name f)))
        else .ok { s with flags := s.flags ++ [f] }

def takeLong (name : RawText) (value : Option RawText) : Except Stop (Taken ι) :=
  match c.switchNamed? name, value with
  | none, _ => .error (.refused (.unexpectedArgument ("--" ++ name.display)))
  | some switch, none => s.takeSwitch c switch
  | some switch, some value =>
      .error (.refused (.unexpectedValue value.display (c.switchName switch)))

def takeLetter (letter : Char) : Except Stop (Taken ι) :=
  match c.switchLettered? letter with
  | none => .error (.refused (.unexpectedArgument (String.ofList ['-', letter])))
  | some switch => s.takeSwitch c switch

def takeCluster (letters : List Char) (broken : Option RawText) : Except Stop (Taken ι) :=
  (letters.foldlM (takeLetter c) s).bind fun s =>
    match broken with
    | none => .ok s
    | some rest => .error (.refused (.unexpectedArgument ("-" ++ rest.display)))

def takeOperand (word : RawText) : Except Stop (Taken ι) :=
  match s.operand with
  | none => .ok { s with operand := some word }
  | some _ => .error (.refused (.unexpectedArgument word.display))

def takeWord (word : RawText) : Except Stop (Taken ι) :=
  if s.closed then s.takeOperand word
  else match Word.ofRaw word with
    | .separator => .ok { s with closed := true }
    | .long name value => s.takeLong c name value
    | .cluster letters broken => s.takeCluster c letters broken
    | .operand => s.takeOperand word

def finish : Except Stop (Matches ι) :=
  if s.operand = some ⟨[]⟩ then .error (.refused .emptyPath) else .ok ⟨s.flags, s.operand⟩

end Taken

def parse {ι : Type} [DecidableEq ι] : Parser ι Stop := fun c words =>
  (words.foldlM (Taken.takeWord c) ⟨[], none, false⟩).bind Taken.finish

end BracketTally.CommandLine
