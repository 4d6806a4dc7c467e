import BracketTally.CommandLine.Command

namespace BracketTally.CommandLine

inductive Detail
  | brief
  | full
  deriving DecidableEq

inductive Switch (ι : Type)
  | flag (flag : ι)
  | help (detail : Detail)
  | version

namespace Command

variable {ι : Type} (c : Command ι)

def switchName : Switch ι → String
  | .flag f => c.name f
  | .help _ => "help"
  | .version => "version"

def switchLetter? : Switch ι → Option Char
  | .flag f => c.letter? f
  | .help _ => some 'h'
  | .version => some 'V'

def switches (detail : Detail) : List (Switch ι) :=
  c.flags.map Switch.flag ++ [.help detail, .version]

-- help is given in full if it is asked for by name, in brief if by letter
def switchNamed? (name : RawText) : Option (Switch ι) :=
  (c.switches .full).find? fun s => RawText.ofString (c.switchName s) = name

def switchLettered? (letter : Char) : Option (Switch ι) :=
  (c.switches .brief).find? (c.switchLetter? · == some letter)

end Command

/-! ## Words -/

inductive Word
  | separator
  | long (name : RawText) (value : Option RawText)
  | cluster (letters : List Char) (broken : Option RawText)
  | operand

namespace Word

def equals : UInt8 := 0x3D

def ofLong (bytes : List UInt8) : Word :=
  let name := ⟨bytes.takeWhile (· ≠ equals)⟩
  match bytes.dropWhile (· ≠ equals) with
  | [] => long name none
  | _ :: value => long name (some ⟨value⟩)

def ofShort (bytes : List UInt8) : Word :=
  match Utf8.decode bytes with
  | .ok letters => cluster letters none
  | .error m =>
      cluster (Utf8.decodeShown (bytes.take m.index)) (some ⟨bytes.drop m.index⟩)

def ofRaw (word : RawText) : Word :=
  match word.bytes with
  | first :: second :: bytes =>
      if first ≠ dash then operand
      else if second ≠ dash then ofShort (second :: bytes)
      else if bytes = [] then separator
      else ofLong bytes
  | _ => operand

end Word

end BracketTally.CommandLine
