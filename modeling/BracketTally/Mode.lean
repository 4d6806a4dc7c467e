import BracketTally.Glyph

namespace BracketTally

inductive Extent
  | simple
  | triple
  deriving DecidableEq

structure Delimiter where
  quote : Quote
  extent : Extent
  deriving DecidableEq

namespace Delimiter

def length (d : Delimiter) : Nat :=
  match d.extent with
  | .simple => 1
  | .triple => 3

def glyphs (d : Delimiter) : List Glyph := List.replicate d.length (.quote d.quote)

def text (d : Delimiter) : String := String.ofList (List.replicate d.length d.quote.symbol)

end Delimiter

inductive Mode
  | code
  | literal (delimiter : Delimiter)
  deriving DecidableEq

def Mode.delimiter? : Mode → Option Delimiter
  | .code => none
  | .literal d => some d

end BracketTally
