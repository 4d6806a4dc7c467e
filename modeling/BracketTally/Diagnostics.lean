import BracketTally.Report
import BracketTally.Text.Raw
import BracketTally.Title

namespace BracketTally.Diagnostics

def rate (count : UInt64) (elapsed : Float) : Float :=
  if elapsed > 0 then count.toFloat / elapsed else 0

def banner (painter : Painter) (path : RawText) : List String :=
  [painter.paint ⟨true, .brightCyan⟩ Title.name ++ " " ++
      painter.paint ⟨false, .brightYellow⟩ ("v" ++ Title.version),
    "Scanning " ++ path.display]

def figure (painter : Painter) (text : String) : String :=
  painter.paint ⟨false, .brightYellow⟩ text

def speedLine (painter : Painter) (lines : Nat) (elapsed : Float) : String :=
  "Scanned " ++ figure painter (Text.decimal lines) ++ " lines in " ++
    figure painter (Text.fixedPoint 2 elapsed) ++ " seconds (" ++
    figure painter (Text.fixedPoint 1 (rate (UInt64.ofNat lines) elapsed) ++ " lines/sec") ++ ")"

def imbalanceLine (painter : Painter) (line : Nat) : String :=
  "Running balance first left zero at line " ++ figure painter (Text.decimal line)

def openLiteralLine (painter : Painter) (delimiter : Delimiter) : String :=
  painter.paint ⟨true, .red⟩ "Warning" ++ ": file ends inside a " ++ delimiter.text ++
    " string literal; later counts may be unreliable"

def closing (painter : Painter) (summary : Report.Summary) (mode : Mode) (elapsed : Float) :
    List String :=
  speedLine painter summary.lines elapsed ::
    (summary.firstImbalance.map (imbalanceLine painter)).toList ++
    (mode.delimiter?.map (openLiteralLine painter)).toList

end BracketTally.Diagnostics
