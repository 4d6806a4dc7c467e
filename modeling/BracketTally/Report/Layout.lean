import BracketTally.Colour
import BracketTally.Progress
import BracketTally.Text.Blank
import BracketTally.Text.Decimal

namespace BracketTally.Report

/-! ## Rows -/

def columnWidth : Nat := 6

def snippetWidth : Nat := 120

/-- The text without its outer blanks, and of that the first characters only; a blank where it is
cut stays. -/
def snippet (text : String) : String :=
  String.ofList ((Text.trim text.toList).take snippetWidth)

def column (text : String) : String := String.ofList (text.toList.leftpad columnWidth ' ')

def columns (number curly round square : String) : String :=
  column number ++ " " ++ column curly ++ " " ++ column round ++ " " ++ column square ++ "  "

def header : String := columns "LINE" "\x7b \x7d" "( )" "[ ]" ++ "SNIPPET"

def counter (n : Int64) : String := Text.signedDecimal n.toInt

def rowLine (row : Row) : String :=
  columns (Text.decimal row.number) (counter row.totals.curly) (counter row.totals.round)
    (counter row.totals.square) ++ snippet row.text

theorem length_column {text : String} (fits : text.length ≤ columnWidth) :
    (column text).length = columnWidth := by
  simp only [column, String.length_ofList, List.leftpad, List.length_append,
    List.length_replicate, String.length_toList]
  omega

theorem length_columns {number curly round square : String} (hn : number.length ≤ columnWidth)
    (hc : curly.length ≤ columnWidth) (hr : round.length ≤ columnWidth)
    (hs : square.length ≤ columnWidth) : (columns number curly round square).length = 29 := by
  simp only [columns, String.length_append, length_column hn, length_column hc, length_column hr,
    length_column hs]
  rfl

/-! ## Closing lines -/

def summaryLine (totals : Tally) : String :=
  "FINAL BALANCE: \x7b \x7d = " ++ counter totals.curly ++ ", ( ) = " ++ counter totals.round ++
    ", [ ] = " ++ counter totals.square

def balancedMessage : String :=
  "✅ All bracket counts balance to zero (may still hide context-sensitive syntax errors)."

def unbalancedMessage : String :=
  "⚠️  Unbalanced brackets detected. Look for first line where counts become non-zero."

def warning (painter : Painter) : String := painter.paint ⟨true, .yellow⟩ unbalancedMessage

def verdict (painter : Painter) (totals : Tally) : String :=
  if totals.isBalanced then painter.paint ⟨false, .green⟩ balancedMessage else warning painter

def hintLabel : String := "First non-zero running balance at line "

def hint (row : Row) : String :=
  hintLabel ++ Text.decimal row.number ++ ": " ++ snippet row.text

end BracketTally.Report
