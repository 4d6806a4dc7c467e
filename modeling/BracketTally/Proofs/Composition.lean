import BracketTally.Report.Writing

namespace BracketTally

theorem Tracker.first_ofRows (rows : List Row) :
    (ofRows rows).first = rows.find? (·.totals ≠ 0) := by
  rw [ofRows_eq_find?]
  congr 1
  funext row
  by_cases zero : row.totals = 0
  · simp [zero, Tally.isBalanced_iff.2]
  · simp [zero, Bool.eq_false_iff.2 (mt Tally.isBalanced_iff.1 zero)]

theorem Tracker.firstLine_ofRows (rows : List Row) :
    (ofRows rows).firstLine = (rows.find? (·.totals ≠ 0)).map Row.number := by
  rw [firstLine, first_ofRows]

namespace Report

/-! ## Rows and the totals before them -/

end Report

end BracketTally
