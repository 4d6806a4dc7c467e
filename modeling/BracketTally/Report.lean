import BracketTally.Report.Layout

namespace BracketTally

/-! ## The first imbalance -/

structure Tracker where
  first : Option Row

namespace Tracker

def empty : Tracker := ⟨none⟩

def record (t : Tracker) (row : Row) : Tracker :=
  if t.first.isNone && !row.totals.isBalanced then ⟨some row⟩ else t

def firstLine (t : Tracker) : Option Nat := t.first.map Row.number

def ofRows (rows : List Row) : Tracker := rows.foldl record empty

theorem foldl_record_some (row : Row) (rows : List Row) :
    rows.foldl record ⟨some row⟩ = ⟨some row⟩ := by
  induction rows with
  | nil => rfl
  | cons r rows ih => exact ih

theorem ofRows_eq_find? (rows : List Row) :
    (ofRows rows).first = rows.find? (!·.totals.isBalanced) := by
  unfold ofRows
  induction rows with
  | nil => rfl
  | cons r rows ih =>
      rw [List.foldl_cons, List.find?_cons]
      cases h : r.totals.isBalanced with
      | true => simpa [record, empty, h] using ih
      | false => simp [record, empty, h, foldl_record_some]

end Tracker

namespace Report

/-! ## Changes -/

/-- The rows whose totals differ from those before them. -/
def changes (before : Tally) : List Row → List Row
  | [] => []
  | r :: rows =>
      if r.totals = before then changes r.totals rows else r :: changes r.totals rows

theorem changes_sublist (before : Tally) (rows : List Row) :
    (changes before rows).Sublist rows := by
  induction rows generalizing before with
  | nil => exact .slnil
  | cons r rows ih =>
      unfold changes
      split
      · exact .cons r (ih r.totals)
      · exact .cons_cons r (ih r.totals)

/-! ## The whole report -/

structure Options where
  changesOnly : Bool
  locate : Bool

structure Summary where
  lines : Nat
  totals : Tally
  firstImbalance : Option Nat
  deriving DecidableEq

def finalTotals (rows : List Row) : Tally :=
  match rows.getLast? with
  | none => 0
  | some r => r.totals

def summary (rows : List Row) : Summary :=
  ⟨(rows.getLast?.map Row.number).getD 0, finalTotals rows, (Tracker.ofRows rows).firstLine⟩

def shown (options : Options) (rows : List Row) : List Row :=
  if options.changesOnly then changes 0 rows else rows

def hints (options : Options) (rows : List Row) : List String :=
  if options.locate then ((Tracker.ofRows rows).first.map hint).toList else []

def lines (options : Options) (painter : Painter) (rows : List Row) : List String :=
  header :: (shown options rows).map rowLine ++
    ["", summaryLine (finalTotals rows), verdict painter (finalTotals rows)] ++
    hints options rows

end Report

end BracketTally
