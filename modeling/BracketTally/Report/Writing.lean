import BracketTally.Report
import BracketTally.Sink

/-!
# Writing a report

A report is written while its rows go by, and no further than the sink takes it.  A row is made
when it is asked for, of the next item and of where its maker stands; in the end the maker stands
behind all items.
-/

namespace BracketTally.Report

/-! ## Accounts -/

structure Account where
  lines : Nat
  totals : Tally
  tracker : Tracker

namespace Account

def empty : Account := ⟨0, 0, .empty⟩

def record (account : Account) (row : Row) : Account :=
  ⟨row.number, row.totals, account.tracker.record row⟩

def shows (account : Account) (options : Options) (row : Row) : Bool :=
  !options.changesOnly || row.totals ≠ account.totals

def closing (account : Account) (options : Options) (painter : Painter) : List String :=
  ["", summaryLine account.totals, verdict painter account.totals] ++
    if options.locate then (account.tracker.first.map hint).toList else []

def summary (account : Account) : Summary :=
  ⟨account.lines, account.totals, account.tracker.firstLine⟩

end Account

/-! ## Writing -/

section Writing

variable {σ α : Type} (next : σ → α → Row × σ)

def rowsFrom (maker : σ) : List α → List Row
  | [] => []
  | item :: items => (next maker item).1 :: rowsFrom (next maker item).2 items

def makerAfter (maker : σ) (items : List α) : σ :=
  items.foldl (fun maker item => (next maker item).2) maker

def writeRows (options : Options) (painter : Painter) (account : Account) (sink : Sink) (maker : σ) :
    List α → Written (Summary × σ)
  | [] =>
      (sink.writeLines (account.closing options painter)).andThen fun _ =>
        .nothing (account.summary, maker)
  | item :: items =>
      let (row, maker) := next maker item
      let written :=
        if account.shows options row then sink.writeLine (rowLine row) else .nothing sink
      written.andThen fun sink => writeRows options painter (account.record row) sink maker items

def writeFrom (sink : Sink) (options : Options) (painter : Painter) (maker : σ) (items : List α) :
    Written (Summary × σ) :=
  (sink.writeLine header).andThen fun sink =>
    writeRows next options painter .empty sink maker items

end Writing

def write (sink : Sink) (options : Options) (painter : Painter) (rows : List Row) : Written Summary :=
  (writeFrom (fun (_ : Unit) row => (row, ())) sink options painter () rows).andThen
    fun (summary, _) => .nothing summary

/-! ## What has gone by -/

theorem foldl_record (account : Account) (rows : List Row) :
    rows.foldl .record account =
      ⟨(rows.getLast?.map Row.number).getD account.lines,
        (rows.getLast?.map Row.totals).getD account.totals,
        rows.foldl .record account.tracker⟩ := by
  induction rows generalizing account with
  | nil => rfl
  | cons row rows ih =>
      rw [List.foldl_cons, ih, List.getLast?_cons]
      cases rows.getLast? <;> rfl

theorem finalTotals_eq (rows : List Row) :
    finalTotals rows = (rows.getLast?.map Row.totals).getD 0 := by
  unfold finalTotals
  cases rows.getLast? <;> rfl

theorem summary_foldl_record (rows : List Row) :
    (rows.foldl Account.record .empty).summary = summary rows := by
  rw [foldl_record, summary, finalTotals_eq]
  rfl

theorem closing_foldl_record (options : Options) (painter : Painter) (rows : List Row) :
    (rows.foldl Account.record .empty).closing options painter =
      ["", summaryLine (finalTotals rows), verdict painter (finalTotals rows)] ++
        hints options rows := by
  rw [foldl_record, finalTotals_eq]
  rfl

/-! ## Row by row -/

def shownAfter (before : Tally) (options : Options) (rows : List Row) : List Row :=
  if options.changesOnly then changes before rows else rows

theorem shownAfter_cons (account : Account) (options : Options) (row : Row) (rows : List Row) :
    shownAfter account.totals options (row :: rows) =
      if account.shows options row then row :: shownAfter row.totals options rows
      else shownAfter row.totals options rows := by
  obtain ⟨changesOnly, locate⟩ := options
  cases changesOnly with
  | false => rfl
  | true =>
      by_cases same : row.totals = account.totals <;>
        simp [shownAfter, Account.shows, changes, same]

section Writing

variable {σ α : Type} (next : σ → α → Row × σ)

theorem writeRows_eq_deliver (options : Options) (painter : Painter) (account : Account) (sink : Sink)
    (maker : σ) (items : List α) :
    writeRows next options painter account sink maker items =
      let rows := rowsFrom next maker items
      sink.deliver (((shownAfter account.totals options rows).map rowLine ++
          (rows.foldl .record account).closing options painter).flatMap lineBytes)
        ((rows.foldl Account.record account).summary, makerAfter next maker items) := by
  induction items generalizing account sink maker with
  | nil =>
      have none : shownAfter account.totals options [] = [] := by
        cases h : options.changesOnly <;> simp [shownAfter, h, changes]
      rw [writeRows, Sink.writeLines_eq]
      simp only [rowsFrom, none]
      rfl
  | cons item items ih =>
      simp only [writeRows, rowsFrom, shownAfter_cons, List.foldl_cons]
      cases account.shows options (next maker item).1 with
      | true =>
          simp only [if_true, ih, List.map_cons, List.cons_append, List.flatMap_cons,
            Sink.writeLine_eq, Sink.deliver, Sink.write_append, Written.andThen_assoc]
          rfl
      | false => exact ih (account.record (next maker item).1) sink (next maker item).2

theorem writeFrom_eq_deliver (sink : Sink) (options : Options) (painter : Painter) (maker : σ)
    (items : List α) :
    writeFrom next sink options painter maker items =
      let rows := rowsFrom next maker items
      sink.deliver ((lines options painter rows).flatMap lineBytes)
        (summary rows, makerAfter next maker items) := by
  have whole : ∀ rows, lines options painter rows =
      header :: ((shownAfter 0 options rows).map rowLine ++
        (rows.foldl Account.record .empty).closing options painter) := by
    intro rows
    rw [closing_foldl_record, ← List.append_assoc]
    rfl
  simp only [writeFrom, whole, List.flatMap_cons, writeRows_eq_deliver, summary_foldl_record,
    Sink.writeLine_eq, Sink.deliver, Sink.write_append, Written.andThen_assoc]
  rfl

end Writing

theorem rowsFrom_rows (rows : List Row) :
    rowsFrom (fun (_ : Unit) row => (row, ())) () rows = rows := by
  induction rows with
  | nil => rfl
  | cons row rows ih => exact congrArg (row :: ·) ih

theorem write_eq_deliver (sink : Sink) (options : Options) (painter : Painter) (rows : List Row) :
    write sink options painter rows =
      sink.deliver ((lines options painter rows).flatMap lineBytes) (summary rows) := by
  rw [write, writeFrom_eq_deliver, rowsFrom_rows]
  exact Sink.deliver_andThen_nothing ..

theorem rowsFrom_next (p : Progress) (texts : List String) :
    rowsFrom Progress.next p texts = p.rows texts := by
  induction texts generalizing p with
  | nil => rfl
  | cons line texts ih => exact congrArg ((p.read line).row line :: ·) (ih (p.read line))

theorem writeFrom_next_eq_deliver (sink : Sink) (options : Options) (painter : Painter)
    (p : Progress) (texts : List String) :
    writeFrom Progress.next sink options painter p texts =
      sink.deliver ((lines options painter (p.rows texts)).flatMap lineBytes)
        (summary (p.rows texts), p.readAll texts) := by
  rw [writeFrom_eq_deliver, rowsFrom_next]
  rfl

end BracketTally.Report
