import BracketTally.Proofs.Composition
import BracketTally.Proofs.Painting
import Mathlib.Data.List.Chain

namespace BracketTally

/-! ## Totals after rows -/

namespace Report

def totalsAfter (before : Tally) (rows : List Row) : Tally :=
  (rows.getLast?.map Row.totals).getD before

@[simp]
theorem totalsAfter_cons (before : Tally) (row : Row) (rows : List Row) :
    totalsAfter before (row :: rows) = totalsAfter row.totals rows := by
  rw [totalsAfter, List.getLast?_cons, totalsAfter]
  cases rows.getLast? <;> rfl

theorem totalsAfter_changes (before : Tally) (rows : List Row) :
    totalsAfter before (changes before rows) = totalsAfter before rows := by
  induction rows generalizing before with
  | nil => rfl
  | cons row rows ih =>
      rw [changes, totalsAfter_cons]
      split
      case isTrue same => rw [← same, ih]
      case isFalse => rw [totalsAfter_cons, ih]

theorem finalTotals_changes (rows : List Row) : finalTotals (changes 0 rows) = finalTotals rows := by
  rw [finalTotals_eq, finalTotals_eq]
  exact totalsAfter_changes 0 rows

theorem changes_append (before : Tally) (rows later : List Row) :
    changes before (rows ++ later) =
      changes before rows ++ changes (totalsAfter before rows) later := by
  induction rows generalizing before with
  | nil => rfl
  | cons row rows ih =>
      rw [List.cons_append, changes, changes, totalsAfter_cons, ih]
      split <;> rfl

theorem isChain_changes (before : Tally) (rows : List Row) :
    List.IsChain (· ≠ ·) (before :: (changes before rows).map Row.totals) := by
  induction rows generalizing before with
  | nil => exact .singleton before
  | cons row rows ih =>
      rw [changes]
      split
      -- a row that is left out has the totals that the chain begins with
      case isTrue same => exact same ▸ ih row.totals
      case isFalse other => exact .cons_cons (Ne.symm other) (ih row.totals)

end Report

/-! ## Numbers -/

namespace Progress

theorem map_number_rows (p : Progress) (lines : List String) :
    (p.rows lines).map Row.number = List.range' (p.lines + 1) lines.length := by
  induction lines generalizing p with
  | nil => rfl
  | cons line lines ih =>
      rw [rows_cons, List.map_cons, ih, List.length_cons, List.range'_succ]
      rfl

theorem number_of_mem_rows {p : Progress} {lines : List String} {row : Row}
    (member : row ∈ p.rows lines) : p.lines < row.number ∧ row.number ≤ p.lines + lines.length := by
  have number := List.mem_map_of_mem (f := Row.number) member
  rw [map_number_rows, List.mem_range'_1] at number
  omega

theorem pairwise_number_rows (p : Progress) (lines : List String) :
    (p.rows lines).Pairwise (·.number < ·.number) := by
  rw [← List.pairwise_map (f := Row.number) (R := (· < ·)), map_number_rows]
  exact List.pairwise_lt_range'

/-! ## What the lines come to -/

theorem totalsAfter_rows (p : Progress) (lines : List String) :
    Report.totalsAfter p.totals (p.rows lines) = (p.readAll lines).totals := by
  induction lines generalizing p with
  | nil => rfl
  | cons line lines ih =>
      rw [rows_cons, Report.totalsAfter_cons]
      exact ih (p.read line)

theorem finalTotals_rows (lines : List String) :
    Report.finalTotals (start.rows lines) = (start.readAll lines).totals := by
  rw [Report.finalTotals_eq]
  exact totalsAfter_rows start lines

theorem totals_of_mem_rows {lines : List String} {row : Row} (member : row ∈ start.rows lines) :
    row.totals = Report.finalTotals (start.rows (lines.take row.number)) := by
  obtain ⟨n, within, rfl⟩ := List.mem_iff_getElem.1 member
  obtain ⟨number, totals⟩ := getElem_rows within
  rw [number, finalTotals_rows, totals]

end Progress

namespace Report

theorem filter_changes_rows (lines : List String) (n : Nat) :
    (changes 0 (Progress.start.rows lines)).filter (·.number ≤ n) =
      changes 0 (Progress.start.rows (lines.take n)) := by
  let middle := Progress.start.readAll (lines.take n)
  have reached : middle.lines = (lines.take n).length := by
    rw [Progress.readAll_lines]
    exact Nat.zero_add _
  -- rows are changes whatever follows them, so the numbers part the changes as they part the rows
  have early : ∀ row ∈ changes 0 (Progress.start.rows (lines.take n)), row.number ≤ n := by
    intro row member
    have number := (Progress.number_of_mem_rows ((changes_sublist 0 _).mem member)).2
    exact Nat.le_trans number ((Nat.zero_add _).trans_le (List.length_take_le n lines))
  have late (before : Tally) : ∀ row ∈ changes before (middle.rows (lines.drop n)),
      ¬ row.number ≤ n := by
    intro row member
    have found := (changes_sublist before _).mem member
    have number := (Progress.number_of_mem_rows found).1
    have some_left := List.length_pos_of_mem found
    rw [Progress.rows_length, List.length_drop] at some_left
    rw [reached, List.length_take] at number
    omega
  have parted := Progress.rows_append .start (lines.take n) (lines.drop n)
  rw [List.take_append_drop] at parted
  rw [parted, changes_append, List.filter_append,
    List.filter_eq_self.2 fun row member => decide_eq_true (early row member),
    List.filter_eq_nil_iff.2 fun row member => mt of_decide_eq_true (late _ row member),
    List.append_nil]

/-- What a report of changes shows, and that the totals of every row can be rebuilt from it. -/
theorem writeFrom_changes (sink : Sink) (locate : Bool) (painter : Painter) (lines : List String) :
    let rows := Progress.start.rows lines
    let printed := shown ⟨true, locate⟩ rows
    let totals := finalTotals printed
    writeFrom Progress.next sink ⟨true, locate⟩ painter Progress.start lines =
        sink.deliver ((header :: printed.map rowLine ++
            ["", summaryLine totals, verdict painter totals] ++
            hints ⟨true, locate⟩ rows).flatMap lineBytes)
          (summary rows, Progress.start.readAll lines) ∧
      (summary rows).totals = totals ∧
      printed.Sublist rows ∧
      rows.map Row.number = List.range' 1 lines.length ∧
      (∀ row ∈ rows, row.totals = finalTotals (printed.filter (·.number ≤ row.number))) ∧
      printed.Pairwise (·.number < ·.number) ∧
      (∀ row ∈ printed.head?, row.totals.isBalanced = false) ∧
      printed.IsChain (·.totals ≠ ·.totals) := by
  intro rows printed totals
  have changed : printed = changes 0 rows := rfl
  have final : finalTotals rows = totals := (finalTotals_changes rows).symm
  have chain := isChain_changes 0 rows
  rw [← changed] at chain
  refine ⟨?written, final, changes_sublist 0 rows, Progress.map_number_rows .start lines, ?rebuilt,
    ?increasing, ?first, ?consecutive⟩
  case written =>
    rw [writeFrom_next_eq_deliver, ← final]
    rfl
  case rebuilt =>
    intro row member
    rw [Progress.totals_of_mem_rows member, changed, filter_changes_rows, finalTotals_changes]
  case increasing =>
    exact (Progress.pairwise_number_rows .start lines).sublist (changes_sublist 0 rows)
  case first =>
    intro row head
    obtain ⟨later, begins⟩ := List.head?_eq_some_iff.1 head
    rw [begins, List.map_cons] at chain
    exact Bool.eq_false_iff.2 (mt Tally.isBalanced_iff.1 chain.rel.symm)
  case consecutive => exact (List.isChain_map Row.totals).1 chain.tail

theorem writeFrom_changes_steady_rows :
    let rows := Progress.start.rows ["(", ")", "x", "([", "]", "y"]
    let printed := shown ⟨true, true⟩ rows
    printed.map Row.number = [1, 2, 4, 5] ∧
      (⟨3, 0, "x"⟩ : Row).totals = finalTotals (printed.filter (·.number ≤ 3)) ∧
      (⟨1, ⟨0, 1, 0⟩, "("⟩ : Row).totals.isBalanced = false ∧
      (summary rows).totals = finalTotals printed ∧ finalTotals printed = ⟨0, 1, 0⟩ := by
  intro rows printed
  have third : ⟨3, 0, "x"⟩ ∈ rows := by decide
  have head : ⟨1, ⟨0, 1, 0⟩, "("⟩ ∈ printed.head? := by decide
  obtain ⟨-, final, -, -, rebuilt, -, first, -⟩ :=
    writeFrom_changes .endless true .plain ["(", ")", "x", "([", "]", "y"]
  exact ⟨by decide, rebuilt _ third, first _ head, final, by decide⟩

/-! ## The first change -/

theorem head?_changes (rows : List Row) : (changes 0 rows).head? = (Tracker.ofRows rows).first := by
  rw [Tracker.first_ofRows]
  induction rows with
  | nil => rfl
  | cons row rows ih =>
      rw [changes]
      split
      case isTrue zero =>
        rw [zero, ih, List.find?_cons_of_neg]
        simp [zero]
      case isFalse other =>
        rw [List.head?_cons, List.find?_cons_of_pos]
        simp [other]

theorem verdict_eq_warning_iff {painter : Painter} (shows : painter.Shows) {totals : Tally} :
    verdict painter totals = warning painter ↔ totals ≠ 0 := by
  rw [verdict, ← not_iff_not, not_not, ← Tally.isBalanced_iff]
  cases totals.isBalanced with
  | false => simp
  | true =>
      have other : painter.paint ⟨false, .green⟩ balancedMessage ≠ warning painter := by
        intro same
        have seen := congrArg sight same
        rw [shows.sight _ plain_balancedMessage, warning, shows.sight _ plain_unbalancedMessage]
          at seen
        exact absurd seen (by decide)
      simp [other]

theorem exists_first_of_finalTotals {rows : List Row} (nonzero : finalTotals rows ≠ 0) :
    ∃ row, (Tracker.ofRows rows).first = some row := by
  rw [← Option.ne_none_iff_exists', ← head?_changes, ne_eq, List.head?_eq_none_iff]
  intro none
  rw [← finalTotals_changes, none] at nonzero
  exact nonzero rfl

theorem mem_shown_of_first {rows : List Row} {row : Row}
    (first : (Tracker.ofRows rows).first = some row) (options : Options) :
    row ∈ shown options rows := by
  unfold shown
  split
  case isTrue =>
    rw [← head?_changes] at first
    exact List.mem_of_head? first
  case isFalse =>
    rw [Tracker.ofRows_eq_find?] at first
    exact List.mem_of_find?_eq_some first

/-- A report of changes begins with the row that the tracker holds and that a hint names. -/
theorem write_tracked (sink : Sink) (locate : Bool) (painter : Painter) (rows : List Row) :
    let totals := finalTotals rows
    let printed := shown ⟨true, locate⟩ rows
    let tracked := (Tracker.ofRows rows).first
    (∀ options, write sink options painter rows =
        sink.deliver ((header :: (shown options rows).map rowLine ++
            ["", summaryLine totals, verdict painter totals] ++
            hints options rows).flatMap lineBytes) (summary rows)) ∧
      (printed = [] ↔ (summary rows).firstImbalance = none) ∧
      printed.head? = tracked ∧
      (∀ row, printed.head? = some row → (summary rows).firstImbalance = some row.number ∧
        ∀ changesOnly, hints ⟨changesOnly, true⟩ rows = [hint row]) ∧
      (painter.Shows → verdict painter totals = warning painter →
        ∃ row, (summary rows).firstImbalance = some row.number ∧
          (∀ options, row ∈ shown options rows) ∧
          ∀ changesOnly, hints ⟨changesOnly, true⟩ rows = [hint row]) := by
  intro totals printed tracked
  have head : printed.head? = tracked := head?_changes rows
  have named {row : Row} (first : tracked = some row) :
      (summary rows).firstImbalance = some row.number :=
    congrArg (Option.map Row.number) first
  have hinted {row : Row} (first : tracked = some row) (changesOnly : Bool) :
      hints ⟨changesOnly, true⟩ rows = [hint row] :=
    congrArg (fun first => (first.map hint).toList) first
  refine ⟨fun options => write_eq_deliver sink options painter rows, ?none, head,
    fun row first => ?first, fun shows warned => ?warned⟩
  case none =>
    rw [← List.head?_eq_none_iff, head]
    exact Option.map_eq_none_iff.symm
  case first =>
    rw [head] at first
    exact ⟨named first, hinted first⟩
  case warned =>
    obtain ⟨row, first⟩ := exists_first_of_finalTotals ((verdict_eq_warning_iff shows).1 warned)
    exact ⟨row, named first, mem_shown_of_first first, hinted first⟩

theorem write_tracked_unordered_rows :
    let rows : List Row := [⟨7, 0, "a"⟩, ⟨3, ⟨0, -1, 0⟩, " ) "⟩, ⟨9, 0, "("⟩, ⟨8, ⟨0, 0, 1⟩, "["⟩]
    (shown ⟨true, false⟩ rows).head? = some ⟨3, ⟨0, -1, 0⟩, " ) "⟩ ∧
      hints ⟨false, true⟩ rows = [hint ⟨3, ⟨0, -1, 0⟩, " ) "⟩] ∧
      verdict .ansi (finalTotals rows) = warning .ansi ∧
      ∃ row, (summary rows).firstImbalance = some row.number ∧
        ∀ options, row ∈ shown options rows := by
  intro rows
  have first : (shown ⟨true, false⟩ rows).head? = some ⟨3, ⟨0, -1, 0⟩, " ) "⟩ := by decide
  have warned : verdict .ansi (finalTotals rows) = warning .ansi :=
    (verdict_eq_warning_iff Painter.shows_ansi).2 (by decide)
  obtain ⟨-, -, -, hinted, imbalance⟩ := write_tracked .endless false .ansi rows
  obtain ⟨row, named, printed, -⟩ := imbalance Painter.shows_ansi warned
  exact ⟨first, (hinted _ first).2 false, warned, row, named, printed⟩

end Report

end BracketTally
