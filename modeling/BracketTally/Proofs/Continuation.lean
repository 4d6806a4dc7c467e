import BracketTally.Proofs.Changes

namespace BracketTally

def Mode.deltas (mode : Mode) : List String → List Tally
  | [] => []
  | line :: lines => (mode.scan line).tally :: (mode.scan line).mode.deltas lines

namespace Mode

theorem deltas_take (mode : Mode) (lines : List String) (n : Nat) :
    mode.deltas (lines.take n) = (mode.deltas lines).take n := by
  induction lines generalizing mode n with
  | nil => rw [List.take_nil, deltas, List.take_nil]
  | cons line lines ih =>
      cases n with
      | zero => rfl
      | succ n => rw [List.take_succ_cons, deltas, deltas, List.take_succ_cons, ih]

end Mode

namespace Progress

theorem readAll_totals (p : Progress) (lines : List String) :
    (p.readAll lines).totals = p.totals + (p.mode.deltas lines).sum := by
  induction lines generalizing p with
  | nil => exact (Tally.add_zero p.totals).symm
  | cons line lines ih =>
      rw [Mode.deltas, List.sum_cons, ← Tally.add_assoc]
      exact ih (p.read line)

theorem rows_eq_mapIdx (p : Progress) (lines : List String) :
    p.rows lines = lines.mapIdx fun i line =>
      ⟨p.lines + (i + 1), p.totals + ((p.mode.deltas lines).take (i + 1)).sum, line⟩ := by
  apply List.ext_getElem?
  intro n
  rw [List.getElem?_mapIdx]
  cases found : lines[n]? with
  | none =>
      rw [Option.map_none, List.getElem?_eq_none_iff, rows_length]
      exact List.getElem?_eq_none_iff.1 found
  | some line =>
      rw [rows_getElem? p found, readAll_totals, Mode.deltas_take]
      rfl

theorem zipWith_totals_rows {p p' : Progress} (same : p.mode = p'.mode) (lines : List String) :
    List.zipWith (fun row row' => row.totals - row'.totals) (p.rows lines) (p'.rows lines) =
      List.replicate lines.length (p.totals - p'.totals) := by
  induction lines generalizing p p' with
  | nil => rfl
  | cons line lines ih =>
      have totals : (p.read line).totals - (p'.read line).totals = p.totals - p'.totals := by
        rw [read, read, same, Tally.add_sub_add_right]
      have modes : (p.read line).mode = (p'.read line).mode := by rw [read, read, same]
      rw [rows_cons, rows_cons, List.zipWith_cons_cons, ih modes, totals, List.length_cons,
        List.replicate_succ]
      exact congrArg (· :: _) totals

/-- What has been read before shows in the numbers, in the mode in which the next line starts, and
as a constant in the totals. -/
theorem rows_continued (as bs : List String) :
    let ended := start.readAll as
    let last := Report.finalTotals (start.rows as)
    start.rows (as ++ bs) = start.rows as ++ bs.mapIdx (fun i line =>
        ⟨as.length + (i + 1), last + ((ended.mode.deltas bs).take (i + 1)).sum, line⟩) ∧
      (start.rows (as ++ bs)).take as.length = start.rows as ∧
      (start.readAll (as ++ bs)).mode = ended.mode.scanLines bs ∧
      ∀ as', (start.readAll as').mode = ended.mode →
        let last' := Report.finalTotals (start.rows as')
        List.zipWith (fun row row' => row.totals - row'.totals)
            ((start.rows (as ++ bs)).drop as.length) ((start.rows (as' ++ bs)).drop as'.length) =
          List.replicate bs.length (last - last') ∧
        (start.readAll (as ++ bs)).mode = (start.readAll (as' ++ bs)).mode := by
  intro ended last
  have dropped (cs : List String) :
      (start.rows (cs ++ bs)).drop cs.length = (start.readAll cs).rows bs := by
    rw [rows_append, List.drop_left' (rows_length start cs)]
  have ends (cs : List String) :
      (start.readAll (cs ++ bs)).mode = (start.readAll cs).mode.scanLines bs := by
    rw [readAll_append, readAll_mode]
  refine ⟨?rows, ?before, ends as, fun as' same => ⟨?shifted, ?mode⟩⟩
  case rows =>
    have count : ended.lines = as.length := (readAll_lines start as).trans (Nat.zero_add _)
    rw [rows_append, rows_eq_mapIdx ended, count, ← finalTotals_rows]
  case before => rw [rows_append, List.take_left' (rows_length start as)]
  case shifted =>
    rw [dropped, dropped, finalTotals_rows, zipWith_totals_rows same.symm]
    exact congrArg (fun t => List.replicate bs.length (t - _)) (finalTotals_rows as).symm
  case mode => rw [ends, ends, same]

theorem rows_continued_open_literal :
    let as := ["(", "'["]
    let as' := ["[[", "]", "\"'\" 'x"]
    let bs := [")'[", "("]
    (start.readAll as').mode = (start.readAll as).mode ∧
      start.rows (as ++ bs) =
        start.rows as ++ [⟨3, ⟨0, 1, 1⟩, ")'["⟩, ⟨4, ⟨0, 2, 1⟩, "("⟩] ∧
      List.zipWith (fun row row' => row.totals - row'.totals)
          ((start.rows (as ++ bs)).drop 2) ((start.rows (as' ++ bs)).drop 3) =
        [⟨0, 1, -1⟩, ⟨0, 1, -1⟩] := by
  intro as as' bs
  have same : (start.readAll as').mode = (start.readAll as).mode := by decide
  obtain ⟨rows, -, -, shifted⟩ := rows_continued as bs
  exact ⟨same, rows.trans (by decide +kernel), (shifted as' same).1.trans (by decide +kernel)⟩

end Progress

end BracketTally
