import BracketTally.Proofs.Composition
import BracketTally.Proofs.Cursor
import BracketTally.Proofs.Unsplit
import Mathlib.Order.Bounds.Defs

namespace BracketTally

/-! ## The code of many lines -/

inductive ReadsLines : Mode → List String → List Char → Mode → Prop
  | nil {mode : Mode} : ReadsLines mode [] [] mode
  | cons {mode ending : Mode} {line : String} {lines : List String} {reading : Reading}
      {code : List Char} (first : Reads mode line.toList reading)
      (next : ReadsLines (reading.unfinished?.elim .code .literal) lines code ending) :
      ReadsLines mode (line :: lines) (reading.code ++ code) ending

/-- In the code of the lines some shape is not opened as often as it is closed. -/
def Unbalanced (lines : List String) : Prop :=
  ∃ code ending, ReadsLines .code lines code ending ∧ ∃ shape, netOpened shape code ≠ 0

theorem netOpened_append (shape : Shape) (code code' : List Char) :
    netOpened shape (code ++ code') = netOpened shape code + netOpened shape code' := by
  simp only [netOpened, List.count_append]
  omega

theorem Reads.scan {mode : Mode} {line : String} {reading : Reading}
    (reads : Reads mode line.toList reading) :
    mode.scan line = ⟨reading.unfinished?.elim .code .literal, codeTally reading.code⟩ := by
  rw [Mode.scan_eq_scanChars, Mode.scanChars, reads.run]

theorem exists_readsLines (mode : Mode) (lines : List String) :
    ∃ code ending, ReadsLines mode lines code ending := by
  induction lines generalizing mode with
  | nil => exact ⟨[], mode, .nil⟩
  | cons line lines ih =>
      obtain ⟨reading, first⟩ := exists_reads mode line.toList
      obtain ⟨code, ending, next⟩ := ih (reading.unfinished?.elim .code .literal)
      exact ⟨reading.code ++ code, ending, .cons first next⟩

namespace ReadsLines

variable {mode middle ending : Mode} {lines : List String} {code : List Char}

theorem unique {ending' : Mode} {code' : List Char} (reads : ReadsLines mode lines code ending)
    (reads' : ReadsLines mode lines code' ending') : code = code' ∧ ending = ending' := by
  induction reads generalizing code' with
  | nil =>
      cases reads' with
      | nil => exact ⟨rfl, rfl⟩
  | cons first next ih =>
      cases reads' with
      | cons first' next' =>
          obtain rfl := first.unique first'
          obtain ⟨rfl, rfl⟩ := ih next'
          exact ⟨rfl, rfl⟩

theorem concat {line : String} {reading : Reading} (reads : ReadsLines mode lines code middle)
    (last : Reads middle line.toList reading) :
    ReadsLines mode (lines ++ [line]) (code ++ reading.code)
      (reading.unfinished?.elim .code .literal) := by
  induction reads with
  | nil =>
      rw [List.nil_append, List.nil_append, ← List.append_nil reading.code]
      exact .cons last .nil
  | cons first next ih =>
      rw [List.append_assoc]
      exact .cons first (ih last)

theorem get_totals (reads : ReadsLines mode lines code ending) (totals : Tally) (n : Nat)
    (shape : Shape) :
    (Progress.readAll ⟨mode, totals, n⟩ lines).totals.get shape =
      totals.get shape + Int64.ofInt (netOpened shape code) := by
  induction reads generalizing totals n with
  | nil => exact (Int64.add_zero _).symm
  | cons first next ih =>
      rw [Progress.readAll, List.foldl_cons, Progress.read, first.scan, ← Progress.readAll, ih,
        Tally.get_add, get_codeTally, Int64.add_assoc, netOpened_append, Int64.ofInt_add]

theorem unbalanced_iff (reads : ReadsLines .code lines code ending) :
    Unbalanced lines ↔ ∃ shape, netOpened shape code ≠ 0 := by
  constructor
  · rintro ⟨code', ending', reads', shape, nonzero⟩
    obtain ⟨rfl, -⟩ := reads.unique reads'
    exact ⟨shape, nonzero⟩
  · exact fun nonzero => ⟨code, ending, reads, nonzero⟩

end ReadsLines

/-! ## The first of many -/

theorem ofInt_ne_zero {n : Int} (nonzero : n ≠ 0) (small : n.natAbs < 2 ^ 64) :
    Int64.ofInt n ≠ 0 := by
  intro zero
  have value := congrArg Int64.toInt zero
  rw [Int64.toInt_ofInt, Int64.toInt_zero] at value
  have wraps := Int.dvd_of_bmod_eq_zero value
  exact nonzero (Int.eq_zero_of_dvd_of_natAbs_lt_natAbs wraps small)

theorem not_unbalanced_nil : ¬ Unbalanced [] := by
  rw [ReadsLines.nil.unbalanced_iff]
  rintro ⟨shape, nonzero⟩
  exact nonzero rfl

namespace Progress

theorem unbalanced_of_totals_ne_zero {lines : List String}
    (nonzero : (start.readAll lines).totals ≠ 0) : Unbalanced lines := by
  obtain ⟨code, ending, reads⟩ := exists_readsLines .code lines
  rw [reads.unbalanced_iff]
  by_contra balanced
  apply nonzero
  ext shape
  have zero : netOpened shape code = 0 := not_not.1 (not_exists.1 balanced shape)
  rw [start, reads.get_totals, zero]
  exact Int64.add_zero _

theorem totals_ne_zero_of_concat {lines : List String} {line : String}
    (fits : (Utf8.encode line.toList).length < 2 ^ 64) (balanced : ¬ Unbalanced lines)
    (unbalanced : Unbalanced (lines ++ [line])) : (start.readAll (lines ++ [line])).totals ≠ 0 := by
  obtain ⟨code, middle, reads⟩ := exists_readsLines .code lines
  obtain ⟨reading, last⟩ := exists_reads middle line.toList
  rw [reads.unbalanced_iff] at balanced
  rw [(reads.concat last).unbalanced_iff] at unbalanced
  obtain ⟨shape, nonzero⟩ := unbalanced
  have before : netOpened shape code = 0 := not_not.1 (not_exists.1 balanced shape)
  rw [netOpened_append, before, Int.zero_add] at nonzero
  -- the last line alone has left zero, and is too short for a counter to come round
  have small : (netOpened shape reading.code).natAbs < 2 ^ 64 := by
    have bound := natAbs_netOpened_le shape reading.code
    have code := last.code_length_le
    have bytes := Utf8.length_le_length_encode line.toList
    omega
  intro zero
  have count := (reads.concat last).get_totals 0 0 shape
  rw [netOpened_append, before, Int.zero_add, Tally.get_zero, Int64.zero_add] at count
  apply ofInt_ne_zero nonzero small
  rw [← count]
  exact (congrArg (Tally.get · shape) zero).trans (Tally.get_zero shape)

theorem totals_ne_zero_of_first {lines : List String} {n : Nat}
    (fits : ∀ line ∈ lines, (Utf8.encode line.toList).length < 2 ^ 64)
    (before : ∀ m < n, ¬ Unbalanced (lines.take m)) (unbalanced : Unbalanced (lines.take n)) :
    (start.readAll (lines.take n)).totals ≠ 0 := by
  cases n with
  | zero => exact absurd unbalanced not_unbalanced_nil
  | succ n =>
      have balanced := before n (Nat.lt_succ_self n)
      rcases Nat.lt_or_ge n lines.length with within | past
      · rw [← List.take_append_getElem within] at unbalanced ⊢
        exact totals_ne_zero_of_concat (fits _ (List.getElem_mem within)) balanced unbalanced
      · rw [List.take_of_length_le past] at balanced
        rw [List.take_of_length_le (Nat.le_succ_of_le past)] at unbalanced
        exact absurd unbalanced balanced

theorem isLeast_totals_iff {lines : List String} {n : Nat}
    (fits : ∀ line ∈ lines, (Utf8.encode line.toList).length < 2 ^ 64) :
    IsLeast {n | (start.readAll (lines.take n)).totals ≠ 0} n ↔
      IsLeast {n | Unbalanced (lines.take n)} n := by
  constructor
  · rintro ⟨nonzero, least⟩
    have before (m : Nat) (earlier : m < n) : ¬ Unbalanced (lines.take m) := by
      induction m using Nat.strongRecOn with
      | ind m ih =>
          intro unbalanced
          have balanced (k : Nat) (below : k < m) := ih k below (Nat.lt_trans below earlier)
          have bound := least (totals_ne_zero_of_first fits balanced unbalanced)
          omega
    refine ⟨unbalanced_of_totals_ne_zero nonzero, fun m unbalanced => ?_⟩
    exact Nat.le_of_not_lt fun earlier => before m earlier unbalanced
  · rintro ⟨unbalanced, least⟩
    have before (m : Nat) (earlier : m < n) : ¬ Unbalanced (lines.take m) :=
      fun other => Nat.not_lt.2 (least other) earlier
    exact ⟨totals_ne_zero_of_first fits before unbalanced,
      fun m nonzero => least (unbalanced_of_totals_ne_zero nonzero)⟩

/-! ## The first row -/

theorem find?_rows_eq_some_iff {lines : List String} {n : Nat} :
    ((start.rows lines).find? (·.totals ≠ 0)).map Row.number = some n ↔
      IsLeast {n | (start.readAll (lines.take n)).totals ≠ 0} n := by
  constructor
  · intro first
    obtain ⟨row, found, rfl⟩ := Option.map_eq_some_iff.1 first
    obtain ⟨nonzero, i, within, rfl, before⟩ := List.find?_eq_some_iff_getElem.1 found
    obtain ⟨number, totals⟩ := getElem_rows within
    rw [totals, decide_eq_true_eq] at nonzero
    refine ⟨number ▸ nonzero, fun m other => ?_⟩
    rw [number]
    apply Nat.le_of_not_lt
    intro earlier
    cases m with
    | zero => exact other rfl
    | succ m =>
        have earlier : m < i := Nat.lt_of_succ_lt_succ earlier
        have zero := before m earlier
        rw [(getElem_rows (Nat.lt_trans earlier within)).2, Bool.not_eq_true',
          decide_eq_false_iff_not] at zero
        exact zero other
  · rintro ⟨nonzero, least⟩
    cases n with
    | zero => exact absurd rfl nonzero
    | succ n =>
        have before (m : Nat) (earlier : m < n + 1) :
            ¬ (start.readAll (lines.take m)).totals ≠ 0 :=
          fun other => Nat.not_lt.2 (least other) earlier
        have within : n < (start.rows lines).length := by
          rw [rows_length]
          apply Nat.lt_of_not_le
          intro past
          have last := before n (Nat.lt_succ_self n)
          rw [List.take_of_length_le past] at last
          have whole : lines.take (n + 1) = lines := List.take_of_length_le (Nat.le_succ_of_le past)
          exact last (whole ▸ nonzero)
        obtain ⟨number, totals⟩ := getElem_rows within
        apply Option.map_eq_some_iff.2
        refine ⟨_, List.find?_eq_some_iff_getElem.2 ⟨?_, n, within, rfl, ?_⟩, number⟩
        · rw [totals, decide_eq_true_eq]
          exact nonzero
        · intro m earlier
          rw [(getElem_rows (Nat.lt_trans earlier within)).2, Bool.not_eq_true',
            decide_eq_false_iff_not]
          exact before (m + 1) (Nat.succ_lt_succ earlier)

end Progress

end BracketTally
