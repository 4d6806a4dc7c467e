import BracketTally.Walk

namespace BracketTally

structure Row where
  number : Nat
  totals : Tally
  text : String
  deriving DecidableEq

def Mode.scanLines (mode : Mode) (lines : List String) : Mode :=
  lines.foldl (fun mode line => (mode.scan line).mode) mode

structure Progress where
  mode : Mode
  totals : Tally
  lines : Nat

namespace Progress

def start : Progress := ⟨.code, 0, 0⟩

def read (p : Progress) (line : String) : Progress :=
  let scan := p.mode.scan line
  ⟨scan.mode, p.totals + scan.tally, p.lines + 1⟩

def readAll (p : Progress) (lines : List String) : Progress := lines.foldl read p

def trace (p : Progress) : List String → List Progress
  | [] => []
  | line :: lines => p.read line :: (p.read line).trace lines

def row (p : Progress) (line : String) : Row := ⟨p.lines, p.totals, line⟩

def next (p : Progress) (line : String) : Row × Progress :=
  let after := p.read line
  (after.row line, after)

def rows (p : Progress) (lines : List String) : List Row :=
  List.zipWith row (p.trace lines) lines

/-! ## Laws -/

@[simp]
theorem rows_nil (p : Progress) : p.rows [] = [] := rfl

@[simp]
theorem rows_cons (p : Progress) (line : String) (lines : List String) :
    p.rows (line :: lines) = (p.read line).row line :: (p.read line).rows lines := rfl

@[simp]
theorem rows_length (p : Progress) (lines : List String) : (p.rows lines).length = lines.length := by
  induction lines generalizing p with
  | nil => rfl
  | cons line lines ih => simp [ih]

theorem readAll_append (p : Progress) (as bs : List String) :
    p.readAll (as ++ bs) = (p.readAll as).readAll bs := by
  simp [readAll]

theorem rows_append (p : Progress) (as bs : List String) :
    p.rows (as ++ bs) = p.rows as ++ (p.readAll as).rows bs := by
  induction as generalizing p with
  | nil => rfl
  | cons a as ih => simp [ih, readAll]

theorem rows_getElem? (p : Progress) {lines : List String} {n : Nat} {line : String}
    (found : lines[n]? = some line) :
    (p.rows lines)[n]? =
      some ⟨p.lines + (n + 1), (p.readAll (lines.take (n + 1))).totals, line⟩ := by
  induction lines generalizing p n with
  | nil => cases found
  | cons first lines ih =>
      cases n with
      | zero =>
          cases found
          rfl
      | succ n =>
          rw [rows_cons, List.getElem?_cons_succ, ih (p.read first) found]
          simp only [read, readAll, List.take_succ_cons, List.foldl_cons]
          congr 2
          omega

theorem getElem_rows {lines : List String} {n : Nat} (within : n < (start.rows lines).length) :
    (start.rows lines)[n].number = n + 1 ∧
      (start.rows lines)[n].totals = (start.readAll (lines.take (n + 1))).totals := by
  have inside : n < lines.length := rows_length start lines ▸ within
  have row := rows_getElem? start (List.getElem?_eq_getElem inside)
  rw [List.getElem?_eq_getElem within, Option.some_inj] at row
  rw [row]
  exact ⟨Nat.zero_add _, rfl⟩

theorem readAll_mode (p : Progress) (lines : List String) :
    (p.readAll lines).mode = p.mode.scanLines lines := by
  induction lines generalizing p with
  | nil => rfl
  | cons line lines ih => exact ih (p.read line)

theorem readAll_lines (p : Progress) (lines : List String) :
    (p.readAll lines).lines = p.lines + lines.length := by
  induction lines generalizing p with
  | nil => rfl
  | cons line lines ih =>
      have h := ih (p.read line)
      simp only [readAll, List.foldl_cons, List.length_cons] at h ⊢
      rw [h]
      simp only [read]
      omega

end Progress

end BracketTally
