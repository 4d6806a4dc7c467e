import BracketTally.Proofs.Outcomes
import BracketTally.Proofs.Painting
import Mathlib.Data.List.Basic

namespace BracketTally

namespace Report

/-! ## Reading a report -/

def natural (text : List Char) : Option (Nat × List Char) :=
  let digits := text.takeWhile Char.isDigit
  if digits = [] then none
  else some (Nat.ofDigitChars 10 digits 0, text.dropWhile Char.isDigit)

def integer : List Char → Option (Int × List Char)
  | '-' :: text => (natural text).map fun (n, rest) => (-(n : Int), rest)
  | text => (natural text).map fun (n, rest) => ((n : Int), rest)

def count (text : List Char) : Option (Int64 × List Char) :=
  (integer text).map fun (n, rest) => (Int64.ofInt n, rest)

def isSpace (c : Char) : Bool := c == ' '

def spacedCount : List Char → Option (Int64 × List Char)
  | ' ' :: text => count (text.dropWhile isSpace)
  | _ => none

def labelledCount (label : String) (text : List Char) : Option (Int64 × List Char) :=
  (text.dropPrefix? label.toList).bind count

def row? (line : List Char) : Option Row := do
  let (number, line) ← natural (line.dropWhile isSpace)
  let (curly, line) ← spacedCount line
  let (round, line) ← spacedCount line
  let (square, line) ← spacedCount line
  match line with
  | ' ' :: ' ' :: snippet => some ⟨number, ⟨curly, round, square⟩, String.ofList snippet⟩
  | _ => none

def totals? (line : List Char) : Option Tally := do
  let (curly, line) ← labelledCount "FINAL BALANCE: \x7b \x7d = " line
  let (round, line) ← labelledCount ", ( ) = " line
  let (square, line) ← labelledCount ", [ ] = " line
  if line = [] then some ⟨curly, round, square⟩ else none

def hint? (line : List Char) : Option (Nat × String) := do
  let rest ← line.dropPrefix? hintLabel.toList
  let (number, rest) ← natural rest
  let snippet ← rest.dropPrefix? ": ".toList
  some (number, String.ofList snippet)

structure Contents where
  rows : List Row
  totals : Tally

/-- The rows stand between the first line and the first empty one, the summary behind that. -/
def Contents.ofText? (text : List Char) : Option Contents :=
  let lines := (text.splitOn '\n').tail
  match lines.dropWhile (· ≠ []) with
  | [] :: summary :: _ => do
      let rows ← (lines.takeWhile (· ≠ [])).mapM row?
      let totals ← totals? summary
      some ⟨rows, totals⟩
  | _ => none

def Contents.ofBytes? (bytes : List UInt8) : Option Contents :=
  (Utf8.decode bytes).toOption.bind ofText?

/-! ## Numbers -/

def EndsNumber (rest : List Char) : Prop := ∀ c ∈ rest.head?, c.isDigit = false

theorem natural_decimal (n : Nat) {rest : List Char} (ends : EndsNumber rest) :
    natural ((Text.decimal n).toList ++ rest) = some (n, rest) := by
  have digits : ∀ c ∈ Nat.toDigits 10 n, c.isDigit = true := fun c member =>
    Nat.isDigit_of_mem_toDigits (by decide) (by decide) member
  have taken : (Nat.toDigits 10 n ++ rest).takeWhile Char.isDigit = Nat.toDigits 10 n := by
    rw [List.takeWhile_append_of_pos digits]
    cases rest with
    | nil => simp
    | cons c rest => simp [ends c rfl]
  have dropped : (Nat.toDigits 10 n ++ rest).dropWhile Char.isDigit = rest := by
    rw [List.dropWhile_append_of_pos digits]
    cases rest with
    | nil => rfl
    | cons c rest => simp [ends c rfl]
  rw [Text.decimal, String.toList_ofList, natural, taken, dropped, if_neg Nat.toDigits_ne_nil,
    Nat.ofDigitChars_ten_toDigits]

theorem exists_digit_decimal (n : Nat) :
    ∃ c text, (Text.decimal n).toList = c :: text ∧ c.isDigit = true := by
  obtain ⟨c, text, digits⟩ := List.exists_cons_of_ne_nil (Nat.toDigits_ne_nil (n := n) (b := 10))
  have member : c ∈ Nat.toDigits 10 n := by
    rw [digits]
    exact List.mem_cons_self ..
  rw [Text.decimal, String.toList_ofList]
  exact ⟨c, text, digits, Nat.isDigit_of_mem_toDigits (by decide) (by decide) member⟩

theorem integer_signedDecimal (n : Int) {rest : List Char} (ends : EndsNumber rest) :
    integer ((Text.signedDecimal n).toList ++ rest) = some (n, rest) := by
  unfold Text.signedDecimal
  split
  · have value : -(n.natAbs : Int) = n := by omega
    rw [String.toList_append]
    show (natural ((Text.decimal n.natAbs).toList ++ rest)).map _ = _
    rw [natural_decimal n.natAbs ends, Option.map_some]
    dsimp only
    rw [value]
  · have value : (n.natAbs : Int) = n := by omega
    have plain : ∀ text, (Text.decimal n.natAbs).toList ++ rest ≠ '-' :: text := by
      intro text same
      obtain ⟨c, digits, found, digit⟩ := exists_digit_decimal n.natAbs
      rw [found] at same
      obtain ⟨rfl, -⟩ := List.cons.inj same
      exact absurd digit (by decide)
    rw [integer, natural_decimal n.natAbs ends]
    · rw [Option.map_some]
      dsimp only
      rw [value]
    · exact plain

theorem count_counter (n : Int64) {rest : List Char} (ends : EndsNumber rest) :
    count ((counter n).toList ++ rest) = some (n, rest) := by
  rw [count, counter, integer_signedDecimal n.toInt ends, Option.map_some]
  simp only [Int64.ofInt_toInt]

/-! ## Columns -/

def StartsNumber (text : List Char) : Prop := ∃ c rest, text = c :: rest ∧ isSpace c = false

theorem startsNumber_decimal (n : Nat) : StartsNumber (Text.decimal n).toList := by
  obtain ⟨c, text, found, digit⟩ := exists_digit_decimal n
  refine ⟨c, text, found, ?_⟩
  rw [isSpace, beq_eq_false_iff_ne]
  rintro rfl
  exact absurd digit (by decide)

theorem startsNumber_counter (n : Int64) : StartsNumber (counter n).toList := by
  unfold counter Text.signedDecimal
  split
  · rw [String.toList_append]
    exact ⟨'-', _, rfl, rfl⟩
  · exact startsNumber_decimal _

theorem dropWhile_column {text : String} (starts : StartsNumber text.toList) (rest : List Char) :
    ((column text).toList ++ rest).dropWhile isSpace = text.toList ++ rest := by
  obtain ⟨c, more, found, other⟩ := starts
  have padding : ∀ d ∈ List.replicate (columnWidth - text.toList.length) ' ', isSpace d = true := by
    intro d member
    rw [List.eq_of_mem_replicate member]
    rfl
  rw [column, String.toList_ofList, List.leftpad, List.append_assoc,
    List.dropWhile_append_of_pos padding, found, List.cons_append,
    List.dropWhile_cons_of_neg (by simp [other])]

theorem endsNumber_space (rest : List Char) : EndsNumber (' ' :: rest) := by
  intro c head
  cases head
  rfl

theorem spacedCount_column (n : Int64) {rest : List Char} (ends : EndsNumber rest) :
    spacedCount (' ' :: ((column (counter n)).toList ++ rest)) = some (n, rest) := by
  rw [spacedCount, dropWhile_column (startsNumber_counter n), count_counter n ends]

theorem toList_rowLine (row : Row) :
    (rowLine row).toList =
      (column (Text.decimal row.number)).toList ++ ' ' ::
        ((column (counter row.totals.curly)).toList ++ ' ' ::
          ((column (counter row.totals.round)).toList ++ ' ' ::
            ((column (counter row.totals.square)).toList ++ ' ' :: ' ' ::
              (snippet row.text).toList))) := by
  simp [rowLine, columns, String.toList_append]

def cutRow (row : Row) : Row := { row with text := snippet row.text }

theorem row?_rowLine (row : Row) : row? (rowLine row).toList = some (cutRow row) := by
  have number := startsNumber_decimal row.number
  rw [toList_rowLine, row?, dropWhile_column number, natural_decimal _ (endsNumber_space _),
    Option.bind_eq_bind, Option.bind_some]
  simp only [Option.bind_eq_bind, Option.bind_some, spacedCount_column _ (endsNumber_space _),
    String.ofList_toList]
  rfl

/-! ## Summaries -/

theorem labelledCount_counter (label : String) (n : Int64) {rest : List Char}
    (ends : EndsNumber rest) :
    labelledCount label (label.toList ++ ((counter n).toList ++ rest)) = some (n, rest) := by
  rw [labelledCount, List.dropPrefix?_append_of_beq _ (beq_self_eq_true _), Option.bind_some,
    count_counter n ends]

theorem endsNumber_label {label : String} (comma : label.toList.head? = some ',')
    (rest : List Char) : EndsNumber (label.toList ++ rest) := by
  intro c head
  rw [List.head?_append, comma] at head
  cases head
  rfl

theorem toList_labelled (a b c x y z : String) :
    (a ++ x ++ b ++ y ++ c ++ z).toList =
      a.toList ++ (x.toList ++ (b.toList ++ (y.toList ++ (c.toList ++ (z.toList ++ []))))) := by
  simp [String.toList_append]

theorem totals?_summaryLine (totals : Tally) :
    totals? (summaryLine totals).toList = some totals := by
  have curly := @endsNumber_label ", ( ) = " (by decide)
  have round := @endsNumber_label ", [ ] = " (by decide)
  have square : EndsNumber [] := nofun
  unfold summaryLine
  rw [toList_labelled, totals?, labelledCount_counter _ _ (curly _)]
  dsimp only [Option.bind_eq_bind, Option.bind_some]
  rw [labelledCount_counter _ _ (round _)]
  dsimp only [Option.bind_eq_bind, Option.bind_some]
  rw [labelledCount_counter _ _ square]
  rfl

/-! ## Hints -/

theorem hint?_hint (row : Row) : hint? (hint row).toList = some (row.number, snippet row.text) := by
  have colon : EndsNumber (": ".toList ++ (snippet row.text).toList) := by
    intro c head
    cases head
    rfl
  rw [hint, String.toList_append, String.toList_append, String.toList_append, List.append_assoc,
    List.append_assoc, hint?, List.dropPrefix?_append_of_beq _ (beq_self_eq_true _)]
  simp only [Option.bind_eq_bind, Option.bind_some, natural_decimal _ colon,
    List.dropPrefix?_append_of_beq _ (beq_self_eq_true _), String.ofList_toList]

/-! ## Line feeds -/

theorem oneLine_counter (n : Int64) : OneLine (counter n) := by
  unfold counter Text.signedDecimal
  split
  · exact OneLine.append (by decide) (oneLine_decimal _)
  · exact oneLine_decimal _

theorem oneLine_column {text : String} (line : OneLine text) : OneLine (column text) := by
  rw [OneLine, column, String.toList_ofList, List.leftpad, List.mem_append, not_or]
  refine ⟨fun member => ?_, line⟩
  exact absurd (List.eq_of_mem_replicate member) (by decide)

theorem trim_sublist (text : List Char) : (Text.trim text).Sublist text := by
  obtain ⟨before, after, -, -, parted⟩ := Text.exists_trim_between text
  have within : Text.trim text <:+: text := ⟨before, after, parted.symm⟩
  exact within.sublist

theorem oneLine_snippet {text : String} (line : OneLine text) : OneLine (snippet text) := by
  rw [OneLine, snippet, String.toList_ofList]
  intro member
  exact line ((trim_sublist text.toList).subset (List.mem_of_mem_take member))

theorem oneLine_columns {number curly round square : String} (hn : OneLine number)
    (hc : OneLine curly) (hr : OneLine round) (hs : OneLine square) :
    OneLine (columns number curly round square) := by
  have space : OneLine " " := by decide
  have gap : OneLine "  " := by decide
  unfold columns
  exact (((((((oneLine_column hn).append space).append (oneLine_column hc)).append space).append
    (oneLine_column hr)).append space).append (oneLine_column hs)).append gap

theorem oneLine_header : OneLine header := by
  unfold header
  exact (oneLine_columns (by decide) (by decide) (by decide) (by decide)).append (by decide)

theorem oneLine_rowLine {row : Row} (line : OneLine row.text) : OneLine (rowLine row) := by
  unfold rowLine
  exact (oneLine_columns (oneLine_decimal _) (oneLine_counter _) (oneLine_counter _)
    (oneLine_counter _)).append (oneLine_snippet line)

theorem oneLine_summaryLine (totals : Tally) : OneLine (summaryLine totals) := by
  have first : OneLine "FINAL BALANCE: \x7b \x7d = " := by decide
  have second : OneLine ", ( ) = " := by decide
  have third : OneLine ", [ ] = " := by decide
  unfold summaryLine
  exact ((((first.append (oneLine_counter _)).append second).append
    (oneLine_counter _)).append third).append (oneLine_counter _)

theorem oneLine_verdict {painter : Painter} (keeps : painter.KeepsLines) (totals : Tally) :
    OneLine (verdict painter totals) := by
  have balanced : OneLine balancedMessage := by decide +kernel
  have unbalanced : OneLine unbalancedMessage := by decide +kernel
  unfold verdict
  split
  · exact keeps _ _ balanced
  · exact keeps _ _ unbalanced

theorem oneLine_hint {row : Row} (line : OneLine row.text) : OneLine (hint row) := by
  have label : OneLine hintLabel := by decide
  have colon : OneLine ": " := by decide
  unfold hint
  exact ((label.append (oneLine_decimal _)).append colon).append
    (oneLine_snippet line)

/-! ## The text of a report -/

theorem rowLine_ne_empty (row : Row) : rowLine row ≠ "" := by
  intro none
  have letters := congrArg String.toList none
  rw [toList_rowLine] at letters
  simp at letters

theorem splitOn_lines {lines : List String} (all : ∀ line ∈ lines, OneLine line) :
    (lines.flatMap fun line => line.toList ++ ['\n']).splitOn '\n' =
      lines.map String.toList ++ [[]] := by
  induction lines with
  | nil => rfl
  | cons line lines ih =>
      rw [List.forall_mem_cons] at all
      rw [List.flatMap_cons, List.append_assoc, List.singleton_append,
        List.splitOn_append_cons_self_of_not_mem all.1, ih all.2]
      rfl

theorem flatMap_lineBytes (lines : List String) :
    lines.flatMap lineBytes = Utf8.encode (lines.flatMap fun line => line.toList ++ ['\n']) := by
  induction lines with
  | nil => rfl
  | cons line lines ih =>
      rw [List.flatMap_cons, ih, List.flatMap_cons, Utf8.encode_append, Utf8.encode_append]
      rfl

theorem mapM_row? (rows : List Row) :
    (rows.map fun row => (rowLine row).toList).mapM row? = some (rows.map cutRow) := by
  induction rows with
  | nil => rfl
  | cons row rows ih => simp [row?_rowLine, ih]

theorem ofBytes?_lines {header : String} {rows : List Row} {totals : Tally} {closing : List String}
    (all : ∀ line ∈ header :: rows.map rowLine ++ "" :: summaryLine totals :: closing,
      OneLine line) :
    Contents.ofBytes? ((header :: rows.map rowLine ++
      "" :: summaryLine totals :: closing).flatMap lineBytes) = some ⟨rows.map cutRow, totals⟩ := by
  have filled : ∀ letters ∈ rows.map fun row => (rowLine row).toList,
      decide (letters ≠ []) = true := by
    intro letters member
    obtain ⟨row, -, rfl⟩ := List.mem_map.1 member
    simpa using rowLine_ne_empty row
  have parted : ((header :: rows.map rowLine ++ "" :: summaryLine totals :: closing).map
      String.toList ++ [[]]).tail = (rows.map fun row => (rowLine row).toList) ++
        [] :: (summaryLine totals).toList :: (closing.map String.toList ++ [[]]) := by
    simp [Function.comp_def]
  -- the first empty line is the one before the summary, as no row is empty
  rw [Contents.ofBytes?, flatMap_lineBytes, Utf8.decode_encode, Except.toOption, Option.bind_some,
    Contents.ofText?, splitOn_lines all, parted]
  simp only [List.dropWhile_append_of_pos filled, List.takeWhile_append_of_pos filled]
  rw [List.dropWhile_cons_of_neg (by simp), List.takeWhile_cons_of_neg (by simp), List.append_nil]
  simp only [mapM_row?, totals?_summaryLine, Option.bind_eq_bind, Option.bind_some]

/-! ## The lines of a report -/

theorem text_of_mem_rows {p : Progress} {lines : List String} {row : Row}
    (member : row ∈ p.rows lines) : row.text ∈ lines := by
  induction lines generalizing p with
  | nil => cases member
  | cons line lines ih =>
      rw [Progress.rows_cons, List.mem_cons] at member
      rcases member with rfl | later
      · exact List.mem_cons_self ..
      · exact List.mem_cons_of_mem line (ih later)

theorem shown_subset (options : Options) (rows : List Row) : shown options rows ⊆ rows := by
  unfold shown
  split
  · exact (changes_sublist 0 rows).subset
  · exact List.Subset.refl rows

theorem exists_row_of_mem_hints {options : Options} {rows : List Row} {line : String}
    (member : line ∈ hints options rows) : ∃ row ∈ rows, line = hint row := by
  unfold hints at member
  split at member
  · rw [Option.mem_toList, Tracker.ofRows_eq_find?, Option.map_eq_some_iff] at member
    obtain ⟨row, found, rfl⟩ := member
    exact ⟨row, List.mem_of_find?_eq_some found, rfl⟩
  · cases member

theorem length_hints_le (options : Options) (rows : List Row) :
    (hints options rows).length ≤ 1 := by
  unfold hints
  split
  · exact Option.length_toList_le
  · exact Nat.zero_le 1

theorem oneLine_lines (options : Options) {painter : Painter} (keeps : painter.KeepsLines)
    {rows : List Row} (all : ∀ row ∈ rows, OneLine row.text) :
    ∀ line ∈ lines options painter rows, OneLine line := by
  intro line member
  simp only [lines, List.cons_append, List.mem_cons, List.mem_append, List.mem_map] at member
  rcases member with rfl | ⟨⟨row, printed, rfl⟩ | rfl | rfl | rfl | none⟩ | hinted
  · exact oneLine_header
  · exact oneLine_rowLine (all row (shown_subset options rows printed))
  · decide
  · exact oneLine_summaryLine _
  · exact oneLine_verdict keeps _
  · cases none
  · obtain ⟨row, found, rfl⟩ := exists_row_of_mem_hints hinted
    exact oneLine_hint (all row found)

end Report

open Report CommandLine in
/-- What a run shows of a file can be recovered from its output. -/
theorem run_readBack {painter : Painter} (keeps : painter.KeepsLines)
    (openPath : RawText → Except Fault (List Read)) {arguments : Arguments} {path : RawText}
    {lines : List String} (named : arguments.path = some path)
    (read : readPath openPath path = .ok lines) :
    let options : Options := ⟨arguments.changesOnly, arguments.locate⟩
    let used := painter.muted arguments.noColour
    let rows := Progress.start.rows lines
    let printed := shown options rows
    let report := header :: printed.map rowLine ++ "" :: summaryLine (finalTotals rows) ::
      verdict used (finalTotals rows) :: hints options rows
    let output := (run ⟨painter, .endless, openPath⟩ arguments).output
    output = report.flatMap lineBytes ∧
      (∀ line ∈ report, '\n' ∉ line.toList) ∧
      (∀ line ∈ header :: printed.map rowLine, line ≠ "") ∧
      (hints options rows).length ≤ 1 ∧
      Contents.ofBytes? output =
        some ⟨printed.map fun row => { row with text := snippet row.text }, finalTotals rows⟩ := by
  intro options used rows printed report output
  have texts : ∀ row ∈ rows, OneLine row.text := fun row member =>
    (readPath_clean read row.text (text_of_mem_rows member)).2
  have whole : Report.lines options used rows = report := by
    simp [Report.lines, report, printed]
  have all : ∀ line ∈ report, OneLine line := whole ▸ oneLine_lines options (keeps.muted _) texts
  have written : output = report.flatMap lineBytes := by
    rw [← whole]
    exact (run_of_readPath_ok painter openPath named read).2
  refine ⟨written, all, ?_, length_hints_le options rows, ?_⟩
  · rw [List.forall_mem_cons]
    refine ⟨by decide, ?_⟩
    intro line member
    obtain ⟨row, -, rfl⟩ := List.mem_map.1 member
    exact rowLine_ne_empty row
  · rw [written]
    exact ofBytes?_lines all

theorem run_readBack_snippet_of_digits :
    Report.Contents.ofBytes? (run ⟨.ansi, .endless,
        fun _ => .ok [.data [0x28, 0x0D, 0x20, 0x37, 0x20, 0x20, 0x2D, 0x38, 0x09, 0x0A, 0x0A]]⟩
        ⟨some "a", false, true, false, false⟩).output =
      some ⟨[⟨1, ⟨0, 1, 0⟩, "("⟩, ⟨2, ⟨0, 1, 0⟩, "7  -8"⟩, ⟨3, ⟨0, 1, 0⟩, ""⟩], ⟨0, 1, 0⟩⟩ := by
  have stops : (Reader.ofScript [.data [0x28, 0x0D, 0x20, 0x37, 0x20, 0x20, 0x2D, 0x38, 0x09, 0x0A,
      0x0A]]).StopsAt ["(", " 7  -8\t", ""] none := rfl
  have read := @readPath_of_stopsAt (fun _ => .ok _) "a" _ _ _ rfl stops
  obtain ⟨-, -, -, -, back⟩ :=
    @run_readBack .ansi Painter.keepsLines_ansi _ ⟨some "a", false, true, false, false⟩ _ _ rfl read
  rw [back]
  rfl

end BracketTally
