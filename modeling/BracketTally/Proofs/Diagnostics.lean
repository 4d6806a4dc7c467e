import BracketTally.Proofs.Imbalance
import BracketTally.Proofs.Independence

namespace BracketTally

/-! ## Numbers in a line -/

theorem Report.eq_of_decimal {m n : Nat} {rest rest' : List Char} (ends : EndsNumber rest)
    (ends' : EndsNumber rest')
    (same : (Text.decimal m).toList ++ rest = (Text.decimal n).toList ++ rest') : m = n := by
  have number := congrArg natural same
  rw [natural_decimal m ends, natural_decimal n ends'] at number
  exact congrArg Prod.fst (Option.some.inj number)

namespace Diagnostics

open Report

variable {painter : Painter} (shows : painter.Shows)
include shows

theorem eq_of_figure {label : String} (plain : Plain label) {m n : Nat} {rest rest' : String}
    (ends : EndsNumber (sight rest)) (ends' : EndsNumber (sight rest'))
    (same : sight (label ++ (figure painter (Text.decimal m) ++ rest)) =
      sight (label ++ (figure painter (Text.decimal n) ++ rest'))) : m = n := by
  rw [sight_append plain, sight_append plain, figure, figure, shows.sight_append _ (plain_decimal m),
    shows.sight_append _ (plain_decimal n)] at same
  exact eq_of_decimal ends ends' (List.append_cancel_left same)

/-! ## How lines begin -/

omit shows in
def beginning (line : String) : List Char := (sight line).take 6

omit shows in
theorem beginning_append {start : String} (plain : Plain start) (long : 6 ≤ start.toList.length)
    (rest : String) : beginning (start ++ rest) = start.toList.take 6 := by
  rw [beginning, sight_append plain, List.take_append_of_le_length long]

theorem beginning_paint (style : Style) {start : String} (plain : Plain start)
    (long : 6 ≤ start.toList.length) (rest : String) :
    beginning (painter.paint style start ++ rest) = start.toList.take 6 := by
  rw [beginning, shows.sight_append style plain, List.take_append_of_le_length long]

inductive Remark
  | speed (lines : Nat)
  | imbalance (line : Nat)
  | openLiteral (delimiter : Delimiter)

namespace Remark

def line (painter : Painter) (elapsed : Float) : Remark → String
  | speed n => speedLine painter n elapsed
  | imbalance n => imbalanceLine painter n
  | openLiteral d => openLiteralLine painter d

def beginning : Remark → List Char
  | speed _ => ['S', 'c', 'a', 'n', 'n', 'e']
  | imbalance _ => ['R', 'u', 'n', 'n', 'i', 'n']
  | openLiteral _ => ['W', 'a', 'r', 'n', 'i', 'n']

theorem beginning_line (elapsed : Float) (r : Remark) :
    Diagnostics.beginning (r.line painter elapsed) = r.beginning := by
  cases r with
  | speed n =>
      rw [line, speedLine]
      repeat rw [String.append_assoc]
      exact (beginning_append (by decide) (by decide) _).trans (by rw [beginning]; decide)
  | imbalance n => exact (beginning_append (by decide) (by decide) _).trans (by rw [beginning]; decide)
  | openLiteral d =>
      rw [line, openLiteralLine, String.append_assoc, String.append_assoc]
      exact (beginning_paint shows _ (by decide) (by decide) _).trans (by rw [beginning]; decide)

theorem line_not_mem_banner (elapsed : Float) (path : RawText) (r : Remark) :
    r.line painter elapsed ∉ banner painter path := by
  have begins := r.beginning_line shows elapsed
  intro member
  simp only [banner, List.mem_cons, List.not_mem_nil, or_false] at member
  rcases member with same | same
  · rw [same, String.append_assoc, beginning_paint shows _ (by decide) (by decide)] at begins
    cases r <;> exact absurd begins.symm (by rw [beginning]; decide)
  · rw [same, beginning_append (by decide) (by decide)] at begins
    cases r <;> exact absurd begins.symm (by rw [beginning]; decide)

theorem eq_of_speedLine {m n : Nat} {elapsed : Float}
    (same : speedLine painter m elapsed = speedLine painter n elapsed) : m = n := by
  have unit : Plain " lines in " := by decide
  have ends (rest : String) : EndsNumber (sight (" lines in " ++ rest)) := by
    rw [sight_append unit]
    rintro c ⟨⟩
    rfl
  unfold speedLine at same
  repeat rw [String.append_assoc] at same
  exact eq_of_figure shows (by decide) (ends _) (ends _) (congrArg sight same)

theorem eq_of_imbalanceLine {m n : Nat}
    (same : imbalanceLine painter m = imbalanceLine painter n) : m = n := by
  have ends : EndsNumber (sight "") := nofun
  have seen := congrArg (sight <| · ++ "") same
  unfold imbalanceLine at seen
  rw [String.append_assoc, String.append_assoc] at seen
  exact eq_of_figure shows (by decide) ends ends seen

theorem eq_of_openLiteralLine {d d' : Delimiter}
    (same : openLiteralLine painter d = openLiteralLine painter d') : d = d' := by
  have seen := congrArg sight same
  have warning : Plain "Warning" := by decide
  have label : Plain ": file ends inside a " := by decide
  have quotes (d : Delimiter) : Plain d.text := by
    obtain ⟨_ | _, _ | _⟩ := d <;> decide
  unfold openLiteralLine at seen
  repeat rw [String.append_assoc] at seen
  rw [shows.sight_append _ warning, shows.sight_append _ warning, sight_append label,
    sight_append label, sight_append (quotes d), sight_append (quotes d')] at seen
  have text := List.append_cancel_right (List.append_cancel_left (List.append_cancel_left seen))
  obtain ⟨_ | _, _ | _⟩ := d <;> obtain ⟨_ | _, _ | _⟩ := d' <;> first | rfl | cases text

theorem line_injective (elapsed : Float) : Function.Injective (line painter elapsed) := by
  intro r s same
  have begins : r.beginning = s.beginning := by
    rw [← r.beginning_line shows elapsed, same, beginning_line shows]
  cases r <;> cases s
  case speed.speed => exact congrArg speed (eq_of_speedLine shows same)
  case imbalance.imbalance => exact congrArg imbalance (eq_of_imbalanceLine shows same)
  case openLiteral.openLiteral => exact congrArg openLiteral (eq_of_openLiteralLine shows same)
  all_goals cases begins

end Remark

/-! ## What is told -/

def remarks (summary : Summary) (mode : Mode) : List Remark :=
  Remark.speed summary.lines :: (summary.firstImbalance.map Remark.imbalance).toList ++
    (mode.delimiter?.map Remark.openLiteral).toList

omit shows in
theorem closing_eq_map (painter : Painter) (summary : Summary) (mode : Mode) (elapsed : Float) :
    closing painter summary mode elapsed =
      (remarks summary mode).map (Remark.line painter elapsed) := by
  obtain ⟨lines, totals, _ | first⟩ := summary <;> cases mode <;> rfl

theorem line_mem_iff {path : RawText} {summary : Summary} {mode : Mode}
    {elapsed : Float} {r : Remark} :
    r.line painter elapsed ∈ banner painter path ++ closing painter summary mode elapsed ↔
      r ∈ remarks summary mode := by
  rw [List.mem_append, or_iff_right (r.line_not_mem_banner shows elapsed path), closing_eq_map,
    List.mem_map_of_injective (Remark.line_injective shows elapsed)]

omit shows in
theorem speed_mem_iff {summary : Summary} {mode : Mode} {n : Nat} :
    .speed n ∈ remarks summary mode ↔ n = summary.lines := by
  simp [remarks]

omit shows in
theorem imbalance_mem_iff {summary : Summary} {mode : Mode} {n : Nat} :
    .imbalance n ∈ remarks summary mode ↔ summary.firstImbalance = some n := by
  simp [remarks]

omit shows in
theorem openLiteral_mem_iff {summary : Summary} {mode : Mode} {d : Delimiter} :
    .openLiteral d ∈ remarks summary mode ↔ mode = .literal d := by
  cases mode <;> simp [remarks, Mode.delimiter?, eq_comm]

end Diagnostics

/-! ## What is written -/

namespace Report

def writtenLines (output : List UInt8) : List String :=
  (((Utf8.decode output).toOption.getD []).splitOn '\n').map String.ofList

theorem writtenLines_lineBytes {lines : List String} (all : ∀ line ∈ lines, OneLine line) :
    writtenLines (lines.flatMap lineBytes) = lines ++ [""] := by
  rw [writtenLines, flatMap_lineBytes, Utf8.decode_encode, Except.toOption, Option.getD_some,
    splitOn_lines all, List.map_append, List.map_map]
  simp [Function.comp_def]

theorem exists_hint_eq_cons (row : Row) : ∃ rest, (hint row).toList = 'F' :: 'i' :: rest := by
  unfold hint
  simp only [String.toList_append, List.append_assoc]
  exact ⟨_, rfl⟩

theorem hint_ne {row : Row} {line : String} (other : ∀ rest, line.toList ≠ 'F' :: 'i' :: rest) :
    hint row ≠ line := by
  rintro rfl
  obtain ⟨rest, begins⟩ := exists_hint_eq_cons row
  exact other rest begins

theorem hint_ne_rowLine (row row' : Row) : hint row ≠ rowLine row' := by
  apply hint_ne
  intro rest begins
  have read := row?_rowLine row'
  rw [begins] at read
  cases read

theorem hint_ne_summaryLine (row : Row) (totals : Tally) : hint row ≠ summaryLine totals := by
  apply hint_ne
  unfold summaryLine
  simp only [String.toList_append, List.append_assoc]
  rintro rest ⟨⟩

theorem hint_ne_verdict {painter : Painter} (shows : painter.Shows) (row : Row) (totals : Tally) :
    hint row ≠ verdict painter totals := by
  intro same
  have seen := congrArg sight same
  have label : Plain hintLabel := by decide
  rw [sight_verdict shows, hint, String.append_assoc, String.append_assoc, sight_append label,
    verdict] at seen
  have first := congrArg List.head? seen
  split at first
  · simp [hintLabel, Painter.plain, balancedMessage] at first
  · simp [hintLabel, Painter.plain, warning, unbalancedMessage] at first

theorem eq_of_hint {row row' : Row} (same : hint row = hint row') : row.number = row'.number := by
  have read := hint?_hint row
  rw [same, hint?_hint row'] at read
  exact (congrArg Prod.fst (Option.some.inj read)).symm

theorem hint_mem_lines_iff {options : Options} {painter : Painter} (shows : painter.Shows)
    {rows : List Row} {row : Row} :
    hint row ∈ lines options painter rows ++ [""] ↔ hint row ∈ hints options rows := by
  have header : hint row ≠ header := hint_ne nofun
  have empty : hint row ≠ "" := hint_ne nofun
  simp [lines, header, empty, hint_ne_summaryLine, hint_ne_verdict shows,
    (hint_ne_rowLine _ _).symm]

theorem exists_hint_mem_lines_iff {changesOnly : Bool} {painter : Painter} (shows : painter.Shows)
    {rows : List Row} {n : Nat} :
    (∃ row : Row, row.number = n ∧ hint row ∈ lines ⟨changesOnly, true⟩ painter rows ++ [""]) ↔
      (summary rows).firstImbalance = some n := by
  simp only [hint_mem_lines_iff shows, hints, if_true, summary, Tracker.firstLine, Option.mem_toList,
    Option.map_eq_some_iff]
  constructor
  · rintro ⟨row, rfl, first, found, same⟩
    exact ⟨first, found, eq_of_hint same⟩
  · rintro ⟨first, found, rfl⟩
    exact ⟨first, rfl, first, found, rfl⟩

theorem summary_lines (lines : List String) :
    (summary (Progress.start.rows lines)).lines = lines.length := by
  rcases lines.eq_nil_or_concat with rfl | ⟨init, last, rfl⟩
  · rfl
  · simp only [List.concat_eq_append, summary, Progress.rows_append, Progress.rows_cons,
      Progress.rows_nil, List.getLast?_concat, Option.map_some, Option.getD_some, Progress.row,
      Progress.read, Progress.readAll_lines, List.length_append, List.length_singleton]
    exact congrArg (· + 1) (Nat.zero_add _)

end Report

/-! ## Runs -/

theorem Written.outcome_quiet {α : Type} (w : Written α) (code : ExitCode) {elapsed : Float}
    {after : α → Float → List String} (quiet : ∀ a, after a elapsed = []) :
    (w.outcome code [] after).diagnostics elapsed = [] := by
  unfold outcome
  cases w.result with
  | ok a => exact quiet a
  | error f => rfl
  | never => rfl

theorem run_quiet (setting : Setting) {quiet : CommandLine.Arguments}
    (unasked : quiet.verbose = false) (elapsed : Float) :
    (run setting quiet).diagnostics elapsed = [] := by
  unfold run
  simp only [unasked, Bool.false_eq_true, if_false]
  cases quiet.path with
  | none => exact Written.outcome_quiet _ _ fun _ => rfl
  | some path =>
      dsimp only
      cases readPath setting.openPath path with
      | error failure => rfl
      | ok lines => exact Written.outcome_quiet _ _ fun _ => rfl

open Report Diagnostics CommandLine in
/-- What is told of a file is what the report says of it, and the file itself. -/
theorem run_diagnostics_agree {painter : Painter} (keeps : painter.KeepsLines)
    (shows : painter.Shows) (openPath : RawText → Except Fault (List Read)) {arguments : Arguments}
    {path : RawText} {lines : List String} (named : arguments.path = some path)
    (read : readPath openPath path = .ok lines) (elapsed : Float) :
    let colour := painter.muted arguments.noColour
    let setting : Setting := ⟨painter, .endless, openPath⟩
    let asked : Arguments := { arguments with verbose := true }
    let told := (run setting asked).diagnostics elapsed
    let every := (run setting { asked with changesOnly := false }).output
    let located := writtenLines (run setting { asked with locate := true }).output
    (∀ n, speedLine colour n elapsed ∈ told ↔ n = lines.length) ∧
    (Contents.ofBytes? every).map (·.rows.length) = some lines.length ∧
    (∀ n, imbalanceLine colour n ∈ told ↔ ∃ row : Row, row.number = n ∧ hint row ∈ located) ∧
    ((∀ line ∈ lines, (Utf8.encode line.toList).length < 2 ^ 64) →
      ∀ n, imbalanceLine colour n ∈ told ↔ IsLeast {n | Unbalanced (lines.take n)} n) ∧
    (∀ d, openLiteralLine colour d ∈ told ↔ Mode.code.scanLines lines = .literal d) ∧
    ∀ setting quiet, quiet.verbose = false → (run setting quiet).diagnostics elapsed = [] := by
  intro colour setting asked told every located
  let rows := Progress.start.rows lines
  let mode := (Progress.start.readAll lines).mode
  have used : colour.Shows := shows.muted arguments.noColour
  have kept : colour.KeepsLines := keeps.muted arguments.noColour
  have all : told = banner colour path ++ closing colour (summary rows) mode elapsed :=
    @run_diagnostics openPath asked path lines named read painter elapsed
  have tells (r : Remark) : r.line colour elapsed ∈ told ↔ r ∈ remarks (summary rows) mode := by
    rw [all]
    exact line_mem_iff used
  have tellsFirst (n : Nat) :
      imbalanceLine colour n ∈ told ↔ (summary rows).firstImbalance = some n :=
    (tells (.imbalance n)).trans imbalance_mem_iff
  refine ⟨fun n => ?speed, ?every, fun n => ?hint, fun fits n => ?least, fun d => ?literal, ?quiet⟩
  case speed =>
    rw [← summary_lines lines]
    exact (tells (.speed n)).trans speed_mem_iff
  case every =>
    obtain ⟨written, -⟩ := @run_changesOnly openPath asked path lines named read painter
    have one := oneLine_lines ⟨false, arguments.locate⟩ kept (oneLine_rows read)
    rw [(lines_changesOnly arguments.locate colour rows).1] at one
    rw [show every = _ from written, ofBytes?_lines one, Option.map_some, List.length_map,
      Progress.rows_length]
  case hint =>
    have written := (@run_of_readPath_ok painter openPath { asked with locate := true } path named
      lines read).2
    have one := oneLine_lines ⟨arguments.changesOnly, true⟩ kept (oneLine_rows read)
    rw [tellsFirst, show located = _ from congrArg writtenLines written,
      writtenLines_lineBytes one, exists_hint_mem_lines_iff used]
  case least =>
    rw [tellsFirst, ← Progress.isLeast_totals_iff fits, ← Progress.find?_rows_eq_some_iff,
      ← Tracker.firstLine_ofRows]
    rfl
  case literal =>
    rw [show Mode.code.scanLines lines = mode from (Progress.readAll_mode .start lines).symm]
    exact (tells (.openLiteral d)).trans openLiteral_mem_iff
  case quiet => exact fun setting quiet unasked => run_quiet setting unasked elapsed

open Diagnostics in
theorem run_diagnostics_agree_open_literal :
    let told := (run ⟨.plain, .endless, fun _ => .ok [.data [0x78, 0x0A, 0x5B, 0x0A, 0x27, 0x29]]⟩
      ⟨some "a", true, false, true, false⟩).diagnostics 0.5
    speedLine .plain 3 0.5 ∈ told ∧ imbalanceLine .plain 2 ∈ told ∧
      openLiteralLine .plain ⟨.single, .simple⟩ ∈ told ∧
      IsLeast {n | Unbalanced (["x", "[", "')"].take n)} 2 := by
  have stops : (Reader.ofScript [.data [0x78, 0x0A, 0x5B, 0x0A, 0x27, 0x29]]).StopsAt
      ["x", "[", "')"] none := rfl
  have read := @readPath_of_stopsAt (fun _ => .ok _) "a" _ _ _ rfl stops
  obtain ⟨speed, -, hinted, least, literal, -⟩ :=
    @run_diagnostics_agree .plain Painter.keepsLines_plain Painter.shows_plain _
      ⟨some "a", true, false, true, false⟩ _ _ rfl read 0.5
  have written :=
    (@run_of_readPath_ok .plain _ ⟨some "a", true, true, true, false⟩ "a" rfl _ read).2
  have one := Report.oneLine_lines ⟨true, true⟩ Painter.keepsLines_plain (Report.oneLine_rows read)
  have located := (congrArg Report.writtenLines written).trans (Report.writtenLines_lineBytes one)
  have second := (hinted 2).2 <| by
    rw [located]
    exact (Report.exists_hint_mem_lines_iff Painter.shows_plain).2 rfl
  exact ⟨(speed 3).2 rfl, second, (literal _).2 (by decide +kernel),
    (least (by decide +kernel) 2).1 second⟩

end BracketTally
