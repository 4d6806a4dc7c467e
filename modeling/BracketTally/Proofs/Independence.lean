import BracketTally.Proofs.ReadBack

namespace BracketTally

/-! ## Reports -/

namespace Report

theorem lines_colour (options : Options) (rows : List Row) :
    ∃ before after, ∀ painter,
      lines options painter rows = before ++ verdict painter (finalTotals rows) :: after := by
  refine ⟨header :: (shown options rows).map rowLine ++ ["", summaryLine (finalTotals rows)],
    hints options rows, fun painter => ?_⟩
  simp [lines]

theorem lines_locate (changesOnly : Bool) (painter : Painter) (rows : List Row) :
    lines ⟨changesOnly, true⟩ painter rows =
      lines ⟨changesOnly, false⟩ painter rows ++ hints ⟨changesOnly, true⟩ rows := by
  simp [lines, shown, hints]

theorem hints_eq_nil_or (options : Options) (rows : List Row) :
    hints options rows = [] ∨ ∃ row ∈ rows, hints options rows = [hint row] := by
  cases found : hints options rows with
  | nil => exact .inl rfl
  | cons line more =>
      have one := length_hints_le options rows
      rw [found, List.length_cons] at one
      obtain rfl : more = [] := List.eq_nil_of_length_eq_zero (by omega)
      obtain ⟨row, member, rfl⟩ := exists_row_of_mem_hints (found ▸ List.mem_cons_self ..)
      exact .inr ⟨row, member, rfl⟩

theorem lines_changesOnly (locate : Bool) (painter : Painter) (rows : List Row) :
    let closing := "" :: summaryLine (finalTotals rows) :: verdict painter (finalTotals rows) ::
      hints ⟨false, locate⟩ rows
    lines ⟨false, locate⟩ painter rows = header :: rows.map rowLine ++ closing ∧
      lines ⟨true, locate⟩ painter rows = header :: (changes 0 rows).map rowLine ++ closing := by
  simp [lines, shown, hints]

theorem oneLine_rows {openPath : RawText → Except Fault (List Read)} {path : RawText}
    {texts : List String} (read : readPath openPath path = .ok texts) :
    ∀ row ∈ Progress.start.rows texts, OneLine row.text := fun row member =>
  (readPath_clean read row.text (text_of_mem_rows member)).2

theorem result_writeFrom_next (options : Options) (painter : Painter) (texts : List String) :
    (writeFrom Progress.next .endless options painter Progress.start texts).result =
      .ok (summary (Progress.start.rows texts), Progress.start.readAll texts) := by
  rw [writeFrom_next_eq_deliver, Sink.deliver_endless]

end Report

/-! ## Runs -/

open CommandLine

theorem run_verbose (setting : Setting) (arguments : Arguments) (verbose : Bool) :
    (run setting { arguments with verbose := verbose }).output = (run setting arguments).output ∧
      (run setting { arguments with verbose := verbose }).result =
        (run setting arguments).result := by
  unfold run
  cases arguments.path with
  | none => exact ⟨rfl, rfl⟩
  | some path =>
      dsimp only
      cases readPath setting.openPath path with
      | error failure => exact ⟨rfl, rfl⟩
      | ok lines => simp only [Written.outcome_output, Written.outcome_result, and_self]

section Named

open Report

variable (openPath : RawText → Except Fault (List Read)) {arguments : Arguments} {path : RawText}
  {lines : List String} (named : arguments.path = some path)
  (read : readPath openPath path = .ok lines)
include named read

theorem run_colour :
    ∃ before after : List String, (∀ line ∈ before ++ after, OneLine line) ∧
      ∀ painter noColour,
        (run ⟨painter, .endless, openPath⟩ { arguments with noColour := noColour }).output =
          (before ++ verdict (painter.muted noColour) (finalTotals (Progress.start.rows lines)) ::
            after).flatMap lineBytes := by
  let options : Options := ⟨arguments.changesOnly, arguments.locate⟩
  obtain ⟨before, after, parted⟩ := lines_colour options (Progress.start.rows lines)
  have all := oneLine_lines options Painter.keepsLines_plain (oneLine_rows read)
  rw [parted] at all
  refine ⟨before, after, fun line member => all line ?_, fun painter noColour => ?_⟩
  · rcases List.mem_append.1 member with found | found <;> simp [found]
  · rw [← parted]
    exact (@run_of_readPath_ok painter openPath { arguments with noColour := noColour } path named
      lines read).2

theorem run_locate (painter : Painter) :
    let without := (run ⟨painter, .endless, openPath⟩ { arguments with locate := false }).output
    let located := (run ⟨painter, .endless, openPath⟩ { arguments with locate := true }).output
    located = without ∨ ∃ row ∈ Progress.start.rows lines,
      OneLine (hint row) ∧ located = without ++ lineBytes (hint row) := by
  intro without located
  let options : Options := ⟨arguments.changesOnly, true⟩
  have longer :
      located = without ++ (hints options (Progress.start.rows lines)).flatMap lineBytes := by
    have first := (@run_of_readPath_ok painter openPath { arguments with locate := false } path
      named lines read).2
    have second := (@run_of_readPath_ok painter openPath { arguments with locate := true } path
      named lines read).2
    rw [lines_locate, List.flatMap_append, ← first] at second
    exact second
  rcases hints_eq_nil_or options (Progress.start.rows lines) with none | ⟨row, member, one⟩
  · left
    rw [longer, none, List.flatMap_nil, List.append_nil]
  · right
    refine ⟨row, member, oneLine_hint (oneLine_rows read row member), ?_⟩
    rw [longer, one, List.flatMap_singleton]

theorem run_changesOnly (painter : Painter) :
    let rows := Progress.start.rows lines
    let closing := "" :: summaryLine (finalTotals rows) ::
      verdict (painter.muted arguments.noColour) (finalTotals rows) ::
        hints ⟨false, arguments.locate⟩ rows
    (run ⟨painter, .endless, openPath⟩ { arguments with changesOnly := false }).output =
        (header :: rows.map rowLine ++ closing).flatMap lineBytes ∧
      (run ⟨painter, .endless, openPath⟩ { arguments with changesOnly := true }).output =
        (header :: (changes 0 rows).map rowLine ++ closing).flatMap lineBytes := by
  intro rows closing
  obtain ⟨every, some_rows⟩ :=
    lines_changesOnly arguments.locate (painter.muted arguments.noColour) rows
  rw [← every, ← some_rows]
  constructor
  · exact (@run_of_readPath_ok painter openPath { arguments with changesOnly := false } path
      named lines read).2
  · exact (@run_of_readPath_ok painter openPath { arguments with changesOnly := true } path
      named lines read).2

theorem run_diagnostics (painter : Painter) (elapsed : Float) :
    let colour := painter.muted arguments.noColour
    (run ⟨painter, .endless, openPath⟩ arguments).diagnostics elapsed =
      if arguments.verbose then
        Diagnostics.banner colour path ++ Diagnostics.closing colour
          (summary (Progress.start.rows lines)) (Progress.start.readAll lines).mode elapsed
      else [] := by
  rw [run_of_readPath painter openPath named read, Sink.deliver_endless,
    Written.flushed_eq_self _ Sink.flush_endless]
  cases arguments.verbose <;> rfl

end Named

open Report in
/-- Each option changes what it is for, and that only. -/
theorem run_independent (openPath : RawText → Except Fault (List Read)) {arguments : Arguments}
    {path : RawText} {lines : List String} (named : arguments.path = some path)
    (read : readPath openPath path = .ok lines) :
    let rows := Progress.start.rows lines
    let totals := finalTotals rows
    let ran := fun painter arguments => run ⟨painter, .endless, openPath⟩ arguments
    (∀ painter verbose,
      let changed := ran painter { arguments with verbose := verbose }
      changed.output = (ran painter arguments).output ∧
        changed.result = (ran painter arguments).result) ∧
    (∃ before after : List String, (∀ line ∈ before ++ after, '\n' ∉ line.toList) ∧
      ∀ painter : Painter, painter.KeepsLines → painter.Shows → ∀ noColour,
        let line := verdict (painter.muted noColour) totals
        '\n' ∉ line.toList ∧
          (∀ medium, Text.Terminal.shown medium line = verdict .plain totals) ∧
          (ran painter { arguments with noColour := noColour }).output =
            (before ++ line :: after).flatMap lineBytes) ∧
    (∀ painter,
      let without := (ran painter { arguments with locate := false }).output
      let located := (ran painter { arguments with locate := true }).output
      located = without ∨
        ∃ row ∈ rows, '\n' ∉ (hint row).toList ∧ located = without ++ lineBytes (hint row)) ∧
    (∃ printed : List Row, printed.Sublist rows ∧ ∃ hints : List String, ∀ painter,
      let closing := "" :: summaryLine totals ::
        verdict (painter.muted arguments.noColour) totals :: hints
      (ran painter { arguments with changesOnly := false }).output =
          (header :: rows.map rowLine ++ closing).flatMap lineBytes ∧
        (ran painter { arguments with changesOnly := true }).output =
          (header :: printed.map rowLine ++ closing).flatMap lineBytes) ∧
    (∀ painter options,
      (writeFrom Progress.next .endless options painter Progress.start lines).result =
        .ok (summary rows, Progress.start.readAll lines)) ∧
    ∀ painter elapsed,
      let colour := painter.muted arguments.noColour
      (ran painter arguments).result = .ok .success ∧
        (ran painter arguments).diagnostics elapsed =
          if arguments.verbose then
            Diagnostics.banner colour path ++ Diagnostics.closing colour (summary rows)
              (Progress.start.readAll lines).mode elapsed
          else [] := by
  intro rows totals ran
  refine ⟨?_, ?_, run_locate openPath named read, ?_, ?_, ?_⟩
  · exact fun painter verbose => run_verbose _ arguments verbose
  · obtain ⟨before, after, others, output⟩ := run_colour openPath named read
    refine ⟨before, after, others, fun painter keeps shows noColour => ⟨?_, ?_, ?_⟩⟩
    · exact oneLine_verdict (keeps.muted noColour) totals
    · exact shown_verdict (shows.muted noColour) totals
    · exact output painter noColour
  · exact ⟨changes 0 rows, changes_sublist 0 rows, _, run_changesOnly openPath named read⟩
  · exact fun painter options => result_writeFrom_next options painter lines
  · exact fun painter elapsed => ⟨(run_of_readPath_ok painter openPath named read).1,
      run_diagnostics openPath named read painter elapsed⟩

theorem run_independent_unchanged_row :
    (run ⟨.ansi, .endless, fun _ => .ok [.data [0x28, 0x0A, 0x78]]⟩
        ⟨some "a", true, true, true, false⟩).output =
      (run ⟨.ansi, .endless, fun _ => .ok [.data [0x28, 0x0A, 0x78]]⟩
        ⟨some "a", true, true, false, false⟩).output ∧
    Text.Terminal.shown .text (Report.verdict (Painter.ansi.muted false) ⟨0, 1, 0⟩) =
      Report.verdict .plain ⟨0, 1, 0⟩ ∧
    (Report.writeFrom Progress.next .endless ⟨true, true⟩ .ansi Progress.start ["(", "x"]).result =
      .ok (⟨2, ⟨0, 1, 0⟩, some 1⟩, ⟨.code, ⟨0, 1, 0⟩, 2⟩) := by
  have stops : (Reader.ofScript [.data [0x28, 0x0A, 0x78]]).StopsAt ["(", "x"] none := rfl
  have read := @readPath_of_stopsAt (fun _ => .ok _) "a" _ _ _ rfl stops
  obtain ⟨verbose, ⟨_, _, -, coloured⟩, -, -, summed, -⟩ :=
    @run_independent _ ⟨some "a", true, true, false, false⟩ _ _ rfl read
  obtain ⟨-, shown, -⟩ := coloured .ansi Painter.keepsLines_ansi Painter.shows_ansi false
  exact ⟨(verbose .ansi true).1, shown .text, summed .ansi ⟨true, true⟩⟩

end BracketTally
