import BracketTally.Proofs.WellFormed
import BracketTally.Run

namespace BracketTally

/-! ## The first answer that is no line -/

namespace Reader

/-- The answers are these lines, and then one that is no line. -/
def StopsAt (r : Reader) (lines : List String) (stop : Option ReadError) : Prop :=
  r.answers (lines.length + 1) = lines.map (fun line => some (.ok line)) ++ [stop.map .error]

theorem stopsAt_nil_iff {r : Reader} {stop : Option ReadError} :
    r.StopsAt [] stop ↔ r.next.1 = stop.map .error := by
  simp [StopsAt, answers]

theorem stopsAt_cons_iff {r : Reader} {line : String} {lines : List String}
    {stop : Option ReadError} :
    r.StopsAt (line :: lines) stop ↔ r.next.1 = some (.ok line) ∧ r.next.2.StopsAt lines stop := by
  simp [StopsAt, answers]

theorem exists_stopsAt (r : Reader) : ∃ lines stop, r.StopsAt lines stop := by
  induction r using untilEnd.induct with
  | case1 r answered => exact ⟨[], none, stopsAt_nil_iff.2 answered⟩
  | case2 r item answered ih =>
      cases item with
      | error e => exact ⟨[], some e, stopsAt_nil_iff.2 answered⟩
      | ok line =>
          obtain ⟨lines, stop, later⟩ := ih
          exact ⟨line :: lines, stop, stopsAt_cons_iff.2 ⟨answered, later⟩⟩

theorem StopsAt.unique {r : Reader} {lines lines' : List String} {stop stop' : Option ReadError}
    (stops : r.StopsAt lines stop) (stops' : r.StopsAt lines' stop') :
    lines = lines' ∧ stop = stop' := by
  induction lines generalizing r lines' with
  | nil =>
      have answered := stopsAt_nil_iff.1 stops
      cases lines' with
      | nil =>
          rw [stopsAt_nil_iff, answered] at stops'
          cases stop <;> cases stop' <;> cases stops' <;> exact ⟨rfl, rfl⟩
      | cons line' lines' =>
          rw [stopsAt_cons_iff, answered] at stops'
          cases stop <;> cases stops'.1
  | cons line lines ih =>
      obtain ⟨answered, later⟩ := stopsAt_cons_iff.1 stops
      cases lines' with
      | nil =>
          rw [stopsAt_nil_iff, answered] at stops'
          cases stop' <;> cases stops'
      | cons line' lines' =>
          rw [stopsAt_cons_iff, answered] at stops'
          obtain ⟨same, later'⟩ := stops'
          cases same
          obtain ⟨rfl, rfl⟩ := ih later later'
          exact ⟨rfl, rfl⟩

theorem lines_of_stopsAt {r : Reader} {lines : List String} {stop : Option ReadError}
    (stops : r.StopsAt lines stop) :
    r.lines = match stop with
      | none => .ok lines
      | some e => .error e := by
  induction lines generalizing r with
  | nil =>
      have answered := stopsAt_nil_iff.1 stops
      cases stop with
      | none => rw [Reader.lines, untilEnd_of_none answered]; rfl
      | some e => rw [Reader.lines, untilEnd_of_some answered]; rfl
  | cons line lines ih =>
      obtain ⟨answered, later⟩ := stopsAt_cons_iff.1 stops
      have rest := ih later
      rw [Reader.lines] at rest ⊢
      rw [untilEnd_of_some answered, List.mapM_cons, rest]
      cases stop <;> rfl

end Reader

/-! ## Lines without endings -/

theorem Event.gather_inner {before piece : List UInt8} {events later : List Event}
    (unfinished : Piece.lineFeed ∉ before) (gathered : gather before events = (.ok piece, later)) :
    Piece.lineFeed ∉ piece.dropLast := by
  have alone : Piece.lineFeed ∉ before.dropLast := fun member =>
    unfinished ((List.dropLast_sublist before).subset member)
  induction events generalizing before with
  | nil =>
      cases gathered
      exact alone
  | cons event events ih =>
      cases event with
      | stop =>
          cases gathered
          exact alone
      | fault f => cases gathered
      | byte b =>
          rw [gather] at gathered
          split at gathered
          · cases gathered
            rwa [List.dropLast_concat]
          · rename_i other
            have still : Piece.lineFeed ∉ before ++ [b] := by simp [unfinished, Ne.symm other]
            refine ih still gathered ?_
            rwa [List.dropLast_concat]

def View.Clean (v : View) : Prop := ∀ line ∈ v.pending, Line.Clean line.toList

theorem Piece.lines_clean {piece : List UInt8} {found : List String}
    (inner : lineFeed ∉ piece.dropLast) (nonempty : piece ≠ []) (given : lines piece = .ok found) :
    ∀ line ∈ found, Line.Clean line.toList := by
  rcases lines_cases inner nonempty with ⟨text, -, cut⟩ | ⟨_, _, -, refused⟩
  · rw [cut] at given
    cases given
    intro line member
    obtain ⟨l, found, rfl⟩ := List.mem_map.1 member
    rw [Line.string, String.toList_ofList]
    exact Line.cut_clean l found
  · rw [refused] at given
    cases given

theorem View.Clean.next {v : View} (clean : v.Clean) :
    (∀ line, v.next.1 = some (.ok line) → Line.Clean line.toList) ∧ v.next.2.Clean := by
  obtain ⟨pending, events⟩ := v
  cases pending with
  | cons line pending =>
      rw [Clean, List.forall_mem_cons] at clean
      refine ⟨?_, clean.2⟩
      intro other answered
      cases answered
      exact clean.1
  | nil =>
      rcases gathered : Event.gather [] events with ⟨fault | ⟨_ | ⟨b, bytes⟩⟩, later⟩
      · simp [View.next, gathered, Clean]
      · simp [View.next, gathered, Clean]
      · have inner := Event.gather_inner List.not_mem_nil gathered
        cases given : Piece.lines (b :: bytes) with
        | error m => simp [View.next, gathered, given, Clean]
        | ok found =>
            have clean := Piece.lines_clean inner (List.cons_ne_nil b bytes) given
            obtain ⟨line, more, rfl⟩ := List.exists_cons_of_ne_nil (Piece.lines_ne_nil given)
            rw [List.forall_mem_cons] at clean
            simpa [View.next, gathered, given, Clean] using clean

theorem Reader.StopsAt.clean {r : Reader} {lines : List String} {stop : Option ReadError}
    (stops : r.StopsAt lines stop) (clean : r.view.Clean) :
    ∀ line ∈ lines, Line.Clean line.toList := by
  induction lines generalizing r with
  | nil => nofun
  | cons line lines ih =>
      obtain ⟨answered, later⟩ := stopsAt_cons_iff.1 stops
      have next := clean.next
      rw [next_view] at next
      rw [List.forall_mem_cons]
      exact ⟨next.1 line answered, ih later next.2⟩

/-! ## Runs -/

theorem readPath_of_stopsAt {openPath : RawText → Except Fault (List Read)} {path : RawText}
    {script : List Read} {lines : List String} {stop : Option ReadError}
    (opened : openPath path = .ok script) (stops : (Reader.ofScript script).StopsAt lines stop) :
    readPath openPath path = match stop with
      | none => .ok lines
      | some e => .error (.reading path e) := by
  rw [readPath, opened]
  simp only [Reader.lines_of_stopsAt stops]
  cases stop <;> rfl

theorem readPath_clean {openPath : RawText → Except Fault (List Read)} {path : RawText}
    {lines : List String} (read : readPath openPath path = .ok lines) :
    ∀ line ∈ lines, Line.Clean line.toList := by
  cases opened : openPath path with
  | error fault =>
      rw [readPath, opened] at read
      cases read
  | ok script =>
      obtain ⟨found, stop, stops⟩ := Reader.exists_stopsAt (.ofScript script)
      rw [readPath_of_stopsAt opened stops] at read
      cases stop with
      | some e => cases read
      | none =>
          cases read
          exact stops.clean nofun

section Named

open CommandLine

variable (painter : Painter) (openPath : RawText → Except Fault (List Read)) {arguments : Arguments}
  {path : RawText} (named : arguments.path = some path)
include named

theorem run_of_readPath_error {sink : Sink} {failure : Failure}
    (unread : readPath openPath path = .error failure) :
    run ⟨painter, sink, openPath⟩ arguments =
      ⟨[], fun _ => if arguments.verbose then
        Diagnostics.banner (painter.muted arguments.noColour) path else [], .error failure⟩ := by
  simp only [run, named, unread]

theorem run_of_readPath {sink : Sink} {lines : List String}
    (read : readPath openPath path = .ok lines) :
    let used := painter.muted arguments.noColour
    let rows := Progress.start.rows lines
    let report := Report.lines ⟨arguments.changesOnly, arguments.locate⟩ used rows
    run ⟨painter, sink, openPath⟩ arguments =
      ((sink.deliver (report.flatMap lineBytes)
        (Report.summary rows, Progress.start.readAll lines)).flushed sink).outcome .success
        (if arguments.verbose then Diagnostics.banner used path else [])
        fun (summary, scan) elapsed =>
          if arguments.verbose then Diagnostics.closing used summary scan.mode elapsed else [] := by
  simp only [run, named, read, Report.writeFrom_next_eq_deliver]

theorem run_of_readPath_ok {lines : List String} (read : readPath openPath path = .ok lines) :
    (run ⟨painter, .endless, openPath⟩ arguments).result = .ok .success ∧
      (run ⟨painter, .endless, openPath⟩ arguments).output =
        (Report.lines ⟨arguments.changesOnly, arguments.locate⟩ (painter.muted arguments.noColour)
          (Progress.start.rows lines)).flatMap lineBytes := by
  rw [run_of_readPath painter openPath named read, Written.flushed_eq_self _ Sink.flush_endless,
    Sink.deliver_endless]
  exact ⟨rfl, rfl⟩

end Named

theorem run_without_path {sink : Sink} {arguments : CommandLine.Arguments}
    (unnamed : arguments.path = none) (painter : Painter)
    (openPath : RawText → Except Fault (List Read)) :
    run ⟨painter, sink, openPath⟩ arguments =
      (sink.deliver (lineBytes usage) ()).outcome .failure [] fun _ _ => [] := by
  rw [run, unnamed, Sink.writeLine_eq, Sink.deliver]
  rcases sink.write (lineBytes usage) with ⟨accepted, next | fault | _⟩
  · simp [Written.outcome, Written.andThen, Written.nothing]
  · rfl
  · rfl

end BracketTally
