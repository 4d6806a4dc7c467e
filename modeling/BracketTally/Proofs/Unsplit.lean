import BracketTally.Progress
import BracketTally.Proofs.Walk
import BracketTally.Proofs.WellFormed

namespace BracketTally

/-! ## Endings -/

theorem byteGlyphs_ending {e : Ending} (ended : e ≠ .missing) :
    ∃ n, byteGlyphs e.chars = List.replicate (n + 1) .other := by
  cases e with
  | missing => exact absurd rfl ended
  | lineFeed | carriageReturn => exact ⟨0, rfl⟩
  | both => exact ⟨1, rfl⟩

namespace Progress

def walk (p : Progress) : Walk := ⟨p.mode, p.totals, 0⟩

theorem walk_run_text (p : Progress) (text : List Char) :
    p.walk.run (byteGlyphs text) =
      ⟨(p.read (String.ofList text)).mode, (p.read (String.ofList text)).totals,
        ((Walk.start p.mode).run (byteGlyphs text)).ahead⟩ := by
  have fresh : p.walk = { Walk.start p.mode with tally := p.totals + (Walk.start p.mode).tally } := by
    simp [walk, Walk.start]
  rw [fresh, Walk.run_tally, read, Mode.scan, String.toList_ofList]
  rfl

theorem scan_text (p : Progress) (text : List Char) :
    (p.walk.run (byteGlyphs text)).toScan =
      ⟨(p.read (String.ofList text)).mode, (p.read (String.ofList text)).totals⟩ := by
  rw [walk_run_text]
  rfl

theorem run_whole (p : Progress) {l : Line} (ended : l.ending ≠ .missing) (rest : List Char) :
    p.walk.run (byteGlyphs (l.whole ++ rest)) = (p.read l.string).walk.run (byteGlyphs rest) := by
  obtain ⟨n, others⟩ := byteGlyphs_ending ended
  -- no mark stands in an ending, and a line is overshot by no more than its ending takes up
  have apart : Glyph.Apart (byteGlyphs l.text) (byteGlyphs l.ending.chars ++ byteGlyphs rest) := by
    intro q _ head
    rw [others] at head
    cases head
  have overshot : (p.walk.run (byteGlyphs l.text)).ahead ≤ 1 := by
    rw [walk_run_text]
    exact Walk.run_ahead_le p.mode (byteGlyphs l.text)
  rw [Line.whole, List.append_assoc, byteGlyphs_append, byteGlyphs_append, Walk.run_append _ apart,
    others, Walk.run_others overshot, walk_run_text]
  rfl

end Progress

/-! ## Lines -/

namespace Line

theorem upTo_prefix {text : List Char} {n : Nat} {l : Line} (found : (cut text)[n]? = some l) :
    ((cut text).take n).flatMap whole ++ l.text <+: text := by
  have after : (cut text).drop n = l :: (cut text).drop (n + 1) := by
    rw [List.drop_eq_getElem?_toList_append, found]
    rfl
  have parted : ((cut text).take n).flatMap whole ++ l.text ++
      (l.ending.chars ++ ((cut text).drop (n + 1)).flatMap whole) = text := by
    have joined := whole_cut text
    rw [← List.take_append_drop n (cut text), List.flatMap_append, after, List.flatMap_cons,
      whole, List.append_assoc, ← List.append_assoc _ l.text] at joined
    exact joined
  exact ⟨_, parted⟩

namespace Ended

variable {lines : List Line} (ended : Ended lines)
include ended

theorem scan (p : Progress) {n : Nat} {l : Line} (found : lines[n]? = some l) :
    (p.walk.run (byteGlyphs ((lines.take n).flatMap whole ++ l.text))).toScan =
      ⟨(p.readAll ((lines.map string).take (n + 1))).mode,
        (p.readAll ((lines.map string).take (n + 1))).totals⟩ := by
  induction ended generalizing p n with
  | nil => cases found
  | last k =>
      cases n with
      | zero =>
          cases found
          exact p.scan_text l.text
      | succ n => cases found
  | @more k lines closed next ih =>
      cases n with
      | zero =>
          cases found
          simpa [Progress.readAll, string] using p.scan_text l.text
      | succ n =>
          rw [List.take_succ_cons, List.flatMap_cons, List.append_assoc, p.run_whole closed]
          exact ih (p.read k.string) found

theorem scan_all (p : Progress) :
    (p.walk.run (byteGlyphs (lines.flatMap whole))).toScan =
      ⟨(p.readAll (lines.map string)).mode, (p.readAll (lines.map string)).totals⟩ := by
  induction ended generalizing p with
  | nil => rfl
  | last k =>
      by_cases closed : k.ending = .missing
      · have whole : [k].flatMap whole = k.text := by
          simp [Line.whole, closed, Ending.chars]
        rw [whole]
        exact p.scan_text k.text
      · have run := p.run_whole closed []
        rw [List.append_nil] at run
        rw [List.flatMap_singleton, run]
        rfl
  | @more k lines closed next ih =>
      rw [List.flatMap_cons, p.run_whole closed]
      exact ih (p.read k.string)

end Ended

end Line

/-! ## Rows -/

namespace Progress

/-- The rows of the lines that come out of the reader, and the mode after each of them, are those of
a single scan of the text as far as the line goes; the whole text likewise. -/
theorem scan_unsplit (chunks : List Chunk) (ends : Nat) {text : List Char}
    (wellFormed : Utf8.decode (chunks.flatMap Chunk.bytes) = .ok text) :
    let lines := (Line.cut text).map Line.string
    (Reader.ofScript (chunks.map Chunk.read ++ List.replicate ends (.data []))).lines = .ok lines ∧
      (∀ n l, (Line.cut text)[n]? = some l →
        let upTo := ((Line.cut text).take n).flatMap Line.whole ++ l.text
        upTo <+: text ∧
          (start.rows lines)[n]? =
            some ⟨n + 1, (Mode.code.scan (String.ofList upTo)).tally, l.string⟩ ∧
          (start.readAll (lines.take (n + 1))).mode =
            (Mode.code.scan (String.ofList upTo)).mode) ∧
      Mode.code.scan (String.ofList text) =
        ⟨(start.readAll lines).mode, (start.readAll lines).totals⟩ := by
  intro lines
  have ended := Line.cut_ended text
  have scan (upTo : List Char) :
      Mode.code.scan (String.ofList upTo) = (start.walk.run (byteGlyphs upTo)).toScan := by
    rw [Mode.scan, String.toList_ofList]
    rfl
  refine ⟨Reader.lines_text chunks ends wellFormed, ?_, ?_⟩
  · intro n l line upTo
    have string : lines[n]? = some l.string := by
      rw [List.getElem?_map, line]
      rfl
    have same := (scan upTo).trans (ended.scan start line)
    refine ⟨Line.upTo_prefix line, ?_, ?_⟩
    · rw [rows_getElem? start string, same]
      simp [start, lines]
    · rw [same]
  · rw [scan, ← ended.scan_all start, Line.whole_cut]

theorem scan_unsplit_escaped_lineFeed :
    (Reader.ofScript [.data [0x28, 0x0D], .data [0x0A, 0x27, 0x5C, 0x0A, 0x27, 0x5B]]).lines =
      .ok ["(", "'\\", "'["] ∧
    (start.rows ["(", "'\\", "'["])[1]? = some ⟨2, (Mode.code.scan "(\r\n'\\").tally, "'\\"⟩ ∧
    (start.readAll ["(", "'\\"]).mode = (Mode.code.scan "(\r\n'\\").mode ∧
    Mode.code.scan "(\r\n'\\\n'[" =
      ⟨(start.readAll ["(", "'\\", "'["]).mode, (start.readAll ["(", "'\\", "'["]).totals⟩ := by
  obtain ⟨read, rows, whole⟩ :=
    @scan_unsplit [⟨0x28, [0x0D]⟩, ⟨0x0A, [0x27, 0x5C, 0x0A, 0x27, 0x5B]⟩] 0
      ['(', '\r', '\n', '\'', '\\', '\n', '\'', '['] rfl
  obtain ⟨-, row, mode⟩ := rows 1 ⟨['\'', '\\'], .lineFeed⟩ rfl
  exact ⟨read, row, mode, whole⟩

end Progress

end BracketTally
