import BracketTally.Proofs.Imbalance

namespace BracketTally

/-! ## Magnitudes -/

namespace Tally

def magnitude (t : Tally) : Nat :=
  t.curly.toInt.natAbs + t.round.toInt.natAbs + t.square.toInt.natAbs

def Fits (s t : Tally) : Prop :=
  ∀ shape,
    let sum := (s.get shape).toInt + (t.get shape).toInt
    Int64.minValue.toInt ≤ sum ∧ sum ≤ Int64.maxValue.toInt

theorem natAbs_get_le (t : Tally) (shape : Shape) : (t.get shape).toInt.natAbs ≤ t.magnitude := by
  cases shape <;> simp only [get, magnitude] <;> omega

theorem natAbs_toInt_add_le (a b : Int64) :
    (a + b).toInt.natAbs ≤ a.toInt.natAbs + b.toInt.natAbs := by
  -- a sum that wraps is smaller still
  rw [Int64.toInt_add, Int.bmod_def]
  omega

theorem magnitude_add_le (s t : Tally) : (s + t).magnitude ≤ s.magnitude + t.magnitude := by
  have curly := natAbs_toInt_add_le s.curly t.curly
  have round := natAbs_toInt_add_le s.round t.round
  have square := natAbs_toInt_add_le s.square t.square
  calc (s + t).magnitude
      = (s.curly + t.curly).toInt.natAbs + (s.round + t.round).toInt.natAbs +
          (s.square + t.square).toInt.natAbs := rfl
    _ ≤ s.magnitude + t.magnitude := by
        unfold magnitude
        omega

theorem fits_of_magnitude {s t : Tally} (small : s.magnitude + t.magnitude < 2 ^ 63) :
    s.Fits t := by
  intro shape
  have first := s.natAbs_get_le shape
  have second := t.natAbs_get_le shape
  rw [Int64.toInt_minValue, Int64.toInt_maxValue]
  omega

end Tally

theorem Glyph.magnitude_weight_le (g : Glyph) : g.weight.magnitude ≤ 1 := by
  cases g with
  | bracket b => obtain ⟨_ | _, _ | _ | _⟩ := b <;> decide
  | quote q | backslash | other => exact Nat.zero_le 1

theorem Mode.magnitude_move_le (mode : Mode) (g : Glyph) (rest : List Glyph) :
    (mode.move g rest).tally.magnitude ≤ 1 := by
  obtain _ | ⟨q, _ | _⟩ := mode
  · cases g with
    | quote q =>
        rw [move_code_quote]
        split <;> exact Nat.zero_le 1
    | backslash | other => exact Nat.zero_le 1
    | bracket b => exact Glyph.magnitude_weight_le (.bracket b)
  · by_cases escape : g = .backslash
    · rw [escape, move_simple_backslash]
      exact Nat.zero_le 1
    · rw [move_simple escape]
      split <;> exact Nat.zero_le 1
  · rw [move_triple]
    split <;> exact Nat.zero_le 1

/-! ## A cursor over bytes -/

structure Cursor where
  position : Nat
  mode : Mode
  tally : Tally

namespace Cursor

def start (mode : Mode) : Cursor := ⟨0, mode, 0⟩

def pass (c : Cursor) (g : Glyph) (rest : List Glyph) : Cursor :=
  let m := c.mode.move g rest
  ⟨c.position + 1 + m.beyond, m.mode, c.tally + m.tally⟩

/-- Where the cursor gets, as long as it stands within the line. -/
inductive Reached (mode : Mode) (line : List Glyph) : Cursor → Prop
  | start : Reached mode line (start mode)
  | pass {c : Cursor} {g : Glyph} {rest : List Glyph} (reached : Reached mode line c)
      (within : c.position < line.length) (here : line.drop c.position = g :: rest) :
      Reached mode line (c.pass g rest)

/-- What holds of the cursor wherever it gets. -/
structure Bounded (line : List Glyph) (c : Cursor) : Prop where
  magnitude_le : c.tally.magnitude ≤ min c.position line.length
  position_le : c.position ≤ line.length + 1

section Pass

variable {mode : Mode} {line rest : List Glyph} {c : Cursor} {g : Glyph}

theorem length_eq (here : line.drop c.position = g :: rest) :
    line.length = c.position + 1 + rest.length := by
  have length := congrArg List.length here
  rw [List.length_drop, List.length_cons] at length
  omega

theorem drop_pass (here : line.drop c.position = g :: rest) :
    line.drop (c.pass g rest).position = rest.drop (c.mode.move g rest).beyond := by
  have tail : line.drop (c.position + 1) = rest := by
    rw [← List.drop_drop, here]
    rfl
  rw [pass, ← List.drop_drop, tail]

theorem Bounded.pass (bounded : c.Bounded line) (here : line.drop c.position = g :: rest) :
    (c.pass g rest).Bounded line := by
  have length := length_eq here
  refine ⟨?magnitude, ?position⟩
  case magnitude =>
    have before := bounded.magnitude_le
    have added := Tally.magnitude_add_le c.tally (c.mode.move g rest).tally
    have one := c.mode.magnitude_move_le g rest
    simp only [Cursor.pass]
    omega
  case position =>
    simp only [Cursor.pass]
    -- more than one glyph is taken along only where there are two, so only one can overshoot
    rcases c.mode.move_beyond g rest with one | ⟨two, q, pair⟩
    · omega
    · obtain ⟨later, rfl⟩ := pairFollows_iff.1 pair
      simp only [List.length_cons] at length
      omega

theorem Reached.bounded (reached : Reached mode line c) : c.Bounded line := by
  induction reached with
  | start => exact ⟨Nat.zero_le _, Nat.zero_le _⟩
  | pass reached within here ih => exact ih.pass here

theorem Reached.toScan_run (reached : Reached mode line c) :
    (Walk.run ⟨c.mode, c.tally, 0⟩ (line.drop c.position)).toScan =
      ((Walk.start mode).run line).toScan := by
  induction reached with
  | start => rfl
  | pass reached within here ih =>
      -- what the cursor passes at once, the walk lets go by
      rw [← ih, here, drop_pass here, Cursor.pass, ← Walk.toScan_run_drop]
      rfl

theorem Reached.toScan_end (reached : Reached mode line c) (ended : line.length ≤ c.position) :
    ((Walk.start mode).run line).toScan = ⟨c.mode, c.tally⟩ := by
  rw [← reached.toScan_run, List.drop_eq_nil_of_le ended]
  rfl

theorem Reached.exists_end {c : Cursor} (reached : Reached mode line c) :
    ∃ last, Reached mode line last ∧ line.length ≤ last.position := by
  rcases Nat.lt_or_ge c.position line.length with within | ended
  · have here := List.drop_eq_getElem_cons within
    have shorter := length_eq here
    exact (reached.pass within here).exists_end
  · exact ⟨c, reached, ended⟩
termination_by line.length - c.position
decreasing_by
  simp only [Cursor.pass]
  omega

theorem Reached.fits (reached : Reached mode line c) (small : line.length < 2 ^ 63)
    (here : line.drop c.position = g :: rest) : c.tally.Fits (c.mode.move g rest).tally := by
  apply Tally.fits_of_magnitude
  have length := length_eq here
  have bound := reached.bounded.magnitude_le
  have one := c.mode.magnitude_move_le g rest
  omega

end Pass

end Cursor

/-! ## Lines -/

theorem length_byteGlyphs (text : List Char) :
    (byteGlyphs text).length = (Utf8.encode text).length :=
  List.length_map _

theorem Mode.magnitude_scan_le (mode : Mode) (line : String) :
    (mode.scan line).tally.magnitude ≤ (Utf8.encode line.toList).length := by
  let glyphs := byteGlyphs line.toList
  obtain ⟨last, reached, ended⟩ := (Cursor.Reached.start : Cursor.Reached mode glyphs _).exists_end
  have scanned : mode.scan line = ⟨last.mode, last.tally⟩ := reached.toScan_end ended
  have bound := reached.bounded.magnitude_le
  rw [length_byteGlyphs] at bound
  rw [scanned]
  exact Nat.le_trans bound (Nat.min_le_right ..)

def byteCount (lines : List String) : Nat :=
  (lines.flatMap fun line => Utf8.encode line.toList).length

theorem byteCount_cons (line : String) (lines : List String) :
    byteCount (line :: lines) = (Utf8.encode line.toList).length + byteCount lines := by
  rw [byteCount, List.flatMap_cons, List.length_append, byteCount]

theorem byteCount_append (lines later : List String) :
    byteCount (lines ++ later) = byteCount lines + byteCount later := by
  rw [byteCount, List.flatMap_append, List.length_append, byteCount, byteCount]

theorem byteCount_take_le (lines : List String) (n : Nat) :
    byteCount (lines.take n) ≤ byteCount lines := by
  have parted := byteCount_append (lines.take n) (lines.drop n)
  rw [List.take_append_drop] at parted
  omega

theorem byteCount_take_succ {lines : List String} {n : Nat} {line : String}
    (found : lines[n]? = some line) :
    byteCount (lines.take (n + 1)) =
      byteCount (lines.take n) + (Utf8.encode line.toList).length := by
  rw [List.take_add_one, found, byteCount_append]
  simp [byteCount]

theorem length_encode_le_byteCount {lines : List String} {line : String} (member : line ∈ lines) :
    (Utf8.encode line.toList).length ≤ byteCount lines := by
  obtain ⟨n, found⟩ := List.mem_iff_getElem?.1 member
  have next := byteCount_take_succ found
  have whole := byteCount_take_le lines (n + 1)
  omega

theorem ReadsLines.code_length_le {mode ending : Mode} {lines : List String} {code : List Char}
    (reads : ReadsLines mode lines code ending) : code.length ≤ byteCount lines := by
  induction reads with
  | nil => exact Nat.zero_le _
  | @cons mode ending line lines reading code first next ih =>
      have code := first.code_length_le
      have bytes := Utf8.length_le_length_encode line.toList
      rw [List.length_append, byteCount_cons]
      omega

namespace Progress

theorem magnitude_readAll_le (p : Progress) (lines : List String) :
    (p.readAll lines).totals.magnitude ≤ p.totals.magnitude + byteCount lines := by
  induction lines generalizing p with
  | nil => exact Nat.le_refl _
  | cons line lines ih =>
      have later := ih (p.read line)
      have added := Tally.magnitude_add_le p.totals (p.mode.scan line).tally
      have bytes := p.mode.magnitude_scan_le line
      rw [byteCount_cons]
      simp only [readAll, List.foldl_cons, read] at later ⊢
      omega

theorem magnitude_start_le (lines : List String) :
    (start.readAll lines).totals.magnitude ≤ byteCount lines := by
  have bound := start.magnitude_readAll_le lines
  rwa [show start.totals.magnitude = 0 from rfl, Nat.zero_add] at bound

theorem toInt_get_totals {lines : List String} {code : List Char} {ending : Mode}
    (reads : ReadsLines .code lines code ending) (small : byteCount lines < 2 ^ 63)
    (shape : Shape) :
    ((start.readAll lines).totals.get shape).toInt = netOpened shape code := by
  have bound := natAbs_netOpened_le shape code
  have length := reads.code_length_le
  rw [start, reads.get_totals, Tally.get_zero, Int64.zero_add,
    Int64.toInt_ofInt_of_le (by omega) (by omega)]

theorem totals_fit {lines : List String} (small : byteCount lines < 2 ^ 63) {n : Nat}
    {line : String} (found : lines[n]? = some line) :
    let before := start.readAll (lines.take n)
    before.totals.Fits (before.mode.scan line).tally := by
  intro before
  apply Tally.fits_of_magnitude
  have totals : before.totals.magnitude ≤ _ := magnitude_start_le (lines.take n)
  have delta := before.mode.magnitude_scan_le line
  have next := byteCount_take_succ found
  have whole := byteCount_take_le lines (n + 1)
  omega

theorem totals_of_getElem? {lines : List String} {n : Nat} {row : Row}
    (found : (start.rows lines)[n]? = some row) :
    row.totals = (start.readAll (lines.take (n + 1))).totals := by
  obtain ⟨within, rfl⟩ := List.getElem?_eq_some_iff.1 found
  exact (getElem_rows within).2

/-- Counters do not outgrow the bytes read.  So no sum of theirs leaves its range before `2 ^ 63`
bytes, and until then the totals are the counts themselves. -/
theorem counters_bounded (lines : List String) :
    let rows := start.rows lines
    (∀ (mode : Mode) (line : String),
      let glyphs := byteGlyphs line.toList
      let length := (Utf8.encode line.toList).length
      (∃ c, Cursor.Reached mode glyphs c ∧ length ≤ c.position) ∧
      ∀ c, Cursor.Reached mode glyphs c →
        c.tally.magnitude ≤ min c.position length ∧ c.position ≤ length + 1 ∧
          (c.position < length → glyphs.drop c.position ≠ []) ∧
          (length ≤ c.position → mode.scan line = ⟨c.mode, c.tally⟩)) ∧
    (∀ n row, rows[n]? = some row → row.totals.magnitude ≤ byteCount (lines.take (n + 1))) ∧
    (byteCount lines < 2 ^ 63 →
      (∀ line ∈ lines, ∀ mode c g rest, Cursor.Reached mode (byteGlyphs line.toList) c →
        (byteGlyphs line.toList).drop c.position = g :: rest →
          c.tally.Fits (c.mode.move g rest).tally) ∧
      (∀ n line, lines[n]? = some line →
        let before := start.readAll (lines.take n)
        before.totals.Fits (before.mode.scan line).tally) ∧
      ∀ n row, rows[n]? = some row →
        ∃ code ending, ReadsLines .code (lines.take (n + 1)) code ending ∧
          ∀ shape, (row.totals.get shape).toInt = netOpened shape code) := by
  intro rows
  refine ⟨fun mode line => ?cursor, fun n row found => ?rows, fun small =>
    ⟨?moves, fun n line found => totals_fit small found, fun n row found => ?exact⟩⟩
  case cursor =>
    intro glyphs length
    have same : glyphs.length = length := length_byteGlyphs line.toList
    refine ⟨?ends, fun c reached => ?reached⟩
    case ends =>
      rw [← same]
      exact Cursor.Reached.start.exists_end
    case reached =>
      rw [← same]
      obtain ⟨magnitude, position⟩ := reached.bounded
      exact ⟨magnitude, position, fun within => mt List.drop_eq_nil_iff.1 (Nat.not_le.2 within),
        fun ended => reached.toScan_end ended⟩
  case rows =>
    rw [totals_of_getElem? found]
    exact magnitude_start_le _
  case moves =>
    intro line member mode c g rest reached here
    refine reached.fits ?_ here
    rw [length_byteGlyphs]
    exact Nat.lt_of_le_of_lt (length_encode_le_byteCount member) small
  case exact =>
    obtain ⟨code, ending, reads⟩ := exists_readsLines .code (lines.take (n + 1))
    have fewer := Nat.lt_of_le_of_lt (byteCount_take_le lines (n + 1)) small
    rw [totals_of_getElem? found]
    exact ⟨code, ending, reads, toInt_get_totals reads fewer⟩

theorem counters_bounded_overshot :
    let lines := ["('\\", "'["]
    let glyphs := byteGlyphs "('\\".toList
    let last : Cursor := ⟨4, .literal ⟨.single, .simple⟩, ⟨0, 1, 0⟩⟩
    Cursor.Reached .code glyphs last ∧ last.tally.magnitude ≤ min 4 3 ∧ 4 ≤ 3 + 1 ∧
      glyphs.drop 2 ≠ [] ∧ Mode.code.scan "('\\" = ⟨last.mode, last.tally⟩ ∧
      byteCount lines < 2 ^ 63 ∧
      (Cursor.start .code).tally.Fits ⟨0, 1, 0⟩ ∧ Tally.Fits ⟨0, 1, 0⟩ ⟨0, 0, 1⟩ ∧
      (start.rows lines)[1]? = some ⟨2, ⟨0, 1, 1⟩, "'["⟩ ∧
      ∃ code ending, ReadsLines .code lines code ending ∧
        ∀ shape, (Tally.get ⟨0, 1, 1⟩ shape).toInt = netOpened shape code := by
  intro lines glyphs last
  have spelled : glyphs = [.bracket ⟨.opening, .round⟩, .quote .single, .backslash] := by decide
  have bracket : Cursor.Reached .code glyphs ⟨1, .code, ⟨0, 1, 0⟩⟩ := by
    rw [spelled]
    exact .pass .start (by decide) rfl
  have mark : Cursor.Reached .code glyphs ⟨2, .literal ⟨.single, .simple⟩, ⟨0, 1, 0⟩⟩ := by
    rw [spelled] at bracket ⊢
    exact .pass bracket (by decide) rfl
  have reached : Cursor.Reached .code glyphs last := by
    rw [spelled] at mark ⊢
    exact .pass mark (by decide) rfl
  have small : byteCount lines < 2 ^ 63 := by decide
  have second : (start.rows lines)[1]? = some ⟨2, ⟨0, 1, 1⟩, "'["⟩ := by decide
  have scanned : (start.readAll (lines.take 1)).totals = ⟨0, 1, 0⟩ ∧
      ((start.readAll (lines.take 1)).mode.scan "'[").tally = ⟨0, 0, 1⟩ := by decide
  obtain ⟨cursor, -, fits⟩ := counters_bounded lines
  obtain ⟨-, everywhere⟩ := cursor .code "('\\"
  obtain ⟨-, -, slice, -⟩ := everywhere _ mark
  obtain ⟨magnitude, position, -, ended⟩ := everywhere last reached
  obtain ⟨moves, sums, counts⟩ := fits small
  have first := moves "('\\" (by decide) .code _ _ _ .start spelled
  have sum := sums 1 "'[" rfl
  dsimp only at sum
  rw [scanned.1, scanned.2] at sum
  exact ⟨reached, magnitude, position, slice (by decide), ended (by decide), small, first, sum,
    second, counts 1 _ second⟩

end Progress

end BracketTally
