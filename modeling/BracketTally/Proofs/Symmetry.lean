import BracketTally.Progress
import BracketTally.Proofs.Cursor
import Mathlib.Logic.Equiv.Defs

namespace BracketTally

/-! ## Exchanges -/

def Quote.other : Quote → Quote
  | .single => .double
  | .double => .single

def Side.other : Side → Side
  | .opening => .closing
  | .closing => .opening

def Tally.permuted (π : Equiv.Perm Shape) (t : Tally) : Tally :=
  ⟨t.get (π.symm .curly), t.get (π.symm .round), t.get (π.symm .square)⟩

/-- Other marks and other brackets, and the tally that comes of them. -/
structure Exchange where
  mark : Quote → Quote
  bracket : Bracket → Bracket
  tally : Tally → Tally
  mark_injective : Function.Injective mark
  tally_zero : tally 0 = 0
  tally_add (s t : Tally) : tally (s + t) = tally s + tally t
  tally_weight (b : Bracket) : tally b.weight = (bracket b).weight

theorem Tally.get_permuted (π : Equiv.Perm Shape) (t : Tally) (k : Shape) :
    (t.permuted π).get k = t.get (π.symm k) := by
  cases k <;> rfl

theorem Bracket.get_weight (b : Bracket) (k : Shape) :
    b.weight.get k = if b.shape = k then b.side.sign else 0 := by
  obtain ⟨side, _ | _ | _⟩ := b <;> cases k <;> rfl

theorem Side.sign_other (s : Side) : s.other.sign = -s.sign := by
  cases s <;> decide

namespace Exchange

def marks : Exchange where
  mark := Quote.other
  bracket := id
  tally := id
  mark_injective p q same := by cases p <;> cases q <;> first | rfl | cases same
  tally_zero := rfl
  tally_add _ _ := rfl
  tally_weight _ := rfl

def shapes (π : Equiv.Perm Shape) : Exchange where
  mark := id
  bracket b := ⟨b.side, π b.shape⟩
  tally := Tally.permuted π
  mark_injective := Function.injective_id
  tally_zero := by
    ext k
    rw [Tally.get_permuted, Tally.get_zero, Tally.get_zero]
  tally_add s t := by
    ext k
    simp only [Tally.get_permuted, Tally.get_add]
  tally_weight b := by
    ext k
    simp only [Tally.get_permuted, Bracket.get_weight, Equiv.eq_symm_apply]

def sides : Exchange where
  mark := id
  bracket b := ⟨b.side.other, b.shape⟩
  tally t := -t
  mark_injective := Function.injective_id
  tally_zero := rfl
  tally_add s t := by
    ext k
    simp only [Tally.get_neg, Tally.get_add]
    grind
  tally_weight b := by
    ext k
    rw [Tally.get_neg, Bracket.get_weight, Bracket.get_weight, Side.sign_other]
    split <;> rfl

/-! ## What is exchanged -/

variable (x : Exchange)

def glyph : Glyph → Glyph
  | .quote q => .quote (x.mark q)
  | .backslash => .backslash
  | .bracket b => .bracket (x.bracket b)
  | .other => .other

def char (c : Char) : Char :=
  match Glyph.ofChar c with
  | .quote q => (x.mark q).symbol
  | .bracket b => (x.bracket b).symbol
  | .backslash | .other => c

def mode : Mode → Mode
  | .code => .code
  | .literal d => .literal ⟨x.mark d.quote, d.extent⟩

def move (m : Move) : Move := ⟨m.beyond, x.mode m.mode, x.tally m.tally⟩

def walk (w : Walk) : Walk := ⟨x.mode w.mode, x.tally w.tally, w.ahead⟩

def progress (p : Progress) : Progress := ⟨x.mode p.mode, x.tally p.totals, p.lines⟩

/-! ## Glyphs -/

theorem ofChar_char (c : Char) : Glyph.ofChar (x.char c) = x.glyph (Glyph.ofChar c) := by
  unfold char
  cases found : Glyph.ofChar c with
  | quote q => exact Glyph.ofChar_symbol _
  | bracket b => exact Glyph.ofChar_eq_bracket_iff.2 rfl
  | backslash | other => exact found

example :
    "f('\"', [)\\".map Exchange.marks.char = "f(\"'\", [)\\" ∧
      "f('\"', [)\\".map Exchange.sides.char = "f)'\"', ](\\" := by
  decide +kernel

theorem charGlyphs_map (text : List Char) :
    charGlyphs (text.map x.char) = (charGlyphs text).map x.glyph := by
  simp only [charGlyphs, List.map_map, Function.comp_def, ofChar_char]

theorem weight_glyph (g : Glyph) : (x.glyph g).weight = x.tally g.weight := by
  cases g with
  | bracket b => exact (x.tally_weight b).symm
  | quote q | backslash | other => exact x.tally_zero.symm

theorem glyph_eq_quote_iff {g : Glyph} {q : Quote} : x.glyph g = .quote (x.mark q) ↔ g = .quote q := by
  cases g with
  | quote p => simp only [glyph, Glyph.quote.injEq, x.mark_injective.eq_iff]
  | backslash | bracket b | other => exact ⟨nofun, nofun⟩

theorem glyph_eq_backslash_iff {g : Glyph} : x.glyph g = .backslash ↔ g = .backslash := by
  cases g with
  | backslash => exact ⟨fun _ => rfl, fun _ => rfl⟩
  | quote q | bracket b | other => exact ⟨nofun, nofun⟩

theorem pairFollows_map (q : Quote) (line : List Glyph) :
    pairFollows (x.mark q) (line.map x.glyph) = pairFollows q line := by
  match line with
  | [] => rfl
  | [g] => cases g <;> rfl
  | g :: h :: rest =>
      rw [List.map_cons, List.map_cons, pairFollows_cons, pairFollows_cons, Bool.eq_iff_iff]
      simp only [List.head?_cons, Bool.and_eq_true, beq_iff_eq, Option.some_inj,
        glyph_eq_quote_iff]

/-! ## Walks -/

theorem move_uncounted (n : Nat) (after : Mode) : x.move ⟨n, after, 0⟩ = ⟨n, x.mode after, 0⟩ := by
  rw [move, x.tally_zero]

theorem move_eq (before : Mode) (g : Glyph) (rest : List Glyph) :
    (x.mode before).move (x.glyph g) (rest.map x.glyph) = x.move (before.move g rest) := by
  obtain _ | ⟨q, _ | _⟩ := before
  · cases g with
    | quote q =>
        simp only [mode, glyph, Mode.move_code_quote, pairFollows_map]
        split <;> rw [move_uncounted, mode]
    | backslash | bracket b | other =>
        exact congrArg (Move.mk 0 .code) (x.weight_glyph _)
  · simp only [mode]
    by_cases escape : g = .backslash
    · rw [escape, Mode.move_simple_backslash, move_uncounted]
      rfl
    · rw [Mode.move_simple (mt x.glyph_eq_backslash_iff.1 escape), Mode.move_simple escape]
      simp only [glyph_eq_quote_iff]
      split <;> rw [move_uncounted] <;> rfl
  · simp only [mode, Mode.move_triple, glyph_eq_quote_iff, pairFollows_map]
    split <;> rw [move_uncounted] <;> rfl

theorem step_eq (w : Walk) (g : Glyph) (rest : List Glyph) :
    (x.walk w).step (x.glyph g) (rest.map x.glyph) = x.walk (w.step g rest) := by
  obtain ⟨before, tally, _ | n⟩ := w
  · simp only [walk, Walk.step, move_eq, move, x.tally_add]
  · rfl

theorem run_eq (w : Walk) (line : List Glyph) :
    (x.walk w).run (line.map x.glyph) = x.walk (w.run line) := by
  induction line generalizing w with
  | nil => rfl
  | cons g rest ih => rw [List.map_cons, Walk.run, step_eq, ih, Walk.run]

theorem scan_eq (before : Mode) (line : String) :
    (x.mode before).scan (line.map x.char) =
      ⟨x.mode (before.scan line).mode, x.tally (before.scan line).tally⟩ := by
  have start : Walk.start (x.mode before) = x.walk (Walk.start before) := by
    simp only [Walk.start, walk, x.tally_zero]
  simp only [Mode.scan_eq_scanChars, Mode.scanChars, String.toList_map, charGlyphs_map, start,
    run_eq]
  rfl

/-! ## Lines -/

theorem read_eq (p : Progress) (line : String) :
    (x.progress p).read (line.map x.char) = x.progress (p.read line) := by
  simp only [Progress.read, progress, scan_eq, x.tally_add]

theorem trace_eq (p : Progress) (lines : List String) :
    (x.progress p).trace (lines.map (String.map x.char)) = (p.trace lines).map x.progress := by
  induction lines generalizing p with
  | nil => rfl
  | cons line lines ih => simp only [List.map_cons, Progress.trace, read_eq, ih]

theorem rows_eq (p : Progress) (lines : List String) :
    (x.progress p).rows (lines.map (String.map x.char)) =
      (p.rows lines).map fun row => ⟨row.number, x.tally row.totals, row.text.map x.char⟩ := by
  rw [Progress.rows, trace_eq, List.zipWith_map, Progress.rows, List.map_zipWith]
  rfl

end Exchange

/-- With `char` put in for every character, all that is read stays as it was, but for `mode` and
`tally`: the reading of one line, what is known after each of many, and their rows. -/
structure Mirrored (char : Char → Char) (mode : Mode → Mode) (tally : Tally → Tally) : Prop where
  scan (before : Mode) (line : String) :
    (mode before).scan (line.map char) =
      ⟨mode (before.scan line).mode, tally (before.scan line).tally⟩
  trace (lines : List String) :
    Progress.start.trace (lines.map (String.map char)) =
      (Progress.start.trace lines).map fun p => ⟨mode p.mode, tally p.totals, p.lines⟩
  rows (lines : List String) :
    Progress.start.rows (lines.map (String.map char)) =
      (Progress.start.rows lines).map fun row => ⟨row.number, tally row.totals, row.text.map char⟩

theorem Exchange.mirrored (x : Exchange) : Mirrored x.char x.mode x.tally := by
  have start : x.progress .start = .start := by
    rw [progress, Progress.start, x.tally_zero]
    rfl
  refine ⟨x.scan_eq, fun lines => ?_, fun lines => ?_⟩
  · have traced := x.trace_eq .start lines
    rwa [start] at traced
  · have listed := x.rows_eq .start lines
    rwa [start] at listed

theorem Exchange.mode_eq_id {x : Exchange} (kept : x.mark = id) : x.mode = id := by
  funext before
  cases before with
  | code => rfl
  | literal d => rw [mode, kept, id, id]

theorem mirrored_marks_shapes_sides :
    Mirrored Exchange.marks.char Exchange.marks.mode id ∧
      (∀ π : Equiv.Perm Shape, Mirrored (Exchange.shapes π).char id (Tally.permuted π)) ∧
      Mirrored Exchange.sides.char id (fun t => -t) := by
  have keeps_modes {x : Exchange} (kept : x.mark = id) : Mirrored x.char id x.tally :=
    Exchange.mode_eq_id kept ▸ x.mirrored
  exact ⟨Exchange.marks.mirrored, fun π => keeps_modes rfl, keeps_modes rfl⟩

end BracketTally
