import BracketTally.Mode
import BracketTally.Tally
import BracketTally.Text.Utf8

/-!
# Walks

A move looks at the glyph under the cursor and at what follows it.  A walk that has moved over
several glyphs at once lets them go by one at a time (`Walk.ahead`), so that a walk is a fold over
the line.  What is left of `ahead` at the end of a line is how far the cursor overshot it; it does
not carry over to the next line, and mode and tally do.
-/

namespace BracketTally

/-! ## One move -/

structure Move where
  /-- The glyphs passed beside the one under the cursor. -/
  beyond : Nat
  mode : Mode
  tally : Tally

def pairFollows (q : Quote) : List Glyph → Bool
  | .quote a :: .quote b :: _ => a == q && b == q
  | _ => false

def Mode.move (mode : Mode) (g : Glyph) (rest : List Glyph) : Move :=
  match mode, g with
  | .code, .quote q =>
      if pairFollows q rest then ⟨2, .literal ⟨q, .triple⟩, 0⟩
      else ⟨0, .literal ⟨q, .simple⟩, 0⟩
  | .code, g => ⟨0, .code, g.weight⟩
  | .literal ⟨q, .triple⟩, g =>
      if g = .quote q ∧ pairFollows q rest then ⟨2, .code, 0⟩ else ⟨0, mode, 0⟩
  | .literal ⟨_, .simple⟩, .backslash => ⟨1, mode, 0⟩
  | .literal ⟨q, .simple⟩, g => if g = .quote q then ⟨0, .code, 0⟩ else ⟨0, mode, 0⟩

/-! ## A whole line -/

structure Walk where
  mode : Mode
  tally : Tally
  /-- The glyphs that the cursor has already passed. -/
  ahead : Nat

namespace Walk

def start (mode : Mode) : Walk := ⟨mode, 0, 0⟩

def step (w : Walk) (g : Glyph) (rest : List Glyph) : Walk :=
  match w.ahead with
  | n + 1 => { w with ahead := n }
  | 0 =>
      let m := w.mode.move g rest
      ⟨m.mode, w.tally + m.tally, m.beyond⟩

def run (w : Walk) : List Glyph → Walk
  | [] => w
  | g :: rest => (w.step g rest).run rest

/-! ## The tally of a walk -/

theorem step_tally (w : Walk) (t : Tally) (g : Glyph) (rest : List Glyph) :
    step { w with tally := t + w.tally } g rest =
      { w.step g rest with tally := t + (w.step g rest).tally } := by
  unfold step
  split <;> simp_all [Tally.add_assoc]

theorem run_tally (w : Walk) (t : Tally) (line : List Glyph) :
    run { w with tally := t + w.tally } line =
      { w.run line with tally := t + (w.run line).tally } := by
  induction line generalizing w with
  | nil => rfl
  | cons g rest ih =>
      simp only [run, step_tally]
      exact ih (w.step g rest)

end Walk

/-! ## Two alphabets -/

def byteGlyphs (text : List Char) : List Glyph := (Utf8.encode text).map Glyph.ofByte

def charGlyphs (text : List Char) : List Glyph := text.map Glyph.ofChar

structure Scan where
  mode : Mode
  tally : Tally
  deriving DecidableEq

def Walk.toScan (w : Walk) : Scan := ⟨w.mode, w.tally⟩

def Mode.scan (mode : Mode) (line : String) : Scan :=
  ((Walk.start mode).run (byteGlyphs line.toList)).toScan

def Mode.scanChars (mode : Mode) (line : String) : Scan :=
  ((Walk.start mode).run (charGlyphs line.toList)).toScan

end BracketTally
