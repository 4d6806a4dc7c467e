import BracketTally.Glyph

namespace BracketTally

structure Tally where
  curly : Int64
  round : Int64
  square : Int64
  deriving DecidableEq

namespace Tally

instance : Zero Tally := ⟨⟨0, 0, 0⟩⟩

instance : Add Tally := ⟨fun s t => ⟨s.curly + t.curly, s.round + t.round, s.square + t.square⟩⟩

instance : Neg Tally := ⟨fun t => ⟨-t.curly, -t.round, -t.square⟩⟩

instance : Sub Tally := ⟨fun s t => ⟨s.curly - t.curly, s.round - t.round, s.square - t.square⟩⟩

def get (t : Tally) : Shape → Int64
  | .curly => t.curly
  | .round => t.round
  | .square => t.square

def isBalanced (t : Tally) : Bool := t.curly == 0 && t.round == 0 && t.square == 0

/-! ## Laws -/

@[ext]
theorem ext_get {s t : Tally} (h : ∀ k, s.get k = t.get k) : s = t := by
  obtain ⟨_, _, _⟩ := s
  obtain ⟨_, _, _⟩ := t
  have hc := h .curly
  have hr := h .round
  have hs := h .square
  simp only [get] at hc hr hs
  rw [hc, hr, hs]

@[simp]
theorem get_zero (k : Shape) : (0 : Tally).get k = 0 := by
  cases k <;> rfl

@[simp]
theorem get_add (s t : Tally) (k : Shape) : (s + t).get k = s.get k + t.get k := by
  cases k <;> rfl

@[simp]
theorem get_neg (t : Tally) (k : Shape) : (-t).get k = -t.get k := by
  cases k <;> rfl

@[simp]
theorem get_sub (s t : Tally) (k : Shape) : (s - t).get k = s.get k - t.get k := by
  cases k <;> rfl

@[simp]
theorem zero_add (t : Tally) : 0 + t = t := by
  ext k
  simp

@[simp]
theorem add_zero (t : Tally) : t + 0 = t := by
  ext k
  simp

theorem add_assoc (r s t : Tally) : r + s + t = r + (s + t) := by
  ext k
  simp [Int64.add_assoc]

theorem add_comm (s t : Tally) : s + t = t + s := by
  ext k
  simp [Int64.add_comm]

theorem add_sub_add_right (r s t : Tally) : r + t - (s + t) = r - s := by
  ext k
  simp only [get_sub, get_add]
  grind

theorem isBalanced_iff {t : Tally} : t.isBalanced = true ↔ t = 0 := by
  constructor
  · intro h
    simp only [isBalanced, Bool.and_eq_true, beq_iff_eq] at h
    obtain ⟨⟨hc, hr⟩, hs⟩ := h
    ext k
    cases k <;> assumption
  · rintro rfl
    rfl

end Tally

/-! ## What one glyph adds -/

def Side.sign : Side → Int64
  | .opening => 1
  | .closing => -1

def Bracket.weight : Bracket → Tally
  | ⟨s, .curly⟩ => ⟨s.sign, 0, 0⟩
  | ⟨s, .round⟩ => ⟨0, s.sign, 0⟩
  | ⟨s, .square⟩ => ⟨0, 0, s.sign⟩

def Glyph.weight : Glyph → Tally
  | .bracket b => b.weight
  | _ => 0

end BracketTally
