namespace BracketTally

inductive Quote
  | single
  | double
  deriving DecidableEq

inductive Shape
  | curly
  | round
  | square
  deriving DecidableEq

inductive Side
  | opening
  | closing
  deriving DecidableEq

structure Bracket where
  side : Side
  shape : Shape
  deriving DecidableEq

inductive Glyph
  | quote (mark : Quote)
  | backslash
  | bracket (bracket : Bracket)
  | other
  deriving DecidableEq

/-! ## Code points -/

def Quote.code : Quote → Nat
  | .single => 0x27
  | .double => 0x22

def Quote.symbol (q : Quote) : Char := Char.ofNat q.code

def Bracket.code : Bracket → Nat
  | ⟨.opening, .curly⟩ => 0x7B
  | ⟨.closing, .curly⟩ => 0x7D
  | ⟨.opening, .round⟩ => 0x28
  | ⟨.closing, .round⟩ => 0x29
  | ⟨.opening, .square⟩ => 0x5B
  | ⟨.closing, .square⟩ => 0x5D

namespace Glyph

def ofCode : Nat → Glyph
  | 0x22 => quote .double
  | 0x27 => quote .single
  | 0x28 => bracket ⟨.opening, .round⟩
  | 0x29 => bracket ⟨.closing, .round⟩
  | 0x5B => bracket ⟨.opening, .square⟩
  | 0x5C => backslash
  | 0x5D => bracket ⟨.closing, .square⟩
  | 0x7B => bracket ⟨.opening, .curly⟩
  | 0x7D => bracket ⟨.closing, .curly⟩
  | _ => other

def ofByte (b : UInt8) : Glyph := ofCode b.toNat

def ofChar (c : Char) : Glyph := ofCode c.toNat

theorem ofCode_quote (q : Quote) : ofCode q.code = quote q := by
  cases q <;> rfl

theorem ofCode_bracket (b : Bracket) : ofCode b.code = bracket b := by
  obtain ⟨_ | _, _ | _ | _⟩ := b <;> rfl

theorem ofCode_of_ge {n : Nat} (h : 0x80 ≤ n) : ofCode n = other := by
  unfold ofCode
  split
  case h_10 => rfl
  all_goals omega

end Glyph

end BracketTally
