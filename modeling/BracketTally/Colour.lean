import BracketTally.Text.Decimal

namespace BracketTally

inductive Colour
  | red
  | green
  | yellow
  | brightYellow
  | brightCyan
  deriving DecidableEq

structure Style where
  bold : Bool
  foreground : Colour

structure Painter where
  paint : Style → String → String

namespace Painter

def plain : Painter := ⟨fun _ text => text⟩

def muted (painter : Painter) (off : Bool) : Painter := if off then plain else painter

@[simp]
theorem muted_true (painter : Painter) : painter.muted true = plain := rfl

@[simp]
theorem muted_false (painter : Painter) : painter.muted false = painter := rfl

end Painter

/-! ## Escape sequences -/

def Colour.number : Colour → Nat
  | .red => 31
  | .green => 32
  | .yellow => 33
  | .brightYellow => 93
  | .brightCyan => 96

namespace Style

def parameters (s : Style) : String :=
  (if s.bold then "1;" else "") ++ Text.decimal s.foreground.number

def opening (s : Style) : String := "\x1b[" ++ s.parameters ++ "m"

def closing : String := "\x1b[0m"

end Style

def Painter.ansi : Painter := ⟨fun style text => style.opening ++ text ++ Style.closing⟩

end BracketTally
