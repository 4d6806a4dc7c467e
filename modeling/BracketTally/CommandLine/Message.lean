import BracketTally.Colour
import BracketTally.Text.Terminal

namespace BracketTally.CommandLine

inductive Mark
  | heading
  | literal
  | failure
  | culprit
  deriving DecidableEq

structure Part where
  mark : Option Mark
  text : String
  deriving DecidableEq

abbrev Message := List Part

def unmarked (text : String) : Part := ⟨none, text⟩

def Mark.part (mark : Mark) (text : String) : Part := ⟨some mark, text⟩

/-! ## Styled -/

def Mark.attributes : Mark → List Nat
  | heading => [1, 4]
  | literal => [1]
  | failure => [1, Colour.red.number]
  | culprit => [Colour.yellow.number]

def Mark.opening (mark : Mark) : String :=
  String.join (mark.attributes.map fun n => "\x1b[" ++ Text.decimal n ++ "m")

def Part.styled (part : Part) : String :=
  match part.mark with
  | none => part.text
  | some mark => mark.opening ++ part.text ++ Style.closing

def Message.styled (message : Message) : String := String.join (message.map Part.styled)

/-! ## Plain -/

def Message.plain (medium : Text.Terminal.Medium) (message : Message) : String :=
  String.join (message.map fun part => Text.Terminal.shown medium part.text)

theorem Message.plain_eq (medium : Text.Terminal.Medium) {message : Message}
    (plain : ∀ part ∈ message, ∀ c ∈ part.text.toList, Text.Terminal.isPlain c.toNat = true) :
    message.plain medium = String.join (message.map Part.text) := by
  unfold Message.plain
  congr 1
  apply List.map_congr_left
  intro part mem
  rw [Text.Terminal.shown, Text.Terminal.showFrom_plain medium (plain part mem),
    String.ofList_toList]

end BracketTally.CommandLine
