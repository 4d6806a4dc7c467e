import BracketTally.Text.Raw

namespace BracketTally.CommandLine

structure Command (ι : Type) where
  flags : List ι
  name : ι → String
  letter? : ι → Option Char

@[ext]
structure Matches (ι : Type) where
  flags : List ι
  operand : Option RawText
  deriving DecidableEq

abbrev Parser (ι ε : Type) := Command ι → List RawText → Except ε (Matches ι)

/-! ## Words -/

def dash : UInt8 := 0x2D

def separator : RawText := ⟨[dash, dash]⟩

def long (name : String) : RawText := ↑("--" ++ name)

def cluster (letters : List Char) : RawText := ↑(String.ofList ('-' :: letters))

def IsOperand (word : RawText) : Prop := word.bytes = [dash] ∨ word.bytes.head? ≠ some dash

/-! ## Parsers -/

/-- The left-to-right rules that a parser is documented to follow: of this command, what it makes of
one more word if it has accepted those before it. -/
structure Parser.LeftToRight {ι ε : Type} (parser : Parser ι ε) (c : Command ι) : Prop where
  nothing : parser c [] = .ok ⟨[], none⟩
  -- a refusal is not taken back
  beginning {words : List RawText} {word : RawText} {m : Matches ι} :
    parser c (words ++ [word]) = .ok m → ∃ m', parser c words = .ok m'
  -- a flag is set once
  flag {words : List RawText} {f : ι} {m m' : Matches ι} :
    separator ∉ words → f ∈ c.flags → parser c words = .ok m →
      (parser c (words ++ [long (c.name f)]) = .ok m' ↔
        f ∉ m.flags ∧ m' = ⟨m.flags ++ [f], m.operand⟩)
  -- letters behind one dash stand for the names of their flags
  cluster {words : List RawText} {letters : List Char} {flags : List ι} {m : Matches ι} :
    separator ∉ words → letters ≠ [] → flags ⊆ c.flags → flags.map c.letter? = letters.map some →
      (parser c (words ++ [cluster letters]) = .ok m ↔
        parser c (words ++ flags.map fun f => long (c.name f)) = .ok m)
  -- no option is known but the flags, and none takes a value; a request for help or the version is
  -- answered at once, and nothing is parsed
  unknown {words : List RawText} {word : RawText} {m : Matches ι} :
    separator ∉ words → ¬ IsOperand word → word ≠ separator →
      (∀ f ∈ c.flags, word ≠ long (c.name f)) →
      (∀ letters flags, flags ⊆ c.flags → flags.map c.letter? = letters.map some →
        word ≠ CommandLine.cluster letters) →
      parser c (words ++ [word]) ≠ .ok m
  -- a separator ends the options
  separator {words : List RawText} {m : Matches ι} :
    separator ∉ words → (parser c (words ++ [separator]) = .ok m ↔ parser c words = .ok m)
  -- there is one operand, and it is not empty
  operand {words : List RawText} {word : RawText} {m m' : Matches ι} :
    CommandLine.separator ∈ words ∨ IsOperand word → parser c words = .ok m →
      (parser c (words ++ [word]) = .ok m' ↔
        m.operand = none ∧ word.bytes ≠ [] ∧ m' = ⟨m.flags, some word⟩)

end BracketTally.CommandLine
