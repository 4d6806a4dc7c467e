import BracketTally.Text.Utf8

namespace BracketTally

namespace Utf8

/-- What is no character gives way to this one, as far as it begins like a character. -/
def replacement : Char := '\uFFFD'

def Decoder.replace (d : Decoder) (index : Nat) : Decoder := ⟨index, .boundary, replacement :: d.text⟩

-- a byte that breaks off a character is looked at once more, as the first of the next one
def Decoder.stepShown (d : Decoder) (b : UInt8) : Decoder :=
  match d.step b, d.phase with
  | .ok next, _ => next
  | .error _, .boundary => d.replace (d.index + 1)
  | .error _, .inside _ seen _ _ _ =>
      let d := d.replace (d.index + seen)
      match d.step b with
      | .ok next => next
      | .error _ => d.replace (d.index + 1)

def Decoder.finishShown (d : Decoder) : List Char :=
  match d.phase with
  | .boundary => d.text.reverse
  | .inside .. => (replacement :: d.text).reverse

def decodeShown (bytes : List UInt8) : List Char :=
  (bytes.foldl Decoder.stepShown .start).finishShown

theorem Decoder.foldl_stepShown {d d' : Decoder} {bytes : List UInt8}
    (reached : d.run bytes = .ok d') : bytes.foldl stepShown d = d' := by
  induction bytes generalizing d with
  | nil => exact Except.ok.inj reached
  | cons b bytes ih =>
      rw [run] at reached
      split at reached
      case h_1 next stepped =>
        rw [List.foldl_cons, stepShown, stepped]
        exact ih reached
      case h_2 => cases reached

theorem decodeShown_of_decode {bytes : List UInt8} {text : List Char}
    (decoded : decode bytes = .ok text) : decodeShown bytes = text := by
  unfold decode at decoded
  cases reached : Decoder.start.run bytes with
  | error m =>
      rw [reached] at decoded
      cases decoded
  | ok d =>
      rw [reached, Except.bind, Decoder.finish] at decoded
      rw [decodeShown, Decoder.foldl_stepShown reached, Decoder.finishShown]
      cases phase : d.phase with
      | boundary =>
          rw [phase] at decoded
          exact Except.ok.inj decoded
      | inside bits seen following low high =>
          rw [phase] at decoded
          cases decoded

end Utf8

/-- What the system takes for text.  Nothing says that it is. -/
@[ext]
structure RawText where
  bytes : List UInt8
  deriving DecidableEq

namespace RawText

def ofString (text : String) : RawText := ⟨Utf8.encode text.toList⟩

instance : Coe String RawText := ⟨ofString⟩

def display (raw : RawText) : String := String.ofList (Utf8.decodeShown raw.bytes)

end RawText

end BracketTally
