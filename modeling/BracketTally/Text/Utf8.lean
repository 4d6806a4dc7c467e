/-!
# UTF-8

`decode` is a machine with one step a byte that accepts exactly the sequences of the standard's
table: no overlong forms, no surrogates, nothing above U+10FFFF.  Where it refuses, it says at which
byte the offending sequence starts, and whether the text went wrong there or only ended too soon.
-/

namespace BracketTally.Utf8

/-! ## Writing -/

def encode (text : List Char) : List UInt8 := text.flatMap String.utf8EncodeChar

@[simp]
theorem encode_nil : encode [] = [] := rfl

@[simp]
theorem encode_cons (c : Char) (text : List Char) :
    encode (c :: text) = String.utf8EncodeChar c ++ encode text := rfl

@[simp]
theorem encode_append (s t : List Char) : encode (s ++ t) = encode s ++ encode t := by
  simp [encode]

/-! ## Refusals -/

inductive Defect
  | invalid (length : Nat)
  | incomplete
  deriving DecidableEq

/-- A text that is not well-formed: its first `index` bytes are, and no more of it. -/
structure Malformed where
  index : Nat
  defect : Defect
  deriving DecidableEq

def Malformed.message (m : Malformed) : String :=
  match m.defect with
  | .invalid length =>
      "invalid utf-8 sequence of " ++ Nat.repr length ++ " bytes from index " ++ Nat.repr m.index
  | .incomplete => "incomplete utf-8 byte sequence from index " ++ Nat.repr m.index

/-! ## Reading -/

/-- What a lead byte settles: its own bits, how many bytes follow, and the range of the first. -/
structure Lead where
  bits : Nat
  following : Nat
  low : UInt8
  high : UInt8

def Lead.ofByte? (b : UInt8) : Option Lead :=
  if b < 0xC2 then none
  else if b < 0xE0 then some ⟨b.toNat % 32, 1, 0x80, 0xBF⟩
  else if b < 0xF0 then
    some ⟨b.toNat % 16, 2, if b = 0xE0 then 0xA0 else 0x80, if b = 0xED then 0x9F else 0xBF⟩
  else if b < 0xF5 then
    some ⟨b.toNat % 8, 3, if b = 0xF0 then 0x90 else 0x80, if b = 0xF4 then 0x8F else 0xBF⟩
  else none

inductive Phase
  | boundary
  | inside (bits seen following : Nat) (low high : UInt8)

/-- `index` is where the present character starts; the characters before it are in `text`, the
last one first. -/
structure Decoder where
  index : Nat
  phase : Phase
  text : List Char

namespace Decoder

def start : Decoder := ⟨0, .boundary, []⟩

def step (d : Decoder) (b : UInt8) : Except Malformed Decoder :=
  match d.phase with
  | .boundary =>
      if b < 0x80 then .ok ⟨d.index + 1, .boundary, Char.ofNat b.toNat :: d.text⟩
      else match Lead.ofByte? b with
        | some lead =>
            .ok { d with phase := .inside lead.bits 1 lead.following lead.low lead.high }
        | none => .error ⟨d.index, .invalid 1⟩
  | .inside bits seen following low high =>
      if low ≤ b ∧ b ≤ high then
        let bits := bits * 64 + b.toNat % 64
        if following ≤ 1 then
          .ok ⟨d.index + seen + 1, .boundary, Char.ofNat bits :: d.text⟩
        else .ok { d with phase := .inside bits (seen + 1) (following - 1) 0x80 0xBF }
      else .error ⟨d.index, .invalid seen⟩

def run (d : Decoder) : List UInt8 → Except Malformed Decoder
  | [] => .ok d
  | b :: bytes =>
      match d.step b with
      | .ok d' => d'.run bytes
      | .error m => .error m

def finish (d : Decoder) : Except Malformed (List Char) :=
  match d.phase with
  | .boundary => .ok d.text.reverse
  | .inside .. => .error ⟨d.index, .incomplete⟩

theorem run_append (d : Decoder) (s t : List UInt8) :
    d.run (s ++ t) = (d.run s).bind (·.run t) := by
  induction s generalizing d with
  | nil => rfl
  | cons b s ih =>
      simp only [List.cons_append, run]
      cases d.step b with
      | error m => rfl
      | ok d' => exact ih d'

end Decoder

def decode (bytes : List UInt8) : Except Malformed (List Char) :=
  (Decoder.start.run bytes).bind Decoder.finish

end BracketTally.Utf8
