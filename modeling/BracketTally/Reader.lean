import BracketTally.Fault
import BracketTally.Text.Utf8

/-!
# Reading lines

A source answers each read with data or a fault; data of no bytes is an end of input, after which
it may go on.  The reader cuts the bytes after every line feed and treats each piece by itself: it
drops one line feed and then one carriage return from the end, decodes the rest as a whole, and
ends a line at every carriage return that is left.  A fault loses what was gathered for the present
piece; an interruption is not a fault to the reader, who reads again.
-/

namespace BracketTally

inductive Read
  | data (bytes : List UInt8)
  | failed (fault : Fault)

inductive ReadError
  | malformed (defect : Utf8.Malformed)
  | fault (fault : Fault)

def ReadError.toFault : ReadError → Fault
  | malformed m => ⟨.invalidData, m.message⟩
  | fault f => f

/-! ## Pieces -/

namespace Piece

def lineFeed : UInt8 := 0x0A

def carriageReturn : UInt8 := 0x0D

def dropFinal (b : UInt8) (bytes : List UInt8) : List UInt8 :=
  if bytes.getLast? = some b then bytes.dropLast else bytes

def body (piece : List UInt8) : List UInt8 :=
  dropFinal carriageReturn (dropFinal lineFeed piece)

def lines (piece : List UInt8) : Except Utf8.Malformed (List String) :=
  match Utf8.decode (body piece) with
  | .ok text => .ok ((text.splitOn '\r').map String.ofList)
  | .error m => .error m

end Piece

/-! ## One call -/

/-- `held` is what an earlier read brought and no piece has taken. -/
structure Source where
  held : List UInt8
  script : List Read

/-- The next piece, after the bytes `before`; it is empty at an end of input. -/
def Source.gather (before held : List UInt8) (script : List Read) :
    Except Fault (List UInt8) × Source :=
  let gathered := before ++ held.takeWhile (· ≠ Piece.lineFeed)
  match held.dropWhile (· ≠ Piece.lineFeed), script with
  | lf :: held, script => (.ok (gathered ++ [lf]), ⟨held, script⟩)
  | [], [] => (.ok gathered, ⟨[], []⟩)
  | [], .data [] :: script => (.ok gathered, ⟨[], script⟩)
  | [], .data (b :: bytes) :: script => gather gathered (b :: bytes) script
  | [], .failed fault :: script =>
      if fault.kind = .interrupted then gather gathered [] script else (.error fault, ⟨[], script⟩)

structure Reader where
  pending : List String
  source : Source

namespace Reader

def ofScript (script : List Read) : Reader := ⟨[], ⟨[], script⟩⟩

abbrev Item := Except ReadError String

def next (r : Reader) : Option Item × Reader :=
  match r.pending with
  | line :: pending => (some (.ok line), ⟨pending, r.source⟩)
  | [] =>
      match Source.gather [] r.source.held r.source.script with
      | (.error fault, source) => (some (.error (.fault fault)), ⟨[], source⟩)
      | (.ok [], source) => (none, ⟨[], source⟩)
      | (.ok (b :: bytes), source) =>
          match Piece.lines (b :: bytes) with
          | .error m => (some (.error (.malformed m)), ⟨[], source⟩)
          | .ok lines => (lines.head?.map .ok, ⟨lines.tail, source⟩)

def answers (r : Reader) : Nat → List (Option Item)
  | 0 => []
  | n + 1 => r.next.1 :: r.next.2.answers n

end Reader

/-! ## What is left to read -/

def Read.size : Read → Nat
  | data bytes => bytes.length + 1
  | failed _ => 1

def scriptSize : List Read → Nat
  | [] => 0
  | read :: script => read.size + scriptSize script

def Source.size (s : Source) : Nat := s.held.length + scriptSize s.script

theorem Source.gather_size (before held : List UInt8) (script : List Read) :
    match gather before held script with
    | (.ok piece, after) => piece.length + after.size ≤ before.length + size ⟨held, script⟩
    | (.error _, after) => after.size < size ⟨held, script⟩ := by
  induction script generalizing before held with
  | nil =>
      have cut := congrArg List.length
        (List.takeWhile_append_dropWhile (p := (· ≠ Piece.lineFeed)) (l := held))
      rw [List.length_append] at cut
      unfold gather
      cases rest : held.dropWhile (· ≠ Piece.lineFeed) <;>
        simp only [rest, size, List.length_append, List.length_cons, List.length_nil] at cut ⊢ <;>
        omega
  | cons read script ih =>
      have cut := congrArg List.length
        (List.takeWhile_append_dropWhile (p := (· ≠ Piece.lineFeed)) (l := held))
      rw [List.length_append] at cut
      unfold gather
      cases rest : held.dropWhile (· ≠ Piece.lineFeed) with
      | cons lf left =>
          simp only [rest, size, List.length_append, List.length_cons, List.length_nil] at cut ⊢
          omega
      | nil =>
          have again := ih (before ++ held.takeWhile (· ≠ Piece.lineFeed))
          rw [List.length_append] at again
          rw [rest, List.length_nil] at cut
          match read with
          | .data [] =>
              simp only [size, scriptSize, Read.size, List.length_append, List.length_nil]
              omega
          | .data (b :: bytes) =>
              have later := again (b :: bytes)
              dsimp only
              rcases found : gather (before ++ held.takeWhile (· ≠ Piece.lineFeed)) (b :: bytes)
                script with ⟨_ | piece, after⟩ <;>
                simp only [found, size, scriptSize, Read.size, List.length_cons] at later ⊢ <;>
                omega
          | .failed fault =>
              have later := again []
              dsimp only
              by_cases retry : fault.kind = .interrupted
              · rw [if_pos retry]
                rcases found : gather (before ++ held.takeWhile (· ≠ Piece.lineFeed)) [] script
                  with ⟨_ | piece, after⟩ <;>
                  simp only [found, size, scriptSize, Read.size, List.length_nil] at later ⊢ <;>
                  omega
              · rw [if_neg retry]
                simp only [size, scriptSize, Read.size, List.length_nil]
                omega

namespace Reader

theorem next_decreases {r : Reader} {item : Item} (answered : r.next.1 = some item) :
    r.next.2.source.size < r.source.size ∨
      (r.next.2.source = r.source ∧ r.next.2.pending.length < r.pending.length) := by
  obtain ⟨pending, source⟩ := r
  cases pending with
  | cons line pending => exact .inr ⟨rfl, Nat.lt_succ_self _⟩
  | nil =>
      left
      have bound := Source.gather_size [] source.held source.script
      unfold next at answered ⊢
      rcases found : Source.gather [] source.held source.script with ⟨_ | ⟨_ | ⟨b, bytes⟩⟩, after⟩ <;>
        simp only [found] at answered bound ⊢
      · exact bound
      · simp at answered
      · have passed : after.size < source.size :=
          Nat.lt_of_lt_of_le (Nat.lt_add_of_pos_left (Nat.succ_pos _)) (by simpa using bound)
        cases Piece.lines (b :: bytes) <;> exact passed

def untilEnd (r : Reader) : List Item :=
  match _answered : r.next.1 with
  | none => []
  | some item => item :: r.next.2.untilEnd
termination_by (r.source.size, r.pending.length)
decreasing_by
  rcases next_decreases _answered with less | ⟨same, less⟩
  · exact Prod.Lex.left _ _ less
  · rw [same]
    exact Prod.Lex.right _ less

def lines (r : Reader) : Except ReadError (List String) := r.untilEnd.mapM id

end Reader

end BracketTally
