import BracketTally.Proofs.Newlines
import Mathlib.Data.Stream.Init

/-!
# Delivery

The events of a source do not show how the bytes were cut into reads, and no interruption.  A reader
takes the same steps over the events (`Reader.next_view`), so that its answers, call by call, are a
function of them (`Reader.stream_view`).
-/

namespace BracketTally

/-! ## Events -/

inductive Event
  | byte (b : UInt8)
  | stop
  | fault (fault : Fault)

def Read.events : Read → List Event
  | data [] => [.stop]
  | data (b :: bytes) => (b :: bytes).map .byte
  | failed f => if f.kind = .interrupted then [] else [.fault f]

def Source.events (s : Source) : List Event := s.held.map .byte ++ s.script.flatMap Read.events

def Event.gather (before : List UInt8) : List Event → Except Fault (List UInt8) × List Event
  | [] => (.ok before, [])
  | .stop :: events => (.ok before, events)
  | .fault f :: events => (.error f, events)
  | .byte b :: events =>
      if b = Piece.lineFeed then (.ok (before ++ [b]), events) else gather (before ++ [b]) events

theorem Event.gather_bytes {bytes : List UInt8} (unfinished : Piece.lineFeed ∉ bytes)
    (before : List UInt8) (events : List Event) :
    gather before (bytes.map .byte ++ events) = gather (before ++ bytes) events := by
  induction bytes generalizing before with
  | nil => simp
  | cons b bytes ih =>
      rw [List.mem_cons, not_or] at unfinished
      obtain ⟨other, unfinished⟩ := unfinished
      rw [List.map_cons, List.cons_append, gather, if_neg (Ne.symm other), ih unfinished,
        List.append_assoc, List.singleton_append]

theorem Event.gather_lineFeed {bytes : List UInt8} (unfinished : Piece.lineFeed ∉ bytes)
    (before : List UInt8) (events : List Event) :
    gather before ((bytes ++ [Piece.lineFeed]).map .byte ++ events) =
      (.ok (before ++ bytes ++ [Piece.lineFeed]), events) := by
  rw [List.map_append, List.append_assoc, gather_bytes unfinished]
  exact if_pos rfl

namespace Source

section Cut

variable {bytes : List UInt8} (unfinished : Piece.lineFeed ∉ bytes)
include unfinished

theorem takeWhile_unfinished (rest : List UInt8) :
    (bytes ++ rest).takeWhile (· ≠ Piece.lineFeed) =
      bytes ++ rest.takeWhile (· ≠ Piece.lineFeed) := by
  apply List.takeWhile_append_of_pos
  intro b member
  exact decide_eq_true fun same => unfinished (same ▸ member)

theorem dropWhile_unfinished (rest : List UInt8) :
    (bytes ++ rest).dropWhile (· ≠ Piece.lineFeed) = rest.dropWhile (· ≠ Piece.lineFeed) := by
  apply List.dropWhile_append_of_pos
  intro b member
  exact decide_eq_true fun same => unfinished (same ▸ member)

theorem gather_lineFeed (before held : List UInt8) (script : List Read) :
    gather before (bytes ++ Piece.lineFeed :: held) script =
      (.ok (before ++ bytes ++ [Piece.lineFeed]), ⟨held, script⟩) := by
  have taken : (bytes ++ Piece.lineFeed :: held).takeWhile (· ≠ Piece.lineFeed) = bytes := by
    rw [takeWhile_unfinished unfinished]
    simp
  have dropped : (bytes ++ Piece.lineFeed :: held).dropWhile (· ≠ Piece.lineFeed) =
      Piece.lineFeed :: held := by
    rw [dropWhile_unfinished unfinished]
    simp
  unfold gather
  rw [taken, dropped]

theorem gather_read (before : List UInt8) (script : List Read) :
    gather before bytes script =
      match script with
      | [] => (.ok (before ++ bytes), ⟨[], []⟩)
      | .data [] :: script => (.ok (before ++ bytes), ⟨[], script⟩)
      | .data (b :: read) :: script => gather (before ++ bytes) (b :: read) script
      | .failed fault :: script =>
          if fault.kind = .interrupted then gather (before ++ bytes) [] script
          else (.error fault, ⟨[], script⟩) := by
  have taken : bytes.takeWhile (· ≠ Piece.lineFeed) = bytes := by
    simpa using takeWhile_unfinished unfinished []
  have dropped : bytes.dropWhile (· ≠ Piece.lineFeed) = [] := by
    simpa using dropWhile_unfinished unfinished []
  rw [gather.eq_def, taken, dropped]
  rcases script with _ | ⟨⟨_ | ⟨b, read⟩⟩ | fault, script⟩ <;> rfl

end Cut

theorem gather_events_found {before held : List UInt8} {script : List Read}
    (found : Piece.lineFeed ∈ held) :
    Event.gather before (events ⟨held, script⟩) =
      ((gather before held script).1, (gather before held script).2.events) := by
  obtain ⟨bytes, rest, rfl, unfinished⟩ := List.eq_append_cons_of_mem found
  have parted : events ⟨bytes ++ Piece.lineFeed :: rest, script⟩ =
      (bytes ++ [Piece.lineFeed]).map .byte ++ events ⟨rest, script⟩ := by
    simp [events]
  rw [gather_lineFeed unfinished, parted, Event.gather_lineFeed unfinished]

theorem gather_events (before held : List UInt8) (script : List Read) :
    Event.gather before (events ⟨held, script⟩) =
      ((gather before held script).1, (gather before held script).2.events) := by
  induction script generalizing before held with
  | nil =>
      by_cases found : Piece.lineFeed ∈ held
      · exact gather_events_found found
      rw [gather_read found, events, Event.gather_bytes found]
      rfl
  | cons read script ih =>
      by_cases found : Piece.lineFeed ∈ held
      · exact gather_events_found found
      rw [gather_read found, events, Event.gather_bytes found, List.flatMap_cons]
      rcases read with ⟨_ | ⟨b, bytes⟩⟩ | fault
      · rfl
      · exact ih (before ++ held) (b :: bytes)
      · by_cases retry : fault.kind = .interrupted
        · simpa [Read.events, retry, events] using ih (before ++ held) []
        · simp [Read.events, retry, events, Event.gather]

end Source

/-! ## Answers -/

/-- What a reader has yet to answer. -/
structure View where
  pending : List String
  events : List Event

namespace View

def next (v : View) : Option Reader.Item × View :=
  match v.pending with
  | line :: pending => (some (.ok line), ⟨pending, v.events⟩)
  | [] =>
      match Event.gather [] v.events with
      | (.error fault, events) => (some (.error (.fault fault)), ⟨[], events⟩)
      | (.ok [], events) => (none, ⟨[], events⟩)
      | (.ok (b :: bytes), events) =>
          match Piece.lines (b :: bytes) with
          | .error m => (some (.error (.malformed m)), ⟨[], events⟩)
          | .ok lines => (lines.head?.map .ok, ⟨lines.tail, events⟩)

def stream (v : View) : Stream' (Option Reader.Item) := .corec' next v

theorem stream_eq (v : View) : v.stream = .cons v.next.1 v.next.2.stream := Stream'.corec'_eq next v

end View

namespace Reader

def view (r : Reader) : View := ⟨r.pending, r.source.events⟩

def stream (r : Reader) : Stream' (Option Item) := .corec' next r

theorem stream_eq (r : Reader) : r.stream = .cons r.next.1 r.next.2.stream :=
  Stream'.corec'_eq next r

theorem answers_eq_take (r : Reader) (n : Nat) : r.answers n = r.stream.take n := by
  induction n generalizing r with
  | zero => rfl
  | succ n ih =>
      rw [answers, ih, stream_eq r]
      rfl

theorem next_view (r : Reader) : r.view.next = (r.next.1, r.next.2.view) := by
  obtain ⟨_ | ⟨line, pending⟩, held, script⟩ := r
  · have gathered := Source.gather_events [] held script
    simp only [view, View.next, next, gathered]
    rcases Source.gather [] held script with ⟨_ | ⟨_ | ⟨b, bytes⟩⟩, source⟩
    · rfl
    · rfl
    · cases lines : Piece.lines (b :: bytes) <;> simp only [lines]
  · rfl

theorem stream_view (r : Reader) : r.stream = r.view.stream := by
  apply Stream'.ext
  intro n
  induction n generalizing r with
  | zero =>
      rw [stream_eq, View.stream_eq, next_view]
      rfl
  | succ n ih =>
      rw [stream_eq, View.stream_eq, next_view]
      exact ih r.next.2

end Reader

/-! ## Pieces -/

namespace Piece

def items (piece : List UInt8) : List Reader.Item :=
  match lines piece with
  | .ok lines => lines.map .ok
  | .error m => [.error (.malformed m)]

theorem lines_ne_nil {piece : List UInt8} {found : List String} (given : lines piece = .ok found) :
    found ≠ [] := by
  unfold lines at given
  split at given
  · cases given
    simp
  · cases given

def piecesFrom (before : List UInt8) : List UInt8 → List (List UInt8)
  | [] => if before = [] then [] else [before]
  | b :: bytes =>
      if b = lineFeed then (before ++ [b]) :: piecesFrom [] bytes
      else piecesFrom (before ++ [b]) bytes

def pieces (bytes : List UInt8) : List (List UInt8) := piecesFrom [] bytes

theorem piecesFrom_append {bytes : List UInt8} (unfinished : lineFeed ∉ bytes)
    (before rest : List UInt8) :
    piecesFrom before (bytes ++ rest) = piecesFrom (before ++ bytes) rest := by
  induction bytes generalizing before with
  | nil => simp
  | cons b bytes ih =>
      rw [List.mem_cons, not_or] at unfinished
      obtain ⟨other, unfinished⟩ := unfinished
      rw [List.cons_append, piecesFrom, if_neg (Ne.symm other), ih unfinished, List.append_assoc,
        List.singleton_append]

@[simp]
theorem pieces_nil : pieces [] = [] := rfl

theorem pieces_lineFeed {bytes : List UInt8} (unfinished : lineFeed ∉ bytes) (rest : List UInt8) :
    pieces (bytes ++ lineFeed :: rest) = (bytes ++ [lineFeed]) :: pieces rest := by
  rw [pieces, piecesFrom_append unfinished, piecesFrom, if_pos rfl, List.nil_append, pieces]

theorem pieces_unfinished {bytes : List UInt8} (unfinished : lineFeed ∉ bytes)
    (nonempty : bytes ≠ []) : pieces bytes = [bytes] := by
  have whole := piecesFrom_append unfinished [] []
  rw [List.append_nil] at whole
  rw [pieces, whole]
  exact if_neg nonempty

theorem flatten_pieces (bytes : List UInt8) : (pieces bytes).flatten = bytes := by
  induction bytes using separator_induction lineFeed with
  | last bytes unfinished =>
      by_cases nonempty : bytes = []
      · subst nonempty
        rfl
      · simp [pieces_unfinished unfinished nonempty]
  | more bytes rest unfinished ih => simp [pieces_lineFeed unfinished, ih]

theorem mem_pieces {bytes : List UInt8} :
    ∀ piece ∈ pieces bytes, lineFeed ∉ piece.dropLast ∧ piece ≠ [] := by
  induction bytes using separator_induction lineFeed with
  | last bytes unfinished =>
      by_cases nonempty : bytes = []
      · subst nonempty
        simp
      · simp only [pieces_unfinished unfinished nonempty, List.mem_singleton, forall_eq]
        exact ⟨fun member => unfinished ((List.dropLast_sublist bytes).subset member), nonempty⟩
  | more bytes rest unfinished ih => simpa [pieces_lineFeed unfinished, unfinished] using ih

theorem exists_parts (bytes : List UInt8) : ∃ full rest, bytes = full ++ rest ∧
    (full = [] ∨ full.getLast? = some lineFeed) ∧ lineFeed ∉ rest ∧
      pieces bytes = pieces full ++ pieces rest := by
  induction bytes using separator_induction lineFeed with
  | last bytes unfinished => exact ⟨[], bytes, rfl, .inl rfl, unfinished, rfl⟩
  | more bytes rest unfinished ih =>
      obtain ⟨full, rest, rfl, whole, last, parted⟩ := ih
      refine ⟨bytes ++ lineFeed :: full, rest, by simp, .inr ?_, last, ?_⟩
      · rcases whole with rfl | ends
        · simp
        · simp [List.getLast?_cons, ends]
      · rw [pieces_lineFeed unfinished, pieces_lineFeed unfinished, parted, List.cons_append]

/-- A piece is answered with the lines of its text, or if it has none with a single error. -/
def AllOrNothing (piece : List UInt8) : Prop :=
  (∃ text, Utf8.decode piece = .ok text ∧
    items piece = (Line.cut text).map fun l => .ok l.string) ∨
  ∃ whole error, Utf8.decode piece = .error whole ∧ items piece = [.error error] ∧
    error.toFault.kind = .invalidData

theorem items_allOrNothing {bytes : List UInt8} : ∀ piece ∈ pieces bytes, AllOrNothing piece := by
  intro piece member
  obtain ⟨inner, nonempty⟩ := mem_pieces piece member
  rcases lines_cases inner nonempty with ⟨text, decoded, found⟩ | ⟨whole, m, decoded, found⟩
  · left
    exact ⟨text, decoded, by simp [items, found]⟩
  · right
    exact ⟨whole, .malformed m, decoded, by simp [items, found], rfl⟩

end Piece

namespace View

theorem stream_pending (pending : List String) (events : List Event) :
    stream ⟨pending, events⟩ =
      (pending.map Except.ok : List Reader.Item).map some ++ₛ stream ⟨[], events⟩ := by
  induction pending with
  | nil => rfl
  | cons line pending ih =>
      rw [stream_eq]
      exact congrArg _ ih

theorem stream_piece {piece : List UInt8} {events later : List Event} (nonempty : piece ≠ [])
    (gathered : Event.gather [] events = (.ok piece, later)) :
    stream ⟨[], events⟩ = (Piece.items piece).map some ++ₛ stream ⟨[], later⟩ := by
  obtain ⟨b, bytes, rfl⟩ := List.exists_cons_of_ne_nil nonempty
  rw [stream_eq]
  cases found : Piece.lines (b :: bytes) with
  | error m =>
      simp only [next, gathered, Piece.items, found]
      rfl
  | ok lines =>
      obtain ⟨line, more, rfl⟩ := List.exists_cons_of_ne_nil (Piece.lines_ne_nil found)
      simp only [next, gathered, Piece.items, found]
      exact congrArg _ (stream_pending more later)

theorem stream_fault {events later : List Event} {fault : Fault}
    (gathered : Event.gather [] events = (.error fault, later)) :
    stream ⟨[], events⟩ = [some (.error (.fault fault))] ++ₛ stream ⟨[], later⟩ := by
  rw [stream_eq]
  simp only [next, gathered]
  rfl

theorem stream_stop {events later : List Event}
    (gathered : Event.gather [] events = (.ok [], later)) :
    stream ⟨[], events⟩ = [none] ++ₛ stream ⟨[], later⟩ := by
  rw [stream_eq]
  simp only [next, gathered]
  rfl

theorem stream_whole {full : List UInt8}
    (whole : full = [] ∨ full.getLast? = some Piece.lineFeed) (events : List Event) :
    stream ⟨[], full.map .byte ++ events⟩ =
      ((Piece.pieces full).flatMap Piece.items).map some ++ₛ stream ⟨[], events⟩ := by
  induction full using separator_induction Piece.lineFeed with
  | last bytes unfinished =>
      rcases whole with rfl | ends
      · rfl
      · exact absurd (List.mem_of_getLast? ends) unfinished
  | more bytes rest unfinished ih =>
      have later : rest = [] ∨ rest.getLast? = some Piece.lineFeed := by
        rcases whole with none | ends
        · simp at none
        · cases rest with
          | nil => exact .inl rfl
          | cons b rest => exact .inr (by simpa using ends)
      have parted : (bytes ++ Piece.lineFeed :: rest).map Event.byte ++ events =
          (bytes ++ [Piece.lineFeed]).map .byte ++ (rest.map .byte ++ events) := by
        simp
      rw [parted, stream_piece (by simp) (Event.gather_lineFeed unfinished [] _), ih later,
        Piece.pieces_lineFeed unfinished, List.flatMap_cons, List.map_append,
        Stream'.append_append_stream]
      rfl

end View

/-! ## Any delivery -/

structure Chunk where
  first : UInt8
  more : List UInt8

namespace Chunk

def bytes (c : Chunk) : List UInt8 := c.first :: c.more

def read (c : Chunk) : Read := .data c.bytes

theorem events_reads (chunks : List Chunk) :
    (chunks.map read).flatMap Read.events = (chunks.flatMap bytes).map .byte := by
  induction chunks with
  | nil => rfl
  | cons c chunks ih =>
      rw [List.map_cons, List.flatMap_cons, ih, List.flatMap_cons, List.map_append]
      rfl

end Chunk

namespace Reader

theorem stream_ofScript (script : List Read) :
    (ofScript script).stream = View.stream ⟨[], script.flatMap Read.events⟩ := stream_view _

theorem stream_chunks (chunks : List Chunk) (script : List Read) {full rest : List UInt8}
    (bytes : chunks.flatMap Chunk.bytes = full ++ rest)
    (whole : full = [] ∨ full.getLast? = some Piece.lineFeed) :
    (ofScript (chunks.map Chunk.read ++ script)).stream =
      ((Piece.pieces full).flatMap Piece.items).map some ++ₛ
        View.stream ⟨[], rest.map .byte ++ script.flatMap Read.events⟩ := by
  rw [stream_ofScript, List.flatMap_append, Chunk.events_reads, bytes, List.map_append,
    List.append_assoc, View.stream_whole whole]

theorem stream_after_chunks (chunks : List Chunk) (later : List Read) {full rest : List UInt8}
    (bytes : chunks.flatMap Chunk.bytes = full ++ rest)
    (whole : full = [] ∨ full.getLast? = some Piece.lineFeed)
    (unfinished : Piece.lineFeed ∉ rest) :
    (∀ fault : Fault, fault.kind ≠ .interrupted →
      (ofScript (chunks.map Chunk.read ++ .failed fault :: later)).stream =
        ((Piece.pieces full).flatMap Piece.items).map some ++ [some (.error (.fault fault))] ++ₛ
          (ofScript later).stream) ∧
    (ofScript (chunks.map Chunk.read ++ .data [] :: later)).stream =
      ((Piece.pieces full).flatMap Piece.items).map some ++
          (if rest = [] then [none] else ((Piece.pieces rest).flatMap Piece.items).map some) ++ₛ
        (ofScript later).stream ∧
    ∀ piece ∈ Piece.pieces full ++ Piece.pieces rest, Piece.AllOrNothing piece := by
  refine ⟨?_, ?_, ?_⟩
  · intro fault lasting
    have gathered : Event.gather []
        (rest.map .byte ++ (Read.failed fault :: later).flatMap Read.events) =
          (.error fault, later.flatMap Read.events) := by
      rw [Event.gather_bytes unfinished, List.flatMap_cons, Read.events, if_neg lasting]
      rfl
    rw [stream_chunks chunks _ bytes whole, View.stream_fault gathered, stream_ofScript,
      Stream'.append_append_stream]
  · have gathered : Event.gather []
        (rest.map .byte ++ (Read.data [] :: later).flatMap Read.events) =
          (.ok rest, later.flatMap Read.events) := by
      rw [Event.gather_bytes unfinished]
      rfl
    rw [stream_chunks chunks _ bytes whole, stream_ofScript, Stream'.append_append_stream]
    by_cases none : rest = []
    · subst none
      rw [View.stream_stop gathered, if_pos rfl]
    · rw [View.stream_piece none gathered, if_neg none, Piece.pieces_unfinished unfinished none,
        List.flatMap_singleton]
  · intro piece member
    rcases List.mem_append.1 member with found | found <;>
      exact Piece.items_allOrNothing piece found

theorem stream_after_half_character :
    (ofScript [.data [0x61, 0x0A], .data [0xC3], .failed ⟨.timedOut, "slow"⟩,
        .data [0xA9]]).stream =
      [some (.ok "a"), some (.error (.fault ⟨.timedOut, "slow"⟩))] ++ₛ
        (ofScript [.data [0xA9]]).stream ∧
    (ofScript [.data [0x61, 0x0A], .data [0xC3], .data [], .data [0xA9]]).stream =
      [some (.ok "a"), some (.error (.malformed ⟨0, .incomplete⟩))] ++ₛ
        (ofScript [.data [0xA9]]).stream := by
  have laws := @stream_after_chunks [⟨0x61, [0x0A]⟩, ⟨0xC3, []⟩] [.data [0xA9]] [0x61, 0x0A] [0xC3]
    rfl (.inr rfl) (by decide)
  exact ⟨laws.1 ⟨.timedOut, "slow"⟩ (by decide), laws.2.1⟩

end Reader

end BracketTally
