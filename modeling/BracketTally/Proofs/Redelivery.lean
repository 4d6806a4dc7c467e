import BracketTally.Proofs.WellFormed
import Mathlib.Logic.Relation

namespace BracketTally

/-! ## Changes of delivery -/

/-- One change: a read is cut in two, or the reader is interrupted. -/
inductive Recut : List Read → List Read → Prop
  | cut (earlier later : List Read) {front rest : List UInt8} (some_front : front ≠ [])
      (some_rest : rest ≠ []) :
      Recut (earlier ++ .data (front ++ rest) :: later)
        (earlier ++ .data front :: .data rest :: later)
  | interruption (earlier later : List Read) {fault : Fault} (retry : fault.kind = .interrupted) :
      Recut (earlier ++ later) (earlier ++ .failed fault :: later)

def Redelivered : List Read → List Read → Prop := Relation.EqvGen Recut

theorem Read.events_data {bytes : List UInt8} (nonempty : bytes ≠ []) :
    (data bytes).events = bytes.map .byte := by
  obtain ⟨b, bytes, rfl⟩ := List.exists_cons_of_ne_nil nonempty
  rfl

theorem Recut.events_eq {s t : List Read} (recut : Recut s t) :
    s.flatMap Read.events = t.flatMap Read.events := by
  cases recut with
  | @cut earlier later front rest some_front some_rest =>
      have whole : front ++ rest ≠ [] := List.append_ne_nil_of_left_ne_nil some_front rest
      simp only [List.flatMap_append, List.flatMap_cons]
      rw [Read.events_data whole, Read.events_data some_front, Read.events_data some_rest,
        List.map_append, List.append_assoc]
  | interruption earlier later retry =>
      simp only [List.flatMap_append, List.flatMap_cons]
      rw [Read.events, if_pos retry, List.nil_append]

theorem Redelivered.events_eq {s t : List Read} (same : Redelivered s t) :
    s.flatMap Read.events = t.flatMap Read.events := by
  induction same with
  | rel s t recut => exact recut.events_eq
  | refl s => rfl
  | symm s t _ ih => exact ih.symm
  | trans s t u _ _ first second => exact first.trans second

/-! ## Buffers -/

def runs (capacity : Nat) (bytes : List UInt8) : List (List UInt8) :=
  if 0 < capacity ∧ capacity < bytes.length then
    bytes.take capacity :: runs capacity (bytes.drop capacity)
  else [bytes]
termination_by bytes.length
decreasing_by
  rw [List.length_drop]
  omega

def Read.buffered (capacity : Nat) : Read → List Read
  | data bytes => (runs capacity bytes).map data
  | failed fault => [failed fault]

theorem Read.events_runs (capacity : Nat) (bytes : List UInt8) :
    ((runs capacity bytes).map data).flatMap events = (data bytes).events := by
  induction bytes using runs.induct capacity with
  | case1 bytes large ih =>
      have front : bytes.take capacity ≠ [] := List.ne_nil_of_length_pos (by simp; omega)
      have rest : bytes.drop capacity ≠ [] := List.ne_nil_of_length_pos (by simp; omega)
      have whole : bytes ≠ [] := List.ne_nil_of_length_pos (by omega)
      rw [runs, if_pos large, List.map_cons, List.flatMap_cons, ih, events_data front,
        events_data rest, events_data whole, ← List.map_append, List.take_append_drop]
  | case2 bytes fits => rw [runs, if_neg fits, List.map_singleton, List.flatMap_singleton]

theorem Read.events_buffered (capacity : Nat) (script : List Read) :
    (script.flatMap (buffered capacity)).flatMap events = script.flatMap events := by
  induction script with
  | nil => rfl
  | cons read script ih =>
      rw [List.flatMap_cons, List.flatMap_append, ih, List.flatMap_cons]
      congr 1
      cases read with
      | data bytes => exact events_runs capacity bytes
      | failed fault => exact List.flatMap_singleton ..

/-! ## Answers -/

namespace Reader

theorem answers_of_events {s t : List Read}
    (same : s.flatMap Read.events = t.flatMap Read.events) (calls : Nat) :
    (ofScript s).answers calls = (ofScript t).answers calls := by
  rw [answers_eq_take, answers_eq_take, stream_ofScript, stream_ofScript, same]

theorem answers_redelivered {s t : List Read} (same : Redelivered s t) (calls : Nat) :
    (ofScript s).answers calls = (ofScript t).answers calls ∧
    ∀ m n, (ofScript (s.flatMap (Read.buffered m))).answers calls =
      (ofScript (t.flatMap (Read.buffered n))).answers calls := by
  constructor
  · exact answers_of_events same.events_eq calls
  · intro m n
    apply answers_of_events
    rw [Read.events_buffered, Read.events_buffered]
    exact same.events_eq

theorem answers_redelivered_in_two :
    (ofScript [.data [0x61, 0x0D, 0x0A, 0xC3, 0xA9], .data []]).answers 3 =
      (ofScript [.data [0x61, 0x0D], .data [0x0A, 0xC3], .failed ⟨.interrupted, "signal"⟩,
        .data [0xA9], .data []]).answers 3 := by
  have ending : Recut [.data [0x61, 0x0D, 0x0A, 0xC3, 0xA9], .data []]
      [.data [0x61, 0x0D], .data [0x0A, 0xC3, 0xA9], .data []] :=
    @Recut.cut [] [.data []] [0x61, 0x0D] [0x0A, 0xC3, 0xA9] (by decide) (by decide)
  have character : Recut [.data [0x61, 0x0D], .data [0x0A, 0xC3, 0xA9], .data []]
      [.data [0x61, 0x0D], .data [0x0A, 0xC3], .data [0xA9], .data []] :=
    @Recut.cut [.data [0x61, 0x0D]] [.data []] [0x0A, 0xC3] [0xA9] (by decide) (by decide)
  have signal : Recut [.data [0x61, 0x0D], .data [0x0A, 0xC3], .data [0xA9], .data []]
      [.data [0x61, 0x0D], .data [0x0A, 0xC3], .failed ⟨.interrupted, "signal"⟩, .data [0xA9],
        .data []] :=
    .interruption [.data [0x61, 0x0D], .data [0x0A, 0xC3]] [.data [0xA9], .data []] rfl
  exact (answers_redelivered
    (.trans _ _ _ (.rel _ _ ending) (.trans _ _ _ (.rel _ _ character) (.rel _ _ signal))) 3).1

end Reader

/-! ## Delivery without a fault -/

/-- A script brings these bytes and then only ends of input.  Interruptions may come anywhere. -/
inductive Delivers : List Read → List UInt8 → Prop
  | nil : Delivers [] []
  | stop {script : List Read} (ended : Delivers script []) : Delivers (.data [] :: script) []
  | data {bytes rest : List UInt8} {script : List Read} (nonempty : bytes ≠ [])
      (later : Delivers script rest) : Delivers (.data bytes :: script) (bytes ++ rest)
  | interruption {fault : Fault} {bytes : List UInt8} {script : List Read}
      (retry : fault.kind = .interrupted) (later : Delivers script bytes) :
      Delivers (.failed fault :: script) bytes

theorem Delivers.at_once {bytes : List UInt8} (nonempty : bytes ≠ []) :
    Delivers [.data bytes] bytes := by
  simpa using data nonempty .nil

theorem Delivers.events_eq {script : List Read} {bytes : List UInt8}
    (delivers : Delivers script bytes) :
    ∃ n, script.flatMap Read.events = bytes.map .byte ++ List.replicate n .stop := by
  induction delivers with
  | nil => exact ⟨0, rfl⟩
  | stop _ ih =>
      obtain ⟨n, later⟩ := ih
      exact ⟨n + 1, congrArg (Event.stop :: ·) later⟩
  | data nonempty _ ih =>
      obtain ⟨n, later⟩ := ih
      refine ⟨n, ?_⟩
      rw [List.flatMap_cons, Read.events_data nonempty, later, List.map_append, List.append_assoc]
  | interruption retry _ ih =>
      obtain ⟨n, later⟩ := ih
      refine ⟨n, ?_⟩
      rw [List.flatMap_cons, Read.events, if_pos retry, List.nil_append, later]

theorem Reader.untilEnd_delivered {script : List Read} {bytes : List UInt8}
    (delivers : Delivers script bytes) :
    (ofScript script).untilEnd = (Piece.pieces bytes).flatMap Piece.items := by
  obtain ⟨n, events⟩ := delivers.events_eq
  have answers := stream_ofScript script
  rw [events, View.stream_all, Stream'.const_eq] at answers
  exact untilEnd_of_stream answers

end BracketTally
