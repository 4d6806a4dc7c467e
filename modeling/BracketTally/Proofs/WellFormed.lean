import BracketTally.Proofs.Delivery

namespace BracketTally

/-! ## Pieces of a text -/

namespace Piece

theorem items_text {text : List Char} (inner : '\n' ∉ text.dropLast) (nonempty : text ≠ []) :
    items (Utf8.encode text) = (Line.cut text).map fun l => .ok l.string := by
  rw [items, lines_encode inner nonempty]
  exact List.map_map

theorem items_encode (text : List Char) :
    (pieces (Utf8.encode text)).flatMap items = (Line.cut text).map fun l => .ok l.string := by
  have mark : '\n'.toNat < 0x80 := by decide
  induction text using separator_induction '\n' with
  | last text unfinished =>
      by_cases nonempty : text = []
      · subst nonempty
        rfl
      · rw [pieces_unfinished (mt (Utf8.mem_encode_ascii mark).1 unfinished)
          (mt Utf8.encode_eq_nil_iff.1 nonempty), List.flatMap_singleton]
        exact items_text (fun member => unfinished ((List.dropLast_sublist text).subset member))
          nonempty
  | more text rest unfinished ih =>
      have parted : Utf8.encode (text ++ '\n' :: rest) =
          Utf8.encode text ++ lineFeed :: Utf8.encode rest := Utf8.encode_append _ _
      have front : Utf8.encode text ++ [lineFeed] = Utf8.encode (text ++ ['\n']) :=
        (Utf8.encode_append text ['\n']).symm
      rw [parted, pieces_lineFeed (mt (Utf8.mem_encode_ascii mark).1 unfinished), front,
        List.flatMap_cons, ih, items_text (by simpa using unfinished) (by simp),
        Line.cut_append_lineFeed text rest, List.map_append]

end Piece

/-! ## Up to the end -/

namespace View

theorem stream_stops (n : Nat) : stream ⟨[], List.replicate n .stop⟩ = .const none := by
  apply Stream'.ext
  intro i
  induction i generalizing n with
  | zero =>
      rw [stream_eq]
      cases n <;> rfl
  | succ i ih =>
      rw [stream_eq]
      cases n with
      | zero => exact ih 0
      | succ n => exact ih n

theorem stream_all (bytes : List UInt8) (n : Nat) :
    stream ⟨[], bytes.map .byte ++ List.replicate n .stop⟩ =
      ((Piece.pieces bytes).flatMap Piece.items).map some ++ₛ .const none := by
  obtain ⟨full, rest, rfl, whole, unfinished, parted⟩ := Piece.exists_parts bytes
  rw [List.map_append, List.append_assoc, stream_whole whole, parted, List.flatMap_append,
    List.map_append, Stream'.append_append_stream]
  by_cases nonempty : rest = []
  · subst nonempty
    exact congrArg _ (stream_stops n)
  · have gathered : Event.gather [] (rest.map .byte ++ List.replicate n .stop) =
        (.ok rest, List.replicate (n - 1) .stop) := by
      rw [Event.gather_bytes unfinished]
      cases n <;> rfl
    rw [stream_piece nonempty gathered, stream_stops, Piece.pieces_unfinished unfinished nonempty,
      List.flatMap_singleton]

end View

namespace Reader

theorem untilEnd_of_none {r : Reader} (answered : r.next.1 = none) : r.untilEnd = [] := by
  rw [untilEnd]
  split
  · rfl
  · rename_i item found
    rw [answered] at found
    cases found

theorem untilEnd_of_some {r : Reader} {item : Item} (answered : r.next.1 = some item) :
    r.untilEnd = item :: r.next.2.untilEnd := by
  rw [untilEnd]
  split
  · rename_i found
    rw [answered] at found
    cases found
  · rename_i found same
    rw [answered] at same
    cases same
    rfl

theorem untilEnd_of_stream {r : Reader} {items : List Item} {later : Stream' (Option Item)}
    (answers : r.stream = items.map some ++ₛ .cons none later) : r.untilEnd = items := by
  induction items generalizing r with
  | nil =>
      rw [stream_eq] at answers
      obtain ⟨head, -⟩ := Stream'.cons_injective2 answers
      exact untilEnd_of_none head
  | cons item items ih =>
      rw [stream_eq] at answers
      obtain ⟨head, tail⟩ := Stream'.cons_injective2 answers
      rw [untilEnd_of_some head, ih tail]

theorem lines_of_untilEnd {r : Reader} {found : List String}
    (items : r.untilEnd = found.map .ok) : r.lines = .ok found := by
  rw [lines, items, List.mapM_map]
  exact (List.mapM_pure (m := Except ReadError) (f := id)).trans (congrArg _ (List.map_id found))

section Text

variable (chunks : List Chunk) (ends : Nat) {text : List Char}
  (wellFormed : Utf8.decode (chunks.flatMap Chunk.bytes) = .ok text)
include wellFormed

theorem stream_text :
    (ofScript (chunks.map Chunk.read ++ List.replicate ends (.data []))).stream =
      ((Line.cut text).map fun l => .ok l.string).map some ++ₛ .const none := by
  have stops : (List.replicate ends (Read.data [])).flatMap Read.events =
      List.replicate ends .stop := by
    induction ends with
    | zero => rfl
    | succ n ih => exact congrArg _ ih
  rw [stream_ofScript, List.flatMap_append, Chunk.events_reads, stops, View.stream_all,
    Utf8.decode_eq_ok_iff.1 wellFormed, Piece.items_encode]

theorem items_text :
    (ofScript (chunks.map Chunk.read ++ List.replicate ends (.data []))).untilEnd =
      (Line.cut text).map fun l => .ok l.string := by
  have answers := stream_text chunks ends wellFormed
  rw [Stream'.const_eq] at answers
  exact untilEnd_of_stream answers

theorem lines_text :
    (ofScript (chunks.map Chunk.read ++ List.replicate ends (.data []))).lines =
      .ok ((Line.cut text).map Line.string) := by
  apply lines_of_untilEnd
  rw [items_text chunks ends wellFormed, List.map_map]
  rfl

end Text

/-- A reader implements universal newlines; there is no line only if there is no byte. -/
theorem untilEnd_text (chunks : List Chunk) (ends : Nat) {text : List Char}
    (wellFormed : Utf8.decode (chunks.flatMap Chunk.bytes) = .ok text) :
    (ofScript (chunks.map Chunk.read ++ List.replicate ends (.data []))).untilEnd =
      (Line.cut text).map (fun l => .ok l.string) ∧
    (ofScript (chunks.map Chunk.read ++ List.replicate ends (.data []))).lines =
      .ok ((Line.cut text).map Line.string) ∧
    (∀ line ∈ (Line.cut text).map Line.string, '\r' ∉ line.toList ∧ '\n' ∉ line.toList) ∧
    (Line.cut text = [] ↔ chunks.flatMap Chunk.bytes = []) := by
  refine ⟨items_text chunks ends wellFormed, lines_text chunks ends wellFormed, ?_, ?_⟩
  · intro line member
    obtain ⟨l, found, rfl⟩ := List.mem_map.1 member
    rw [Line.string, String.toList_ofList]
    exact Line.cut_clean l found
  · rw [Utf8.decode_eq_ok_iff.1 wellFormed, Utf8.encode_eq_nil_iff]
    constructor
    · intro none
      rw [← Line.whole_cut text, none]
      rfl
    · rintro rfl
      rfl

theorem untilEnd_mixed_endings :
    (ofScript [.data [0x61, 0x0D], .data [0x0D, 0x0A, 0x0A, 0x0D, 0x62], .data []]).untilEnd =
      [.ok "a", .ok "", .ok "", .ok "", .ok "b"] :=
  (@untilEnd_text [⟨0x61, [0x0D]⟩, ⟨0x0D, [0x0A, 0x0A, 0x0D, 0x62]⟩] 1
    ['a', '\r', '\r', '\n', '\n', '\r', 'b'] rfl).1

end Reader

end BracketTally
