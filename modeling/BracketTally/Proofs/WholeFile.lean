import BracketTally.Proofs.Malformed
import BracketTally.Proofs.Redelivery
import BracketTally.Run

namespace BracketTally

namespace Utf8

theorem WellFormed.append {s t : List UInt8} (first : WellFormed s) (second : WellFormed t) :
    WellFormed (s ++ t) := by
  obtain ⟨s, rfl⟩ := wellFormed_iff.1 first
  obtain ⟨t, rfl⟩ := wellFormed_iff.1 second
  rw [← encode_append]
  exact wellFormed_encode _

theorem WellFormed.flatten {parts : List (List UInt8)} (all : ∀ part ∈ parts, WellFormed part) :
    WellFormed parts.flatten := by
  induction parts with
  | nil => exact wellFormed_encode []
  | cons part parts ih =>
      rw [List.forall_mem_cons] at all
      exact all.1.append (ih all.2)

end Utf8

open Utf8

namespace Piece

/-! ## Endings of a piece -/

theorem length_dropFinal_le (b : UInt8) (bytes : List UInt8) :
    (dropFinal b bytes).length ≤ bytes.length := by
  unfold dropFinal
  split
  · rw [List.length_dropLast]
    exact Nat.sub_le ..
  · exact Nat.le_refl _

theorem dropFinal_append (b : UInt8) (front : List UInt8) {rest : List UInt8}
    (nonempty : rest ≠ []) :
    dropFinal b (front ++ rest) = front ++ dropFinal b rest := by
  unfold dropFinal
  rw [List.getLast?_append, List.getLast?_eq_some_getLast nonempty, Option.some_or]
  split
  · rw [List.dropLast_append_of_ne_nil nonempty]
  · rfl

theorem exists_ending (piece : List UInt8) :
    ∃ ending, piece = body piece ++ ending ∧ ∀ b ∈ ending, b = lineFeed ∨ b = carriageReturn := by
  have lines := eq_or_concat_of_dropFinal (rfl : dropFinal lineFeed piece = _)
  have returns := eq_or_concat_of_dropFinal
    (rfl : dropFinal carriageReturn (dropFinal lineFeed piece) = _)
  rw [← body] at returns
  rcases lines with line | line <;> rcases returns with ret | ret
  · exact ⟨[], by rw [List.append_nil, ← ret, ← line], by simp⟩
  · exact ⟨[carriageReturn], by rw [← ret, ← line], by simp⟩
  · exact ⟨[lineFeed], by rw [← ret, ← line], by simp⟩
  · refine ⟨[carriageReturn, lineFeed], ?_, by simp⟩
    have whole : body piece ++ [carriageReturn, lineFeed] =
        body piece ++ [carriageReturn] ++ [lineFeed] := by simp
    rw [whole, ← ret, ← line]

theorem length_body_lt {piece : List UInt8} (ends : piece.getLast? = some lineFeed) :
    (body piece).length < piece.length := by
  obtain ⟨front, rfl⟩ := List.getLast?_eq_some_iff.1 ends
  rw [body, dropFinal_concat, List.length_append]
  exact Nat.lt_succ_of_le (length_dropFinal_le ..)

theorem body_drop {piece front rest : List UInt8} (parted : body piece = front ++ rest)
    (nonempty : rest ≠ []) : body (piece.drop front.length) = rest := by
  obtain ⟨ending, whole, -⟩ := exists_ending piece
  rw [parted, List.append_assoc] at whole
  have some_rest : rest ++ ending ≠ [] := List.append_ne_nil_of_left_ne_nil nonempty ending
  rw [whole, body, dropFinal_append _ _ some_rest] at parted
  rw [whole, List.drop_left, body]
  -- only if nothing but endings were left could the drop take a byte of `front`
  by_cases none : dropFinal lineFeed (rest ++ ending) = []
  · have shorter := length_dropFinal_le carriageReturn front
    rw [none, List.append_nil] at parted
    rw [parted, List.length_append] at shorter
    exact absurd (List.length_pos_iff.2 nonempty) (by omega)
  · rw [dropFinal_append _ _ none] at parted
    exact List.append_cancel_left parted

theorem ends_of_pieces {bytes piece : List UInt8} {before after : List (List UInt8)}
    (parted : pieces bytes = before ++ piece :: after) (more : after ≠ []) :
    piece.getLast? = some lineFeed := by
  induction bytes using separator_induction lineFeed generalizing before with
  | last bytes unfinished =>
      have length := congrArg List.length parted
      have positive := List.length_pos_iff.2 more
      by_cases none : bytes = []
      · subst none
        simp at length
      · rw [pieces_unfinished unfinished none] at length
        simp only [List.length_append, List.length_cons, List.length_nil] at length
        omega
  | more bytes rest unfinished ih =>
      rw [pieces_lineFeed unfinished] at parted
      cases before with
      | nil =>
          obtain ⟨rfl, -⟩ := List.cons.inj parted
          exact List.getLast?_concat ..
      | cons first before => exact ih (List.cons.inj parted).2

/-! ## The first piece that stops the reading -/

/-- The whole pieces before it are well-formed, and it is refused. -/
structure Stops (bytes : List UInt8) (before : List (List UInt8)) (piece : List UInt8)
    (m : Malformed) : Prop where
  parted : ∃ after, pieces bytes = before ++ piece :: after
  wellFormed : ∀ earlier ∈ before, WellFormed earlier
  refused : decode (body piece) = .error m

namespace Stops

variable {bytes : List UInt8} {before : List (List UInt8)} {piece : List UInt8} {m : Malformed}
  (stops : Stops bytes before piece m)
include stops

theorem place : ∃ text rest tail, body piece = encode text ++ rest ∧
    m.index = (encode text).length ∧ Stuck rest m.defect ∧
    bytes = before.flatten ++ encode text ++ (rest ++ tail) ∧
    ∀ b ∈ tail.head?, b.toNat < 0x80 := by
  obtain ⟨after, parted⟩ := stops.parted
  obtain ⟨text, rest, found, index, stuck⟩ := decode_error stops.refused
  -- an ending cannot go on with a sequence, so the whole file is stuck at the same place
  obtain ⟨ending, whole, plain⟩ := exists_ending piece
  refine ⟨text, rest, ending ++ after.flatten, found, index, stuck, ?_, ?_⟩
  · rw [← flatten_pieces bytes, parted, List.flatten_append, List.flatten_cons]
    conv_lhs => rw [whole, found]
    simp only [List.append_assoc]
  · cases ending with
    | cons b ending =>
        intro c head
        cases head
        rcases plain b (List.mem_cons_self ..) with rfl | rfl <;> decide
    | nil =>
        -- a piece without an ending is the last one, so nothing follows it
        by_cases last : after = []
        · subst last
          nofun
        · have shorter := length_body_lt (ends_of_pieces parted last)
          rw [List.append_nil] at whole
          rw [← whole] at shorter
          exact absurd shorter (Nat.lt_irrefl _)

theorem stuck_file : ∃ front left later, bytes = front ++ left ∧ Longest WellFormed front bytes ∧
    front.length = before.flatten.length + m.index ∧ Stuck left later ∧
    (m.defect = .incomplete ∨ later = m.defect) := by
  obtain ⟨text, rest, tail, -, index, stuck, whole, ascii⟩ := stops.place
  obtain ⟨s, flat⟩ := wellFormed_iff.1 (WellFormed.flatten stops.wellFormed)
  obtain ⟨later, stillStuck, same⟩ := stuck.append ascii
  have longest := Longest.of_blocked (s ++ text) stillStuck.blocked
  rw [encode_append, ← flat, ← whole] at longest
  refine ⟨before.flatten ++ encode text, rest ++ tail, later, whole, longest, ?_, stillStuck, same⟩
  rw [List.length_append, index]

theorem not_wellFormed : ¬ WellFormed bytes := by
  obtain ⟨front, left, _, whole, longest, -, stuck, -⟩ := stops.stuck_file
  intro wellFormed
  have length := longest.longest bytes wellFormed List.prefix_rfl
  have positive := List.length_pos_iff.2 stuck.ne_nil
  rw [whole, List.length_append] at length
  omega

theorem incomplete_iff : m.defect = .incomplete ↔ BeginsOnly (body (piece.drop m.index)) := by
  obtain ⟨text, rest, _, found, index, stuck, -, -⟩ := stops.place
  rw [index, body_drop found stuck.ne_nil]
  exact stuck.incomplete_iff

/-- The index is where the longest well-formed beginning of the file ends, and the count is that of
the bytes there that a character could begin with. -/
theorem exists_longest : ∃ front begun, Longest WellFormed front bytes ∧
    front.length = before.flatten.length + m.index ∧
    Longest Begins begun (bytes.drop front.length) ∧ begun.length ≤ 3 ∧
    (m.defect = .incomplete ∨ m.defect = .invalid (max 1 begun.length)) := by
  obtain ⟨front, left, later, whole, longestFront, index, stuck, same⟩ := stops.stuck_file
  obtain ⟨begun, longest, said⟩ := stuck.exists_longest
  have dropped : bytes.drop front.length = left := by rw [whole, List.drop_left]
  refine ⟨front, begun, longestFront, index, dropped ▸ longest,
    longest.length_le_three stuck.blocked, ?_⟩
  rcases same with incomplete | rfl
  · exact .inl incomplete
  · exact said

end Stops

theorem wellFormed_or_stops (bytes : List UInt8) :
    (∀ piece ∈ pieces bytes, WellFormed piece) ∨
      ∃ before piece m, Stops bytes before piece m ∧ ¬ WellFormed piece := by
  classical
  cases found : (pieces bytes).find? (¬ WellFormed ·) with
  | none => exact .inl (by simpa using found)
  | some piece =>
      right
      obtain ⟨malformed, before, after, parted, earlier⟩ := List.find?_eq_some_iff_append.1 found
      have malformed : ¬ WellFormed piece := by simpa using malformed
      cases decoded : decode (body piece) with
      | ok text =>
          obtain ⟨whole, rfl⟩ := exists_encode_of_body decoded
          exact absurd (wellFormed_encode whole) malformed
      | error m =>
          exact ⟨before, piece, m, ⟨⟨after, parted⟩, by simpa using earlier, decoded⟩, malformed⟩

theorem wellFormed_iff {bytes : List UInt8} :
    WellFormed bytes ↔ ∀ piece ∈ pieces bytes, WellFormed piece := by
  constructor
  · intro wellFormed
    rcases wellFormed_or_stops bytes with all | ⟨before, piece, m, stops, -⟩
    · exact all
    · exact absurd wellFormed stops.not_wellFormed
  · intro all
    rw [← flatten_pieces bytes]
    exact WellFormed.flatten all

/-! ## What is answered -/

theorem exists_items (bytes : List UInt8) {parts : List (List UInt8)}
    (among : ∀ piece ∈ parts, piece ∈ pieces bytes) (all : ∀ piece ∈ parts, WellFormed piece) :
    ∃ found : List String, parts.flatMap items = found.map .ok := by
  induction parts with
  | nil => exact ⟨[], rfl⟩
  | cons piece parts ih =>
      rw [List.forall_mem_cons] at among all
      obtain ⟨found, later⟩ := ih among.2 all.2
      obtain ⟨text, decoded⟩ := wellFormed_iff_decode.1 all.1
      rcases items_allOrNothing piece among.1 with ⟨text, -, answered⟩ | ⟨m, -, refused, -⟩
      · refine ⟨(Line.cut text).map Line.string ++ found, ?_⟩
        rw [List.flatMap_cons, answered, later, List.map_append, List.map_map]
        rfl
      · rw [decoded] at refused
        cases refused

end Piece

namespace Reader

theorem mapM_ok_append (found : List String) (rest : List Item) :
    (found.map Except.ok ++ rest : List Item).mapM id = (rest.mapM id).map (found ++ ·) := by
  induction found with
  | nil => cases h : rest.mapM id <;> simp [h, Except.map]
  | cons line found ih =>
      rw [List.map_cons, List.cons_append, List.mapM_cons, ih]
      cases rest.mapM id <;> rfl

section Delivered

variable {script : List Read} {bytes : List UInt8} (delivers : Delivers script bytes)
include delivers

theorem exists_lines (wellFormed : WellFormed bytes) :
    ∃ found, (ofScript script).lines = .ok found := by
  obtain ⟨found, items⟩ := Piece.exists_items bytes (fun _ member => member)
    (Piece.wellFormed_iff.1 wellFormed)
  exact ⟨found, lines_of_untilEnd (by rw [untilEnd_delivered delivers, items])⟩

theorem lines_of_stops {before : List (List UInt8)} {piece : List UInt8} {m : Malformed}
    (stops : Piece.Stops bytes before piece m) :
    (ofScript script).lines = .error (.malformed m) := by
  obtain ⟨after, parted⟩ := stops.parted
  obtain ⟨found, items⟩ := Piece.exists_items bytes
    (fun earlier member => by rw [parted]; exact List.mem_append_left _ member) stops.wellFormed
  have refused : Piece.items piece = [.error (.malformed m)] := by
    rw [Piece.items, Piece.lines, stops.refused]
  rw [lines, untilEnd_delivered delivers, parted, List.flatMap_append, List.flatMap_cons, items,
    refused, mapM_ok_append]
  rfl

end Delivered

end Reader

/-! ## Whole files -/

section

variable {openPath : RawText → Except Fault (List Read)} {path : RawText} {script : List Read}
  {bytes : List UInt8} (opened : openPath path = .ok script) (delivers : Delivers script bytes)
include opened delivers

theorem readPath_of_stops {before : List (List UInt8)} {piece : List UInt8} {m : Malformed}
    (stops : Piece.Stops bytes before piece m) :
    readPath openPath path = .error (.reading path (.malformed m)) := by
  simp only [readPath, opened, Reader.lines_of_stops delivers stops]

theorem exists_readPath (wellFormed : WellFormed bytes) :
    ∃ lines, readPath openPath path = .ok lines := by
  obtain ⟨lines, found⟩ := Reader.exists_lines delivers wellFormed
  exact ⟨lines, by simp only [readPath, opened, found]⟩

/-- A file is read if it is well-formed.  If it is not, the error is that of its first piece that
is not, and tells where and how decoding the file would fail. -/
theorem readPath_delivered :
    ((∃ lines, readPath openPath path = .ok lines) ↔ WellFormed bytes) ∧
    ∀ failure, readPath openPath path = .error failure →
      ∃ before piece after front begun,
        Piece.pieces bytes = before ++ piece :: after ∧
        (∀ earlier ∈ before, WellFormed earlier) ∧ ¬ WellFormed piece ∧
        Longest WellFormed front bytes ∧ before.flatten.length ≤ front.length ∧
        Longest Begins begun (bytes.drop front.length) ∧ begun.length ≤ 3 ∧
        let index := front.length - before.flatten.length
        let left := Piece.body (piece.drop index)
        failure.fault.kind = .invalidData ∧
        (BeginsOnly left → failure.fault.message =
          "Failed to read " ++ path.display ++ ": " ++
            ("incomplete utf-8 byte sequence from index " ++ Nat.repr index)) ∧
        (¬ BeginsOnly left → failure.fault.message =
          "Failed to read " ++ path.display ++ ": " ++
            ("invalid utf-8 sequence of " ++ Nat.repr (max 1 begun.length) ++
              " bytes from index " ++ Nat.repr index)) := by
  refine ⟨⟨?_, exists_readPath opened delivers⟩, ?_⟩
  · rintro ⟨lines, read⟩
    rcases Piece.wellFormed_or_stops bytes with all | ⟨before, piece, m, stops, -⟩
    · exact Piece.wellFormed_iff.2 all
    · rw [readPath_of_stops opened delivers stops] at read
      cases read
  · intro failure unread
    rcases Piece.wellFormed_or_stops bytes with all | ⟨before, piece, m, stops, malformed⟩
    · obtain ⟨lines, read⟩ := exists_readPath opened delivers (Piece.wellFormed_iff.2 all)
      rw [read] at unread
      cases unread
    · rw [readPath_of_stops opened delivers stops] at unread
      cases unread
      obtain ⟨after, parted⟩ := stops.parted
      obtain ⟨front, begun, longestFront, length, longest, short, said⟩ := stops.exists_longest
      have index : front.length - before.flatten.length = m.index := by omega
      refine ⟨before, piece, after, front, begun, parted, stops.wellFormed, malformed,
        longestFront, by omega, longest, short, rfl, ?_, ?_⟩
      · intro breaksOff
        rw [index, ← stops.incomplete_iff] at breaksOff
        simp only [Failure.fault, ReadError.toFault, Malformed.message, breaksOff, index]
      · intro broken
        rw [index, ← stops.incomplete_iff] at broken
        have invalid := said.resolve_left broken
        simp only [Failure.fault, ReadError.toFault, Malformed.message, invalid, index]

end

theorem readPath_delivered_broken_off :
    ∃ failure, readPath (fun _ => .ok [.data [0x61, 0x0A, 0x62, 0xE2],
        .failed ⟨.interrupted, "signal"⟩, .data [0x82, 0x0D, 0x0A, 0x63], .data []]) "a" =
      .error failure ∧ failure.fault.kind = .invalidData ∧ failure.fault.message =
        "Failed to read a: incomplete utf-8 byte sequence from index 1" := by
  have delivers : Delivers [.data [0x61, 0x0A, 0x62, 0xE2], .failed ⟨.interrupted, "signal"⟩,
      .data [0x82, 0x0D, 0x0A, 0x63], .data []] [0x61, 0x0A, 0x62, 0xE2, 0x82, 0x0D, 0x0A, 0x63] :=
    .data (by decide) (.interruption rfl (.data (by decide) (.stop .nil)))
  obtain ⟨read, unread⟩ := @readPath_delivered (fun _ => .ok _) "a" _ _ rfl delivers
  have malformed {bytes : List UInt8} {m : Malformed} (refused : decode bytes = .error m) :
      ¬ WellFormed bytes := by
    rw [wellFormed_iff_decode, refused]
    rintro ⟨_, ⟨⟩⟩
  cases found : readPath (fun _ => .ok [.data [0x61, 0x0A, 0x62, 0xE2],
      .failed ⟨.interrupted, "signal"⟩, .data [0x82, 0x0D, 0x0A, 0x63], .data []]) "a" with
  | ok lines => exact absurd (read.1 ⟨lines, found⟩) (malformed (m := ⟨3, .invalid 2⟩) rfl)
  | error failure =>
      obtain ⟨before, piece, after, front, -, parted, earlier, wrong, longest, -, -, -, kind,
        incomplete, -⟩ := unread failure found
      have breaksOff : BeginsOnly [0xE2, 0x82] := ⟨'€', by decide, by decide⟩
      -- the first piece is well-formed, so the second one is the one that is not
      obtain ⟨rfl, rfl⟩ : before = [[0x61, 0x0A]] ∧ piece = [0x62, 0xE2, 0x82, 0x0D, 0x0A] := by
        match before, parted with
        | [], parted =>
            obtain ⟨found, -⟩ := List.cons.inj parted
            exact absurd (found ▸ wellFormed_encode ['a', '\n']) wrong
        | [one], parted =>
            obtain ⟨first, parted⟩ := List.cons.inj parted
            obtain ⟨second, -⟩ := List.cons.inj parted
            exact ⟨congrArg ([·]) first.symm, second.symm⟩
        | one :: two :: more, parted =>
            obtain ⟨-, parted⟩ := List.cons.inj parted
            obtain ⟨second, -⟩ := List.cons.inj parted
            exact absurd (earlier two (by simp)) (second ▸ malformed (m := ⟨1, .invalid 2⟩) rfl)
      have blocked : Blocked [0xE2, 0x82, 0x0D, 0x0A, 0x63] :=
        blocked_of_broken (.inr breaksOff) (not_begins_ascii (by decide) (by decide)) [0x0A, 0x63]
      have known := Longest.of_blocked ['a', '\n', 'b'] blocked
      have length : front.length = 3 := Nat.le_antisymm
        (known.longest front longest.holds longest.leads)
        (longest.longest _ known.holds known.leads)
      rw [length] at incomplete
      exact ⟨failure, rfl, kind, incomplete breaksOff⟩

end BracketTally
