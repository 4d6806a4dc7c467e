import BracketTally.Proofs.Utf8
import BracketTally.Walk

namespace BracketTally

/-! ## Pairs of quote marks -/

theorem pairFollows_iff {q : Quote} {line : List Glyph} :
    pairFollows q line = true ↔ ∃ rest, line = .quote q :: .quote q :: rest := by
  constructor
  · intro follows
    unfold pairFollows at follows
    split at follows
    case h_1 a b rest =>
      simp only [Bool.and_eq_true, beq_iff_eq] at follows
      obtain ⟨rfl, rfl⟩ := follows
      exact ⟨rest, rfl⟩
    case h_2 => cases follows
  · rintro ⟨rest, rfl⟩
    simp [pairFollows]

theorem pairFollows_cons (q : Quote) (g : Glyph) (line : List Glyph) :
    pairFollows q (g :: line) = (g == .quote q && line.head? == some (.quote q)) := by
  rw [Bool.eq_iff_iff, pairFollows_iff, Bool.and_eq_true, beq_iff_eq, beq_iff_eq]
  constructor
  · rintro ⟨rest, same⟩
    obtain ⟨rfl, rfl⟩ := List.cons.inj same
    exact ⟨rfl, rfl⟩
  · rintro ⟨rfl, head⟩
    obtain ⟨rest, rfl⟩ := List.head?_eq_some_iff.1 head
    exact ⟨rest, rfl⟩

def Glyph.Apart (before after : List Glyph) : Prop :=
  ∀ q, before.getLast? = some (.quote q) → after.head? ≠ some (.quote q)

theorem Glyph.Apart.tail {g : Glyph} {before after : List Glyph} (apart : Apart (g :: before) after) :
    Apart before after := by
  intro q last
  refine apart q ?_
  rw [List.getLast?_cons, last]
  rfl

theorem pairFollows_append {q : Quote} {before after : List Glyph}
    (apart : Glyph.Apart (.quote q :: before) after) :
    pairFollows q (before ++ after) = pairFollows q before := by
  rw [Bool.eq_iff_iff, pairFollows_iff, pairFollows_iff]
  constructor
  · rintro ⟨rest, same⟩
    match before with
    | [] => exact absurd (congrArg List.head? same) (apart q rfl)
    | [g] =>
        obtain ⟨rfl, second⟩ := List.cons.inj same
        exact absurd (congrArg List.head? second) (apart.tail q rfl)
    | g :: h :: before =>
        simp only [List.cons_append, List.cons.injEq] at same
        obtain ⟨rfl, rfl, -⟩ := same
        exact ⟨before, rfl⟩
  · rintro ⟨rest, rfl⟩
    exact ⟨rest ++ after, rfl⟩

/-! ## Moves -/

namespace Mode

variable {q : Quote} {g : Glyph} {rest : List Glyph}

theorem move_code_quote :
    code.move (.quote q) rest =
      if pairFollows q rest then ⟨2, literal ⟨q, .triple⟩, 0⟩ else ⟨0, literal ⟨q, .simple⟩, 0⟩ :=
  rfl

theorem move_code (plain : ∀ q, g ≠ .quote q) : code.move g rest = ⟨0, code, g.weight⟩ := by
  cases g with
  | quote q => exact absurd rfl (plain q)
  | backslash | bracket b | other => rfl

theorem move_triple :
    (literal ⟨q, .triple⟩).move g rest =
      if g = .quote q ∧ pairFollows q rest then ⟨2, code, 0⟩ else ⟨0, literal ⟨q, .triple⟩, 0⟩ :=
  rfl

theorem move_simple_backslash :
    (literal ⟨q, .simple⟩).move .backslash rest = ⟨1, literal ⟨q, .simple⟩, 0⟩ :=
  rfl

theorem move_simple (unescaped : g ≠ .backslash) :
    (literal ⟨q, .simple⟩).move g rest =
      if g = .quote q then ⟨0, code, 0⟩ else ⟨0, literal ⟨q, .simple⟩, 0⟩ := by
  cases g with
  | backslash => exact absurd rfl unescaped
  | quote a | bracket b | other => rfl

theorem move_other (mode : Mode) : mode.move .other rest = ⟨0, mode, 0⟩ := by
  obtain _ | ⟨q, _ | _⟩ := mode <;> rfl

theorem move_congr (mode : Mode) {rest' : List Glyph}
    (same : ∀ q, g = .quote q → pairFollows q rest = pairFollows q rest') :
    mode.move g rest = mode.move g rest' := by
  obtain _ | ⟨q, _ | _⟩ := mode
  · cases g with
    | quote q => rw [move_code_quote, move_code_quote, same q rfl]
    | backslash | bracket b | other => rfl
  · by_cases escape : g = .backslash
    · rw [escape, move_simple_backslash, move_simple_backslash]
    · rw [move_simple escape, move_simple escape]
  · rw [move_triple, move_triple]
    by_cases mark : g = .quote q
    · rw [same q mark]
    · simp only [mark, false_and]

theorem move_beyond (mode : Mode) (g : Glyph) (rest : List Glyph) :
    (mode.move g rest).beyond ≤ 1 ∨
      (mode.move g rest).beyond = 2 ∧ ∃ q, pairFollows q rest = true := by
  obtain _ | ⟨q, _ | _⟩ := mode
  · cases g with
    | quote q =>
        rw [move_code_quote]
        by_cases pair : pairFollows q rest = true
        · exact .inr ⟨by rw [if_pos pair], q, pair⟩
        · exact .inl (by rw [if_neg pair]; exact Nat.zero_le 1)
    | backslash | bracket b | other => exact .inl (Nat.zero_le 1)
  · by_cases escape : g = .backslash
    · rw [escape, move_simple_backslash]
      exact .inl (Nat.le_refl 1)
    · rw [move_simple escape]
      split <;> exact .inl (Nat.zero_le 1)
  · rw [move_triple]
    by_cases closes : g = .quote q ∧ pairFollows q rest = true
    · exact .inr ⟨by rw [if_pos closes], q, closes.2⟩
    · exact .inl (by rw [if_neg closes]; exact Nat.zero_le 1)

end Mode

/-! ## Cuts -/

namespace Walk

theorem step_congr {w : Walk} {g : Glyph} {rest rest' : List Glyph}
    (same : ∀ q, g = .quote q → pairFollows q rest = pairFollows q rest') :
    w.step g rest = w.step g rest' := by
  simp only [step, w.mode.move_congr same]

theorem run_append (w : Walk) {before after : List Glyph} (apart : Glyph.Apart before after) :
    w.run (before ++ after) = (w.run before).run after := by
  induction before generalizing w with
  | nil => rfl
  | cons g before ih =>
      -- what follows matters to a step only as a pair of marks
      have step : w.step g (before ++ after) = w.step g before := by
        apply step_congr
        rintro q rfl
        exact pairFollows_append apart
      rw [List.cons_append, run, run, ih _ apart.tail, step]

/-! ## The cursor ahead -/

/-- The cursor has passed the glyph in front of it, or a pair of quote marks. -/
def Ready (w : Walk) (line : List Glyph) : Prop :=
  w.ahead ≤ 1 ∨ w.ahead = 2 ∧ ∃ q, pairFollows q line = true

theorem Ready.step {w : Walk} {g : Glyph} {rest : List Glyph} (ready : w.Ready (g :: rest)) :
    (w.step g rest).Ready rest := by
  unfold Walk.step
  split
  case h_1 n passed =>
    left
    dsimp only
    rcases ready with one | ⟨two, -⟩ <;> omega
  case h_2 => exact w.mode.move_beyond g rest

theorem Ready.run {w : Walk} {line : List Glyph} (ready : w.Ready line) :
    (w.run line).Ready [] := by
  induction line generalizing w with
  | nil => exact ready
  | cons g rest ih => exact ih ready.step

theorem Ready.ahead_le {w : Walk} {line : List Glyph} (ready : w.Ready line)
    (single : ∀ q, pairFollows q line = false) : w.ahead ≤ 1 := by
  rcases ready with one | ⟨-, q, pair⟩
  · exact one
  · rw [single q] at pair
    cases pair

theorem run_ahead_le (mode : Mode) (line : List Glyph) : ((start mode).run line).ahead ≤ 1 := by
  have ready : (start mode).Ready line := .inl (Nat.zero_le 1)
  exact ready.run.ahead_le fun _ => rfl

/-! ## Other glyphs -/

theorem step_other (w : Walk) (rest : List Glyph) :
    w.step .other rest = { w with ahead := w.ahead - 1 } := by
  obtain ⟨mode, tally, _ | n⟩ := w
  · simp only [step, Mode.move_other, Tally.add_zero]
  · rfl

theorem run_others {w : Walk} (overshot : w.ahead ≤ 1) (n : Nat) (rest : List Glyph) :
    w.run (List.replicate (n + 1) .other ++ rest) = run { w with ahead := 0 } rest := by
  induction n generalizing w with
  | zero =>
      rw [List.replicate_one, List.singleton_append, run, step_other, Nat.sub_eq_zero_of_le overshot]
  | succ n ih =>
      rw [List.replicate_succ, List.cons_append, run, step_other, Nat.sub_eq_zero_of_le overshot,
        ih (Nat.zero_le 1)]

end Walk

/-! ## Bytes and characters -/

theorem ofByte_byte {n : Nat} (small : n < 256) : Glyph.ofByte (UInt8.ofNat n) = Glyph.ofCode n := by
  rw [Glyph.ofByte, Utf8.toNat_byte small]

theorem glyphs_encodeChar_ascii {c : Char} (ascii : c.toNat < 0x80) :
    (String.utf8EncodeChar c).map Glyph.ofByte = [Glyph.ofChar c] := by
  rw [Utf8.encodeChar_ascii ascii, List.map_singleton, ofByte_byte (by omega), Glyph.ofChar]

theorem glyphs_encodeChar_wide {c : Char} (wide : 0x80 ≤ c.toNat) :
    ∃ n, (String.utf8EncodeChar c).map Glyph.ofByte = List.replicate (n + 1) .other := by
  obtain ⟨n, length⟩ : ∃ n, (String.utf8EncodeChar c).length = n + 1 :=
    Nat.exists_eq_succ_of_ne_zero fun none =>
      String.utf8EncodeChar_ne_nil (List.eq_nil_of_length_eq_zero none)
  refine ⟨n, List.eq_replicate_iff.2 ⟨by rw [List.length_map, length], ?_⟩⟩
  intro g member
  obtain ⟨b, found, rfl⟩ := List.mem_map.1 member
  exact Glyph.ofCode_of_ge (Utf8.byte_encodeChar_wide wide found)

theorem byteGlyphs_cons (c : Char) (text : List Char) :
    byteGlyphs (c :: text) = (String.utf8EncodeChar c).map Glyph.ofByte ++ byteGlyphs text := by
  rw [byteGlyphs, Utf8.encode_cons, List.map_append, byteGlyphs]

theorem byteGlyphs_append (s t : List Char) :
    byteGlyphs (s ++ t) = byteGlyphs s ++ byteGlyphs t := by
  rw [byteGlyphs, Utf8.encode_append, List.map_append, byteGlyphs, byteGlyphs]

theorem charGlyphs_cons (c : Char) (text : List Char) :
    charGlyphs (c :: text) = Glyph.ofChar c :: charGlyphs text := rfl

theorem charGlyphs_wide {c : Char} (wide : 0x80 ≤ c.toNat) (text : List Char) :
    charGlyphs (c :: text) = .other :: charGlyphs text := by
  rw [charGlyphs_cons, Glyph.ofChar, Glyph.ofCode_of_ge wide]

theorem head?_byteGlyphs (text : List Char) : (byteGlyphs text).head? = (charGlyphs text).head? := by
  cases text with
  | nil => rfl
  | cons c text =>
      rw [byteGlyphs_cons]
      by_cases wide : 0x80 ≤ c.toNat
      · obtain ⟨n, others⟩ := glyphs_encodeChar_wide wide
        rw [others, charGlyphs_wide wide]
        rfl
      · rw [glyphs_encodeChar_ascii (by omega)]
        rfl

theorem pairFollows_byteGlyphs (q : Quote) (text : List Char) :
    pairFollows q (byteGlyphs text) = pairFollows q (charGlyphs text) := by
  cases text with
  | nil => rfl
  | cons c text =>
      rw [byteGlyphs_cons]
      by_cases wide : 0x80 ≤ c.toNat
      · obtain ⟨n, others⟩ := glyphs_encodeChar_wide wide
        rw [others, charGlyphs_wide wide, List.replicate_succ, List.cons_append, pairFollows_cons,
          pairFollows_cons]
        rfl
      · rw [glyphs_encodeChar_ascii (by omega), List.singleton_append, charGlyphs_cons,
          pairFollows_cons, pairFollows_cons, head?_byteGlyphs]

theorem Walk.run_byteGlyphs {w : Walk} {text : List Char} (ready : w.Ready (charGlyphs text)) :
    w.run (byteGlyphs text) = w.run (charGlyphs text) := by
  induction text generalizing w with
  | nil => rfl
  | cons c text ih =>
      rw [byteGlyphs_cons]
      by_cases wide : 0x80 ≤ c.toNat
      · obtain ⟨n, others⟩ := glyphs_encodeChar_wide wide
        rw [charGlyphs_wide wide] at ready ⊢
        have overshot : w.ahead ≤ 1 := ready.ahead_le fun _ => pairFollows_cons ..
        have single := run_others overshot 0 (charGlyphs text)
        rw [others, run_others overshot, ih (.inl (Nat.zero_le 1)), ← single]
        rfl
      · have step : w.step (Glyph.ofChar c) (byteGlyphs text) =
            w.step (Glyph.ofChar c) (charGlyphs text) :=
          step_congr fun q _ => pairFollows_byteGlyphs q text
        rw [charGlyphs_cons] at ready ⊢
        rw [glyphs_encodeChar_ascii (by omega), List.singleton_append, run, step, ih ready.step, run]

end BracketTally
