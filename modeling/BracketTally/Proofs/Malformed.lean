import BracketTally.Proofs.Utf8

namespace BracketTally.Utf8

/-! ## Notions -/

/-- One sequence after the other, each that of a scalar value in its shortest form. -/
def WellFormed (bytes : List UInt8) : Prop := bytes.toByteArray.IsValidUTF8

theorem wellFormed_iff {bytes : List UInt8} : WellFormed bytes ↔ ∃ text, bytes = encode text := by
  constructor
  · rintro ⟨text, same⟩
    exact ⟨text, List.toByteArray_inj.1 same⟩
  · rintro ⟨text, rfl⟩
    exact ⟨text, rfl⟩

theorem wellFormed_encode (text : List Char) : WellFormed (encode text) :=
  wellFormed_iff.2 ⟨text, rfl⟩

theorem wellFormed_iff_decode {bytes : List UInt8} :
    WellFormed bytes ↔ ∃ text, decode bytes = .ok text := by
  simp only [wellFormed_iff, decode_eq_ok_iff]

def Begins (bytes : List UInt8) : Prop := ∃ c, bytes <+: String.utf8EncodeChar c

/-- It also goes on. -/
def BeginsOnly (bytes : List UInt8) : Prop :=
  ∃ c, bytes <+: String.utf8EncodeChar c ∧ bytes ≠ String.utf8EncodeChar c

/-- Nothing longer at the front of the bytes has the property. -/
structure Longest (P : List UInt8 → Prop) (front bytes : List UInt8) : Prop where
  holds : P front
  leads : front <+: bytes
  longest : ∀ other, P other → other <+: bytes → other.length ≤ front.length

def Blocked (bytes : List UInt8) : Prop := ∀ c, ¬ String.utf8EncodeChar c <+: bytes

/-! ## Sequences do not overlap -/

namespace Decoder

theorem step_text {d d' : Decoder} {b : UInt8} (taken : d.step b = .ok d') :
    d.text <:+ d'.text := by
  unfold step at taken
  split at taken
  · split at taken
    · cases taken
      exact List.suffix_cons ..
    · split at taken <;> cases taken
      exact List.suffix_rfl
  · split at taken
    · split at taken <;> cases taken
      · exact List.suffix_cons ..
      · exact List.suffix_rfl
    · cases taken

theorem run_text {d d' : Decoder} {bytes : List UInt8} (ran : d.run bytes = .ok d') :
    d.text <:+ d'.text := by
  induction bytes generalizing d with
  | nil =>
      cases ran
      exact List.suffix_rfl
  | cons b bytes ih =>
      rw [run] at ran
      cases taken : d.step b with
      | error m =>
          rw [taken] at ran
          cases ran
      | ok next =>
          rw [taken] at ran
          exact (step_text taken).trans (ih ran)

theorem run_start_encode (text : List Char) (rest : List UInt8) :
    start.run (encode text ++ rest) =
      run ⟨(encode text).length, .boundary, text.reverse⟩ rest := by
  have ran := run_encode 0 [] text rest
  rwa [Nat.zero_add, List.append_nil] at ran

theorem exists_run_of_prefix {bytes : List UInt8} {text : List Char}
    (leads : bytes <+: encode text) :
    ∃ d, start.run bytes = .ok d := by
  obtain ⟨rest, whole⟩ := leads
  have ran := run_start_encode text []
  rw [List.append_nil, ← whole, run_append] at ran
  cases front : start.run bytes with
  | ok d => exact ⟨d, rfl⟩
  | error m =>
      rw [front] at ran
      cases ran

end Decoder

theorem exists_append_of_encode_append {s t : List Char} {rest : List UInt8}
    (same : encode s ++ rest = encode t) : ∃ u, t = s ++ u ∧ rest = encode u := by
  have ran : Decoder.run ⟨(encode s).length, .boundary, s.reverse⟩ rest =
      .ok ⟨(encode t).length, .boundary, t.reverse⟩ := by
    have whole := Decoder.run_start_encode t []
    rw [List.append_nil] at whole
    rw [← Decoder.run_start_encode, same]
    exact whole
  obtain ⟨u, rfl⟩ := List.reverse_suffix.1 (Decoder.run_text ran)
  refine ⟨u, rfl, ?_⟩
  rw [encode_append] at same
  exact List.append_cancel_left same

theorem eq_of_encodeChar_append {c d : Char} {rest : List UInt8}
    (same : String.utf8EncodeChar c ++ rest = String.utf8EncodeChar d) : c = d ∧ rest = [] := by
  have texts : encode [c] ++ rest = encode [d] := by
    simpa using same
  obtain ⟨u, whole, rfl⟩ := exists_append_of_encode_append texts
  obtain ⟨rfl, none⟩ := List.cons.inj whole
  obtain rfl : u = [] := none.symm
  exact ⟨rfl, rfl⟩

theorem BeginsOnly.blocked {bytes : List UInt8} (begun : BeginsOnly bytes) : Blocked bytes := by
  obtain ⟨d, leads, other⟩ := begun
  intro c char
  obtain ⟨rest, whole⟩ := char.trans leads
  obtain ⟨rfl, rfl⟩ := eq_of_encodeChar_append whole
  rw [List.append_nil] at whole
  exact other (leads.eq_of_length_le char.length_le)

theorem Longest.of_blocked (text : List Char) {rest : List UInt8} (blocked : Blocked rest) :
    Longest WellFormed (encode text) (encode text ++ rest) := by
  refine ⟨wellFormed_encode text, List.prefix_append .., ?_⟩
  intro other wellFormed leads
  obtain ⟨longer, rfl⟩ := wellFormed_iff.1 wellFormed
  rcases List.prefix_or_prefix_of_prefix leads (List.prefix_append (encode text) rest) with
    within | ⟨more, whole⟩
  · exact within.length_le
  · obtain ⟨u, rfl, rfl⟩ := exists_append_of_encode_append whole
    cases u with
    | nil => simp
    | cons c u =>
        rw [encode_append, List.prefix_append_right_inj, encode_cons] at leads
        exact absurd ((List.prefix_append ..).trans leads) (blocked c)

/-! ## Beginnings of a sequence -/

theorem Lead.low_le_high {b : UInt8} {lead : Lead} (found : ofByte? b = some lead) :
    lead.low ≤ lead.high := by
  rcases ofByte?_eq_some_iff.1 found with ⟨-, -, rfl⟩ | ⟨-, -, rfl⟩ | ⟨-, -, rfl⟩ <;> grind

theorem Phase.Begun.le {bits seen following : Nat} {low high : UInt8} {begun : List UInt8}
    (after : Begun (.inside bits seen following low high) begun) : low ≤ high := by
  generalize phase : Phase.inside bits seen following low high = p at after
  cases after with
  | boundary => cases phase
  | lead found =>
      cases phase
      exact Lead.low_le_high found
  | more =>
      cases phase
      decide

theorem Phase.Begun.beginsOnly {bits seen following : Nat} {low high : UInt8} {begun : List UInt8}
    (after : Begun (.inside bits seen (following + 1) low high) begun) : BeginsOnly begun := by
  induction following generalizing bits seen low high begun with
  | zero =>
      have whole := after.encodeChar_last ⟨UInt8.le_refl low, after.le⟩
      refine ⟨Char.ofNat (bits * 64 + low.toNat % 64), ⟨[low], whole.symm⟩, ?_⟩
      rw [whole]
      simp
  | succ following ih =>
      obtain ⟨c, leads, -⟩ := ih (after.more ⟨UInt8.le_refl low, after.le⟩)
      refine ⟨c, (List.prefix_append ..).trans leads, ?_⟩
      rintro rfl
      have length := leads.length_le
      rw [List.length_append, List.length_singleton] at length
      omega

/-! ## Refusals -/

/-- What stands where the decoder gets stuck, and what it says. -/
inductive Stuck : List UInt8 → Defect → Prop
  | incomplete {begun : List UInt8} (nonempty : begun ≠ []) (begins : BeginsOnly begun) :
      Stuck begun .incomplete
  | invalid {begun : List UInt8} {b : UInt8} (rest : List UInt8)
      (begins : begun = [] ∨ BeginsOnly begun) (broken : ¬ Begins (begun ++ [b])) :
      Stuck (begun ++ b :: rest) (.invalid (max 1 begun.length))

namespace Decoder

theorem step_error {d : Decoder} {before : List UInt8} {b : UInt8} {m : Malformed}
    (after : d.After before) (refused : d.step b = .error m) :
    ∃ begun, before = encode d.text.reverse ++ begun ∧ (begun = [] ∨ BeginsOnly begun) ∧
      m = ⟨(encode d.text.reverse).length, .invalid (max 1 begun.length)⟩ := by
  obtain ⟨⟨begun, started, rfl⟩, index⟩ := after
  obtain ⟨i, phase, text⟩ := d
  dsimp only at started index ⊢
  refine ⟨begun, rfl, ?_⟩
  rw [← index]
  cases phase with
  | boundary =>
      cases started
      refine ⟨.inl rfl, ?_⟩
      simp only [step] at refused
      split at refused
      · cases refused
      · split at refused <;> cases refused
        rfl
  | inside bits seen following low high =>
      obtain ⟨length, positive, more, -⟩ := started.length_le
      obtain ⟨following, rfl⟩ := Nat.exists_eq_add_of_le' more
      refine ⟨.inr started.beginsOnly, ?_⟩
      simp only [step] at refused
      split at refused
      · split at refused <;> cases refused
      · cases refused
        rw [length, Nat.max_eq_right positive]

theorem run_error {d : Decoder} {bytes : List UInt8} {m : Malformed}
    (refused : d.run bytes = .error m) :
    ∃ front b rest d', bytes = front ++ b :: rest ∧ d.run front = .ok d' ∧
      d'.step b = .error m := by
  induction bytes generalizing d with
  | nil => cases refused
  | cons b bytes ih =>
      rw [run] at refused
      cases taken : d.step b with
      | error m' =>
          rw [taken] at refused
          cases refused
          exact ⟨[], b, bytes, d, rfl, rfl, taken⟩
      | ok next =>
          rw [taken] at refused
          obtain ⟨front, a, rest, d', rfl, ran, last⟩ := ih refused
          exact ⟨b :: front, a, rest, d', rfl, by rw [run, taken]; exact ran, last⟩

end Decoder

theorem not_begins_of_step_error {text : List Char} {begun : List UInt8} {b : UInt8} {d : Decoder}
    {m : Malformed} (ran : Decoder.start.run (encode text ++ begun) = .ok d)
    (refused : d.step b = .error m) : ¬ Begins (begun ++ [b]) := by
  rintro ⟨c, rest, whole⟩
  -- the decoder would have gone on to the end of that character
  have leads : encode text ++ begun ++ [b] <+: encode (text ++ [c]) := by
    refine ⟨rest, ?_⟩
    rw [encode_append, encode_cons, encode_nil, List.append_nil, ← whole]
    simp
  obtain ⟨d', taken⟩ := Decoder.exists_run_of_prefix leads
  rw [Decoder.run_append, ran] at taken
  simp only [Except.bind, Decoder.run, refused] at taken
  cases taken

theorem decode_error {bytes : List UInt8} {m : Malformed} (refused : decode bytes = .error m) :
    ∃ text rest, bytes = encode text ++ rest ∧ m.index = (encode text).length ∧
      Stuck rest m.defect := by
  rw [decode] at refused
  -- the decoder refuses a byte, or the end within a sequence
  cases ran : Decoder.start.run bytes with
  | error m' =>
      rw [ran] at refused
      cases refused
      obtain ⟨front, b, rest, d, rfl, taken, step⟩ := Decoder.run_error ran
      have after := Decoder.run_after Decoder.start_after front taken
      rw [List.nil_append] at after
      obtain ⟨begun, rfl, begins, rfl⟩ := Decoder.step_error after step
      exact ⟨d.text.reverse, begun ++ b :: rest, List.append_assoc .., rfl,
        .invalid rest begins (not_begins_of_step_error taken step)⟩
  | ok d =>
      rw [ran] at refused
      obtain ⟨⟨begun, started, whole⟩, index⟩ := Decoder.run_after Decoder.start_after bytes ran
      simp only [Except.bind, Decoder.finish] at refused
      cases phase : d.phase with
      | boundary =>
          rw [phase] at refused
          cases refused
      | inside =>
          rw [phase] at refused started
          cases refused
          obtain ⟨length, positive, more, -⟩ := started.length_le
          obtain ⟨following, rfl⟩ := Nat.exists_eq_add_of_le' more
          have nonempty : begun ≠ [] := List.ne_nil_of_length_pos (by omega)
          exact ⟨d.text.reverse, begun, whole, index, .incomplete nonempty started.beginsOnly⟩

/-! ## What stands at a refusal -/

theorem Begins.of_prefix {bytes longer : List UInt8} (leads : bytes <+: longer)
    (begins : Begins longer) : Begins bytes := by
  obtain ⟨c, whole⟩ := begins
  exact ⟨c, leads.trans whole⟩

theorem BeginsOnly.begins {bytes : List UInt8} (begins : BeginsOnly bytes) : Begins bytes := by
  obtain ⟨c, leads, -⟩ := begins
  exact ⟨c, leads⟩

theorem not_begins_ascii {begun : List UInt8} (nonempty : begun ≠ []) {b : UInt8}
    (ascii : b.toNat < 0x80) : ¬ Begins (begun ++ [b]) := by
  rintro ⟨c, leads⟩
  have member : b ∈ String.utf8EncodeChar c := leads.subset (by simp)
  by_cases wide : 0x80 ≤ c.toNat
  · have high := byte_encodeChar_wide wide member
    omega
  · have positive := List.length_pos_iff.2 nonempty
    have length := leads.length_le
    rw [encodeChar_ascii (by omega), List.length_append, List.length_singleton,
      List.length_singleton] at length
    omega

section Broken

variable {begun : List UInt8} {b : UInt8} (begins : begun = [] ∨ BeginsOnly begun)
  (broken : ¬ Begins (begun ++ [b])) (rest : List UInt8)
include broken

theorem longer_of_begins {other : List UInt8} (more : Begins other)
    (leads : other <+: begun ++ b :: rest) : other <+: begun := by
  have whole : begun ++ b :: rest = begun ++ [b] ++ rest := by simp
  rw [whole] at leads
  rcases List.prefix_or_prefix_of_prefix leads (List.prefix_append (begun ++ [b]) rest) with
    within | beyond
  · rcases List.prefix_concat_iff.1 within with rfl | within
    · exact absurd more broken
    · exact within
  · exact absurd (more.of_prefix beyond) broken

include begins

theorem blocked_of_broken : Blocked (begun ++ b :: rest) := by
  intro c char
  have within := longer_of_begins broken rest ⟨c, List.prefix_rfl⟩ char
  rcases begins with rfl | begins
  · exact String.utf8EncodeChar_ne_nil (List.prefix_nil.1 within)
  · exact begins.blocked c within

theorem longest_of_broken : Longest Begins begun (begun ++ b :: rest) := by
  refine ⟨?_, List.prefix_append .., ?_⟩
  · rcases begins with rfl | begins
    · exact ⟨'a', List.nil_prefix⟩
    · exact begins.begins
  · intro other more leads
    exact (longer_of_begins broken rest more leads).length_le

end Broken

namespace Stuck

variable {rest : List UInt8} {defect : Defect} (stuck : Stuck rest defect)
include stuck

theorem blocked : Blocked rest := by
  cases stuck with
  | incomplete _ begins => exact begins.blocked
  | invalid rest begins broken => exact blocked_of_broken begins broken rest

theorem exists_longest : ∃ begun, Longest Begins begun rest ∧
    (defect = .incomplete ∨ defect = .invalid (max 1 begun.length)) := by
  cases stuck with
  | incomplete _ begins =>
      exact ⟨rest, ⟨begins.begins, List.prefix_rfl, fun _ _ leads => leads.length_le⟩, .inl rfl⟩
  | @invalid begun b rest begins broken =>
      exact ⟨begun, longest_of_broken begins broken rest, .inr rfl⟩

theorem incomplete_iff : defect = .incomplete ↔ BeginsOnly rest := by
  cases stuck with
  | incomplete _ begins => exact ⟨fun _ => begins, fun _ => rfl⟩
  | @invalid begun b rest begins broken =>
      refine ⟨nofun, ?_⟩
      intro whole
      have leads : begun ++ [b] <+: begun ++ b :: rest := ⟨rest, List.append_assoc ..⟩
      exact absurd (whole.begins.of_prefix leads) broken

theorem ne_nil : rest ≠ [] := by
  cases stuck with
  | incomplete nonempty => exact nonempty
  | invalid => simp

theorem append {tail : List UInt8} (ascii : ∀ b ∈ tail.head?, b.toNat < 0x80) :
    ∃ later, Stuck (rest ++ tail) later ∧ (defect = .incomplete ∨ later = defect) := by
  cases stuck with
  | incomplete nonempty begins =>
      -- a sequence that breaks off is a broken one as soon as anything follows
      cases tail with
      | nil => exact ⟨.incomplete, by simpa using .incomplete nonempty begins, .inl rfl⟩
      | cons b tail =>
          exact ⟨_, .invalid tail (.inr begins) (not_begins_ascii nonempty (ascii b rfl)), .inl rfl⟩
  | invalid rest begins broken =>
      refine ⟨_, ?_, .inr rfl⟩
      rw [List.append_assoc]
      exact .invalid (rest ++ tail) begins broken

end Stuck

theorem Longest.length_le_three {begun bytes : List UInt8} (longest : Longest Begins begun bytes)
    (blocked : Blocked bytes) : begun.length ≤ 3 := by
  obtain ⟨c, leads⟩ := longest.holds
  have other : begun ≠ String.utf8EncodeChar c := by
    rintro rfl
    exact blocked c longest.leads
  have shorter : begun.length < (String.utf8EncodeChar c).length :=
    Nat.lt_of_le_of_ne leads.length_le (mt leads.eq_of_length other)
  have four := Char.utf8Size_le_four c
  rw [String.length_utf8EncodeChar] at shorter
  omega

end BracketTally.Utf8
