import BracketTally.Text.Utf8

namespace BracketTally.Utf8

/-! ## Sequences in numbers -/

theorem Lead.ofByte?_eq_some_iff {b : UInt8} {lead : Lead} :
    Lead.ofByte? b = some lead ↔
      (0xC2 ≤ b.toNat ∧ b.toNat < 0xE0 ∧ lead = ⟨b.toNat % 32, 1, 0x80, 0xBF⟩) ∨
      (0xE0 ≤ b.toNat ∧ b.toNat < 0xF0 ∧ lead = ⟨b.toNat % 16, 2,
        if b.toNat = 0xE0 then 0xA0 else 0x80, if b.toNat = 0xED then 0x9F else 0xBF⟩) ∨
      (0xF0 ≤ b.toNat ∧ b.toNat < 0xF5 ∧ lead = ⟨b.toNat % 8, 3,
        if b.toNat = 0xF0 then 0x90 else 0x80, if b.toNat = 0xF4 then 0x8F else 0xBF⟩) := by
  simp only [Lead.ofByte?, UInt8.lt_iff_toNat_lt, ← UInt8.toNat_inj, UInt8.toNat_ofNat]
  grind

theorem toNat_ofNat {n : Nat} (valid : n.isValidChar) : (Char.ofNat n).toNat = n := by
  rw [Char.ofNat, dif_pos valid]
  rfl

theorem encodeChar_one {n : Nat} (high : n < 0x80) :
    String.utf8EncodeChar (Char.ofNat n) = [UInt8.ofNat n] := by
  have value := toNat_ofNat (n := n) (.inl (by omega))
  rw [String.utf8EncodeChar, Char.toNat_val, value, if_pos (by omega)]

theorem encodeChar_two {n : Nat} (low : 0x80 ≤ n) (high : n < 0x800) :
    String.utf8EncodeChar (Char.ofNat n) =
      [UInt8.ofNat (n / 64 + 0xC0), UInt8.ofNat (n % 64 + 0x80)] := by
  have value := toNat_ofNat (n := n) (.inl (by omega))
  rw [String.utf8EncodeChar, Char.toNat_val, value, if_neg (by omega), if_pos (by omega),
    Nat.mod_eq_of_lt (show n / 64 < 32 by omega)]

theorem encodeChar_three {n : Nat} (low : 0x800 ≤ n) (high : n < 0x10000)
    (valid : n.isValidChar) :
    String.utf8EncodeChar (Char.ofNat n) =
      [UInt8.ofNat (n / 4096 + 0xE0), UInt8.ofNat (n / 64 % 64 + 0x80),
        UInt8.ofNat (n % 64 + 0x80)] := by
  rw [String.utf8EncodeChar, Char.toNat_val, toNat_ofNat valid, if_neg (by omega),
    if_neg (by omega), if_pos (by omega), Nat.mod_eq_of_lt (show n / 4096 < 16 by omega)]

theorem encodeChar_four {n : Nat} (low : 0x10000 ≤ n) (valid : n.isValidChar) :
    String.utf8EncodeChar (Char.ofNat n) =
      [UInt8.ofNat (n / 262144 + 0xF0), UInt8.ofNat (n / 4096 % 64 + 0x80),
        UInt8.ofNat (n / 64 % 64 + 0x80), UInt8.ofNat (n % 64 + 0x80)] := by
  have high : n < 0x110000 := by
    rcases valid with h | h <;> omega
  rw [String.utf8EncodeChar, Char.toNat_val, toNat_ofNat valid, if_neg (by omega),
    if_neg (by omega), if_neg (by omega), Nat.mod_eq_of_lt (show n / 262144 < 8 by omega)]

theorem length_le_length_encode (text : List Char) : text.length ≤ (encode text).length := by
  induction text with
  | nil => exact Nat.le_refl 0
  | cons c text ih =>
      have positive := List.length_pos_iff.2 (@String.utf8EncodeChar_ne_nil c)
      rw [encode_cons, List.length_append, List.length_cons]
      omega

theorem encode_eq_nil_iff {text : List Char} : encode text = [] ↔ text = [] := by
  constructor
  · intro none
    have length := length_le_length_encode text
    rw [none] at length
    exact List.eq_nil_of_length_eq_zero (Nat.le_zero.1 length)
  · rintro rfl
    rfl

theorem toNat_byte {n : Nat} (small : n < 256) : (UInt8.ofNat n).toNat = n :=
  UInt8.toNat_ofNat_of_lt' small

/-! ## ASCII -/

theorem encodeChar_ascii {c : Char} (ascii : c.toNat < 0x80) :
    String.utf8EncodeChar c = [UInt8.ofNat c.toNat] := by
  have alone := encodeChar_one ascii
  rwa [Char.ofNat_toNat] at alone

theorem byte_encodeChar_wide {c : Char} (wide : 0x80 ≤ c.toNat) {b : UInt8}
    (member : b ∈ String.utf8EncodeChar c) : 0x80 ≤ b.toNat := by
  rw [String.utf8EncodeChar, Char.toNat_val, if_neg (by omega)] at member
  repeat' split at member
  all_goals
    simp only [List.mem_cons, List.not_mem_nil, or_false] at member
    rcases member with rfl | rfl | rfl | rfl <;> rw [toNat_byte (by omega)] <;> omega

theorem mem_encodeChar_ascii {a c : Char} (ascii : a.toNat < 0x80) :
    UInt8.ofNat a.toNat ∈ String.utf8EncodeChar c ↔ c = a := by
  constructor
  · intro member
    have value : (UInt8.ofNat a.toNat).toNat = a.toNat := toNat_byte (by omega)
    by_cases wide : 0x80 ≤ c.toNat
    · have high := byte_encodeChar_wide wide member
      omega
    · rw [encodeChar_ascii (by omega), List.mem_singleton] at member
      rw [member, toNat_byte (by omega)] at value
      exact Char.toNat_inj.1 value
  · rintro rfl
    rw [encodeChar_ascii ascii]
    exact List.mem_singleton_self _

theorem mem_encode_ascii {a : Char} (ascii : a.toNat < 0x80) {text : List Char} :
    UInt8.ofNat a.toNat ∈ encode text ↔ a ∈ text := by
  simp only [encode, List.mem_flatMap, mem_encodeChar_ascii ascii, exists_eq_right]

theorem getLast?_encode_concat (text : List Char) (c : Char) :
    (encode (text ++ [c])).getLast? = (String.utf8EncodeChar c).getLast? := by
  rw [encode_append, encode_cons, encode_nil, List.append_nil, List.getLast?_append]
  cases last : (String.utf8EncodeChar c).getLast? with
  | none => exact absurd (List.getLast?_eq_none_iff.1 last) String.utf8EncodeChar_ne_nil
  | some b => rfl

theorem getLast?_encode_ascii {a : Char} (ascii : a.toNat < 0x80) {text : List Char} :
    (encode text).getLast? = some (UInt8.ofNat a.toNat) ↔ text.getLast? = some a := by
  rcases List.eq_nil_or_concat text with rfl | ⟨front, c, rfl⟩
  · simp only [encode_nil, List.getLast?_nil, reduceCtorEq]
  · rw [List.concat_eq_append, getLast?_encode_concat, List.getLast?_concat, Option.some.injEq]
    constructor
    · intro last
      exact (mem_encodeChar_ascii ascii).1 (List.mem_of_getLast? last)
    · rintro rfl
      rw [encodeChar_ascii ascii]
      rfl

/-! ## A character read back -/

namespace Decoder

theorem run_cons_ok {d d' : Decoder} {b : UInt8} (taken : d.step b = .ok d') (rest : List UInt8) :
    d.run (b :: rest) = d'.run rest := by
  rw [run, taken]

theorem step_ascii {i n : Nat} {t : List Char} (high : n < 0x80) :
    step ⟨i, .boundary, t⟩ (UInt8.ofNat n) = .ok ⟨i + 1, .boundary, Char.ofNat n :: t⟩ := by
  have small : (UInt8.ofNat n).toNat = n := toNat_byte (by omega)
  have ascii : UInt8.ofNat n < 0x80 := by
    rw [UInt8.lt_iff_toNat_lt, small]
    exact high
  simp only [step, if_pos ascii, small]

theorem step_lead {i : Nat} {t : List Char} {b : UInt8} {lead : Lead}
    (found : Lead.ofByte? b = some lead) :
    step ⟨i, .boundary, t⟩ b = .ok ⟨i, .inside lead.bits 1 lead.following lead.low lead.high, t⟩ := by
  have above : ¬ b < 0x80 := by
    rw [UInt8.lt_iff_toNat_lt]
    rcases Lead.ofByte?_eq_some_iff.1 found with h | h | h <;> simp only [UInt8.toNat_ofNat] <;> omega
  simp only [step, if_neg above, found]

section Inside

variable {i bits seen following n : Nat} {low high : UInt8} {t : List Char}

theorem step_inside (above : low.toNat ≤ n % 64 + 0x80) (below : n % 64 + 0x80 ≤ high.toNat) :
    step ⟨i, .inside bits seen following low high, t⟩ (UInt8.ofNat (n % 64 + 0x80)) =
      if following ≤ 1 then .ok ⟨i + seen + 1, .boundary, Char.ofNat (bits * 64 + n % 64) :: t⟩
      else .ok ⟨i, .inside (bits * 64 + n % 64) (seen + 1) (following - 1) 0x80 0xBF, t⟩ := by
  have small : (UInt8.ofNat (n % 64 + 0x80)).toNat = n % 64 + 0x80 := toNat_byte (by omega)
  have fits : low ≤ UInt8.ofNat (n % 64 + 0x80) ∧ UInt8.ofNat (n % 64 + 0x80) ≤ high := by
    rw [UInt8.le_iff_toNat_le, UInt8.le_iff_toNat_le, small]
    exact ⟨above, below⟩
  have same : (n % 64 + 0x80) % 64 = n % 64 := by omega
  simp only [step, if_pos fits, small, same]

theorem step_more (above : low.toNat ≤ n % 64 + 0x80) (below : n % 64 + 0x80 ≤ high.toNat) :
    step ⟨i, .inside bits seen (following + 2) low high, t⟩ (UInt8.ofNat (n % 64 + 0x80)) =
      .ok ⟨i, .inside (bits * 64 + n % 64) (seen + 1) (following + 1) 0x80 0xBF, t⟩ := by
  rw [step_inside above below, if_neg (by omega)]
  rfl

theorem step_last {m : Nat} (above : low.toNat ≤ n % 64 + 0x80)
    (below : n % 64 + 0x80 ≤ high.toNat) (value : bits * 64 + n % 64 = m) :
    step ⟨i, .inside bits seen 1 low high, t⟩ (UInt8.ofNat (n % 64 + 0x80)) =
      .ok ⟨i + seen + 1, .boundary, Char.ofNat m :: t⟩ := by
  rw [step_inside above below, if_pos (Nat.le_refl 1), value]

end Inside

theorem run_encodeChar (i : Nat) (t : List Char) (c : Char) (rest : List UInt8) :
    run ⟨i, .boundary, t⟩ (String.utf8EncodeChar c ++ rest) =
      run ⟨i + (String.utf8EncodeChar c).length, .boundary, c :: t⟩ rest := by
  obtain ⟨n, valid, rfl⟩ : ∃ n, n.isValidChar ∧ c = Char.ofNat n :=
    ⟨c.toNat, c.valid, (Char.ofNat_toNat c).symm⟩
  have scalar : n < 0xD800 ∨ 0xDFFF < n ∧ n < 0x110000 := valid
  by_cases one : n < 0x80
  · rw [encodeChar_one one, List.singleton_append, run_cons_ok (step_ascii one)]
    rfl
  by_cases two : n < 0x800
  · have lead : Lead.ofByte? (UInt8.ofNat (n / 64 + 0xC0)) = some ⟨n / 64, 1, 0x80, 0xBF⟩ := by
      rw [Lead.ofByte?_eq_some_iff, toNat_byte (by omega)]
      grind
    rw [encodeChar_two (by omega) two, List.cons_append, run_cons_ok (step_lead lead),
      List.singleton_append, run_cons_ok (step_last (m := n) (by simp) (by simp; omega)
        (Nat.div_add_mod' n 64))]
    rfl
  by_cases three : n < 0x10000
  · let low : UInt8 := if n / 4096 = 0 then 0xA0 else 0x80
    let high : UInt8 := if n / 4096 = 13 then 0x9F else 0xBF
    have lead : Lead.ofByte? (UInt8.ofNat (n / 4096 + 0xE0)) = some ⟨n / 4096, 2, low, high⟩ := by
      rw [Lead.ofByte?_eq_some_iff, toNat_byte (by omega)]
      grind
    have above : low.toNat ≤ n / 64 % 64 + 0x80 := by
      unfold low
      split <;> simp; omega
    have below : n / 64 % 64 + 0x80 ≤ high.toNat := by
      unfold high
      split <;> simp <;> omega
    rw [encodeChar_three (by omega) three valid, List.cons_append, run_cons_ok (step_lead lead),
      List.cons_append, run_cons_ok (step_more above below), List.singleton_append,
      run_cons_ok (step_last (m := n) (by simp) (by simp; omega) (by dsimp only; omega))]
    rfl
  · let low : UInt8 := if n / 262144 = 0 then 0x90 else 0x80
    let high : UInt8 := if n / 262144 = 4 then 0x8F else 0xBF
    have lead : Lead.ofByte? (UInt8.ofNat (n / 262144 + 0xF0)) =
        some ⟨n / 262144, 3, low, high⟩ := by
      rw [Lead.ofByte?_eq_some_iff, toNat_byte (by omega)]
      grind
    have above : low.toNat ≤ n / 4096 % 64 + 0x80 := by
      unfold low
      split <;> simp; omega
    have below : n / 4096 % 64 + 0x80 ≤ high.toNat := by
      unfold high
      split <;> simp <;> omega
    rw [encodeChar_four (by omega) valid, List.cons_append, run_cons_ok (step_lead lead),
      List.cons_append, run_cons_ok (step_more above below), List.cons_append,
      run_cons_ok (step_more (by simp) (by simp; omega)), List.singleton_append,
      run_cons_ok (step_last (m := n) (by simp) (by simp; omega) (by dsimp only; omega))]
    rfl

theorem run_encode (i : Nat) (t text : List Char) (rest : List UInt8) :
    run ⟨i, .boundary, t⟩ (encode text ++ rest) =
      run ⟨i + (encode text).length, .boundary, text.reverse ++ t⟩ rest := by
  induction text generalizing i t with
  | nil => rfl
  | cons c text ih =>
      rw [encode_cons, List.append_assoc, run_encodeChar, ih, List.length_append, Nat.add_assoc,
        List.reverse_cons, List.append_assoc, List.singleton_append]

end Decoder

theorem decode_encode (text : List Char) : decode (encode text) = .ok text := by
  have run := Decoder.run_encode 0 [] text []
  rw [List.append_nil, List.append_nil] at run
  rw [decode, Decoder.start, run]
  simp only [Decoder.run, Except.bind, Decoder.finish, List.reverse_reverse]

/-! ## Bytes that were read -/

inductive Phase.Begun : Phase → List UInt8 → Prop
  | boundary : Begun .boundary []
  | lead {b : UInt8} {bits following : Nat} {low high : UInt8}
      (found : Lead.ofByte? b = some ⟨bits, following, low, high⟩) :
      Begun (.inside bits 1 following low high) [b]
  | more {b : UInt8} {bits seen following : Nat} {low high : UInt8} {begun : List UInt8}
      (before : Begun (.inside bits seen (following + 2) low high) begun)
      (fits : low ≤ b ∧ b ≤ high) :
      Begun (.inside (bits * 64 + b.toNat % 64) (seen + 1) (following + 1) 0x80 0xBF) (begun ++ [b])

theorem Phase.Begun.length_le {bits seen following : Nat} {low high : UInt8} {begun : List UInt8}
    (after : Begun (.inside bits seen following low high) begun) :
    begun.length = seen ∧ 1 ≤ seen ∧ 1 ≤ following ∧ seen + following ≤ 4 := by
  generalize phase : Phase.inside bits seen following low high = p at after
  induction after generalizing bits seen following low high with
  | boundary => cases phase
  | lead found =>
      cases phase
      rcases Lead.ofByte?_eq_some_iff.1 found with h | h | h <;> simp_all
  | more before _ ih =>
      cases phase
      obtain ⟨length, -, -, bound⟩ := ih rfl
      rw [List.length_append, length]
      exact ⟨rfl, by omega, by omega, by omega⟩

theorem ofNat_eq_byte {n : Nat} {b : UInt8} (value : n = b.toNat) : UInt8.ofNat n = b := by
  rw [value, UInt8.ofNat_toNat]

section LastByte

variable {lead second third b : UInt8} {bits : Nat} {low high : UInt8}

theorem Lead.of_one_following (found : ofByte? b = some ⟨bits, 1, low, high⟩) :
    0xC2 ≤ b.toNat ∧ b.toNat < 0xE0 ∧ bits = b.toNat % 32 ∧ low = 0x80 ∧ high = 0xBF := by
  rcases ofByte?_eq_some_iff.1 found with ⟨above, below, same⟩ | ⟨-, -, same⟩ | ⟨-, -, same⟩ <;>
    simp only [Lead.mk.injEq] at same
  · exact ⟨above, below, same.1, same.2.2⟩
  all_goals omega

theorem Lead.of_two_following (found : ofByte? b = some ⟨bits, 2, low, high⟩) :
    0xE0 ≤ b.toNat ∧ b.toNat < 0xF0 ∧ bits = b.toNat % 16 ∧
      low = (if b.toNat = 0xE0 then 0xA0 else 0x80) ∧
      high = (if b.toNat = 0xED then 0x9F else 0xBF) := by
  rcases ofByte?_eq_some_iff.1 found with ⟨-, -, same⟩ | ⟨above, below, same⟩ | ⟨-, -, same⟩ <;>
    simp only [Lead.mk.injEq] at same
  case inr.inl => exact ⟨above, below, same.1, same.2.2⟩
  all_goals omega

theorem Lead.of_three_following (found : ofByte? b = some ⟨bits, 3, low, high⟩) :
    0xF0 ≤ b.toNat ∧ b.toNat < 0xF5 ∧ bits = b.toNat % 8 ∧
      low = (if b.toNat = 0xF0 then 0x90 else 0x80) ∧
      high = (if b.toNat = 0xF4 then 0x8F else 0xBF) := by
  rcases ofByte?_eq_some_iff.1 found with ⟨-, -, same⟩ | ⟨-, -, same⟩ | ⟨above, below, same⟩ <;>
    simp only [Lead.mk.injEq] at same
  case inr.inr => exact ⟨above, below, same.1, same.2.2⟩
  all_goals omega

theorem fits_continuation (fits : 0x80 ≤ b ∧ b ≤ 0xBF) : 0x80 ≤ b.toNat ∧ b.toNat ≤ 0xBF := by
  simpa [UInt8.le_iff_toNat_le] using fits

theorem encodeChar_after_lead (found : Lead.ofByte? lead = some ⟨bits, 1, low, high⟩)
    (fits : low ≤ b ∧ b ≤ high) :
    String.utf8EncodeChar (Char.ofNat (bits * 64 + b.toNat % 64)) = [lead, b] := by
  obtain ⟨above, below, rfl, rfl, rfl⟩ := Lead.of_one_following found
  have last := fits_continuation fits
  rw [encodeChar_two (by omega) (by omega)]
  simp only [List.cons.injEq, and_true]
  exact ⟨ofNat_eq_byte (by omega), ofNat_eq_byte (by omega)⟩

theorem encodeChar_after_second (found : Lead.ofByte? lead = some ⟨bits, 2, low, high⟩)
    (fitsSecond : low ≤ second ∧ second ≤ high) (fits : 0x80 ≤ b ∧ b ≤ 0xBF) :
    String.utf8EncodeChar (Char.ofNat ((bits * 64 + second.toNat % 64) * 64 + b.toNat % 64)) =
      [lead, second, b] := by
  obtain ⟨above, below, rfl, rfl, rfl⟩ := Lead.of_two_following found
  have last := fits_continuation fits
  have range : 0x80 ≤ second.toNat ∧ second.toNat ≤ 0xBF ∧
      (lead.toNat = 0xE0 → 0xA0 ≤ second.toNat) ∧ (lead.toNat = 0xED → second.toNat ≤ 0x9F) := by
    rw [UInt8.le_iff_toNat_le, UInt8.le_iff_toNat_le] at fitsSecond
    split at fitsSecond <;> split at fitsSecond <;> simp at fitsSecond <;> omega
  rw [encodeChar_three (by omega) (by omega) (show _ < 0xD800 ∨ _ by omega)]
  simp only [List.cons.injEq, and_true]
  exact ⟨ofNat_eq_byte (by omega), ofNat_eq_byte (by omega), ofNat_eq_byte (by omega)⟩

theorem encodeChar_after_third (found : Lead.ofByte? lead = some ⟨bits, 3, low, high⟩)
    (fitsSecond : low ≤ second ∧ second ≤ high) (fitsThird : 0x80 ≤ third ∧ third ≤ 0xBF)
    (fits : 0x80 ≤ b ∧ b ≤ 0xBF) :
    String.utf8EncodeChar (Char.ofNat (((bits * 64 + second.toNat % 64) * 64 +
      third.toNat % 64) * 64 + b.toNat % 64)) = [lead, second, third, b] := by
  obtain ⟨above, below, rfl, rfl, rfl⟩ := Lead.of_three_following found
  have last := fits_continuation fits
  have beforeLast := fits_continuation fitsThird
  have range : 0x80 ≤ second.toNat ∧ second.toNat ≤ 0xBF ∧
      (lead.toNat = 0xF0 → 0x90 ≤ second.toNat) ∧ (lead.toNat = 0xF4 → second.toNat ≤ 0x8F) := by
    rw [UInt8.le_iff_toNat_le, UInt8.le_iff_toNat_le] at fitsSecond
    split at fitsSecond <;> split at fitsSecond <;> simp at fitsSecond <;> omega
  rw [encodeChar_four (by omega) (show _ ∨ _ < _ ∧ _ < 0x110000 by omega)]
  simp only [List.cons.injEq, and_true]
  exact ⟨ofNat_eq_byte (by omega), ofNat_eq_byte (by omega), ofNat_eq_byte (by omega),
    ofNat_eq_byte (by omega)⟩

theorem Phase.Begun.encodeChar_last {seen : Nat} {begun : List UInt8}
    (before : Begun (.inside bits seen 1 low high) begun) (fits : low ≤ b ∧ b ≤ high) :
    String.utf8EncodeChar (Char.ofNat (bits * 64 + b.toNat % 64)) = begun ++ [b] := by
  cases before with
  | lead found => exact encodeChar_after_lead found fits
  | more before fitsSecond =>
      cases before with
      | lead found => exact encodeChar_after_second found fitsSecond fits
      | more before fitsThird =>
          cases before with
          | lead found => exact encodeChar_after_third found fitsThird fitsSecond fits
          | more before _ =>
              obtain ⟨-, positive, -, bound⟩ := before.length_le
              omega

end LastByte

/-! ## What a step keeps -/

/-- The decoder after `bytes`: it holds the characters of all but a beginning of one more. -/
structure Decoder.After (d : Decoder) (bytes : List UInt8) : Prop where
  read : ∃ begun, d.phase.Begun begun ∧ bytes = encode d.text.reverse ++ begun
  index : d.index = (encode d.text.reverse).length

namespace Decoder

theorem start_after : start.After [] := ⟨⟨[], .boundary, rfl⟩, rfl⟩

theorem after_char {i : Nat} {text : List Char} {c : Char} {begun : List UInt8} {b : UInt8}
    (index : i = (encode text.reverse).length) (bytes : String.utf8EncodeChar c = begun ++ [b]) :
    After ⟨i + begun.length + 1, .boundary, c :: text⟩ (encode text.reverse ++ begun ++ [b]) := by
  have whole : encode (c :: text).reverse = encode text.reverse ++ begun ++ [b] := by
    rw [List.reverse_cons, encode_append, encode_cons, bytes, encode_nil, List.append_nil,
      List.append_assoc]
  refine ⟨⟨[], .boundary, ?_⟩, ?_⟩
  · rw [whole, List.append_nil]
  · rw [whole, List.length_append, List.length_append, ← index]
    rfl

theorem step_after {d d' : Decoder} {bytes : List UInt8} {b : UInt8} (before : d.After bytes)
    (taken : d.step b = .ok d') : d'.After (bytes ++ [b]) := by
  -- the bytes so far are whole characters and a beginning of one more; a step keeps this
  obtain ⟨⟨begun, started, rfl⟩, index⟩ := before
  obtain ⟨i, phase, text⟩ := d
  dsimp only at started index ⊢
  cases phase with
  | boundary =>
      cases started
      simp only [step] at taken
      split at taken
      case isTrue ascii =>
        cases taken
        have small : b.toNat < 0x80 := UInt8.lt_iff_toNat_lt.1 ascii
        have alone : String.utf8EncodeChar (Char.ofNat b.toNat) = [] ++ [b] := by
          rw [encodeChar_one small, UInt8.ofNat_toNat, List.nil_append]
        exact after_char index alone
      case isFalse =>
        split at taken
        case h_1 lead found =>
          cases taken
          exact ⟨⟨[b], .lead found, by simp⟩, index⟩
        case h_2 => cases taken
  | inside bits seen following low high =>
      obtain ⟨length, -, some_following, -⟩ := started.length_le
      simp only [step] at taken
      split at taken
      case isFalse => cases taken
      case isTrue fits =>
        split at taken
        case isTrue last =>
          cases taken
          obtain rfl : following = 1 := by omega
          rw [← length]
          exact after_char index (started.encodeChar_last fits)
        case isFalse more =>
          cases taken
          obtain ⟨rest, rfl⟩ : ∃ rest, following = rest + 2 := ⟨following - 2, by omega⟩
          exact ⟨⟨begun ++ [b], started.more fits, List.append_assoc ..⟩, index⟩

theorem run_after {d d' : Decoder} {before : List UInt8} (after : d.After before)
    (bytes : List UInt8) (ran : d.run bytes = .ok d') : d'.After (before ++ bytes) := by
  induction bytes generalizing d before with
  | nil =>
      cases ran
      rwa [List.append_nil]
  | cons b bytes ih =>
      rw [run] at ran
      cases step : d.step b with
      | error m =>
          rw [step] at ran
          cases ran
      | ok next =>
          rw [step] at ran
          have later := ih (step_after after step) ran
          rwa [List.append_assoc, List.singleton_append] at later

end Decoder

theorem encode_of_decode {bytes : List UInt8} {text : List Char} (decoded : decode bytes = .ok text) :
    encode text = bytes := by
  rw [decode] at decoded
  cases ran : Decoder.start.run bytes with
  | error m =>
      rw [ran] at decoded
      cases decoded
  | ok d =>
      rw [ran] at decoded
      obtain ⟨⟨begun, started, whole⟩, -⟩ := Decoder.run_after Decoder.start_after bytes ran
      simp only [Except.bind, Decoder.finish] at decoded
      cases phase : d.phase with
      | boundary =>
          rw [phase] at started decoded
          cases started
          cases decoded
          rw [List.nil_append, List.append_nil] at whole
          exact whole.symm
      | inside =>
          rw [phase] at decoded
          cases decoded

theorem decode_eq_ok_iff {bytes : List UInt8} {text : List Char} :
    decode bytes = .ok text ↔ bytes = encode text := by
  constructor
  · intro decoded
    exact (encode_of_decode decoded).symm
  · rintro rfl
    exact decode_encode text

end BracketTally.Utf8
