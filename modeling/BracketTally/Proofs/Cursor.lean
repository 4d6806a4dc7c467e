import BracketTally.Proofs.Literals

namespace BracketTally

/-! ## Rules -/

def Delimiter.opening? (text : List Char) : Option Delimiter :=
  [⟨.single, .triple⟩, ⟨.double, .triple⟩, ⟨.single, .simple⟩, ⟨.double, .simple⟩].find?
    fun d : Delimiter => d.chars.isPrefixOf text

def codeWeight : Char → Tally
  | '{' => ⟨1, 0, 0⟩
  | '}' => ⟨-1, 0, 0⟩
  | '(' => ⟨0, 1, 0⟩
  | ')' => ⟨0, -1, 0⟩
  | '[' => ⟨0, 0, 1⟩
  | ']' => ⟨0, 0, -1⟩
  | _ => 0

def Mode.rule (mode : Mode) (c : Char) (rest : List Char) : Move :=
  match mode with
  | .code =>
      match Delimiter.opening? (c :: rest) with
      | some d => ⟨d.length - 1, .literal d, 0⟩
      | none => ⟨0, .code, codeWeight c⟩
  | .literal d =>
      if d.extent = .simple ∧ c = '\\' then ⟨1, .literal d, 0⟩
      else if d.chars.isPrefixOf (c :: rest) then ⟨d.length - 1, .code, 0⟩
      else ⟨0, .literal d, 0⟩

def Mode.scanText (mode : Mode) : List Char → Scan
  | [] => ⟨mode, 0⟩
  | c :: rest =>
      let m := mode.rule c rest
      let later := m.mode.scanText (rest.drop m.beyond)
      ⟨later.mode, m.tally + later.tally⟩
termination_by text => text.length
decreasing_by
  rw [List.length_drop, List.length_cons]
  omega

/-! ## The rule that applies -/

/-- What is known of the characters at the cursor, for each of the moves that it can make. -/
inductive Rule : Mode → Char → List Char → Move → Prop
  | code {c : Char} {rest : List Char} (plain : ∀ q : Quote, c ≠ q.symbol) :
      Rule .code c rest ⟨0, .code, codeWeight c⟩
  | opening {d : Delimiter} {c : Char} {rest : List Char} (opens : d.chars <+: c :: rest)
      (single : d.extent = .simple → ¬ Delimiter.chars ⟨d.quote, .triple⟩ <+: c :: rest) :
      Rule .code c rest ⟨d.length - 1, .literal d, 0⟩
  | escape {q : Quote} {rest : List Char} :
      Rule (.literal ⟨q, .simple⟩) '\\' rest ⟨1, .literal ⟨q, .simple⟩, 0⟩
  | closing {d : Delimiter} {c : Char} {rest : List Char} (closes : d.chars <+: c :: rest) :
      Rule (.literal d) c rest ⟨d.length - 1, .code, 0⟩
  | interior {d : Delimiter} {c : Char} {rest : List Char}
      (unescaped : d.extent = .simple → c ≠ '\\') (stays : ¬ d.chars <+: c :: rest) :
      Rule (.literal d) c rest ⟨0, .literal d, 0⟩

namespace Delimiter

theorem chars_simple_prefix_cons_iff {q : Quote} {c : Char} {text : List Char} :
    chars ⟨q, .simple⟩ <+: c :: text ↔ Glyph.ofChar c = .quote q := by
  rw [chars_simple, List.cons_prefix_cons, Glyph.ofChar_eq_quote_iff, eq_comm]
  simp

theorem chars_prefix_cons {d : Delimiter} {c : Char} {text : List Char}
    (starts : d.chars <+: c :: text) : c = d.quote.symbol ∧ d.length - 1 ≤ text.length := by
  obtain ⟨inner, same⟩ := starts
  obtain ⟨q, _ | _⟩ := d <;> cases same
  · exact ⟨rfl, Nat.zero_le _⟩
  · exact ⟨rfl, Nat.le_add_left 2 inner.length⟩

theorem opening?_eq_some {d : Delimiter} {text : List Char} (found : opening? text = some d) :
    d.chars <+: text ∧ (d.extent = .simple → ¬ chars ⟨d.quote, .triple⟩ <+: text) := by
  simp only [opening?, List.find?_cons_eq_some, List.find?_nil, List.isPrefixOf_iff_prefix,
    Bool.not_eq_true', ← Bool.not_eq_true] at found
  rcases found with ⟨opens, rfl⟩ | ⟨single, ⟨opens, rfl⟩ | ⟨double, ⟨opens, rfl⟩ | ⟨-, rest⟩⟩⟩
  · exact ⟨opens, nofun⟩
  · exact ⟨opens, nofun⟩
  · exact ⟨opens, fun _ => single⟩
  · simp only [reduceCtorEq, and_false, or_false] at rest
    obtain ⟨opens, rfl⟩ := rest
    exact ⟨opens, fun _ => double⟩

theorem opening?_eq_none {c : Char} {text : List Char} (none : opening? (c :: text) = none)
    (q : Quote) : c ≠ q.symbol := by
  rintro rfl
  have opens : chars ⟨q, .simple⟩ <+: q.symbol :: text := List.prefix_append _ text
  rw [← List.isPrefixOf_iff_prefix] at opens
  cases q <;> simp_all [opening?]

end Delimiter

theorem Mode.rule_applies (mode : Mode) (c : Char) (rest : List Char) :
    Rule mode c rest (mode.rule c rest) := by
  cases mode with
  | code =>
      rw [rule]
      split
      case h_1 d found =>
        obtain ⟨opens, single⟩ := Delimiter.opening?_eq_some found
        exact .opening opens single
      case h_2 none => exact .code (Delimiter.opening?_eq_none none)
  | literal d =>
      rw [rule]
      split
      case isTrue escape =>
        obtain ⟨q, extent⟩ := d
        obtain ⟨rfl, rfl⟩ := escape
        exact .escape
      case isFalse unescaped =>
        split
        case isTrue closes => exact .closing (List.isPrefixOf_iff_prefix.1 closes)
        case isFalse stays =>
          exact .interior (fun simple letter => unescaped ⟨simple, letter⟩)
            (mt List.isPrefixOf_iff_prefix.2 stays)

/-! ## Rules and moves -/

theorem weight_ofChar (c : Char) : (Glyph.ofChar c).weight = codeWeight c := by
  unfold codeWeight
  split
  case h_7 curly curly' round round' square square' =>
    cases glyph : Glyph.ofChar c with
    | bracket b =>
        obtain rfl := Glyph.ofChar_eq_bracket_iff.1 glyph
        obtain ⟨_ | _, _ | _ | _⟩ := b <;> simp_all [Bracket.symbol, Bracket.code]
    | quote q | backslash | other => rfl
  all_goals rfl

namespace Rule

variable {mode : Mode} {c : Char} {rest : List Char} {m : Move}

theorem eq_move (applies : Rule mode c rest m) :
    mode.move (Glyph.ofChar c) (charGlyphs rest) = m := by
  cases applies with
  | code plain =>
      have unquoted (q : Quote) : Glyph.ofChar c ≠ .quote q := mt Glyph.ofChar_eq_quote_iff.1 (plain q)
      rw [Mode.move_code unquoted, weight_ofChar]
  | @opening d _ _ opens single =>
      obtain ⟨q, _ | _⟩ := d
      · have mark := Delimiter.chars_simple_prefix_cons_iff.1 opens
        have alone := single rfl
        rw [Delimiter.chars_triple_prefix_cons_iff] at alone
        rw [mark, Mode.move_code_quote, if_neg fun pair => alone ⟨mark, pair⟩]
        rfl
      · obtain ⟨mark, pair⟩ := Delimiter.chars_triple_prefix_cons_iff.1 opens
        rw [mark, Mode.move_code_quote, if_pos pair]
        rfl
  | escape => rfl
  | @closing d _ _ closes =>
      obtain ⟨q, _ | _⟩ := d
      · have unescaped : Glyph.quote q ≠ .backslash := nofun
        rw [Delimiter.chars_simple_prefix_cons_iff.1 closes, Mode.move_simple unescaped, if_pos rfl]
        rfl
      · rw [Mode.move_triple, if_pos (Delimiter.chars_triple_prefix_cons_iff.1 closes)]
        rfl
  | @interior d _ _ unescaped stays =>
      obtain ⟨q, _ | _⟩ := d
      · rw [Mode.move_simple (mt Glyph.ofChar_eq_backslash_iff.1 (unescaped rfl)),
          if_neg (mt Delimiter.chars_simple_prefix_cons_iff.2 stays)]
      · rw [Mode.move_triple, if_neg (mt Delimiter.chars_triple_prefix_cons_iff.2 stays)]

theorem eq_rule (applies : Rule mode c rest m) : mode.rule c rest = m := by
  rw [← applies.eq_move, (mode.rule_applies c rest).eq_move]

end Rule

/-! ## Passing and dropping -/

theorem drop_charGlyphs (n : Nat) (text : List Char) :
    (charGlyphs text).drop n = charGlyphs (text.drop n) :=
  List.map_drop.symm

theorem length_charGlyphs (text : List Char) : (charGlyphs text).length = text.length :=
  List.length_map _

namespace Walk

theorem run_drop (mode : Mode) (tally : Tally) (n : Nat) (line : List Glyph) :
    run ⟨mode, tally, n⟩ line = run ⟨mode, tally, n - line.length⟩ (line.drop n) := by
  induction n generalizing line with
  | zero => rw [Nat.zero_sub, List.drop_zero]
  | succ n ih =>
      cases line with
      | nil => rfl
      | cons g line =>
          rw [run, List.length_cons, Nat.succ_sub_succ, List.drop_succ_cons, ← ih]
          rfl

theorem toScan_run_drop (mode : Mode) (tally : Tally) (n : Nat) (line : List Glyph) :
    (run ⟨mode, tally, n⟩ line).toScan = (run ⟨mode, tally, 0⟩ (line.drop n)).toScan := by
  -- a cursor past the end leaves the same scan as one at the end
  rw [run_drop]
  rcases Nat.le_total line.length n with past | within
  · rw [List.drop_eq_nil_of_le past]
    rfl
  · rw [Nat.sub_eq_zero_of_le within]

theorem run_rule (mode : Mode) (tally : Tally) (c : Char) (rest : List Char) :
    run ⟨mode, tally, 0⟩ (charGlyphs (c :: rest)) =
      run ⟨(mode.rule c rest).mode, tally + (mode.rule c rest).tally, (mode.rule c rest).beyond⟩
        (charGlyphs rest) := by
  rw [charGlyphs_cons, run, step, (mode.rule_applies c rest).eq_move]

theorem toScan_run (mode : Mode) (tally : Tally) (text : List Char) :
    (run ⟨mode, tally, 0⟩ (charGlyphs text)).toScan =
      ⟨(mode.scanText text).mode, tally + (mode.scanText text).tally⟩ := by
  induction mode, text using Mode.scanText.induct generalizing tally with
  | case1 mode =>
      rw [Mode.scanText, Tally.add_zero]
      rfl
  | case2 mode c rest m ih =>
      rw [run_rule, toScan_run_drop, drop_charGlyphs, ih, Mode.scanText, Tally.add_assoc]

end Walk

/-! ## Bytes and characters -/

namespace Mode

theorem scan_eq_scanChars (mode : Mode) (line : String) : mode.scan line = mode.scanChars line := by
  have ready : (Walk.start mode).Ready (charGlyphs line.toList) := .inl (Nat.zero_le 1)
  rw [scan, scanChars, Walk.run_byteGlyphs ready]

theorem scanChars_eq (mode : Mode) (line : String) :
    mode.scanChars line = mode.scanText line.toList := by
  rw [scanChars, Walk.start, Walk.toScan_run, Tally.zero_add]

/-- A walk over bytes and the cursor over characters end in one mode and with one tally. -/
theorem scan_eq_scanText (mode : Mode) (line : String) :
    mode.scan line = mode.scanText line.toList := by
  rw [scan_eq_scanChars, scanChars_eq]

end Mode

end BracketTally
