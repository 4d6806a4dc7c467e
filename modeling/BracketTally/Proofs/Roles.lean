import BracketTally.Proofs.Cursor

namespace BracketTally

/-! ## Roles -/

inductive Role
  | code
  | mark
  | escape
  | escaped
  | interior (q : Quote)
  deriving DecidableEq

namespace Move

def role (m : Move) (before : Mode) : Role :=
  match before, m.mode with
  | .code, .code => .code
  | .literal d, .literal _ => if m.beyond = 0 then .interior d.quote else .escape
  | _, _ => .mark

/-- The role of the characters passed with it. -/
def roleBeyond (m : Move) (before : Mode) : Role :=
  match before, m.mode with
  | .literal _, .literal _ => .escaped
  | _, _ => .mark

theorem roleBeyond_ne_escape (m : Move) (before : Mode) : m.roleBeyond before ≠ .escape := by
  unfold roleBeyond
  split <;> exact Role.noConfusion

end Move

def Mode.meets (mode : Mode) : List Char → List (Role × Char)
  | [] => []
  | c :: rest =>
      let m := mode.rule c rest
      (m.role mode, c) :: (rest.take m.beyond).map (m.roleBeyond mode, ·) ++
        m.mode.meets (rest.drop m.beyond)
termination_by text => text.length
decreasing_by
  rw [List.length_drop, List.length_cons]
  omega

theorem Mode.map_snd_meets (mode : Mode) (text : List Char) :
    (mode.meets text).map Prod.snd = text := by
  induction mode, text using Mode.meets.induct with
  | case1 mode => rw [meets, List.map_nil]
  | case2 mode c rest m ih =>
      simp only [meets, List.cons_append, List.map_cons, List.map_append, List.map_map]
      rw [ih]
      simp [m, Function.comp_def]

/-! ## The end of a line -/

theorem Rule.within_or_overshot {mode : Mode} {c : Char} {rest : List Char} {m : Move}
    (applies : Rule mode c rest m) :
    (m.beyond ≤ rest.length ∧ (m.role mode = .escape → rest.take m.beyond ≠ [])) ∨
      (c = '\\' ∧ rest = [] ∧ m.role mode = .escape ∧ m.beyond = 1) := by
  cases applies with
  | code | interior => exact .inl ⟨Nat.zero_le _, nofun⟩
  | opening opens => exact .inl ⟨(Delimiter.chars_prefix_cons opens).2, nofun⟩
  | closing closes => exact .inl ⟨(Delimiter.chars_prefix_cons closes).2, nofun⟩
  | escape =>
      cases rest with
      | nil => exact .inr ⟨rfl, rfl, rfl, rfl⟩
      | cons d rest => exact .inl ⟨Nat.le_add_left 1 rest.length, fun _ => List.cons_ne_nil d []⟩

theorem getLast?_met {met last : Role × Char} {passed later : List (Role × Char)}
    (here : met = last → passed ≠ []) (beyond : last ∉ passed) :
    (met :: passed ++ later).getLast? = some last ↔ later.getLast? = some last := by
  cases later with
  | nil =>
      constructor
      · intro found
        rw [List.append_nil] at found
        cases passed with
        | nil => exact absurd rfl (here (Option.some.inj found))
        | cons p passed =>
            rw [List.getLast?_cons_cons] at found
            exact absurd (List.mem_of_getLast? found) beyond
      · nofun
  | cons l later => rw [List.getLast?_append, List.getLast?_cons, Option.some_or]

/-- The last character is a backslash that takes one with it, and there is none. -/
def Mode.BreaksOff (mode : Mode) (text : List Char) : Prop :=
  (mode.meets text).getLast? = some (.escape, '\\')

instance (mode : Mode) (text : List Char) : Decidable (mode.BreaksOff text) :=
  inferInstanceAs (Decidable (_ = _))

theorem Mode.not_breaksOff_nil (mode : Mode) : ¬ mode.BreaksOff [] := by
  rw [BreaksOff, meets]
  nofun

theorem Rule.breaksOff_cons_iff {mode : Mode} {c : Char} {rest : List Char} {m : Move}
    (applies : Rule mode c rest m) (taken : m.role mode = .escape → rest.take m.beyond ≠ []) :
    mode.BreaksOff (c :: rest) ↔ m.mode.BreaksOff (rest.drop m.beyond) := by
  have here : (m.role mode, c) = (.escape, '\\') →
      (rest.take m.beyond).map (m.roleBeyond mode, ·) ≠ [] := by
    intro same none
    exact taken (congrArg Prod.fst same) (List.map_eq_nil_iff.1 none)
  have beyond : (.escape, '\\') ∉ (rest.take m.beyond).map (m.roleBeyond mode, ·) := by
    intro member
    obtain ⟨d, -, same⟩ := List.mem_map.1 member
    exact m.roleBeyond_ne_escape mode (congrArg Prod.fst same)
  rw [Mode.BreaksOff, Mode.meets, applies.eq_rule]
  exact getLast?_met here beyond

namespace Walk

theorem ahead_run (mode : Mode) (tally : Tally) (text : List Char) :
    (run ⟨mode, tally, 0⟩ (charGlyphs text)).ahead = if mode.BreaksOff text then 1 else 0 := by
  induction mode, text using Mode.meets.induct generalizing tally with
  | case1 mode =>
      rw [if_neg mode.not_breaksOff_nil]
      rfl
  | case2 mode c rest m ih =>
      have applies := mode.rule_applies c rest
      rw [run_rule, run_drop, drop_charGlyphs, length_charGlyphs]
      rcases applies.within_or_overshot with ⟨within, taken⟩ | ⟨rfl, rfl, escape, one⟩
      · rw [Nat.sub_eq_zero_of_le within, ih]
        by_cases last : m.mode.BreaksOff (rest.drop m.beyond)
        · rw [if_pos last, if_pos ((applies.breaksOff_cons_iff taken).2 last)]
        · rw [if_neg last, if_neg (mt (applies.breaksOff_cons_iff taken).1 last)]
      · have last : mode.BreaksOff ['\\'] := by
          simp [Mode.BreaksOff, Mode.meets, escape, one]
        rw [if_pos last, one]
        rfl

theorem run_text (mode : Mode) (tally : Tally) (text : List Char) :
    run ⟨mode, tally, 0⟩ (charGlyphs text) =
      ⟨(mode.scanText text).mode, tally + (mode.scanText text).tally,
        if mode.BreaksOff text then 1 else 0⟩ := by
  obtain ⟨sameMode, sameTally⟩ := Scan.mk.inj (toScan_run mode tally text)
  rw [← ahead_run mode tally text, ← sameMode, ← sameTally]

end Walk

/-! ## Cuts -/

theorem apart_charGlyphs {s t : List Char}
    (apart : ∀ q : Quote, s.getLast? = some q.symbol → t.head? ≠ some q.symbol) :
    Glyph.Apart (charGlyphs s) (charGlyphs t) := by
  intro q last head
  rw [charGlyphs, List.getLast?_map, Option.map_eq_some_iff] at last
  rw [charGlyphs, List.head?_map, Option.map_eq_some_iff] at head
  obtain ⟨c, lastChar, mark⟩ := last
  obtain ⟨d, headChar, mark'⟩ := head
  obtain rfl := Glyph.ofChar_eq_quote_iff.1 mark
  obtain rfl := Glyph.ofChar_eq_quote_iff.1 mark'
  exact apart q lastChar headChar

namespace Mode

theorem scanText_append (mode : Mode) {s t : List Char}
    (apart : ∀ q : Quote, s.getLast? = some q.symbol → t.head? ≠ some q.symbol) :
    mode.scanText (s ++ t) =
      let first := mode.scanText s
      let second := first.mode.scanText (t.drop (if mode.BreaksOff s then 1 else 0))
      ⟨second.mode, first.tally + second.tally⟩ := by
  have whole := Walk.toScan_run mode 0 (s ++ t)
  rw [charGlyphs, List.map_append, ← charGlyphs, ← charGlyphs,
    Walk.run_append _ (apart_charGlyphs apart), Walk.run_text, Walk.toScan_run_drop,
    drop_charGlyphs, Walk.toScan_run, Tally.zero_add, Tally.zero_add] at whole
  exact whole.symm

/-- Unless a mark ends `a` and begins `b`, the text of both is read as `a` and then `b`; a character
of `b` that `a` takes with it does not count. -/
theorem scan_append (mode : Mode) {a b : String}
    (apart : ∀ q : Quote, a.toList.getLast? = some q.symbol → b.toList.head? ≠ some q.symbol) :
    let first := mode.scan a
    let rest := if mode.BreaksOff a.toList then b.toList.tail else b.toList
    let second := first.mode.scan (String.ofList rest)
    mode.scan (a ++ b) = ⟨second.mode, first.tally + second.tally⟩ ∧
      (mode.BreaksOff a.toList ↔ 0 < ((Walk.start mode).run (byteGlyphs a.toList)).ahead) := by
  intro first rest second
  refine ⟨?_, ?_⟩
  -- the character that `a` takes with it does not count
  · have dropped : rest = b.toList.drop (if mode.BreaksOff a.toList then 1 else 0) := by
      by_cases last : mode.BreaksOff a.toList <;> simp [rest, last]
    simp only [second, first, dropped, scan_eq_scanChars, scanChars_eq, String.toList_append,
      String.toList_ofList]
    exact scanText_append mode apart
  · have ready : (Walk.start mode).Ready (charGlyphs a.toList) := .inl (Nat.zero_le 1)
    rw [Walk.run_byteGlyphs ready, Walk.start, Walk.ahead_run]
    by_cases last : mode.BreaksOff a.toList <;> simp [last]

theorem scan_append_escaped_wide :
    (code.BreaksOff "[ '\\".toList) ∧
      code.scan ("[ '\\" ++ "é'(") =
        ⟨((literal ⟨.single, .simple⟩).scan "'(").mode,
          ⟨0, 0, 1⟩ + ((literal ⟨.single, .simple⟩).scan "'(").tally⟩ := by
  have last : code.BreaksOff "[ '\\".toList := by decide +kernel
  have first : code.scan "[ '\\" = ⟨literal ⟨.single, .simple⟩, ⟨0, 0, 1⟩⟩ := by decide
  have law := @scan_append code "[ '\\" "é'(" fun q ends => by
    cases q <;> exact absurd ends (by decide)
  dsimp only at law
  rw [if_pos last, first] at law
  exact ⟨last, law.1⟩

end Mode

end BracketTally
