import BracketTally.Progress
import BracketTally.Proofs.Roles
import Mathlib.Data.List.Forall2

namespace BracketTally

/-! ## Masked text -/

/-- In this role `c'` may stand for `c`. -/
def Role.Admits (role : Role) (c c' : Char) : Prop :=
  c' = c ∨ match role with
    | .interior q => c' ≠ '\\' ∧ c' ≠ q.symbol
    | .escaped => True
    | .code | .mark | .escape => False

instance (role : Role) (c c' : Char) : Decidable (role.Admits c c') :=
  match role with
  | .interior _ => inferInstanceAs (Decidable (_ ∨ _ ∧ _))
  | .escaped => inferInstanceAs (Decidable (_ ∨ True))
  | .code | .mark | .escape => inferInstanceAs (Decidable (_ ∨ False))

/-- Character by character, `text'` may stand for `text`. -/
def Mode.Masked (mode : Mode) (text text' : List Char) : Prop :=
  List.Forall₂ (fun c' met => met.1.Admits met.2 c') text' (mode.meets text)

instance (mode : Mode) (text text' : List Char) : Decidable (mode.Masked text text') :=
  inferInstanceAs (Decidable (List.Forall₂ _ _ _))

inductive MaskedLines : Mode → List String → List String → Prop
  | nil {mode : Mode} : MaskedLines mode [] []
  | cons {mode : Mode} {line line' : String} {lines lines' : List String}
      (first : mode.Masked line.toList line'.toList)
      (next : MaskedLines (mode.scan line).mode lines lines') :
      MaskedLines mode (line :: lines) (line' :: lines')

/-! ## Characters under the cursor -/

theorem Delimiter.chars_prefix_cons_congr {d : Delimiter} {c : Char} {s s' : List Char}
    (starts : d.chars <+: c :: s) (same : s'.take (d.length - 1) = s.take (d.length - 1)) :
    d.chars <+: c :: s' := by
  rw [List.prefix_iff_eq_take] at starts ⊢
  obtain ⟨q, _ | _⟩ := d
  · exact starts
  · exact starts.trans (congrArg (c :: ·) same.symm)

theorem Rule.admitted {mode : Mode} {c c' : Char} {rest : List Char} {m : Move}
    (applies : Rule mode c rest m) (admits : (m.role mode).Admits c c') :
    c' = c ∨ ∃ d, mode = .literal d ∧ c' ≠ '\\' ∧ c' ≠ d.quote.symbol := by
  cases applies with
  | code | opening | escape | closing => exact .inl (admits.resolve_right id)
  | @interior d => exact admits.imp_right fun allowed => ⟨d, rfl, allowed⟩

theorem eq_of_marks {s s' : List Char}
    (admits : List.Forall₂ (fun c' c => Role.mark.Admits c c') s' s) : s' = s := by
  induction admits with
  | nil => rfl
  | cons first _ ih => rw [first.resolve_right id, ih]

namespace Mode

/-! ## One rule -/

variable {mode : Mode} {c : Char} {rest text text' : List Char} {q : Quote} {m : Move}

theorem take_met (f : Char → Role × Char) (n : Nat) (rest : List Char) :
    ((rest.take n).map f ++ mode.meets (rest.drop n)).take n = (rest.take n).map f := by
  rcases Nat.le_total n rest.length with within | past
  · apply List.take_left'
    rw [List.length_map, List.length_take_of_le within]
  · rw [List.drop_eq_nil_of_le past, meets, List.append_nil]
    apply List.take_of_length_le
    rw [List.length_map]
    exact List.length_take_le n rest

theorem drop_met (f : Char → Role × Char) (n : Nat) (rest : List Char) :
    ((rest.take n).map f ++ mode.meets (rest.drop n)).drop n = mode.meets (rest.drop n) := by
  rcases Nat.le_total n rest.length with within | past
  · apply List.drop_left'
    rw [List.length_map, List.length_take_of_le within]
  · rw [List.drop_eq_nil_of_le past, meets, List.append_nil]
    apply List.drop_eq_nil_of_le
    rw [List.length_map]
    exact List.length_take_le n rest

namespace Masked

theorem cons (applies : Rule mode c rest m) (masked : mode.Masked (c :: rest) text') :
    ∃ c' rest', text' = c' :: rest' ∧ (m.role mode).Admits c c' ∧
      List.Forall₂ (fun c' c => (m.roleBeyond mode).Admits c c') (rest'.take m.beyond)
        (rest.take m.beyond) ∧
      m.mode.Masked (rest.drop m.beyond) (rest'.drop m.beyond) := by
  rw [Masked, meets, applies.eq_rule, List.cons_append, List.forall₂_cons_right_iff] at masked
  obtain ⟨c', rest', admits, others, rfl⟩ := masked
  refine ⟨c', rest', rfl, admits, ?_, ?_⟩
  · have taken := List.forall₂_take m.beyond others
    rwa [take_met, List.forall₂_map_right_iff] at taken
  · have dropped := List.forall₂_drop m.beyond others
    rwa [drop_met] at dropped

theorem head_of_mark (masked : mode.Masked text text') (inside : ∀ d, mode = .literal d → d.quote = q)
    (head : text'.head? = some q.symbol) : text.head? = some q.symbol := by
  cases text with
  | nil =>
      rw [Masked, meets, List.forall₂_nil_right_iff] at masked
      rw [masked] at head
      cases head
  | cons c rest =>
      have applies := mode.rule_applies c rest
      obtain ⟨c', rest', rfl, admits, -, -⟩ := masked.cons applies
      obtain rfl : c' = q.symbol := Option.some.inj head
      rcases applies.admitted admits with same | ⟨d, literal, -, other⟩
      · rw [List.head?_cons, same]
      · rw [inside d literal] at other
        exact absurd rfl other

theorem pair_of_pair {extent : Extent} (masked : Masked (.literal ⟨q, extent⟩) text text')
    (pair : [q.symbol, q.symbol] <+: text') : [q.symbol, q.symbol] <+: text := by
  obtain ⟨later', rfl⟩ := pair
  have inside : ∀ d, literal ⟨q, extent⟩ = .literal d → d.quote = q := by
    rintro d ⟨⟩
    rfl
  obtain ⟨rest, rfl⟩ := List.head?_eq_some_iff.1 (masked.head_of_mark inside rfl)
  have second (head : rest.head? = some q.symbol) : [q.symbol, q.symbol] <+: q.symbol :: rest := by
    obtain ⟨later, rfl⟩ := List.head?_eq_some_iff.1 head
    exact ⟨later, rfl⟩
  generalize mark : q.symbol = c at masked
  have applies := rule_applies (.literal ⟨q, extent⟩) c rest
  generalize rule (.literal ⟨q, extent⟩) c rest = m at applies
  obtain ⟨_, _, same, -, -, later⟩ := masked.cons applies
  cases same
  cases applies with
  | escape => exact absurd mark q.symbol_ne_backslash
  | closing closes =>
      subst mark
      cases extent with
      | simple => exact second (later.head_of_mark nofun rfl)
      | triple =>
          have two : [q.symbol, q.symbol] <+: Delimiter.chars ⟨q, .triple⟩ := ⟨[q.symbol], rfl⟩
          exact two.trans closes
  | interior =>
      subst mark
      exact second (later.head_of_mark inside rfl)

theorem triple_of_triple {extent : Extent} (masked : Masked (.literal ⟨q, extent⟩) text text')
    (triple : Delimiter.chars ⟨q, .triple⟩ <+: c :: text') :
    Delimiter.chars ⟨q, .triple⟩ <+: c :: text := by
  rw [Delimiter.chars_triple, List.cons_prefix_cons] at triple ⊢
  exact ⟨triple.1, masked.pair_of_pair triple.2⟩

theorem rule_eq {c' : Char} {rest' : List Char} (masked : mode.Masked (c :: rest) (c' :: rest')) :
    mode.rule c' rest' = mode.rule c rest := by
  have applies := mode.rule_applies c rest
  generalize mode.rule c rest = m at applies ⊢
  obtain ⟨_, _, same, admits, taken, later⟩ := masked.cons applies
  cases same
  -- only within a literal there may be another character, and that is not its mark
  have kept := applies.admitted admits
  apply Rule.eq_rule
  cases applies with
  | code plain =>
      obtain rfl := kept.resolve_right nofun
      exact .code plain
  | @opening d _ _ opens single =>
      obtain rfl := kept.resolve_right nofun
      refine .opening (Delimiter.chars_prefix_cons_congr opens (eq_of_marks taken)) ?_
      intro simple triple
      obtain ⟨q, extent⟩ := d
      cases simple
      exact single rfl (later.triple_of_triple triple)
  | escape =>
      obtain rfl := admits.resolve_right id
      exact .escape
  | closing closes =>
      obtain rfl := admits.resolve_right id
      exact .closing (Delimiter.chars_prefix_cons_congr closes (eq_of_marks taken))
  | @interior d _ _ unescaped stays =>
      refine .interior ?_ ?_
      · intro simple
        rcases admits with rfl | ⟨other, -⟩
        · exact unescaped simple
        · exact other
      · intro closes
        rcases admits with rfl | ⟨-, other⟩
        · obtain ⟨q, _ | _⟩ := d
          · rw [Delimiter.chars_simple_prefix_cons_iff] at stays closes
            exact stays closes
          · exact stays (later.triple_of_triple closes)
        · exact other (Delimiter.chars_prefix_cons closes).1

/-! ## Lines -/

theorem scanText_eq (masked : mode.Masked text text') : mode.scanText text' = mode.scanText text := by
  induction mode, text using meets.induct generalizing text'
  case case1 mode =>
    rw [Masked, meets, List.forall₂_nil_right_iff] at masked
    rw [masked]
  case case2 mode c rest m ih =>
    obtain ⟨c', rest', rfl, -, -, later⟩ := masked.cons (mode.rule_applies c rest)
    rw [scanText, scanText, masked.rule_eq, ih later]

theorem scan_eq {line line' : String} (masked : mode.Masked line.toList line'.toList) :
    mode.scan line' = mode.scan line := by
  simp only [scan_eq_scanChars, scanChars_eq, masked.scanText_eq]

end Masked

end Mode

namespace Progress

theorem trace_masked {p : Progress} {lines lines' : List String}
    (masked : MaskedLines p.mode lines lines') : p.trace lines' = p.trace lines := by
  induction lines generalizing p lines' with
  | nil =>
      cases masked
      rfl
  | cons line lines ih =>
      cases masked with
      | cons first next =>
          simp only [trace, Progress.read, first.scan_eq]
          exact congrArg _ (ih next)

theorem map_rows (p : Progress) (lines : List String) :
    (p.rows lines).map (fun row => (row.number, row.totals)) =
      (p.trace lines).map fun after => (after.lines, after.totals) := by
  induction lines generalizing p with
  | nil => rfl
  | cons line lines ih =>
      rw [rows_cons, trace, List.map_cons, List.map_cons, ih]
      rfl

/-- What is known after each line stays the same, and so do the number and the totals of its row. -/
theorem rows_masked {lines lines' : List String} (masked : MaskedLines .code lines lines') :
    start.trace lines' = start.trace lines ∧
      (start.rows lines').map (fun row => (row.number, row.totals)) =
        (start.rows lines).map fun row => (row.number, row.totals) := by
  have same : start.trace lines' = start.trace lines := trace_masked masked
  refine ⟨same, ?_⟩
  rw [map_rows, map_rows, same]

theorem rows_masked_unfinished :
    MaskedLines .code ["('\\\x7d\x7b'", "\"\"\"\x7b)\"]"] ["('\\'é'", "\"\"\"ß['("] ∧
      start.trace ["('\\'é'", "\"\"\"ß['("] = start.trace ["('\\\x7d\x7b'", "\"\"\"\x7b)\"]"] ∧
      (start.rows ["('\\'é'", "\"\"\"ß['("]).map (fun row => (row.number, row.totals)) =
        (start.rows ["('\\\x7d\x7b'", "\"\"\"\x7b)\"]"]).map fun row => (row.number, row.totals) := by
  have masked :
      MaskedLines .code ["('\\\x7d\x7b'", "\"\"\"\x7b)\"]"] ["('\\'é'", "\"\"\"ß['("] := by
    refine .cons ?escaped (.cons ?partly .nil)
    case escaped => decide +kernel
    case partly => decide +kernel
  exact ⟨masked, rows_masked masked⟩

end Progress

end BracketTally
