import BracketTally.Proofs.Walk
import Mathlib.Algebra.Group.Nat.Defs

/-!
# Lines as code and literals

What a walk recognises, as a grammar over characters and without a cursor.  A line is the rest of
the literal it starts in, if it starts in one, then characters of code and whole literals, then at
most one literal that is not closed (`Reads`).
-/

namespace BracketTally

/-! ## The grammar -/

inductive Item
  | escaped (c : Char)
  | plain (c : Char)

def Item.chars : Item → List Char
  | escaped c => ['\\', c]
  | plain c => [c]

/-- Any character may follow a backslash; a plain one is neither that nor the mark. -/
def Item.Fits (q : Quote) : Item → Prop
  | escaped _ => True
  | plain c => c ≠ '\\' ∧ c ≠ q.symbol

inductive Body
  | simple (items : List Item)
  | triple (chars : List Char)

/-- What stands behind a delimiter that no other answers.  A simple literal may break off at a
backslash. -/
inductive OpenBody
  | simple (items : List Item) (backslash : Bool)
  | triple (chars : List Char)

inductive Part
  | code (c : Char)
  | literal (d : Delimiter) (body : Body)

inductive Reading
  | inside (d : Delimiter) (body : OpenBody)
  | through (rest : Option Body) (parts : List Part) (unfinished : Option (Delimiter × OpenBody))

def Delimiter.chars (d : Delimiter) : List Char := List.replicate d.length d.quote.symbol

/-- A literal opens in front of `inner`: a triple one where three marks stand, a simple one where
one stands and not three. -/
def Delimiter.Opens (d : Delimiter) (text inner : List Char) : Prop :=
  text = d.chars ++ inner ∧ (d.extent = .simple → ¬ Delimiter.chars ⟨d.quote, .triple⟩ <+: text)

def RunsTo (mark body rest : List Char) : Prop :=
  ∀ before after, body ++ mark ++ rest = before ++ mark ++ after → body.length ≤ before.length

/-- Within a literal, `text` is its body, its delimiter and `rest`. -/
inductive Closes : Delimiter → List Char → Body → List Char → Prop
  | simple {q : Quote} {items : List Item} {rest : List Char} (fit : ∀ i ∈ items, i.Fits q) :
      Closes ⟨q, .simple⟩ (items.flatMap Item.chars ++ q.symbol :: rest) (.simple items) rest
  | triple {q : Quote} {chars rest : List Char}
      (first : RunsTo (Delimiter.chars ⟨q, .triple⟩) chars rest) :
      Closes ⟨q, .triple⟩ (chars ++ Delimiter.chars ⟨q, .triple⟩ ++ rest) (.triple chars) rest

/-- Within a literal, all of the text belongs to it and does not close it. -/
inductive StaysOpen : Delimiter → List Char → OpenBody → Prop
  | simple {q : Quote} {items : List Item} (fit : ∀ i ∈ items, i.Fits q) (backslash : Bool) :
      StaysOpen ⟨q, .simple⟩ (items.flatMap Item.chars ++ if backslash then ['\\'] else [])
        (.simple items backslash)
  | triple {q : Quote} {chars : List Char}
      (none : ¬ Delimiter.chars ⟨q, .triple⟩ <:+: chars) :
      StaysOpen ⟨q, .triple⟩ chars (.triple chars)

inductive ReadsCode : List Char → List Part → Option (Delimiter × OpenBody) → Prop
  | done : ReadsCode [] [] none
  | code {c : Char} {text : List Char} {parts : List Part}
      {unfinished : Option (Delimiter × OpenBody)} (plain : ∀ q : Quote, c ≠ q.symbol)
      (next : ReadsCode text parts unfinished) :
      ReadsCode (c :: text) (.code c :: parts) unfinished
  | literal {d : Delimiter} {text inner rest : List Char} {body : Body} {parts : List Part}
      {unfinished : Option (Delimiter × OpenBody)} (opens : d.Opens text inner)
      (closes : Closes d inner body rest) (next : ReadsCode rest parts unfinished) :
      ReadsCode text (.literal d body :: parts) unfinished
  | unfinished {d : Delimiter} {text inner : List Char} {body : OpenBody}
      (opens : d.Opens text inner) (stays : StaysOpen d inner body) :
      ReadsCode text [] (some (d, body))

/-- A line that starts in a mode. -/
inductive Reads : Mode → List Char → Reading → Prop
  | code {text : List Char} {parts : List Part} {unfinished : Option (Delimiter × OpenBody)}
      (reads : ReadsCode text parts unfinished) : Reads .code text (.through none parts unfinished)
  | rest {d : Delimiter} {text rest : List Char} {body : Body} {parts : List Part}
      {unfinished : Option (Delimiter × OpenBody)} (closes : Closes d text body rest)
      (reads : ReadsCode rest parts unfinished) :
      Reads (.literal d) text (.through (some body) parts unfinished)
  | inside {d : Delimiter} {text : List Char} {body : OpenBody} (stays : StaysOpen d text body) :
      Reads (.literal d) text (.inside d body)

/-! ## What a reading says -/

def Bracket.symbol (b : Bracket) : Char := Char.ofNat b.code

def Part.code? : Part → Option Char
  | code c => some c
  | literal .. => none

def netOpened (shape : Shape) (code : List Char) : Int :=
  code.count (Bracket.symbol ⟨.opening, shape⟩) - code.count (Bracket.symbol ⟨.closing, shape⟩)

namespace Reading

def unfinished? : Reading → Option Delimiter
  | inside d _ => some d
  | through _ _ unfinished => unfinished.map Prod.fst

def code : Reading → List Char
  | inside .. => []
  | through _ parts _ => parts.filterMap Part.code?

end Reading

/-! ## The glyphs of characters -/

namespace Glyph

theorem ofCode_eq_quote_iff {n : Nat} {q : Quote} : ofCode n = quote q ↔ n = q.code := by
  constructor
  · intro found
    unfold ofCode at found
    split at found <;> cases found <;> rfl
  · rintro rfl
    exact ofCode_quote q

theorem ofCode_eq_bracket_iff {n : Nat} {b : Bracket} : ofCode n = bracket b ↔ n = b.code := by
  constructor
  · intro found
    unfold ofCode at found
    split at found <;> cases found <;> rfl
  · rintro rfl
    exact ofCode_bracket b

theorem ofCode_eq_backslash_iff {n : Nat} : ofCode n = backslash ↔ n = 0x5C := by
  constructor
  · intro found
    unfold ofCode at found
    split at found <;> cases found
    rfl
  · rintro rfl
    rfl

theorem toNat_eq_iff {c : Char} {n : Nat} (ascii : n < 0x80) : c.toNat = n ↔ c = Char.ofNat n := by
  constructor
  · rintro rfl
    exact (Char.ofNat_toNat c).symm
  · rintro rfl
    exact Utf8.toNat_ofNat (.inl (by omega))

theorem ofChar_eq_quote_iff {c : Char} {q : Quote} : ofChar c = quote q ↔ c = q.symbol := by
  rw [ofChar, ofCode_eq_quote_iff, Quote.symbol, toNat_eq_iff]
  cases q <;> decide

theorem ofChar_eq_bracket_iff {c : Char} {b : Bracket} : ofChar c = bracket b ↔ c = b.symbol := by
  rw [ofChar, ofCode_eq_bracket_iff, Bracket.symbol, toNat_eq_iff]
  obtain ⟨_ | _, _ | _ | _⟩ := b <;> decide

theorem ofChar_eq_backslash_iff {c : Char} : ofChar c = backslash ↔ c = '\\' := by
  rw [ofChar, ofCode_eq_backslash_iff, toNat_eq_iff (by decide)]

theorem ofChar_symbol (q : Quote) : ofChar q.symbol = quote q := ofChar_eq_quote_iff.2 rfl

end Glyph

theorem Quote.symbol_ne_backslash (q : Quote) : q.symbol ≠ '\\' := by
  cases q <;> decide

theorem Quote.symbol_injective {p q : Quote} (same : p.symbol = q.symbol) : p = q := by
  cases p <;> cases q <;> first | rfl | exact absurd same (by decide)

theorem pairFollows_charGlyphs_iff {q : Quote} {text : List Char} :
    pairFollows q (charGlyphs text) = true ↔ [q.symbol, q.symbol] <+: text := by
  rw [pairFollows_iff]
  constructor
  · rintro ⟨rest, same⟩
    match text with
    | [] => cases same
    | [_] => cases (List.cons.inj same).2
    | a :: b :: text =>
        simp only [charGlyphs_cons, List.cons.injEq, Glyph.ofChar_eq_quote_iff] at same
        obtain ⟨rfl, rfl, -⟩ := same
        exact ⟨text, rfl⟩
  · rintro ⟨rest, rfl⟩
    exact ⟨charGlyphs rest, by simp [charGlyphs_cons, Glyph.ofChar_symbol]⟩

theorem pairFollows_marks (q : Quote) (rest : List Char) :
    pairFollows q (charGlyphs (q.symbol :: q.symbol :: rest)) = true :=
  pairFollows_charGlyphs_iff.2 ⟨rest, rfl⟩

/-! ## Delimiters -/

namespace Delimiter

variable {q : Quote}

theorem chars_simple : chars ⟨q, .simple⟩ = [q.symbol] := rfl

theorem chars_triple : chars ⟨q, .triple⟩ = [q.symbol, q.symbol, q.symbol] := rfl

theorem chars_triple_prefix_cons_iff {c : Char} {text : List Char} :
    chars ⟨q, .triple⟩ <+: c :: text ↔
      Glyph.ofChar c = .quote q ∧ pairFollows q (charGlyphs text) = true := by
  rw [chars_triple, List.cons_prefix_cons, Glyph.ofChar_eq_quote_iff, pairFollows_charGlyphs_iff,
    eq_comm]

end Delimiter

/-! ## The first delimiter -/

theorem runsTo_nil (mark rest : List Char) : RunsTo mark [] rest :=
  fun before _ _ => Nat.zero_le before.length

theorem runsTo_cons_iff {mark body rest : List Char} {c : Char} :
    RunsTo mark (c :: body) rest ↔
      ¬ mark <+: c :: (body ++ mark ++ rest) ∧ RunsTo mark body rest := by
  constructor
  · intro first
    refine ⟨?_, ?_⟩
    · rintro ⟨after, found⟩
      exact absurd (first [] after found.symm) (by simp)
    · intro before after found
      have further := first (c :: before) after (congrArg (c :: ·) found)
      exact Nat.le_of_succ_le_succ further
  · rintro ⟨none, first⟩ before after found
    cases before with
    | nil => exact absurd ⟨after, found.symm⟩ none
    | cons a before =>
        obtain ⟨-, found⟩ := List.cons.inj found
        exact Nat.succ_le_succ (first before after found)

/-! ## Walks within a literal -/

namespace Walk

variable {q : Quote} {tally : Tally}

theorem run_item {i : Item} (fits : i.Fits q) (rest : List Char) :
    run ⟨.literal ⟨q, .simple⟩, tally, 0⟩ (charGlyphs (i.chars ++ rest)) =
      run ⟨.literal ⟨q, .simple⟩, tally, 0⟩ (charGlyphs rest) := by
  cases i with
  | escaped c =>
      have escape : Glyph.ofChar '\\' = .backslash := rfl
      simp only [Item.chars, List.cons_append, List.nil_append, charGlyphs_cons, run, escape, step,
        Mode.move_simple_backslash, Tally.add_zero]
  | plain c =>
      have unescaped : Glyph.ofChar c ≠ .backslash := by
        rw [ne_eq, Glyph.ofChar_eq_backslash_iff]
        exact fits.1
      have inside : Glyph.ofChar c ≠ .quote q := by
        rw [ne_eq, Glyph.ofChar_eq_quote_iff]
        exact fits.2
      simp only [Item.chars, List.cons_append, List.nil_append, charGlyphs_cons, run, step,
        Mode.move_simple unescaped, if_neg inside, Tally.add_zero]

theorem run_items {items : List Item} (fit : ∀ i ∈ items, i.Fits q) (rest : List Char) :
    run ⟨.literal ⟨q, .simple⟩, tally, 0⟩ (charGlyphs (items.flatMap Item.chars ++ rest)) =
      run ⟨.literal ⟨q, .simple⟩, tally, 0⟩ (charGlyphs rest) := by
  induction items with
  | nil => rfl
  | cons i items ih =>
      obtain ⟨fits, fit⟩ := List.forall_mem_cons.1 fit
      rw [List.flatMap_cons, List.append_assoc, run_item fits, ih fit]

theorem run_mark (rest : List Char) :
    run ⟨.literal ⟨q, .simple⟩, tally, 0⟩ (charGlyphs (q.symbol :: rest)) =
      run ⟨.code, tally, 0⟩ (charGlyphs rest) := by
  have unescaped : Glyph.ofChar q.symbol ≠ .backslash := by
    rw [ne_eq, Glyph.ofChar_eq_backslash_iff]
    exact q.symbol_ne_backslash
  simp only [charGlyphs_cons, run, step, Mode.move_simple unescaped, if_pos (Glyph.ofChar_symbol q),
    Tally.add_zero]

theorem step_triple {c : Char} {rest : List Char}
    (none : ¬ Delimiter.chars ⟨q, .triple⟩ <+: c :: rest) :
    step ⟨.literal ⟨q, .triple⟩, tally, 0⟩ (Glyph.ofChar c) (charGlyphs rest) =
      ⟨.literal ⟨q, .triple⟩, tally, 0⟩ := by
  rw [Delimiter.chars_triple_prefix_cons_iff] at none
  simp only [step, Mode.move_triple, if_neg none, Tally.add_zero]

theorem run_three_marks {mode mode' : Mode} (rest : List Char)
    (move : mode.move (.quote q) (charGlyphs (q.symbol :: q.symbol :: rest)) = ⟨2, mode', 0⟩) :
    run ⟨mode, tally, 0⟩ (charGlyphs (Delimiter.chars ⟨q, .triple⟩ ++ rest)) =
      run ⟨mode', tally, 0⟩ (charGlyphs rest) := by
  simp only [Delimiter.chars_triple, List.cons_append, List.nil_append, charGlyphs_cons, run,
    Glyph.ofChar_symbol] at move ⊢
  simp only [step, move, Tally.add_zero]

theorem run_triple {chars rest : List Char}
    (first : RunsTo (Delimiter.chars ⟨q, .triple⟩) chars rest) :
    run ⟨.literal ⟨q, .triple⟩, tally, 0⟩
        (charGlyphs (chars ++ Delimiter.chars ⟨q, .triple⟩ ++ rest)) =
      run ⟨.code, tally, 0⟩ (charGlyphs rest) := by
  induction chars with
  | nil =>
      rw [List.nil_append]
      apply run_three_marks
      rw [Mode.move_triple, if_pos ⟨rfl, pairFollows_marks q rest⟩]
  | cons c chars ih =>
      obtain ⟨none, first⟩ := runsTo_cons_iff.1 first
      rw [List.cons_append, List.cons_append, charGlyphs_cons, run, step_triple none, ih first]

theorem run_triple_open {chars : List Char} (none : ¬ Delimiter.chars ⟨q, .triple⟩ <:+: chars) :
    run ⟨.literal ⟨q, .triple⟩, tally, 0⟩ (charGlyphs chars) =
      ⟨.literal ⟨q, .triple⟩, tally, 0⟩ := by
  induction chars with
  | nil => rfl
  | cons c chars ih =>
      rw [List.infix_cons_iff, not_or] at none
      rw [charGlyphs_cons, run, step_triple none.1, ih none.2]

end Walk

theorem Closes.run {d : Delimiter} {text rest : List Char} {body : Body}
    (closes : Closes d text body rest) (tally : Tally) :
    Walk.run ⟨.literal d, tally, 0⟩ (charGlyphs text) =
      Walk.run ⟨.code, tally, 0⟩ (charGlyphs rest) := by
  cases closes with
  | simple fit => rw [Walk.run_items fit, Walk.run_mark]
  | triple first => exact Walk.run_triple first

theorem StaysOpen.run {d : Delimiter} {text : List Char} {body : OpenBody}
    (stays : StaysOpen d text body) (tally : Tally) :
    (Walk.run ⟨.literal d, tally, 0⟩ (charGlyphs text)).toScan = ⟨.literal d, tally⟩ := by
  cases stays with
  | simple fit backslash =>
      rw [Walk.run_items fit]
      cases backslash with
      | false => rfl
      | true =>
          have escape : Glyph.ofChar '\\' = .backslash := rfl
          simp only [if_pos, charGlyphs_cons, Walk.run, escape, Walk.step,
            Mode.move_simple_backslash, Tally.add_zero]
          rfl
  | triple none => rw [Walk.run_triple_open none]; rfl

theorem Delimiter.Opens.run {d : Delimiter} {text inner : List Char} (opens : d.Opens text inner)
    (tally : Tally) :
    Walk.run ⟨.code, tally, 0⟩ (charGlyphs text) =
      Walk.run ⟨.literal d, tally, 0⟩ (charGlyphs inner) := by
  obtain ⟨rfl, single⟩ := opens
  obtain ⟨q, _ | _⟩ := d
  · have none : ¬ pairFollows q (charGlyphs inner) = true := by
      have alone := single rfl
      rw [chars_simple, List.singleton_append, chars_triple_prefix_cons_iff] at alone
      exact fun pair => alone ⟨Glyph.ofChar_symbol q, pair⟩
    simp only [chars_simple, List.singleton_append, charGlyphs_cons, Walk.run, Walk.step,
      Glyph.ofChar_symbol, Mode.move_code_quote, if_neg none, Tally.add_zero]
  · apply Walk.run_three_marks
    rw [Mode.move_code_quote, if_pos (pairFollows_marks q inner)]

/-! ## What a walk makes of a reading -/

def codeTally (code : List Char) : Tally := (code.map fun c => (Glyph.ofChar c).weight).sum

theorem ReadsCode.run {text : List Char} {parts : List Part}
    {unfinished : Option (Delimiter × OpenBody)} (reads : ReadsCode text parts unfinished)
    (tally : Tally) :
    (Walk.run ⟨.code, tally, 0⟩ (charGlyphs text)).toScan =
      ⟨(unfinished.map Prod.fst).elim .code .literal,
        tally + codeTally (parts.filterMap Part.code?)⟩ := by
  induction reads generalizing tally with
  | done => exact congrArg (Scan.mk .code) (Tally.add_zero tally).symm
  | @code c text parts unfinished plain next ih =>
      have unquoted : ∀ q, Glyph.ofChar c ≠ .quote q := by
        intro q
        rw [ne_eq, Glyph.ofChar_eq_quote_iff]
        exact plain q
      rw [charGlyphs_cons, Walk.run]
      simp only [Walk.step, Mode.move_code unquoted]
      rw [ih, Tally.add_assoc]
      rfl
  | literal opens closes next ih =>
      rw [opens.run, closes.run, ih]
      rfl
  | unfinished opens stays =>
      rw [opens.run, stays.run]
      exact congrArg (Scan.mk _) (Tally.add_zero tally).symm

theorem Reads.run {mode : Mode} {text : List Char} {reading : Reading}
    (reads : Reads mode text reading) :
    ((Walk.start mode).run (charGlyphs text)).toScan =
      ⟨reading.unfinished?.elim .code .literal, codeTally reading.code⟩ := by
  cases reads with
  | code reads =>
      rw [Walk.start, reads.run, Tally.zero_add]
      rfl
  | rest closes reads =>
      rw [Walk.start, closes.run, reads.run, Tally.zero_add]
      rfl
  | inside stays =>
      rw [Walk.start, stays.run]
      rfl

/-! ## Every line has a reading -/

def Delimiter.Settles (d : Delimiter) (text : List Char) : Prop :=
  (∃ body rest, Closes d text body rest) ∨ ∃ body, StaysOpen d text body

namespace Delimiter.Settles

variable {q : Quote}

theorem item {i : Item} {text : List Char} (fits : i.Fits q) (settles : Settles ⟨q, .simple⟩ text) :
    Settles ⟨q, .simple⟩ (i.chars ++ text) := by
  rcases settles with ⟨body, rest, closes⟩ | ⟨body, stays⟩
  · cases closes with
    | @simple _ items _ fit =>
        rw [← List.append_assoc, ← List.flatMap_cons]
        exact .inl ⟨_, _, .simple (List.forall_mem_cons.2 ⟨fits, fit⟩)⟩
  · cases stays with
    | simple fit backslash =>
        rw [← List.append_assoc, ← List.flatMap_cons]
        exact .inr ⟨_, .simple (List.forall_mem_cons.2 ⟨fits, fit⟩) backslash⟩

theorem simple (q : Quote) (text : List Char) : Settles ⟨q, .simple⟩ text := by
  match text with
  | [] => exact .inr ⟨_, @StaysOpen.simple q [] (List.forall_mem_nil _) false⟩
  | c :: text =>
      by_cases mark : c = q.symbol
      · subst mark
        exact .inl ⟨_, _, @Closes.simple q [] text (List.forall_mem_nil _)⟩
      by_cases escape : c = '\\'
      · subst escape
        match text with
        | [] => exact .inr ⟨_, @StaysOpen.simple q [] (List.forall_mem_nil _) true⟩
        | e :: text => exact @item q (.escaped e) text trivial (simple q text)
      · exact @item q (.plain c) text ⟨escape, mark⟩ (simple q text)

theorem triple (q : Quote) (text : List Char) : Settles ⟨q, .triple⟩ text := by
  induction text with
  | nil => exact .inr ⟨_, .triple (by simp [chars_triple])⟩
  | cons c text ih =>
      by_cases here : chars ⟨q, .triple⟩ <+: c :: text
      · obtain ⟨rest, found⟩ := here
        rw [← found]
        exact .inl ⟨_, _, .triple (runsTo_nil _ rest)⟩
      rcases ih with ⟨body, rest, closes⟩ | ⟨body, stays⟩
      · cases closes with
        | triple first => exact .inl ⟨_, _, .triple (runsTo_cons_iff.2 ⟨here, first⟩)⟩
      · cases stays with
        | triple none =>
            refine .inr ⟨_, .triple ?_⟩
            rw [List.infix_cons_iff]
            exact not_or.2 ⟨here, none⟩

theorem of_text (d : Delimiter) (text : List Char) : d.Settles text := by
  obtain ⟨q, _ | _⟩ := d
  · exact simple q text
  · exact triple q text

end Delimiter.Settles

theorem Closes.length_lt {d : Delimiter} {text rest : List Char} {body : Body}
    (closes : Closes d text body rest) : rest.length < text.length := by
  cases closes with
  | simple fit =>
      rw [List.length_append, List.length_cons]
      omega
  | triple first =>
      rw [List.length_append, List.length_append, Delimiter.chars_triple, List.length_cons]
      omega

theorem Delimiter.Opens.length_lt {d : Delimiter} {text inner : List Char}
    (opens : d.Opens text inner) : inner.length < text.length := by
  obtain ⟨rfl, -⟩ := opens
  obtain ⟨q, _ | _⟩ := d
  · rw [chars_simple, List.length_append, List.length_singleton]
    omega
  · rw [chars_triple, List.length_append, List.length_cons]
    omega

theorem Delimiter.exists_opens (q : Quote) (text : List Char) :
    ∃ d inner, Delimiter.Opens d (q.symbol :: text) inner := by
  by_cases three : chars ⟨q, .triple⟩ <+: q.symbol :: text
  · obtain ⟨inner, found⟩ := three
    exact ⟨⟨q, .triple⟩, inner, found.symm, fun simple => by cases simple⟩
  · exact ⟨⟨q, .simple⟩, text, rfl, fun _ => three⟩

theorem exists_readsCode (text : List Char) :
    ∃ parts unfinished, ReadsCode text parts unfinished := by
  match text with
  | [] => exact ⟨[], none, .done⟩
  | c :: text =>
      by_cases quoted : ∃ q : Quote, c = q.symbol
      · obtain ⟨q, rfl⟩ := quoted
        obtain ⟨d, inner, opens⟩ := Delimiter.exists_opens q text
        rcases Delimiter.Settles.of_text d inner with ⟨body, rest, closes⟩ | ⟨body, stays⟩
        · have shorter : rest.length < (q.symbol :: text).length :=
            Nat.lt_trans closes.length_lt opens.length_lt
          obtain ⟨parts, unfinished, next⟩ := exists_readsCode rest
          exact ⟨_, _, .literal opens closes next⟩
        · exact ⟨_, _, .unfinished opens stays⟩
      · obtain ⟨parts, unfinished, next⟩ := exists_readsCode text
        exact ⟨_, _, .code (not_exists.1 quoted) next⟩
termination_by text.length
decreasing_by
  · exact shorter
  · exact Nat.lt_succ_self text.length

theorem exists_reads (mode : Mode) (text : List Char) : ∃ reading, Reads mode text reading := by
  cases mode with
  | code =>
      obtain ⟨parts, unfinished, reads⟩ := exists_readsCode text
      exact ⟨_, .code reads⟩
  | literal d =>
      rcases Delimiter.Settles.of_text d text with ⟨body, rest, closes⟩ | ⟨body, stays⟩
      · obtain ⟨parts, unfinished, reads⟩ := exists_readsCode rest
        exact ⟨_, .rest closes reads⟩
      · exact ⟨_, .inside stays⟩

/-! ## No line has two -/

inductive Stops (q : Quote) : List Char → Prop
  | done : Stops q []
  | backslash : Stops q ['\\']
  | mark (rest : List Char) : Stops q (q.symbol :: rest)

theorem Stops.ne_item {q : Quote} {text rest : List Char} {i : Item} (stops : Stops q text)
    (fits : i.Fits q) : text ≠ i.chars ++ rest := by
  intro same
  cases i with
  | escaped c =>
      cases stops with
      | done => cases same
      | backslash => cases (List.cons.inj same).2
      | mark => exact q.symbol_ne_backslash (List.cons.inj same).1
  | plain c =>
      cases stops with
      | done => cases same
      | backslash => exact fits.1 (List.cons.inj same).1.symm
      | mark => exact fits.2 (List.cons.inj same).1.symm

theorem Item.chars_append_inj {q : Quote} {i j : Item} {s t : List Char} (fi : i.Fits q)
    (fj : j.Fits q) (same : i.chars ++ s = j.chars ++ t) : i = j ∧ s = t := by
  cases i <;> cases j <;> simp only [chars, List.cons_append, List.nil_append, List.cons.injEq] at same
  case escaped.escaped => exact ⟨by rw [same.2.1], same.2.2⟩
  case escaped.plain => exact absurd same.1.symm fj.1
  case plain.escaped => exact absurd same.1 fi.1
  case plain.plain => exact ⟨by rw [same.1], same.2⟩

theorem items_unique {q : Quote} {items items' : List Item} {text text' : List Char}
    (fit : ∀ i ∈ items, i.Fits q) (fit' : ∀ i ∈ items', i.Fits q) (stops : Stops q text)
    (stops' : Stops q text')
    (same : items.flatMap Item.chars ++ text = items'.flatMap Item.chars ++ text') :
    items = items' ∧ text = text' := by
  induction items generalizing items' with
  | nil =>
      cases items' with
      | nil => exact ⟨rfl, same⟩
      | cons j items' =>
          rw [List.flatMap_cons, List.append_assoc] at same
          exact absurd same (stops.ne_item (fit' j List.mem_cons_self))
  | cons i items ih =>
      obtain ⟨first, others⟩ := List.forall_mem_cons.1 fit
      rw [List.flatMap_cons, List.append_assoc] at same
      cases items' with
      | nil => exact absurd same.symm (stops'.ne_item first)
      | cons j items' =>
          obtain ⟨first', others'⟩ := List.forall_mem_cons.1 fit'
          rw [List.flatMap_cons, List.append_assoc] at same
          obtain ⟨rfl, later⟩ := Item.chars_append_inj first first' same
          obtain ⟨rfl, tails⟩ := ih others others' later
          exact ⟨rfl, tails⟩

theorem stops_open (q : Quote) (backslash : Bool) :
    Stops q (if backslash then ['\\'] else []) := by
  cases backslash with
  | false => exact .done
  | true => exact .backslash

theorem Closes.unique {d : Delimiter} {text rest rest' : List Char} {body body' : Body}
    (closes : Closes d text body rest) (closes' : Closes d text body' rest') :
    body = body' ∧ rest = rest' := by
  cases closes with
  | @simple q items rest fit =>
      generalize same : items.flatMap Item.chars ++ q.symbol :: rest = text at closes'
      cases closes' with
      | simple fit' =>
          obtain ⟨rfl, tails⟩ := items_unique fit fit' (.mark _) (.mark _) same
          exact ⟨rfl, (List.cons.inj tails).2⟩
  | @triple q chars rest first =>
      generalize same : chars ++ Delimiter.chars ⟨q, .triple⟩ ++ rest = text at closes'
      cases closes' with
      | @triple _ chars' _ first' =>
          have length : chars.length = chars'.length :=
            Nat.le_antisymm (first _ _ same) (first' _ _ same.symm)
          rw [List.append_assoc, List.append_assoc] at same
          obtain ⟨rfl, tails⟩ := List.append_inj same length
          exact ⟨rfl, List.append_cancel_left tails⟩

theorem StaysOpen.unique {d : Delimiter} {text : List Char} {body body' : OpenBody}
    (stays : StaysOpen d text body) (stays' : StaysOpen d text body') : body = body' := by
  cases stays with
  | @simple q items fit backslash =>
      generalize same : items.flatMap Item.chars ++ (if backslash then ['\\'] else []) = text
        at stays'
      cases stays' with
      | simple fit' backslash' =>
          obtain ⟨rfl, tails⟩ :=
            items_unique fit fit' (stops_open q backslash) (stops_open q backslash') same
          cases backslash <;> cases backslash' <;> first | rfl | cases tails
  | triple none =>
      cases stays' with
      | triple => rfl

theorem Closes.not_stays {d : Delimiter} {text rest : List Char} {body : Body} {body' : OpenBody}
    (closes : Closes d text body rest) : ¬ StaysOpen d text body' := by
  intro stays
  cases closes with
  | @simple q items rest fit =>
      generalize same : items.flatMap Item.chars ++ q.symbol :: rest = text at stays
      cases stays with
      | simple fit' backslash =>
          obtain ⟨-, same⟩ := items_unique fit fit' (.mark _) (stops_open q backslash) same
          cases backslash with
          | false => cases same
          | true => exact q.symbol_ne_backslash (List.cons.inj same).1
  | @triple q chars rest first =>
      cases stays with
      | triple none => exact none ⟨chars, rest, rfl⟩

theorem Delimiter.Opens.head? {d : Delimiter} {text inner : List Char}
    (opens : d.Opens text inner) : text.head? = some d.quote.symbol := by
  obtain ⟨rfl, -⟩ := opens
  obtain ⟨q, _ | _⟩ := d <;> rfl

theorem Delimiter.Opens.unique {d d' : Delimiter} {text inner inner' : List Char}
    (opens : d.Opens text inner) (opens' : d'.Opens text inner') : d = d' ∧ inner = inner' := by
  have quote : d.quote = d'.quote :=
    Quote.symbol_injective (Option.some.inj (opens.head?.symm.trans opens'.head?))
  obtain ⟨rfl, single⟩ := opens
  obtain ⟨same, single'⟩ := opens'
  obtain ⟨q, extent⟩ := d
  obtain ⟨q', extent'⟩ := d'
  obtain rfl : q = q' := quote
  cases extent <;> cases extent'
  case simple.triple => exact absurd ⟨inner', same.symm⟩ (single rfl)
  case triple.simple => exact absurd ⟨inner, rfl⟩ (single' rfl)
  case simple.simple => exact ⟨rfl, List.append_cancel_left same⟩
  case triple.triple => exact ⟨rfl, List.append_cancel_left same⟩

theorem Delimiter.Opens.not_plain {d : Delimiter} {c : Char} {text inner : List Char}
    (opens : d.Opens (c :: text) inner) : ¬ ∀ q : Quote, c ≠ q.symbol :=
  fun plain => plain d.quote (Option.some.inj opens.head?)

theorem ReadsCode.unique {text : List Char} {parts parts' : List Part}
    {unfinished unfinished' : Option (Delimiter × OpenBody)}
    (reads : ReadsCode text parts unfinished) (reads' : ReadsCode text parts' unfinished') :
    parts = parts' ∧ unfinished = unfinished' := by
  induction reads generalizing parts' unfinished' with
  | done =>
      cases reads' with
      | done => exact ⟨rfl, rfl⟩
      | literal opens | unfinished opens => cases opens.head?
  | code plain next ih =>
      cases reads' with
      | code plain' next' =>
          obtain ⟨rfl, rfl⟩ := ih next'
          exact ⟨rfl, rfl⟩
      | literal opens | unfinished opens => exact absurd plain opens.not_plain
  | literal opens closes next ih =>
      cases reads' with
      | done => cases opens.head?
      | code plain => exact absurd plain opens.not_plain
      | literal opens' closes' next' =>
          obtain ⟨rfl, rfl⟩ := opens.unique opens'
          obtain ⟨rfl, rfl⟩ := closes.unique closes'
          obtain ⟨rfl, rfl⟩ := ih next'
          exact ⟨rfl, rfl⟩
      | unfinished opens' stays' =>
          obtain ⟨rfl, rfl⟩ := opens.unique opens'
          exact absurd stays' closes.not_stays
  | unfinished opens stays =>
      cases reads' with
      | done => cases opens.head?
      | code plain => exact absurd plain opens.not_plain
      | literal opens' closes' =>
          obtain ⟨rfl, rfl⟩ := opens.unique opens'
          exact absurd stays closes'.not_stays
      | unfinished opens' stays' =>
          obtain ⟨rfl, rfl⟩ := opens.unique opens'
          obtain rfl := stays.unique stays'
          exact ⟨rfl, rfl⟩

theorem Reads.unique {mode : Mode} {text : List Char} {reading reading' : Reading}
    (reads : Reads mode text reading) (reads' : Reads mode text reading') : reading = reading' := by
  cases reads with
  | code reads =>
      cases reads' with
      | code reads' =>
          obtain ⟨rfl, rfl⟩ := reads.unique reads'
          rfl
  | rest closes reads =>
      cases reads' with
      | rest closes' reads' =>
          obtain ⟨rfl, rfl⟩ := closes.unique closes'
          obtain ⟨rfl, rfl⟩ := reads.unique reads'
          rfl
      | inside stays => exact absurd stays closes.not_stays
  | inside stays =>
      cases reads' with
      | rest closes => exact absurd stays closes.not_stays
      | inside stays' =>
          obtain rfl := stays.unique stays'
          rfl

/-! ## Tallies in numbers -/

theorem netOpened_cons (shape : Shape) (c : Char) (code : List Char) :
    netOpened shape (c :: code) = netOpened shape [c] + netOpened shape code := by
  simp only [netOpened, List.count_cons, List.count_nil]
  omega

theorem get_weight_ofChar (shape : Shape) (c : Char) :
    (Glyph.ofChar c).weight.get shape = Int64.ofInt (netOpened shape [c]) := by
  by_cases bracket : ∃ b : Bracket, c = b.symbol
  · obtain ⟨b, rfl⟩ := bracket
    rw [Glyph.ofChar_eq_bracket_iff.2 rfl]
    obtain ⟨_ | _, _ | _ | _⟩ := b <;> cases shape <;> decide
  · have other : ∀ b : Bracket, c ≠ b.symbol := not_exists.1 bracket
    have weightless : (Glyph.ofChar c).weight = 0 := by
      cases glyph : Glyph.ofChar c with
      | bracket b => exact absurd (Glyph.ofChar_eq_bracket_iff.1 glyph) (other b)
      | quote q | backslash | other => rfl
    rw [weightless, netOpened, List.count_singleton, List.count_singleton, beq_false_of_ne (other _),
      beq_false_of_ne (other _), Tally.get_zero]
    rfl

theorem get_codeTally (shape : Shape) (code : List Char) :
    (codeTally code).get shape = Int64.ofInt (netOpened shape code) := by
  induction code with
  | nil => exact Tally.get_zero shape
  | cons c code ih =>
      rw [netOpened_cons, Int64.ofInt_add, ← ih, ← get_weight_ofChar]
      exact Tally.get_add ..

theorem ReadsCode.code_length_le {text : List Char} {parts : List Part}
    {unfinished : Option (Delimiter × OpenBody)} (reads : ReadsCode text parts unfinished) :
    (parts.filterMap Part.code?).length ≤ text.length := by
  induction reads with
  | done | unfinished => exact Nat.zero_le _
  | code plain next ih => exact Nat.succ_le_succ ih
  | literal opens closes next ih =>
      have shorter := Nat.lt_trans closes.length_lt opens.length_lt
      exact Nat.le_trans ih (Nat.le_of_lt shorter)

theorem Reads.code_length_le {mode : Mode} {text : List Char} {reading : Reading}
    (reads : Reads mode text reading) : reading.code.length ≤ text.length := by
  cases reads with
  | code reads => exact reads.code_length_le
  | rest closes reads => exact Nat.le_trans reads.code_length_le (Nat.le_of_lt closes.length_lt)
  | inside => exact Nat.zero_le _

theorem natAbs_netOpened_le (shape : Shape) (code : List Char) :
    (netOpened shape code).natAbs ≤ code.length := by
  have opened := List.count_le_length (a := Bracket.symbol ⟨.opening, shape⟩) (l := code)
  have closed := List.count_le_length (a := Bracket.symbol ⟨.closing, shape⟩) (l := code)
  rw [netOpened]
  omega

/-! ## Every line -/

/-- A line has exactly one reading.  A walk ends in the literal that the reading leaves open, if
there is one, and tallies the brackets of its code, exactly if the counters have room. -/
theorem Mode.scan_reads (mode : Mode) (line : String) :
    ∃ reading, Reads mode line.toList reading ∧
      (∀ other, Reads mode line.toList other → other = reading) ∧
      (mode.scan line).mode.delimiter? = reading.unfinished? ∧
      ∀ shape, (mode.scan line).tally.get shape = Int64.ofInt (netOpened shape reading.code) ∧
        ((Utf8.encode line.toList).length < 2 ^ 63 →
          ((mode.scan line).tally.get shape).toInt = netOpened shape reading.code) := by
  obtain ⟨reading, reads⟩ := exists_reads mode line.toList
  have ready : (Walk.start mode).Ready (charGlyphs line.toList) := .inl (Nat.zero_le 1)
  have scan : mode.scan line =
      ⟨reading.unfinished?.elim .code .literal, codeTally reading.code⟩ := by
    rw [Mode.scan, Walk.run_byteGlyphs ready, reads.run]
  refine ⟨reading, reads, fun other otherReads => otherReads.unique reads, ?_, ?_⟩
  · rw [scan]
    cases reading.unfinished? <;> rfl
  · intro shape
    rw [scan]
    refine ⟨get_codeTally shape reading.code, fun fits => ?_⟩
    have bound := natAbs_netOpened_le shape reading.code
    have code := reads.code_length_le
    have bytes := Utf8.length_le_length_encode line.toList
    rw [get_codeTally, Int64.toInt_ofInt_of_le (by omega) (by omega)]

theorem Mode.scan_reads_backslash :
    (Utf8.encode "'''\"''' \"\\\"(\" ['\\".toList).length < 2 ^ 63 ∧
      ∃ reading, Reads .code "'''\"''' \"\\\"(\" ['\\".toList reading ∧
        ∀ shape, ((Mode.code.scan "'''\"''' \"\\\"(\" ['\\").tally.get shape).toInt =
          netOpened shape reading.code := by
  have fits : (Utf8.encode "'''\"''' \"\\\"(\" ['\\".toList).length < 2 ^ 63 := by decide
  obtain ⟨reading, reads, -, -, tally⟩ := Mode.scan_reads .code "'''\"''' \"\\\"(\" ['\\"
  exact ⟨fits, reading, reads, fun shape => (tally shape).2 fits⟩

end BracketTally
