import BracketTally.Proofs.ReadBack
import Mathlib.Data.List.Forall2

namespace BracketTally.Report

open Text

/-! ## Snippets -/

theorem toList_snippet (text : String) :
    (snippet text).toList = (trim text.toList).take snippetWidth := by
  rw [snippet, String.toList_ofList]

theorem head?_snippet_not_blank {text : String} {c : Char}
    (first : (snippet text).toList.head? = some c) : isBlank c = false := by
  rw [toList_snippet, List.head?_take, if_neg (by decide)] at first
  exact head?_trim_not_blank first

theorem snippet_snippet (text : String) :
    (snippet (snippet text)).toList = trimEnd (snippet text).toList := by
  have start : trimStart (snippet text).toList = (snippet text).toList :=
    trimStart_eq_self fun _ first => head?_snippet_not_blank first
  have short : (trimEnd (snippet text).toList).length ≤ snippetWidth := by
    obtain ⟨after, -, parted⟩ := exists_trimEnd_append (snippet text).toList
    have length := congrArg List.length parted
    have most := List.length_take_le snippetWidth (trim text.toList)
    rw [List.length_append] at length
    rw [← toList_snippet] at most
    omega
  rw [toList_snippet, trim, start, List.take_of_length_le short]

/-- Outer blanks do not show, and of what they enclose the first 120 characters do.  A second cut
takes the blanks at the end of the first, if there are any. -/
theorem snippet_trimmed (text : String) :
    let trimmed := trim text.toList
    let cut := (snippet text).toList
    let again := (snippet (snippet text)).toList
    (∃ before after, AllBlank before ∧ AllBlank after ∧
        text.toList = before ++ trimmed ++ after ∧
        (∀ c ∈ trimmed.head?, isBlank c = false) ∧ ∀ c ∈ trimmed.getLast?, isBlank c = false) ∧
      (∀ before after : String, AllBlank before.toList → AllBlank after.toList →
        snippet (before ++ text ++ after) = snippet text) ∧
      cut <+: trimmed ∧ cut.length = min 120 trimmed.length ∧
      (∀ c ∈ cut.head?, isBlank c = false) ∧
      (∃ blanks, AllBlank blanks ∧ cut = again ++ blanks ∧
        ∀ c ∈ again.getLast?, isBlank c = false) ∧
      (trimmed.length ≤ 120 → snippet (snippet text) = snippet text) := by
  intro trimmed cut again
  have taken : cut = trimmed.take snippetWidth := toList_snippet text
  have same : again = trimEnd cut := snippet_snippet text
  refine ⟨?between, ?added, ?cut, ?length, fun _ => head?_snippet_not_blank, ?again, ?short⟩
  case between =>
    obtain ⟨before, after, first, last, parted⟩ := exists_trim_between text.toList
    exact ⟨before, after, first, last, parted, fun _ => head?_trim_not_blank,
      fun _ => getLast?_trim_not_blank⟩
  case added =>
    intro before after first last
    rw [snippet, String.toList_append, String.toList_append, trim_between first _ last, snippet]
  case cut =>
    rw [taken]
    exact List.take_prefix snippetWidth trimmed
  case length => rw [taken, List.length_take, snippetWidth]
  case again =>
    obtain ⟨blanks, all, parted⟩ := exists_trimEnd_append cut
    rw [same]
    exact ⟨blanks, all, parted, fun _ => getLast?_trimEnd_not_blank⟩
  case short =>
    intro short
    rw [snippetWidth, List.take_of_length_le short] at taken
    apply String.toList_inj.1
    rw [snippet_snippet]
    apply trimEnd_eq_self
    rw [show (snippet text).toList = trimmed from taken]
    exact fun _ => getLast?_trim_not_blank

theorem snippet_trimmed_wide_blanks :
    AllBlank "\t\u3000".toList ∧ AllBlank "\u2028 ".toList ∧
      snippet ("\t\u3000" ++ " a\u00A0 b\u0085" ++ "\u2028 ") = snippet " a\u00A0 b\u0085" ∧
      (trim " a\u00A0 b\u0085".toList).length ≤ 120 ∧
      snippet (snippet " a\u00A0 b\u0085") = snippet " a\u00A0 b\u0085" := by
  have first : AllBlank "\t\u3000".toList := by decide +kernel
  have last : AllBlank "\u2028 ".toList := by decide +kernel
  have short : (trim " a\u00A0 b\u0085".toList).length ≤ 120 := by decide +kernel
  obtain ⟨-, added, -, -, -, -, again⟩ := snippet_trimmed " a\u00A0 b\u0085"
  exact ⟨first, last, added _ _ first last, short, again short⟩

example : (snippet (snippet (String.ofList ('(' :: List.replicate 130 ' ' ++ [')'])))).toList =
    ['('] := by
  rw [snippet_snippet, toList_snippet, String.toList_ofList]
  decide +kernel

/-! ## Columns -/

/-- The field stands in the line, and the column `stop` begins behind it. -/
def EndsAt (line field : String) (stop : Nat) : Prop :=
  ∃ before rest, line = before ++ field ++ rest ∧ (before ++ field).length = stop

theorem exists_padding (text : String) : ∃ padding, column text = padding ++ text := by
  refine ⟨String.ofList (List.replicate (columnWidth - text.toList.length) ' '), ?_⟩
  apply String.toList_inj.1
  rw [column, String.toList_ofList, String.toList_append, String.toList_ofList, List.leftpad]

theorem endsAt_column {field : String} (fits : field.length ≤ columnWidth) (rest : String) :
    EndsAt (column field ++ rest) field columnWidth := by
  obtain ⟨padding, padded⟩ := exists_padding field
  have length := length_column fits
  rw [padded] at length ⊢
  exact ⟨padding, rest, rfl, length⟩

theorem EndsAt.behind {line field text : String} {stop : Nat} (ends : EndsAt line field stop)
    (fits : text.length ≤ columnWidth) :
    EndsAt (column text ++ (" " ++ line)) field (stop + 7) := by
  obtain ⟨before, rest, rfl, rfl⟩ := ends
  refine ⟨column text ++ (" " ++ before), rest, ?_, ?_⟩
  · simp only [String.append_assoc]
  · have space : " ".length = 1 := rfl
    simp only [String.length_append, length_column fits, columnWidth, space]
    omega

section Columns

variable {number curly round square : String} (hn : number.length ≤ columnWidth)
  (hc : curly.length ≤ columnWidth) (hr : round.length ≤ columnWidth)
  (hs : square.length ≤ columnWidth) (rest : String)
include hn hc hr hs

theorem forall₂_endsAt_columns :
    List.Forall₂ (EndsAt (columns number curly round square ++ rest))
      [number, curly, round, square] [6, 13, 20, 27] := by
  have shape : columns number curly round square ++ rest =
      column number ++ (" " ++ (column curly ++ (" " ++ (column round ++ (" " ++
        (column square ++ ("  " ++ rest))))))) := by
    simp only [columns, String.append_assoc]
  rw [shape]
  refine .cons (endsAt_column hn _) (.cons ?curly (.cons ?round (.cons ?square .nil)))
  case curly => exact (endsAt_column hc _).behind hn
  case round => exact ((endsAt_column hr _).behind hc).behind hn
  case square => exact (((endsAt_column hs _).behind hr).behind hc).behind hn

theorem drop_columns :
    (columns number curly round square ++ rest).toList.drop 29 = rest.toList := by
  rw [String.toList_append]
  apply List.drop_left'
  rw [String.length_toList, length_columns hn hc hr hs]

end Columns

/-- Rows look the same just if they show the same.  Numbers that fit end in the columns in which the
headings end, and the snippet begins where its heading does. -/
theorem rowLine_shows :
    (∀ row row' : Row, rowLine row = rowLine row' ↔
      row.number = row'.number ∧ row.totals = row'.totals ∧
        snippet row.text = snippet row'.text) ∧
      ∀ row : Row,
        let numbers := [decimal row.number, counter row.totals.curly, counter row.totals.round,
          counter row.totals.square]
        let headings := ["LINE", "\x7b \x7d", "( )", "[ ]"]
        (∀ number ∈ numbers, number.length ≤ 6) →
          (rowLine row).toList.drop 29 = (snippet row.text).toList ∧
          header.toList.drop 29 = "SNIPPET".toList ∧ 29 ≤ (rowLine row).length ∧
          List.Forall₂ (EndsAt (rowLine row)) numbers [6, 13, 20, 27] ∧
          List.Forall₂ (EndsAt header) headings [6, 13, 20, 27] := by
  refine ⟨fun row row' => ⟨?read, ?shown⟩, ?aligned⟩
  case read =>
    intro same
    have cut := row?_rowLine row
    rw [same, row?_rowLine] at cut
    obtain ⟨number, totals, text⟩ := Row.mk.inj (Option.some.inj cut)
    exact ⟨number.symm, totals.symm, text.symm⟩
  case shown =>
    rintro ⟨number, totals, text⟩
    rw [rowLine, rowLine, number, totals, text]
  case aligned =>
    intro row numbers headings fit
    simp only [numbers, List.forall_mem_cons] at fit
    obtain ⟨hn, hc, hr, hs, -⟩ := fit
    have long : 29 ≤ (rowLine row).length := by
      rw [rowLine, String.length_append, length_columns hn hc hr hs]
      exact Nat.le_add_right ..
    refine ⟨drop_columns hn hc hr hs _, ?_, long, forall₂_endsAt_columns hn hc hr hs _, ?_⟩
    · exact drop_columns (by decide) (by decide) (by decide) (by decide) _
    · exact forall₂_endsAt_columns (by decide) (by decide) (by decide) (by decide) _

theorem rowLine_shows_full_columns :
    let row : Row := ⟨123456, ⟨-12345, 0, 999999⟩, "\t-7 ("⟩
    let numbers := [decimal row.number, counter row.totals.curly, counter row.totals.round,
      counter row.totals.square]
    numbers = ["123456", "-12345", "0", "999999"] ∧ (∀ number ∈ numbers, number.length ≤ 6) ∧
      (rowLine row).toList.drop 29 = "-7 (".toList ∧
      List.Forall₂ (EndsAt (rowLine row)) numbers [6, 13, 20, 27] ∧
      rowLine row ≠ rowLine { row with totals := ⟨-12345, 0, -999999⟩ } := by
  intro row numbers
  have written : numbers = ["123456", "-12345", "0", "999999"] := by decide +kernel
  have fit : ∀ number ∈ numbers, number.length ≤ 6 := by
    rw [written]
    decide
  have cut : (snippet row.text).toList = "-7 (".toList := by decide
  obtain ⟨shows, aligned⟩ := rowLine_shows
  obtain ⟨snippet, -, -, ends, -⟩ := aligned row fit
  refine ⟨written, fit, snippet.trans cut, ends, fun same => ?_⟩
  exact absurd ((shows _ _).1 same).2.1 (by decide)

end BracketTally.Report
