import BracketTally.Report.Layout
import BracketTally.Text.Terminal

namespace BracketTally

open Text.Terminal

/-! ## One line of text -/

def OneLine (text : String) : Prop := '\n' ∉ text.toList

instance (text : String) : Decidable (OneLine text) := inferInstanceAs (Decidable (_ ∉ _))

theorem OneLine.append {s t : String} (first : OneLine s) (second : OneLine t) :
    OneLine (s ++ t) := by
  rw [OneLine, String.toList_append, List.mem_append, not_or]
  exact ⟨first, second⟩

theorem oneLine_decimal (n : Nat) : OneLine (Text.decimal n) := by
  rw [OneLine, Text.decimal, String.toList_ofList]
  intro member
  exact absurd (Nat.isDigit_of_mem_toDigits (by decide) (by decide) member) (by decide)

/-! ## Plain text -/

def Plain (text : String) : Prop := ∀ c ∈ text.toList, isPlain c.toNat = true

instance (text : String) : Decidable (Plain text) :=
  List.decidableBAll (fun c : Char => isPlain c.toNat = true) text.toList

/-- What is seen of the text. -/
def sight (text : String) : List Char := showFrom .text .plain text.toList

theorem sight_append {start : String} (plain : Plain start) (rest : String) :
    sight (start ++ rest) = start.toList ++ sight rest := by
  rw [sight, String.toList_append, showFrom_plain_append .text plain, sight]

theorem Plain.sight {text : String} (plain : Plain text) : sight text = text.toList :=
  showFrom_plain .text plain

theorem plain_decimal (n : Nat) : Plain (Text.decimal n) := by
  rw [Plain, Text.decimal, String.toList_ofList]
  intro c member
  have digit := Nat.isDigit_of_mem_toDigits (by decide) (by decide) member
  simp only [Char.isDigit, Bool.and_eq_true, decide_eq_true_eq, ge_iff_le,
    UInt32.le_iff_toNat_le] at digit
  obtain ⟨low, high⟩ : 48 ≤ c.toNat ∧ c.toNat ≤ 57 := digit
  simp only [isPlain, Bool.or_eq_true, Bool.and_eq_true, decide_eq_true_eq, bne_iff_ne]
  omega

namespace Painter

/-! ## What painting leaves as it is -/

def KeepsLines (painter : Painter) : Prop :=
  ∀ style text, OneLine text → OneLine (painter.paint style text)

/-- Where a plain text is painted, a terminal shows that text, and then whatever follows. -/
def Shows (painter : Painter) : Prop :=
  ∀ medium style text rest, Plain text →
    showFrom medium .plain ((painter.paint style text).toList ++ rest) =
      text.toList ++ showFrom medium .plain rest

variable {painter : Painter}

theorem Shows.sight_append (shows : painter.Shows) (style : Style) {text : String}
    (plain : Plain text) (rest : String) :
    sight (painter.paint style text ++ rest) = text.toList ++ sight rest := by
  rw [sight, String.toList_append, shows .text style text _ plain, sight]

theorem Shows.sight (shows : painter.Shows) (style : Style) {text : String} (plain : Plain text) :
    sight (painter.paint style text) = text.toList := by
  have whole := shows .text style text [] plain
  rwa [List.append_nil, showFrom, List.append_nil] at whole

theorem Shows.shown (shows : painter.Shows) (medium : Medium) (style : Style) {text : String}
    (plain : Plain text) : Text.Terminal.shown medium (painter.paint style text) = text := by
  have whole := shows medium style text [] plain
  rw [List.append_nil, showFrom, List.append_nil] at whole
  rw [Text.Terminal.shown, whole, String.ofList_toList]

/-! ## Plain and escaped -/

theorem keepsLines_plain : plain.KeepsLines := fun _ _ line => line

theorem shows_plain : plain.Shows := fun medium _ _ rest plain =>
  showFrom_plain_append medium plain rest

theorem KeepsLines.muted (keeps : painter.KeepsLines) (off : Bool) :
    (painter.muted off).KeepsLines := by
  cases off with
  | true => exact keepsLines_plain
  | false => exact keeps

theorem Shows.muted (shows : painter.Shows) (off : Bool) : (painter.muted off).Shows := by
  cases off with
  | true => exact shows_plain
  | false => exact shows

theorem keepsLines_ansi : ansi.KeepsLines := by
  intro style text line
  have bold : OneLine (if style.bold then "1;" else "") := by
    split <;> decide
  have escape : OneLine "\x1b[" := by decide
  have letter : OneLine "m" := by decide
  have reset : OneLine Style.closing := by decide
  exact (((escape.append (bold.append (oneLine_decimal _))).append letter).append line).append reset

theorem showFrom_opening (medium : Medium) (style : Style) (rest : List Char) :
    showFrom medium .plain (style.opening.toList ++ rest) = showFrom medium .plain rest := by
  obtain ⟨bold, foreground⟩ := style
  cases bold <;> cases foreground <;> rfl

theorem showFrom_closing (medium : Medium) (rest : List Char) :
    showFrom medium .plain (Style.closing.toList ++ rest) = showFrom medium .plain rest := rfl

theorem shows_ansi : ansi.Shows := by
  intro medium style text rest plain
  simp only [ansi, String.toList_append, List.append_assoc]
  rw [showFrom_opening, showFrom_plain_append medium plain, showFrom_closing]

end Painter

/-! ## Verdicts -/

namespace Report

theorem plain_balancedMessage : Plain balancedMessage := by decide +kernel

theorem plain_unbalancedMessage : Plain unbalancedMessage := by decide +kernel

variable {painter : Painter} (shows : painter.Shows) (totals : Tally)
include shows

theorem sight_verdict : sight (verdict painter totals) = (verdict .plain totals).toList := by
  unfold verdict
  split
  · exact shows.sight _ plain_balancedMessage
  · exact shows.sight _ plain_unbalancedMessage

theorem shown_verdict (medium : Text.Terminal.Medium) :
    Text.Terminal.shown medium (verdict painter totals) = verdict .plain totals := by
  unfold verdict
  split
  · exact shows.shown medium _ plain_balancedMessage
  · exact shows.shown medium _ plain_unbalancedMessage

end Report

end BracketTally
