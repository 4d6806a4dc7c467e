import BracketTally.Text.CodeRanges

namespace BracketTally.Text

def blankRanges : CodeRanges :=
  [(0x09, 0x0D), (0x20, 0x20), (0x85, 0x85), (0xA0, 0xA0), (0x1680, 0x1680), (0x2000, 0x200A),
    (0x2028, 0x2029), (0x202F, 0x202F), (0x205F, 0x205F), (0x3000, 0x3000)]

def isBlank (c : Char) : Bool := blankRanges.has c

def trimStart (text : List Char) : List Char := text.dropWhile isBlank

def trimEnd (text : List Char) : List Char := (text.reverse.dropWhile isBlank).reverse

def trim (text : List Char) : List Char := trimEnd (trimStart text)

/-! ## Laws -/

theorem dropWhile_head?_not {α : Type} (p : α → Bool) (l : List α) (a : α)
    (h : (l.dropWhile p).head? = some a) : p a = false := by
  have hl := List.head?_dropWhile_not p l
  rw [h] at hl
  simpa using hl

theorem getLast?_trimEnd_not_blank {text : List Char} {c : Char}
    (h : (trimEnd text).getLast? = some c) : isBlank c = false := by
  rw [trimEnd, List.getLast?_reverse] at h
  exact dropWhile_head?_not isBlank _ c h

theorem getLast?_trim_not_blank {text : List Char} {c : Char}
    (h : (trim text).getLast? = some c) : isBlank c = false := getLast?_trimEnd_not_blank h

/-! ## Blanks at the ends -/

def AllBlank (text : List Char) : Prop := ∀ c ∈ text, isBlank c = true

instance (text : List Char) : Decidable (AllBlank text) :=
  List.decidableBAll (fun c => isBlank c = true) text

variable {before text after : List Char}

theorem AllBlank.reverse (blank : AllBlank text) : AllBlank text.reverse :=
  fun c member => blank c (List.mem_reverse.1 member)

theorem allBlank_takeWhile (text : List Char) : AllBlank (text.takeWhile isBlank) :=
  List.all_eq_true.1 List.all_takeWhile

theorem exists_trimEnd_append (text : List Char) :
    ∃ after, AllBlank after ∧ text = trimEnd text ++ after := by
  refine ⟨(text.reverse.takeWhile isBlank).reverse, (allBlank_takeWhile _).reverse, ?_⟩
  rw [trimEnd, ← List.reverse_append, List.takeWhile_append_dropWhile, List.reverse_reverse]

theorem exists_trim_between (text : List Char) :
    ∃ before after, AllBlank before ∧ AllBlank after ∧ text = before ++ trim text ++ after := by
  obtain ⟨after, last, rest⟩ := exists_trimEnd_append (trimStart text)
  refine ⟨text.takeWhile isBlank, after, allBlank_takeWhile text, last, ?_⟩
  rw [List.append_assoc, trim, ← rest, trimStart, List.takeWhile_append_dropWhile]

theorem head?_trim_not_blank {text : List Char} {c : Char}
    (h : (trim text).head? = some c) : isBlank c = false := by
  obtain ⟨after, -, same⟩ := exists_trimEnd_append (trimStart text)
  have start : (trimStart text).head? = some c := by
    rw [same, List.head?_append, ← trim, h]
    rfl
  exact dropWhile_head?_not isBlank text c start

theorem trimStart_append (blank : AllBlank before) (text : List Char) :
    trimStart (before ++ text) = trimStart text :=
  List.dropWhile_append_of_pos blank

theorem trimEnd_append (text : List Char) (blank : AllBlank after) :
    trimEnd (text ++ after) = trimEnd text := by
  rw [trimEnd, List.reverse_append, List.dropWhile_append_of_pos blank.reverse, trimEnd]

theorem trim_between (first : AllBlank before) (text : List Char) (last : AllBlank after) :
    trim (before ++ text ++ after) = trim text := by
  rw [List.append_assoc, trim, trimStart_append first, trim, trimStart, List.dropWhile_append,
    trimStart]
  -- a text of blanks vanishes from the start already, and with it those behind it
  cases text.dropWhile isBlank with
  | nil =>
      have none := trimStart_append last []
      rw [List.append_nil] at none
      exact congrArg trimEnd none
  | cons c rest => exact trimEnd_append (c :: rest) last

/-! ## No blanks at the ends -/

theorem trimStart_eq_self (bare : ∀ c ∈ text.head?, isBlank c = false) : trimStart text = text := by
  cases text with
  | nil => rfl
  | cons c rest => exact List.dropWhile_cons_of_neg (Bool.eq_false_iff.1 (bare c rfl))

theorem trimEnd_eq_self (bare : ∀ c ∈ text.getLast?, isBlank c = false) : trimEnd text = text := by
  have start : trimStart text.reverse = text.reverse := by
    apply trimStart_eq_self
    rwa [List.head?_reverse]
  rw [trimEnd, ← trimStart, start, List.reverse_reverse]

end BracketTally.Text
