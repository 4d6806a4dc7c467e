import BracketTally.Proofs.Utf8
import BracketTally.Reader

/-!
# Universal newlines

A text is cut into lines from left to right: a line ends at `\r\n`, at any other `\r` and at any
other `\n`; what stands after the last of them is a line too unless it is empty.  The reader does not
go from left to right, and finds the same lines (`Piece.lines_encode`).
-/

namespace BracketTally

/-- `missing` stands only where the text stops. -/
inductive Ending
  | lineFeed
  | carriageReturn
  | both
  | missing

def Ending.chars : Ending → List Char
  | lineFeed => ['\n']
  | carriageReturn => ['\r']
  | both => ['\r', '\n']
  | missing => []

structure Line where
  text : List Char
  ending : Ending

namespace Line

def whole (l : Line) : List Char := l.text ++ l.ending.chars

def string (l : Line) : String := String.ofList l.text

/-- The lines of a text; `before` is what has been passed of the first of them. -/
def cutFrom (before : List Char) : List Char → List Line
  | [] => if before = [] then [] else [⟨before, .missing⟩]
  | '\r' :: '\n' :: rest => ⟨before, .both⟩ :: cutFrom [] rest
  | '\r' :: rest => ⟨before, .carriageReturn⟩ :: cutFrom [] rest
  | '\n' :: rest => ⟨before, .lineFeed⟩ :: cutFrom [] rest
  | c :: rest => cutFrom (before ++ [c]) rest

def cut (text : List Char) : List Line := cutFrom [] text

/-! ## Equations -/

section Equations

variable (before : List Char)

@[simp]
theorem cutFrom_both (rest : List Char) :
    cutFrom before ('\r' :: '\n' :: rest) = ⟨before, .both⟩ :: cut rest := rfl

@[simp]
theorem cutFrom_lineFeed (rest : List Char) :
    cutFrom before ('\n' :: rest) = ⟨before, .lineFeed⟩ :: cut rest := rfl

theorem cutFrom_carriageReturn {rest : List Char} (alone : ∀ rest', rest ≠ '\n' :: rest') :
    cutFrom before ('\r' :: rest) = ⟨before, .carriageReturn⟩ :: cut rest := by
  rw [cutFrom]
  · rfl
  · exact alone

theorem cutFrom_plain {c : Char} (carriageReturn : c ≠ '\r') (lineFeed : c ≠ '\n')
    (rest : List Char) : cutFrom before (c :: rest) = cutFrom (before ++ [c]) rest := by
  rw [cutFrom]
  · exact fun _ same _ => carriageReturn same
  · exact carriageReturn
  · exact lineFeed

theorem cutFrom_ending {before : List Char} {e : Ending} (nonempty : before ++ e.chars ≠ []) :
    cutFrom before e.chars = [⟨before, e⟩] := by
  cases e with
  | missing =>
      rw [Ending.chars, List.append_nil] at nonempty
      exact if_neg nonempty
  | lineFeed | carriageReturn | both => rfl

end Equations

/-! ## A cut of the text -/

theorem whole_cutFrom (before text : List Char) :
    (cutFrom before text).flatMap whole = before ++ text := by
  induction before, text using cutFrom.induct with
  | case1 => rfl
  | case2 before nonempty => simp [cutFrom, nonempty, whole, Ending.chars]
  | case3 before rest ih => simp [cut, ih, whole, Ending.chars]
  | case4 before rest alone ih =>
      simp [cutFrom_carriageReturn before alone, cut, ih, whole, Ending.chars]
  | case5 before rest ih => simp [cut, ih, whole, Ending.chars]
  | case6 before c rest _ carriageReturn lineFeed ih =>
      simp [cutFrom_plain before carriageReturn lineFeed, ih]

theorem whole_cut (text : List Char) : (cut text).flatMap whole = text := whole_cutFrom [] text

def Clean (text : List Char) : Prop := '\r' ∉ text ∧ '\n' ∉ text

theorem Clean.nil : Clean [] := ⟨List.not_mem_nil, List.not_mem_nil⟩

theorem Clean.snoc {text : List Char} {c : Char} (clean : Clean text) (carriageReturn : c ≠ '\r')
    (lineFeed : c ≠ '\n') : Clean (text ++ [c]) := by
  simp only [Clean, List.mem_append, List.mem_singleton, not_or]
  exact ⟨⟨clean.1, carriageReturn.symm⟩, clean.2, lineFeed.symm⟩

theorem cutFrom_clean {before text : List Char} (clean : Clean before) :
    ∀ l ∈ cutFrom before text, Clean l.text := by
  induction before, text using cutFrom.induct with
  | case1 => simp [cutFrom]
  | case2 before nonempty => simpa [cutFrom, nonempty] using clean
  | case3 before rest ih => simpa [cut, clean] using ih .nil
  | case4 before rest alone ih =>
      simpa [cutFrom_carriageReturn before alone, cut, clean] using ih .nil
  | case5 before rest ih => simpa [cut, clean] using ih .nil
  | case6 before c rest _ carriageReturn lineFeed ih =>
      rw [cutFrom_plain before carriageReturn lineFeed]
      exact ih (clean.snoc carriageReturn lineFeed)

theorem cut_clean {text : List Char} : ∀ l ∈ cut text, Clean l.text := cutFrom_clean .nil

inductive Ended : List Line → Prop
  | nil : Ended []
  | last (l : Line) : Ended [l]
  | more {l : Line} {lines : List Line} (ended : l.ending ≠ .missing) (next : Ended lines) :
      Ended (l :: lines)

theorem cutFrom_ended (before text : List Char) : Ended (cutFrom before text) := by
  induction before, text using cutFrom.induct with
  | case1 => exact .nil
  | case2 before nonempty =>
      rw [cutFrom, if_neg nonempty]
      exact .last _
  | case3 before rest ih => exact .more nofun ih
  | case4 before rest alone ih =>
      rw [cutFrom_carriageReturn before alone]
      exact .more nofun ih
  | case5 before rest ih => exact .more nofun ih
  | case6 before c rest _ carriageReturn lineFeed ih =>
      rw [cutFrom_plain before carriageReturn lineFeed]
      exact ih

theorem cut_ended (text : List Char) : Ended (cut text) := cutFrom_ended [] text

/-! ## Between line feeds -/

theorem cutFrom_append_lineFeed (before text rest : List Char) :
    cutFrom before (text ++ '\n' :: rest) = cutFrom before (text ++ ['\n']) ++ cut rest := by
  induction before, text using cutFrom.induct with
  | case1 | case2 => rfl
  | case3 before text ih => simp [cut, ih]
  | case4 before text alone ih =>
      cases text with
      | nil => rfl
      | cons c text =>
          have still : ∀ tail rest', c :: text ++ tail ≠ '\n' :: rest' := fun tail rest' same =>
            alone text (congrArg (· :: text) (List.cons.inj same).1)
          simp only [List.cons_append] at still ih ⊢
          simp [cutFrom_carriageReturn before (still _), cut, ih]
  | case5 before text ih => simp [cut, ih]
  | case6 before c text _ carriageReturn lineFeed ih =>
      simp [cutFrom_plain before carriageReturn lineFeed, ih]

theorem cut_append_lineFeed (text rest : List Char) :
    cut (text ++ '\n' :: rest) = cut (text ++ ['\n']) ++ cut rest :=
  cutFrom_append_lineFeed [] text rest

end Line

theorem separator_induction {α : Type} [DecidableEq α] (separator : α) {motive : List α → Prop}
    (last : ∀ xs, separator ∉ xs → motive xs)
    (more : ∀ xs rest, separator ∉ xs → motive rest → motive (xs ++ separator :: rest))
    (xs : List α) : motive xs := by
  by_cases found : separator ∈ xs
  · obtain ⟨front, rest, whole, without⟩ := List.eq_append_cons_of_mem found
    have shorter : rest.length < xs.length := by
      rw [whole, List.length_append, List.length_cons]
      omega
    rw [whole]
    exact more front rest without (separator_induction separator last more rest)
  · exact last xs found
termination_by xs.length
decreasing_by exact shorter

structure Ending.Fits (e : Ending) (text : List Char) : Prop where
  inner : '\n' ∉ text
  apart : text.getLast? = some '\r' → e = .carriageReturn ∨ e = .both

namespace Ending

theorem Fits.tail {e : Ending} {c : Char} {text : List Char} (fits : e.Fits (c :: text)) :
    e.Fits text := by
  constructor
  · exact fun member => fits.inner (List.mem_cons_of_mem c member)
  · intro last
    apply fits.apart
    rw [List.getLast?_cons, last]
    rfl

theorem Fits.after_carriageReturn {e : Ending} {text : List Char} (fits : e.Fits ('\r' :: text)) :
    ∃ c rest, text ++ e.chars = c :: rest ∧ c ≠ '\n' := by
  cases text with
  | nil =>
      rcases fits.apart rfl with rfl | rfl
      · exact ⟨'\r', [], rfl, by decide⟩
      · exact ⟨'\r', ['\n'], rfl, by decide⟩
  | cons c text => exact ⟨c, text ++ e.chars, rfl, fun same => fits.inner (by simp [same])⟩

theorem exists_fits {text : List Char} (inner : '\n' ∉ text.dropLast) :
    ∃ front e, text = front ++ chars e ∧ e.Fits front := by
  rcases List.eq_nil_or_concat text with rfl | ⟨front, c, rfl⟩
  · exact ⟨[], .missing, rfl, List.not_mem_nil, nofun⟩
  rw [List.concat_eq_append, List.dropLast_concat] at inner
  by_cases lineFeed : c = '\n'
  · subst lineFeed
    by_cases carriageReturn : front.getLast? = some '\r'
    · obtain ⟨front, rfl⟩ := List.getLast?_eq_some_iff.1 carriageReturn
      refine ⟨front, .both, by simp [Ending.chars], ?_, fun _ => .inr rfl⟩
      exact fun member => inner (List.mem_append_left _ member)
    · exact ⟨front, .lineFeed, by simp [Ending.chars], inner, fun last => absurd last carriageReturn⟩
  · by_cases carriageReturn : c = '\r'
    · subst carriageReturn
      exact ⟨front, .carriageReturn, by simp [Ending.chars], inner, fun _ => .inl rfl⟩
    · refine ⟨front ++ [c], .missing, by simp [Ending.chars], ?_, ?_⟩
      · simpa [inner] using Ne.symm lineFeed
      · intro last
        rw [List.getLast?_concat, Option.some.injEq] at last
        exact absurd last carriageReturn

end Ending

theorem modifyHead_nil_append (lines : List (List Char)) : lines.modifyHead ([] ++ ·) = lines := by
  cases lines <;> rfl

namespace Line

theorem cutFrom_splitOn {before text : List Char} {e : Ending} (fits : e.Fits text)
    (nonempty : before ++ text ++ e.chars ≠ []) :
    (cutFrom before (text ++ e.chars)).map Line.text =
      (text.splitOn '\r').modifyHead (before ++ ·) := by
  induction text generalizing before with
  | nil =>
      rw [List.append_nil] at nonempty
      simp [cutFrom_ending nonempty]
  | cons c text ih =>
      rw [List.splitOn_cons_eq_if_modifyHead, List.cons_append]
      by_cases carriageReturn : c = '\r'
      · subst carriageReturn
        obtain ⟨d, rest, next, other⟩ := fits.after_carriageReturn
        have alone : ∀ rest', text ++ e.chars ≠ '\n' :: rest' := by
          intro rest' same
          rw [next] at same
          exact other (List.cons.inj same).1
        have more : [] ++ text ++ e.chars ≠ [] := by
          rw [List.nil_append, next]
          exact List.cons_ne_nil d rest
        have later := ih fits.tail more
        rw [cutFrom_carriageReturn before alone, if_pos (beq_self_eq_true _), List.map_cons, cut,
          later, modifyHead_nil_append, List.modifyHead_cons, List.append_nil]
      · have lineFeed : c ≠ '\n' := fun same => fits.inner (by simp [same])
        have more : before ++ [c] ++ text ++ e.chars ≠ [] := by simp
        have later := ih fits.tail more
        rw [cutFrom_plain before carriageReturn lineFeed, later,
          if_neg (by simpa using carriageReturn), List.modifyHead_modifyHead]
        congr 1
        funext line
        exact List.append_assoc before [c] line

end Line

/-! ## One piece -/

namespace Piece

theorem dropFinal_concat (b : UInt8) (bytes : List UInt8) : dropFinal b (bytes ++ [b]) = bytes := by
  rw [dropFinal, List.getLast?_concat, if_pos rfl, List.dropLast_concat]

theorem dropFinal_of_ne {b : UInt8} {bytes : List UInt8} (other : bytes.getLast? ≠ some b) :
    dropFinal b bytes = bytes := if_neg other

theorem eq_or_concat_of_dropFinal {b : UInt8} {bytes dropped : List UInt8}
    (drop : dropFinal b bytes = dropped) : bytes = dropped ∨ bytes = dropped ++ [b] := by
  unfold dropFinal at drop
  split at drop
  · rename_i last
    obtain ⟨front, rfl⟩ := List.getLast?_eq_some_iff.1 last
    rw [List.dropLast_concat] at drop
    exact .inr (by rw [drop])
  · exact .inl drop

theorem body_encode {text : List Char} {e : Ending} (fits : e.Fits text) :
    body (Utf8.encode (text ++ e.chars)) = Utf8.encode text := by
  have inner : (Utf8.encode text).getLast? ≠ some lineFeed := fun last =>
    fits.inner (List.mem_of_getLast? ((Utf8.getLast?_encode_ascii (a := '\n') (by decide)).1 last))
  have apart : e ≠ .carriageReturn → e ≠ .both →
      (Utf8.encode text).getLast? ≠ some carriageReturn := by
    intro alone both last
    rcases fits.apart ((Utf8.getLast?_encode_ascii (a := '\r') (by decide)).1 last) with same | same
    · exact alone same
    · exact both same
  unfold body
  rw [Utf8.encode_append]
  cases e with
  | lineFeed =>
      exact (congrArg _ (dropFinal_concat lineFeed _)).trans (dropFinal_of_ne (apart nofun nofun))
  | carriageReturn =>
      have other : (Utf8.encode text ++ [carriageReturn]).getLast? ≠ some lineFeed := by
        rw [List.getLast?_concat]
        decide
      exact (congrArg _ (dropFinal_of_ne other)).trans (dropFinal_concat carriageReturn _)
  | both =>
      have whole : Utf8.encode text ++ Utf8.encode Ending.both.chars =
          (Utf8.encode text ++ [carriageReturn]) ++ [lineFeed] :=
        (List.append_assoc _ [carriageReturn] [lineFeed]).symm
      rw [whole, dropFinal_concat, dropFinal_concat]
  | missing =>
      rw [Ending.chars, Utf8.encode_nil, List.append_nil, dropFinal_of_ne inner,
        dropFinal_of_ne (apart nofun nofun)]

theorem lines_encode {text : List Char} (inner : '\n' ∉ text.dropLast) (nonempty : text ≠ []) :
    lines (Utf8.encode text) = .ok ((Line.cut text).map Line.string) := by
  -- before its ending a piece is split at carriage returns only
  obtain ⟨front, e, rfl, fits⟩ := Ending.exists_fits inner
  have split : (Line.cut (front ++ e.chars)).map Line.text = front.splitOn '\r' :=
    (Line.cutFrom_splitOn fits nonempty).trans (modifyHead_nil_append _)
  have strings : (Line.cut (front ++ e.chars)).map Line.string =
      ((Line.cut (front ++ e.chars)).map Line.text).map String.ofList := by
    rw [List.map_map]
    rfl
  rw [lines, body_encode fits, Utf8.decode_encode, strings, split]

theorem exists_encode_of_dropFinal {c : Char} (ascii : c.toNat < 0x80) {bytes : List UInt8}
    {text : List Char} (drop : dropFinal (UInt8.ofNat c.toNat) bytes = Utf8.encode text) :
    ∃ whole, bytes = Utf8.encode whole := by
  rcases eq_or_concat_of_dropFinal drop with rfl | rfl
  · exact ⟨text, rfl⟩
  · refine ⟨text ++ [c], ?_⟩
    rw [Utf8.encode_append, Utf8.encode_cons, Utf8.encode_nil, List.append_nil,
      Utf8.encodeChar_ascii ascii]

theorem exists_encode_of_body {piece : List UInt8} {text : List Char}
    (decoded : Utf8.decode (body piece) = .ok text) : ∃ whole, piece = Utf8.encode whole := by
  obtain ⟨front, drop⟩ := exists_encode_of_dropFinal (c := '\r') (by decide)
    (Utf8.decode_eq_ok_iff.1 decoded)
  exact exists_encode_of_dropFinal (c := '\n') (by decide) drop

theorem lineFeed_inner {text : List Char} (inner : lineFeed ∉ (Utf8.encode text).dropLast) :
    '\n' ∉ text.dropLast := by
  rcases List.eq_nil_or_concat text with rfl | ⟨front, c, rfl⟩
  · exact List.not_mem_nil
  rw [List.concat_eq_append, List.dropLast_concat]
  rw [List.concat_eq_append, Utf8.encode_append, Utf8.encode_cons,
    List.dropLast_append_of_ne_nil (by simp [String.utf8EncodeChar_ne_nil])] at inner
  intro member
  exact inner (List.mem_append_left _
    ((Utf8.mem_encode_ascii (a := '\n') (by decide)).2 member))

theorem lines_cases {piece : List UInt8} (inner : lineFeed ∉ piece.dropLast) (nonempty : piece ≠ []) :
    (∃ text, Utf8.decode piece = .ok text ∧
      lines piece = .ok ((Line.cut text).map Line.string)) ∨
    ∃ whole ofBody, Utf8.decode piece = .error whole ∧ lines piece = .error ofBody := by
  cases decoded : Utf8.decode piece with
  | ok text =>
      left
      obtain rfl := Utf8.decode_eq_ok_iff.1 decoded
      refine ⟨text, rfl, lines_encode (lineFeed_inner inner) ?_⟩
      rintro rfl
      exact nonempty rfl
  | error whole =>
      right
      cases found : Utf8.decode (body piece) with
      | ok text =>
          obtain ⟨text, rfl⟩ := exists_encode_of_body found
          rw [Utf8.decode_encode] at decoded
          cases decoded
      | error ofBody => exact ⟨whole, ofBody, rfl, by rw [lines, found]⟩

end Piece

end BracketTally
