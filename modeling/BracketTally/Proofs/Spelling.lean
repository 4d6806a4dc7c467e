import BracketTally.Proofs.Outcomes
import BracketTally.Proofs.Redelivery
import Mathlib.Data.List.Chain

namespace BracketTally

namespace Line

/-! ## Spellings that are kept -/

/-- The two endings do not become one. -/
def Apart (l next : Line) : Prop :=
  l.ending = .carriageReturn → next.text = [] → next.ending ≠ .lineFeed

theorem Apart.of_ne {l next : Line} (other : l.ending ≠ .carriageReturn) : Apart l next :=
  fun same => absurd same other

structure Spelled (lines : List Line) : Prop where
  clean : ∀ l ∈ lines, Clean l.text
  ended : Ended lines
  visible : ∀ l ∈ lines, l.ending = .missing → l.text ≠ []
  apart : lines.IsChain Apart

theorem Ended.tail {l : Line} {lines : List Line} (ended : Ended (l :: lines)) : Ended lines := by
  cases ended with
  | last => exact .nil
  | more _ next => exact next

theorem Spelled.tail {l : Line} {lines : List Line} (spelled : Spelled (l :: lines)) :
    Spelled lines where
  clean := fun l' member => spelled.clean l' (List.mem_cons_of_mem l member)
  ended := spelled.ended.tail
  visible := fun l' member => spelled.visible l' (List.mem_cons_of_mem l member)
  apart := spelled.apart.tail

/-! ## Lines from left to right -/

theorem cutFrom_clean_append {before text : List Char} (clean : Clean text) (rest : List Char) :
    cutFrom before (text ++ rest) = cutFrom (before ++ text) rest := by
  induction text generalizing before with
  | nil => rw [List.nil_append, List.append_nil]
  | cons c text ih =>
      simp only [Clean, List.mem_cons, not_or] at clean
      obtain ⟨⟨carriageReturn, noCarriageReturn⟩, lineFeed, noLineFeed⟩ := clean
      rw [List.cons_append, cutFrom_plain before (Ne.symm carriageReturn) (Ne.symm lineFeed),
        ih ⟨noCarriageReturn, noLineFeed⟩, List.append_assoc, List.singleton_append]

theorem Spelled.head_of_lineFeed {lines : List Line} (spelled : Spelled lines) {rest : List Char}
    (starts : lines.flatMap whole = '\n' :: rest) :
    ∃ l ∈ lines.head?, l.text = [] ∧ l.ending = .lineFeed := by
  cases lines with
  | nil => cases starts
  | cons l lines =>
      refine ⟨l, rfl, ?_⟩
      obtain ⟨text, ending⟩ := l
      -- a text starts with a line feed only if its first line is that ending and no more
      have clean := (spelled.clean _ (List.mem_cons_self ..)).2
      have visible := spelled.visible _ (List.mem_cons_self ..)
      cases text with
      | cons c text =>
          cases starts
          exact absurd (List.mem_cons_self ..) clean
      | nil =>
          cases ending with
          | lineFeed => exact ⟨rfl, rfl⟩
          | missing => exact absurd rfl (visible rfl)
          | carriageReturn | both => cases starts

theorem Spelled.cut_whole {lines : List Line} (spelled : Spelled lines) :
    cut (lines.flatMap whole) = lines := by
  induction lines with
  | nil => rfl
  | cons l lines ih =>
      have later := ih spelled.tail
      have clean := spelled.clean l (List.mem_cons_self ..)
      have visible := spelled.visible l (List.mem_cons_self ..)
      have ended := spelled.ended
      have apart := (List.isChain_cons.1 spelled.apart).1
      obtain ⟨text, ending⟩ := l
      rw [List.flatMap_cons, whole, List.append_assoc, cut, cutFrom_clean_append clean,
        List.nil_append]
      cases ending with
      | lineFeed => exact (cutFrom_lineFeed text _).trans (congrArg _ later)
      | both => exact (cutFrom_both text _).trans (congrArg _ later)
      | carriageReturn =>
          refine (cutFrom_carriageReturn text ?_).trans (congrArg _ later)
          intro rest starts
          obtain ⟨next, head, empty, lineFeed⟩ := spelled.tail.head_of_lineFeed starts
          exact apart next head rfl empty lineFeed
      | missing =>
          cases ended with
          | last => exact if_neg (visible rfl)
          | more some_ending => exact absurd rfl some_ending

theorem cutFrom_visible (before text : List Char) :
    ∀ l ∈ cutFrom before text, l.ending = .missing → l.text ≠ [] := by
  induction before, text using cutFrom.induct with
  | case1 => simp [cutFrom]
  | case2 before nonempty => simp [cutFrom, nonempty]
  | case3 before rest ih => simpa [cut] using ih
  | case4 before rest alone ih => simpa [cutFrom_carriageReturn before alone, cut] using ih
  | case5 before rest ih => simpa [cut] using ih
  | case6 before c rest _ carriageReturn lineFeed ih =>
      rwa [cutFrom_plain before carriageReturn lineFeed]

theorem cutFrom_apart (before text : List Char) : (cutFrom before text).IsChain Apart := by
  induction before, text using cutFrom.induct with
  | case1 => exact .nil
  | case2 before nonempty =>
      rw [cutFrom, if_neg nonempty]
      exact .singleton _
  | case3 before rest ih => exact List.isChain_cons.2 ⟨fun _ _ => .of_ne (by simp), ih⟩
  | case4 before rest alone ih =>
      rw [cutFrom_carriageReturn before alone]
      refine List.isChain_cons.2 ⟨?_, ih⟩
      -- otherwise the rest would start with the line feed
      intro next head _ empty lineFeed
      obtain ⟨lines, found⟩ := List.head?_eq_some_iff.1 head
      have same := whole_cut rest
      rw [found, List.flatMap_cons, whole, empty, lineFeed] at same
      exact alone _ same.symm
  | case5 before rest ih => exact List.isChain_cons.2 ⟨fun _ _ => .of_ne (by simp), ih⟩
  | case6 before c rest _ carriageReturn lineFeed ih =>
      rwa [cutFrom_plain before carriageReturn lineFeed]

theorem spelled_cut (text : List Char) : Spelled (cut text) :=
  ⟨cut_clean, cut_ended text, cutFrom_visible [] text, cutFrom_apart [] text⟩

theorem spelled_iff {lines : List Line} : Spelled lines ↔ cut (lines.flatMap whole) = lines :=
  ⟨Spelled.cut_whole, fun same => same ▸ spelled_cut _⟩

/-! ## Other endings for the same texts -/

def respell (choice : Ending → Ending) (l : Line) : Line := ⟨l.text, choice l.ending⟩

theorem string_respell (choice : Ending → Ending) (lines : List Line) :
    (lines.map (respell choice)).map string = lines.map string := List.map_map

theorem Ended.respell {choice : Ending → Ending} (keeps : ∀ e, choice e = .missing → e = .missing)
    {lines : List Line} (ended : Ended lines) : Ended (lines.map (respell choice)) := by
  induction ended with
  | nil => exact .nil
  | last l => exact .last _
  | more some_ending _ ih => exact .more (fun none => some_ending (keeps _ none)) ih

theorem Spelled.respell {choice : Ending → Ending} (other : ∀ e, choice e ≠ .carriageReturn)
    (keeps : ∀ e, choice e = .missing → e = .missing) {lines : List Line}
    (spelled : Spelled lines) : Spelled (lines.map (respell choice)) where
  clean := List.forall_mem_map.2 spelled.clean
  ended := spelled.ended.respell keeps
  visible := List.forall_mem_map.2 fun l member none => spelled.visible l member (keeps _ none)
  apart := by
    rw [List.isChain_map]
    exact spelled.apart.imp fun l _ _ => .of_ne (other l.ending)

end Line

namespace Ending

def asLineFeed : Ending → Ending
  | missing => missing
  | lineFeed | carriageReturn | both => lineFeed

theorem asLineFeed_ne_carriageReturn (e : Ending) : e.asLineFeed ≠ carriageReturn := by
  cases e <;> nofun

theorem eq_missing_of_asLineFeed (e : Ending) (none : e.asLineFeed = missing) : e = missing := by
  cases e with
  | missing => rfl
  | lineFeed | carriageReturn | both => cases none

end Ending

/-! ## Readers and runs -/

theorem Reader.untilEnd_spelled {lines : List Line} (spelled : Line.Spelled lines)
    {script : List Read} (delivers : Delivers script (Utf8.encode (lines.flatMap Line.whole))) :
    (ofScript script).untilEnd = lines.map fun l => .ok l.string := by
  rw [untilEnd_delivered delivers, Piece.items_encode, spelled.cut_whole]

theorem readPath_spelled {lines : List Line} (spelled : Line.Spelled lines) {script : List Read}
    (delivers : Delivers script (Utf8.encode (lines.flatMap Line.whole)))
    {openPath : RawText → Except Fault (List Read)} {path : RawText}
    (opened : openPath path = .ok script) :
    readPath openPath path = .ok (lines.map Line.string) := by
  have items : (Reader.ofScript script).untilEnd = (lines.map Line.string).map .ok := by
    rw [Reader.untilEnd_spelled spelled delivers, List.map_map]
    rfl
  simp only [readPath, opened, Reader.lines_of_untilEnd items]

theorem run_congr_readPath (painter : Painter) (sink : Sink)
    {openPath openPath' : RawText → Except Fault (List Read)} {arguments : CommandLine.Arguments}
    (same : ∀ path ∈ arguments.path, readPath openPath path = readPath openPath' path) :
    run ⟨painter, sink, openPath⟩ arguments = run ⟨painter, sink, openPath'⟩ arguments := by
  cases named : arguments.path with
  | none => simp only [run, named]
  | some path => simp only [run, named, same path named]

/-- Whatever the endings are, the texts are read, and the run is that on a file with line feeds in
their place, with or without one behind the last text. -/
theorem run_spelling {lines : List Line} (spelled : Line.Spelled lines) {script : List Read}
    (delivers : Delivers script (Utf8.encode (lines.flatMap Line.whole))) :
    (Reader.ofScript script).untilEnd = lines.map (fun l => .ok l.string) ∧
    ∀ plain, plain = lines.map (Line.respell Ending.asLineFeed) ∨
        plain = lines.map (Line.respell fun _ => .lineFeed) →
      ∀ script', Delivers script' (Utf8.encode (plain.flatMap Line.whole)) →
        ∀ painter sink openPath openPath' arguments,
          (∀ path ∈ arguments.path, openPath path = .ok script ∧ openPath' path = .ok script') →
          run ⟨painter, sink, openPath⟩ arguments = run ⟨painter, sink, openPath'⟩ arguments := by
  refine ⟨Reader.untilEnd_spelled spelled delivers, ?_⟩
  intro plain chosen script' delivers' painter sink openPath openPath' arguments opened
  have kept : Line.Spelled plain ∧ plain.map Line.string = lines.map Line.string := by
    rcases chosen with rfl | rfl
    · exact ⟨spelled.respell Ending.asLineFeed_ne_carriageReturn Ending.eq_missing_of_asLineFeed,
        Line.string_respell _ lines⟩
    · exact ⟨@Line.Spelled.respell (fun _ => .lineFeed) (fun _ => nofun) (fun _ => nofun) _ spelled,
        Line.string_respell _ lines⟩
  apply run_congr_readPath
  intro path named
  obtain ⟨opened, opened'⟩ := opened path named
  rw [readPath_spelled spelled delivers opened, readPath_spelled kept.1 delivers' opened', kept.2]

theorem run_spelling_mixed :
    (Reader.ofScript [.data [0x28, 0x0D, 0x0D, 0x0A, 0x22, 0x5C, 0x0A, 0x29]]).untilEnd =
      [.ok "(", .ok "", .ok "\"\\", .ok ")"] ∧
    run ⟨.ansi, .endless, fun _ => .ok [.data [0x28, 0x0D, 0x0D, 0x0A, 0x22, 0x5C, 0x0A, 0x29]]⟩
        ⟨some "a", true, true, true, false⟩ =
      run ⟨.ansi, .endless, fun _ => .ok [.data [0x28, 0x0A, 0x0A, 0x22, 0x5C, 0x0A, 0x29, 0x0A]]⟩
        ⟨some "a", true, true, true, false⟩ := by
  have spelled : Line.Spelled [⟨['('], .carriageReturn⟩, ⟨[], .both⟩, ⟨['"', '\\'], .lineFeed⟩,
      ⟨[')'], .missing⟩] := Line.spelled_iff.2 rfl
  obtain ⟨answers, runs⟩ := run_spelling spelled (.at_once (by decide))
  exact ⟨answers, runs _ (.inr rfl) _ (.at_once (by decide)) .ansi .endless _ _ _
    fun _ _ => ⟨rfl, rfl⟩⟩

end BracketTally
