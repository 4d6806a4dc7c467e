/-!
# What a terminal shows

A text from outside can hold sequences that a terminal obeys instead of printing them.  A sequence
starts with an escape character and is

* two characters, or more with intermediates;
* a control sequence, up to its final letter;
* a command, up to a bell;
* a device string, which has a header up to a letter, or a string.  Both end at a terminator, a
  byte that occurs in other characters too; the header does not.

White space inside a sequence of the first two kinds is shown.  In a text it ends the sequence.  In
a stream it suspends it: text is shown up to the next control, and then the sequence goes on, unless
a character beyond ASCII was among that text.
-/

namespace BracketTally.Text.Terminal

/-! ## Sequences -/

inductive Header
  | opening
  | parameters
  | intermediates

inductive Sequence
  | escape
  | intermediate
  | control
  | command
  | device (header : Header)
  | string

inductive State
  | plain
  | inside (sequence : Sequence)
  | suspended (sequence : Sequence)

def stringTerminator : UInt8 := 0x9C

def endsString (c : Char) : Bool := (String.utf8EncodeChar c).contains stringTerminator

def Header.step (header : Header) (code : Nat) : Sequence :=
  if code < 0x20 ∨ 0x7F ≤ code then .device header
  else if code < 0x30 then .device .intermediates
  else if code < 0x3C then
    match header with
    | .intermediates => .string
    | _ => .device .parameters
  else if code < 0x40 then
    match header with
    | .opening => .device .parameters
    | _ => .string
  else .string

def Sequence.step (s : Sequence) (c : Char) : State :=
  let code := c.toNat
  match s with
  | .escape =>
      if code < 0x20 ∨ 0x7F ≤ code then .inside s
      else if code < 0x30 then .inside .intermediate
      else if code = 0x50 then .inside (.device .opening)
      else if code = 0x5B then .inside .control
      else if code = 0x5D then .inside .command
      else if code ∈ [0x58, 0x5E, 0x5F] then .inside .string
      else .plain
  | .intermediate => if code < 0x30 ∨ 0x7F ≤ code then .inside s else .plain
  | .control => if 0x40 ≤ code ∧ code < 0x7F then .plain else .inside s
  | .command => if code = 0x07 then .plain else .inside s
  | .device header => .inside (header.step code)
  | .string => if endsString c then .plain else .inside s

/-! ## What is shown -/

def isSpacing (code : Nat) : Bool := code ∈ [0x09, 0x0A, 0x0C, 0x0D]

def isPlain (code : Nat) : Bool := isSpacing code || (0x20 ≤ code && code != 0x7F)

def State.shows : State → Nat → Bool
  | .plain, code | .suspended _, code => isPlain code
  | .inside .escape, code | .inside .intermediate, code | .inside .control, code => isSpacing code
  | .inside _, _ => false

inductive Medium
  | text
  | stream

def State.afterShown (state : State) (medium : Medium) (code : Nat) : State :=
  match state, medium with
  | .plain, _ | .inside _, .text => .plain
  | .inside s, .stream => .suspended s
  | .suspended s, _ => if code < 0x80 then .suspended s else .plain

def State.afterHidden (state : State) (c : Char) : State :=
  match state with
  | .plain => .plain
  | .inside s | .suspended s => s.step c

def showFrom (medium : Medium) (state : State) : List Char → List Char
  | [] => []
  | c :: text =>
      let code := c.toNat
      if code = 0x1B then showFrom medium (.inside .escape) text
      else if code = 0x18 ∨ code = 0x1A then showFrom medium .plain text
      else if state.shows code then c :: showFrom medium (state.afterShown medium code) text
      else showFrom medium (state.afterHidden c) text

def shown (medium : Medium) (text : String) : String :=
  String.ofList (showFrom medium .plain text.toList)

/-! ## Plain text -/

theorem showFrom_plain_append (medium : Medium) {text : List Char}
    (plain : ∀ c ∈ text, isPlain c.toNat = true) (rest : List Char) :
    showFrom medium .plain (text ++ rest) = text ++ showFrom medium .plain rest := by
  induction text with
  | nil => rfl
  | cons c text ih =>
      have here : isPlain c.toNat = true := plain c (List.mem_cons_self ..)
      have escapes : c.toNat ≠ 0x1B ∧ ¬(c.toNat = 0x18 ∨ c.toNat = 0x1A) := by
        refine ⟨?_, ?_⟩
        · intro same
          rw [same] at here
          exact absurd here (by decide)
        · rintro (same | same) <;> rw [same] at here <;> exact absurd here (by decide)
      rw [List.cons_append, showFrom, if_neg escapes.1, if_neg escapes.2, State.shows, if_pos here]
      exact congrArg (c :: ·) (ih fun d hd => plain d (List.mem_cons_of_mem _ hd))

theorem showFrom_plain (medium : Medium) {text : List Char}
    (plain : ∀ c ∈ text, isPlain c.toNat = true) : showFrom medium .plain text = text := by
  have whole := showFrom_plain_append medium plain []
  rwa [List.append_nil, showFrom, List.append_nil] at whole

theorem isPlain_of_shows {state : State} {code : Nat} (h : state.shows code = true) :
    isPlain code = true := by
  cases state with
  | plain => exact h
  | suspended s => exact h
  | inside s =>
      cases s with
      | escape | intermediate | control => exact Bool.or_eq_true_iff.mpr (.inl h)
      | command | device | string => cases h

theorem isPlain_of_mem_showFrom {medium : Medium} {state : State} {text : List Char} {c : Char}
    (h : c ∈ showFrom medium state text) : isPlain c.toNat = true := by
  induction text generalizing state with
  | nil => cases h
  | cons d text ih =>
      rw [showFrom] at h
      split at h
      · exact ih h
      · split at h
        · exact ih h
        · split at h
          · rename_i shows
            rcases List.mem_cons.mp h with same | rest
            · rw [same]
              exact isPlain_of_shows shows
            · exact ih rest
          · exact ih h

end BracketTally.Text.Terminal
