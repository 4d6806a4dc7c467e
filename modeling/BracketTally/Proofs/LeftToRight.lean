import BracketTally.CommandLine
import BracketTally.Proofs.Utf8
import Mathlib.Data.List.Induction
import Mathlib.Data.List.TakeWhile

namespace BracketTally.CommandLine

theorem bind_eq_ok_iff {ε α β : Type} {x : Except ε α} {f : α → Except ε β} {b : β} :
    x.bind f = .ok b ↔ ∃ a, x = .ok a ∧ f a = .ok b := by
  cases x with
  | error e => exact ⟨nofun, nofun⟩
  | ok a => exact ⟨fun found => ⟨a, rfl, found⟩, fun ⟨_, rfl, found⟩ => found⟩

/-! ## Bytes of words -/

theorem long_eq (name : String) : long name = ⟨dash :: dash :: Utf8.encode name.toList⟩ := by
  unfold long RawText.ofString
  rw [String.toList_append]
  rfl

theorem cluster_eq (letters : List Char) : cluster letters = ⟨dash :: Utf8.encode letters⟩ := by
  unfold cluster RawText.ofString
  rw [String.toList_ofList]
  rfl

theorem exists_encode_eq_cons {letter : Char} (other : letter ≠ '-') (letters : List Char) :
    ∃ b bytes, Utf8.encode (letter :: letters) = b :: bytes ∧ b ≠ dash := by
  obtain ⟨b, bytes, whole⟩ := List.exists_cons_of_ne_nil (@String.utf8EncodeChar_ne_nil letter)
  refine ⟨b, bytes ++ Utf8.encode letters, by rw [Utf8.encode_cons, whole]; rfl, ?_⟩
  rintro rfl
  have member : UInt8.ofNat '-'.toNat ∈ String.utf8EncodeChar letter :=
    whole ▸ List.mem_cons_self ..
  exact other ((Utf8.mem_encodeChar_ascii (by decide)).1 member)

namespace Word

theorem ofRaw_dash {second : UInt8} (other : second ≠ dash) (bytes : List UInt8) :
    ofRaw ⟨dash :: second :: bytes⟩ = ofShort (second :: bytes) := by
  unfold ofRaw
  dsimp only
  rw [if_neg (by simp), if_pos other]

theorem ofRaw_dash_dash {bytes : List UInt8} (filled : bytes ≠ []) :
    ofRaw ⟨dash :: dash :: bytes⟩ = ofLong bytes := by
  unfold ofRaw
  dsimp only
  rw [if_neg (by simp), if_neg (by simp), if_neg filled]

theorem ofRaw_long {name : String} (filled : name ≠ "") (plain : '=' ∉ name.toList) :
    ofRaw (CommandLine.long name) = long name none := by
  have bytes : Utf8.encode name.toList ≠ [] := by
    rw [ne_eq, Utf8.encode_eq_nil_iff, String.toList_eq_nil_iff]
    exact filled
  have others : ∀ b ∈ Utf8.encode name.toList, decide (b ≠ equals) = true := by
    intro b member
    rw [decide_eq_true_eq]
    rintro rfl
    exact plain ((Utf8.mem_encode_ascii (a := '=') (by decide)).1 member)
  rw [long_eq, ofRaw_dash_dash bytes, ofLong, List.dropWhile_eq_nil_iff.2 others,
    List.takeWhile_eq_self_iff.2 others]
  rfl

theorem ofRaw_cluster {letter : Char} (other : letter ≠ '-') (letters : List Char) :
    ofRaw (CommandLine.cluster (letter :: letters)) = cluster (letter :: letters) none := by
  obtain ⟨b, bytes, whole, noDash⟩ := exists_encode_eq_cons other letters
  rw [cluster_eq, whole, ofRaw_dash noDash, ← whole, ofShort, Utf8.decode_encode]

theorem eq_of_ofLong {bytes : List UInt8} {name : RawText} (taken : ofLong bytes = long name none) :
    bytes = name.bytes := by
  unfold ofLong at taken
  dsimp only at taken
  split at taken
  case h_1 whole =>
    cases taken
    rw [List.dropWhile_eq_nil_iff] at whole
    exact (List.takeWhile_eq_self_iff.2 whole).symm
  case h_2 => cases taken

theorem eq_of_ofShort {bytes : List UInt8} {letters : List Char}
    (taken : ofShort bytes = cluster letters none) : bytes = Utf8.encode letters := by
  unfold ofShort at taken
  split at taken
  case h_1 text decoded =>
    cases taken
    exact (Utf8.encode_of_decode decoded).symm
  case h_2 => cases taken

theorem exists_ofLong_eq (bytes : List UInt8) : ∃ name value, ofLong bytes = long name value := by
  unfold ofLong
  dsimp only
  split <;> exact ⟨_, _, rfl⟩

theorem exists_ofShort_eq (bytes : List UInt8) :
    ∃ letters broken, ofShort bytes = cluster letters broken := by
  unfold ofShort
  split <;> exact ⟨_, _, rfl⟩

theorem ofRaw_cases (word : RawText) :
    (ofRaw word = separator ∧ word = CommandLine.separator) ∨
      (∃ name value, ofRaw word = long name value ∧
        (value = none → word.bytes = dash :: dash :: name.bytes)) ∨
      (∃ letters broken, ofRaw word = cluster letters broken ∧
        (broken = none → word = CommandLine.cluster letters)) ∨
      (ofRaw word = operand ∧ IsOperand word) := by
  obtain ⟨bytes⟩ := word
  match bytes with
  | [] => exact .inr (.inr (.inr ⟨rfl, .inr nofun⟩))
  | [first] =>
      refine .inr (.inr (.inr ⟨rfl, ?_⟩))
      by_cases start : first = dash
      · exact .inl (congrArg ([·]) start)
      · exact .inr (mt Option.some.inj start)
  | first :: second :: bytes =>
      by_cases start : first = dash
      case neg => exact .inr (.inr (.inr ⟨if_pos start, .inr (mt Option.some.inj start)⟩))
      subst start
      by_cases again : second = dash
      case neg =>
        obtain ⟨letters, broken, taken⟩ := exists_ofShort_eq (second :: bytes)
        refine .inr (.inr (.inl ⟨letters, broken, (ofRaw_dash again bytes).trans taken, ?_⟩))
        rintro rfl
        rw [cluster_eq, eq_of_ofShort taken]
      subst again
      cases bytes with
      | nil => exact .inl ⟨rfl, rfl⟩
      | cons third bytes =>
          have filled : third :: bytes ≠ [] := List.cons_ne_nil _ _
          obtain ⟨name, value, taken⟩ := exists_ofLong_eq (third :: bytes)
          refine .inr (.inl ⟨name, value, (ofRaw_dash_dash filled).trans taken, ?_⟩)
          rintro rfl
          rw [eq_of_ofLong taken]

theorem ofRaw_separator_iff {word : RawText} :
    ofRaw word = separator ↔ word = CommandLine.separator := by
  constructor
  · intro taken
    rcases ofRaw_cases word with ⟨-, same⟩ | ⟨_, _, other, -⟩ | ⟨_, _, other, -⟩ | ⟨other, -⟩
    · exact same
    all_goals
      rw [taken] at other
      cases other
  · rintro rfl
    rfl

theorem ofRaw_operand {word : RawText} (operand : IsOperand word) : ofRaw word = .operand := by
  unfold ofRaw
  split
  case h_1 first second bytes whole =>
    rcases operand with alone | other
    · rw [whole] at alone
      cases alone
    · rw [whole] at other
      exact if_pos (mt (congrArg some) other)
  case h_2 => rfl

end Word

/-! ## What a word does -/

section Switches

variable {ι : Type} {c : Command ι} {f : ι}

theorem Command.mem_flags_of_flag {detail : Detail}
    (member : Switch.flag f ∈ c.switches detail) : f ∈ c.flags := by
  rcases List.mem_append.1 member with found | other
  · obtain ⟨_, found, same⟩ := List.mem_map.1 found
    cases same
    exact found
  · simp at other

theorem Command.of_switchNamed? {name : RawText} (found : c.switchNamed? name = some (.flag f)) :
    f ∈ c.flags ∧ RawText.ofString (c.name f) = name :=
  ⟨mem_flags_of_flag (List.mem_of_find?_eq_some found), of_decide_eq_true (List.find?_some found :)⟩

theorem Command.of_switchLettered? {letter : Char}
    (found : c.switchLettered? letter = some (.flag f)) :
    f ∈ c.flags ∧ c.letter? f = some letter :=
  ⟨mem_flags_of_flag (List.mem_of_find?_eq_some found), eq_of_beq (List.find?_some found :)⟩

end Switches

namespace Taken

variable {ι : Type} [DecidableEq ι] {c : Command ι} {s s' : Taken ι} {f : ι} {word : RawText}

theorem takeFlag_ok_iff : s.takeSwitch c (.flag f) = .ok s' ↔
    s.operand ≠ some ⟨[]⟩ ∧ f ∉ s.flags ∧ s' = { s with flags := s.flags ++ [f] } := by
  unfold takeSwitch
  by_cases empty : s.operand = some ⟨[]⟩
  · simp [empty]
  · by_cases known : f ∈ s.flags
    · simp [empty, known]
    · simp [empty, known, eq_comm]

omit [DecidableEq ι] in
theorem takeOperand_ok_iff : s.takeOperand word = .ok s' ↔
    s.operand = none ∧ s' = { s with operand := some word } := by
  unfold takeOperand
  cases s.operand with
  | none => simp [eq_comm]
  | some first => simp

theorem exists_of_takeSwitch {switch : Switch ι} (taken : s.takeSwitch c switch = .ok s') :
    ∃ f, switch = .flag f ∧ s' = { s with flags := s.flags ++ [f] } := by
  cases switch with
  | flag f => exact ⟨f, rfl, (takeFlag_ok_iff.1 taken).2.2⟩
  | help detail | version =>
      unfold takeSwitch at taken
      split at taken <;> cases taken

theorem of_takeLong {name : RawText} {value : Option RawText}
    (taken : s.takeLong c name value = .ok s') :
    value = none ∧ ∃ f ∈ c.flags, RawText.ofString (c.name f) = name ∧
      s' = { s with flags := s.flags ++ [f] } := by
  unfold takeLong at taken
  split at taken
  case h_1 => cases taken
  case h_2 switch found =>
    obtain ⟨f, rfl, rfl⟩ := exists_of_takeSwitch taken
    obtain ⟨member, named⟩ := Command.of_switchNamed? found
    exact ⟨rfl, f, member, named, rfl⟩
  case h_3 => cases taken

theorem of_takeLetters {letters : List Char} (taken : letters.foldlM (takeLetter c) s = .ok s') :
    ∃ flags, flags ⊆ c.flags ∧ flags.map c.letter? = letters.map some ∧
      s' = { s with flags := s.flags ++ flags } := by
  induction letters generalizing s with
  | nil =>
      cases taken
      exact ⟨[], List.nil_subset _, rfl, by rw [List.append_nil]⟩
  | cons letter letters ih =>
      obtain ⟨s₁, first, later⟩ := bind_eq_ok_iff.1 taken
      unfold takeLetter at first
      split at first
      case h_1 => cases first
      case h_2 switch found =>
        obtain ⟨f, rfl, rfl⟩ := exists_of_takeSwitch first
        obtain ⟨member, named⟩ := Command.of_switchLettered? found
        obtain ⟨flags, within, each, rfl⟩ := ih later
        refine ⟨f :: flags, List.cons_subset.2 ⟨member, within⟩, ?_, ?_⟩
        · rw [List.map_cons, named, each, List.map_cons]
        · rw [List.append_assoc, List.singleton_append]

/-- A word closes the options, or it is the operand, or it holds flags. -/
theorem takeWord_cases (taken : s.takeWord c word = .ok s') :
    (s.closed = false ∧ word = separator ∧ s' = { s with closed := true }) ∨
      ((s.closed = true ∨ IsOperand word) ∧ s.operand = none ∧
        s' = { s with operand := some word }) ∨
      (s.closed = false ∧ word ≠ separator ∧
        ∃ flags, s' = { s with flags := s.flags ++ flags } ∧
          ((∃ f ∈ c.flags, word = long (c.name f)) ∨
            ∃ letters, flags ⊆ c.flags ∧ flags.map c.letter? = letters.map some ∧
              word = cluster letters)) := by
  unfold takeWord at taken
  -- behind a separator every word is an operand, whatever it looks like
  by_cases closed : s.closed = true
  case pos =>
      rw [if_pos closed] at taken
      exact .inr (.inl ⟨.inl closed, takeOperand_ok_iff.1 taken⟩)
  case neg =>
      rw [if_neg closed] at taken
      rw [Bool.not_eq_true] at closed
      have other {w : Word} (found : Word.ofRaw word = w) (different : w ≠ .separator) :
          word ≠ separator := by
        rw [← found] at different
        exact mt Word.ofRaw_separator_iff.2 different
      rcases Word.ofRaw_cases word with ⟨found, same⟩ | ⟨name, value, found, look⟩ |
        ⟨letters, broken, found, look⟩ | ⟨found, plain⟩ <;> rw [found] at taken
      · cases taken
        exact .inl ⟨closed, same, rfl⟩
      · obtain ⟨none, f, member, rfl, rfl⟩ := of_takeLong taken
        refine .inr (.inr ⟨closed, other found nofun, [f], rfl, .inl ⟨f, member, ?_⟩⟩)
        rw [long_eq, RawText.ext_iff, look none]
        rfl
      · obtain ⟨s₁, letters_taken, rest⟩ := bind_eq_ok_iff.1 taken
        obtain ⟨flags, within, each, rfl⟩ := of_takeLetters letters_taken
        cases broken with
        | some rest => cases rest
        | none =>
            cases rest
            exact .inr (.inr ⟨closed, other found nofun, flags, rfl,
              .inr ⟨letters, within, each, look rfl⟩⟩)
      · exact .inr (.inl ⟨.inr plain, takeOperand_ok_iff.1 taken⟩)

theorem takeWord_separator (opened : s.closed = false) :
    s.takeWord c separator = .ok { s with closed := true } := by
  rw [takeWord, opened, if_neg Bool.false_ne_true]
  rfl

theorem takeWord_operand (allowed : s.closed = true ∨ IsOperand word) :
    s.takeWord c word = s.takeOperand word := by
  unfold takeWord
  rcases allowed with closed | plain
  · rw [if_pos closed]
  · rw [Word.ofRaw_operand plain, ite_self]

end Taken

/-! ## Clear commands -/

/-- Every flag is found by its name and by its letter, and no name or letter looks like more. -/
structure Command.Clear {ι : Type} (c : Command ι) : Prop where
  named : ∀ f ∈ c.flags, c.switchNamed? (c.name f) = some (.flag f)
  lettered : ∀ f ∈ c.flags, ∀ letter, c.letter? f = some letter →
    c.switchLettered? letter = some (.flag f)
  filled : ∀ f ∈ c.flags, c.name f ≠ ""
  plain : ∀ f ∈ c.flags, '=' ∉ (c.name f).toList
  other : ∀ f ∈ c.flags, c.letter? f ≠ some '-'

theorem Arguments.clear_command : command.Clear where
  named f _ := by cases f <;> rfl
  lettered f _ letter found := by cases f <;> cases found <;> rfl
  filled f _ := by cases f <;> decide
  plain f _ := by cases f <;> decide
  other f _ := by cases f <;> decide

namespace Taken

variable {ι : Type} [DecidableEq ι] {c : Command ι} (clear : c.Clear) {s s' : Taken ι} {f : ι}
  {flags : List ι} {letters : List Char}
include clear

theorem takeWord_long (member : f ∈ c.flags) (opened : s.closed = false) :
    s.takeWord c (long (c.name f)) = s.takeSwitch c (.flag f) := by
  rw [takeWord, opened, if_neg Bool.false_ne_true,
    Word.ofRaw_long (clear.filled f member) (clear.plain f member)]
  unfold takeLong
  dsimp only
  rw [clear.named f member]

theorem takeLetters_eq (within : flags ⊆ c.flags) (each : flags.map c.letter? = letters.map some)
    (opened : s.closed = false) : letters.foldlM (takeLetter c) s =
      (flags.map fun f => long (c.name f)).foldlM (takeWord c) s := by
  induction flags generalizing s letters with
  | nil =>
      obtain rfl := List.map_eq_nil_iff.1 each.symm
      rfl
  | cons f flags ih =>
      obtain ⟨letter, letters, rfl, first, each⟩ := List.map_eq_cons_iff.1 each.symm
      obtain ⟨member, within⟩ := List.cons_subset.1 within
      rw [List.map_cons, List.foldlM_cons, List.foldlM_cons, takeWord_long clear member opened,
        takeLetter, clear.lettered f member letter first.symm]
      dsimp only
      cases taken : s.takeSwitch c (.flag f) with
      | error stop => rfl
      | ok s₁ =>
          obtain ⟨-, -, rfl⟩ := takeFlag_ok_iff.1 taken
          exact ih within each.symm opened

theorem takeWord_cluster (several : letters ≠ []) (within : flags ⊆ c.flags)
    (each : flags.map c.letter? = letters.map some) (opened : s.closed = false) :
    s.takeWord c (cluster letters) =
      (flags.map fun f => long (c.name f)).foldlM (takeWord c) s := by
  obtain ⟨letter, letters, rfl⟩ := List.exists_cons_of_ne_nil several
  have noDash : letter ≠ '-' := by
    obtain ⟨f, _, rfl, first, -⟩ := List.map_eq_cons_iff.1 each
    rintro rfl
    exact clear.other f (within (List.mem_cons_self ..)) first
  rw [takeWord, opened, if_neg Bool.false_ne_true, Word.ofRaw_cluster noDash]
  dsimp only
  rw [takeCluster, takeLetters_eq clear within each opened]
  cases (flags.map fun f => long (c.name f)).foldlM (takeWord c) s <;> rfl

end Taken

/-! ## The rules -/

section Parse

variable {ι : Type} [DecidableEq ι] {c : Command ι} {words : List RawText} {word : RawText}
  {m : Matches ι}

omit [DecidableEq ι] in
theorem Taken.finish_ok_iff {s : Taken ι} :
    s.finish = .ok m ↔ s.operand ≠ some ⟨[]⟩ ∧ m = ⟨s.flags, s.operand⟩ := by
  unfold finish
  by_cases empty : s.operand = some ⟨[]⟩
  · simp [empty]
  · simp [empty, eq_comm]

def Taken.After (c : Command ι) (words : List RawText) (s : Taken ι) : Prop :=
  words.foldlM (Taken.takeWord c) ⟨[], none, false⟩ = .ok s

theorem parse_ok_iff : parse c words = .ok m ↔
    ∃ s, Taken.After c words s ∧ s.operand ≠ some ⟨[]⟩ ∧ m = ⟨s.flags, s.operand⟩ := by
  unfold parse Taken.After
  simp only [bind_eq_ok_iff, Taken.finish_ok_iff]

theorem Taken.after_append_iff {more : List RawText} {s' : Taken ι} :
    After c (words ++ more) s' ↔
      ∃ s, After c words s ∧ more.foldlM (takeWord c) s = .ok s' := by
  unfold After
  rw [List.foldlM_append]
  exact bind_eq_ok_iff

theorem Taken.after_concat_iff {s' : Taken ι} :
    After c (words ++ [word]) s' ↔ ∃ s, After c words s ∧ s.takeWord c word = .ok s' := by
  simp only [after_append_iff, List.foldlM_cons, List.foldlM_nil, bind_pure]

theorem not_isOperand_separator : ¬ IsOperand separator := by
  rintro (alone | other)
  · cases alone
  · exact other rfl

theorem Taken.closed_iff {s : Taken ι} (after : After c words s) :
    s.closed = true ↔ separator ∈ words := by
  induction words using List.reverseRecOn generalizing s with
  | nil =>
      cases after
      simp
  | append_singleton words word ih =>
      obtain ⟨s₁, before, taken⟩ := after_concat_iff.1 after
      rw [List.mem_append, List.mem_singleton, ← ih before]
      rcases takeWord_cases taken with ⟨-, rfl, rfl⟩ | ⟨allowed, -, rfl⟩ | ⟨-, other, _, rfl, -⟩
      · simp
      · symm
        apply or_iff_left_of_imp
        rintro rfl
        exact allowed.resolve_right not_isOperand_separator
      · simp [other.symm]

theorem Taken.closed_eq_false {s : Taken ι} (after : After c words s)
    (opened : separator ∉ words) : s.closed = false :=
  Bool.not_eq_true _ ▸ mt (closed_iff after).1 opened

theorem Taken.After.unique {s s' : Taken ι} (after : After c words s) (after' : After c words s') :
    s' = s :=
  Except.ok.inj (after'.symm.trans after)

theorem leftToRight (clear : c.Clear) : Parser.LeftToRight parse c where
  nothing := rfl
  beginning {words word m} accepted := by
    obtain ⟨s', taken, filled, rfl⟩ := parse_ok_iff.1 accepted
    obtain ⟨s, before, taken⟩ := Taken.after_concat_iff.1 taken
    refine ⟨_, parse_ok_iff.2 ⟨s, before, ?_, rfl⟩⟩
    rcases Taken.takeWord_cases taken with ⟨-, -, rfl⟩ | ⟨-, none, rfl⟩ | ⟨-, -, _, rfl, -⟩
    · exact filled
    · simp [none]
    · exact filled
  flag {words f m m'} opened member accepted := by
    obtain ⟨s, before, filled, rfl⟩ := parse_ok_iff.1 accepted
    have taken := Taken.takeWord_long clear member (Taken.closed_eq_false before opened)
    rw [parse_ok_iff]
    constructor
    · rintro ⟨s', after, -, rfl⟩
      obtain ⟨s₁, before', taken'⟩ := Taken.after_concat_iff.1 after
      obtain rfl := before.unique before'
      rw [taken, Taken.takeFlag_ok_iff] at taken'
      obtain ⟨-, fresh, rfl⟩ := taken'
      exact ⟨fresh, rfl⟩
    · rintro ⟨fresh, rfl⟩
      refine ⟨{ s with flags := s.flags ++ [f] }, ?_, filled, rfl⟩
      exact Taken.after_concat_iff.2 ⟨s, before, taken.trans (Taken.takeFlag_ok_iff.2
        ⟨filled, fresh, rfl⟩)⟩
  cluster {words letters flags m} opened several within each := by
    simp only [parse_ok_iff, Taken.after_append_iff, List.foldlM_cons, List.foldlM_nil, bind_pure]
    refine exists_congr fun s' => and_congr_left' (exists_congr fun s => and_congr_right ?_)
    intro before
    rw [Taken.takeWord_cluster clear several within each (Taken.closed_eq_false before opened)]
  unknown {words word m} opened plain other noLong noCluster accepted := by
    obtain ⟨s', after, -, -⟩ := parse_ok_iff.1 accepted
    obtain ⟨s, before, taken⟩ := Taken.after_concat_iff.1 after
    rcases Taken.takeWord_cases taken with ⟨-, same, -⟩ | ⟨allowed, -, -⟩ |
      ⟨-, -, flags, -, ⟨f, member, same⟩ | ⟨letters, within, each, same⟩⟩
    · exact other same
    · rcases allowed with closed | operand
      · exact opened ((Taken.closed_iff before).1 closed)
      · exact plain operand
    · exact noLong f member same
    · exact noCluster letters flags within each same
  separator {words m} opened := by
    simp only [parse_ok_iff, Taken.after_concat_iff]
    constructor
    · rintro ⟨s', ⟨s, before, taken⟩, filled, rfl⟩
      rw [Taken.takeWord_separator (Taken.closed_eq_false before opened)] at taken
      cases taken
      exact ⟨s, before, filled, rfl⟩
    · rintro ⟨s, before, filled, rfl⟩
      have taken := Taken.takeWord_separator (c := c) (Taken.closed_eq_false before opened)
      exact ⟨_, ⟨s, before, taken⟩, filled, rfl⟩
  operand {words word m m'} allowed accepted := by
    obtain ⟨s, before, filled, rfl⟩ := parse_ok_iff.1 accepted
    have taken := Taken.takeWord_operand (c := c) (allowed.imp_left (Taken.closed_iff before).2)
    simp only [parse_ok_iff, Taken.after_concat_iff]
    constructor
    · rintro ⟨s', ⟨s₁, before', taken'⟩, filled', rfl⟩
      obtain rfl := before.unique before'
      rw [taken, Taken.takeOperand_ok_iff] at taken'
      obtain ⟨none, rfl⟩ := taken'
      exact ⟨none, fun empty => filled' (congrArg some (RawText.ext empty)), rfl⟩
    · rintro ⟨none, nonempty, rfl⟩
      refine ⟨_, ⟨s, before, taken.trans (Taken.takeOperand_ok_iff.2 ⟨none, rfl⟩)⟩, ?_, rfl⟩
      exact fun empty => nonempty (congrArg RawText.bytes (Option.some.inj empty))

end Parse

end BracketTally.CommandLine
