import BracketTally.Invocation
import BracketTally.Proofs.LeftToRight
import Mathlib.Data.List.Nodup

namespace BracketTally.CommandLine

/-! ## Writings -/

/-- The flags or the path in one word. -/
inductive Spells : RawText → List Flag → List RawText → Prop
  | name (f : Flag) : Spells (long f.name) [f] []
  | letters {flags : List Flag} {letters : List Char} (several : letters ≠ [])
      (each : flags.map Flag.letter? = letters.map some) : Spells (cluster letters) flags []
  | path {word : RawText} (plain : IsOperand word) : Spells word [] [word]

/-- The flags and the paths in all words, in their order.  Behind a separator there are paths only,
whatever they look like. -/
inductive SpellAll : List RawText → List Flag → List RawText → Prop
  | done : SpellAll [] [] []
  | separated (paths : List RawText) : SpellAll (separator :: paths) [] paths
  | word {word : RawText} {words : List RawText} {flags flags' : List Flag}
      {paths paths' : List RawText} (spells : Spells word flags paths)
      (later : SpellAll words flags' paths') :
      SpellAll (word :: words) (flags ++ flags') (paths ++ paths')

/-- The words spell each flag that is set once, no other, and the path, which is not empty. -/
def Arguments.WrittenAs (a : Arguments) (words : List RawText) : Prop :=
  ∃ flags paths, SpellAll words flags paths ∧ (∀ f, flags.count f = (a.has f).toNat) ∧
    paths = a.path.toList ∧ a.path ≠ some ⟨[]⟩

/-- The word asks for no text, and gives no flag a value. -/
structure IsBare (word : RawText) : Prop where
  help : word ≠ long "help"
  version : word ≠ long "version"
  value : ∀ (f : Flag) (rest : List UInt8), word ≠ ⟨(long f.name).bytes ++ 0x3D :: rest⟩
  letters : ∀ letters, letters.head? ≠ some '-' → word = cluster letters →
    'h' ∉ letters ∧ 'V' ∉ letters

/-! ## Words that spell -/

section Spells

variable {word : RawText} {words : List RawText} {flags : List Flag} {paths : List RawText}

theorem cluster_injective : Function.Injective cluster := by
  intro s t same
  rw [cluster_eq, cluster_eq, RawText.mk.injEq, List.cons.injEq] at same
  have read := Utf8.decode_encode s
  rw [same.2, Utf8.decode_encode] at read
  exact (Except.ok.inj read).symm

theorem exists_cluster_eq {letters : List Char} (several : letters ≠ [])
    (each : flags.map Flag.letter? = letters.map some) :
    ∃ b bytes, cluster letters = ⟨dash :: b :: bytes⟩ ∧ b ≠ dash := by
  obtain ⟨letter, letters, rfl⟩ := List.exists_cons_of_ne_nil several
  obtain ⟨f, _, -, first, -⟩ := List.map_eq_cons_iff.1 each
  have other : letter ≠ '-' := by
    rintro rfl
    exact Arguments.clear_command.other f (Arguments.mem_flags_command f) first
  obtain ⟨b, bytes, whole, noDash⟩ := exists_encode_eq_cons other letters
  exact ⟨b, bytes, by rw [cluster_eq, whole], noDash⟩

theorem Spells.ne_separator (spells : Spells word flags paths) : word ≠ separator := by
  cases spells with
  | name f => cases f <;> decide
  | letters several each =>
      obtain ⟨b, bytes, whole, noDash⟩ := exists_cluster_eq several each
      rw [whole]
      rintro ⟨⟩
      exact noDash rfl
  | path plain =>
      rintro rfl
      exact not_isOperand_separator plain

theorem IsOperand.ne_option (plain : IsOperand word) (b : UInt8) (bytes : List UInt8) :
    word ≠ ⟨dash :: b :: bytes⟩ := by
  rintro rfl
  rcases plain with alone | other
  · cases alone
  · exact other rfl

theorem long_eq_cluster (name : String) : long name = cluster ('-' :: name.toList) := by
  rw [long_eq, cluster_eq]
  rfl

theorem isBare_name (f : Flag) : IsBare (long f.name) where
  help := by cases f <;> decide
  version := by cases f <;> decide
  value f' rest same := by
    have member : 0x3D ∈ (long f.name).bytes := by simp [same]
    cases f <;> exact absurd member (by decide)
  letters letters start same := by
    rw [long_eq_cluster] at same
    rw [← cluster_injective same] at start
    exact absurd rfl start

theorem isBare_letters {letters : List Char} (several : letters ≠ [])
    (each : flags.map Flag.letter? = letters.map some) : IsBare (cluster letters) := by
  obtain ⟨b, bytes, whole, noDash⟩ := exists_cluster_eq several each
  have other (more : List UInt8) : cluster letters ≠ ⟨dash :: dash :: more⟩ := by
    rw [whole]
    rintro ⟨⟩
    exact noDash rfl
  have not_mem {letter : Char} (unknown : ∀ f : Flag, f.letter? ≠ some letter) :
      letter ∉ letters := by
    intro member
    have named : some letter ∈ letters.map some := List.mem_map_of_mem member
    rw [← each] at named
    obtain ⟨f, -, same⟩ := List.mem_map.1 named
    exact unknown f same
  refine ⟨long_eq "help" ▸ other _, long_eq "version" ▸ other _, fun f rest => ?_, ?_⟩
  · rw [long_eq, List.cons_append, List.cons_append]
    exact other _
  · intro letters' _ same
    rw [← cluster_injective same]
    exact ⟨not_mem fun f => by cases f <;> decide, not_mem fun f => by cases f <;> decide⟩

theorem IsOperand.isBare (plain : IsOperand word) : IsBare word := by
  refine ⟨long_eq "help" ▸ plain.ne_option _ _, long_eq "version" ▸ plain.ne_option _ _,
    fun f rest => ?_, ?_⟩
  · rw [long_eq, List.cons_append, List.cons_append]
    exact plain.ne_option _ _
  · rintro (_ | ⟨letter, letters⟩) - same
    · exact ⟨nofun, nofun⟩
    · obtain ⟨b, bytes, whole⟩ := List.exists_cons_of_ne_nil
        (mt Utf8.encode_eq_nil_iff.1 (List.cons_ne_nil letter letters))
      rw [cluster_eq, whole] at same
      exact absurd same (plain.ne_option _ _)

theorem Spells.isBare (spells : Spells word flags paths) : IsBare word := by
  cases spells with
  | name f => exact isBare_name f
  | letters several each => exact isBare_letters several each
  | path plain => exact plain.isBare

theorem SpellAll.isBare (spell : SpellAll words flags paths) :
    ∀ word ∈ words.takeWhile (· ≠ separator), IsBare word := by
  induction spell with
  | done => nofun
  | separated paths => simp
  | @word first words _ _ _ _ spells _ ih =>
      intro word member
      rw [List.takeWhile_cons] at member
      split at member
      · rcases List.mem_cons.1 member with rfl | later
        · exact spells.isBare
        · exact ih word later
      · cases member

end Spells

/-! ## One more word -/

section Concat

variable {word : RawText} {words : List RawText} {flags : List Flag} {paths : List RawText}

theorem spellAll_nil_iff : SpellAll [] flags paths ↔ flags = [] ∧ paths = [] := by
  constructor
  · rintro ⟨⟩
    exact ⟨rfl, rfl⟩
  · rintro ⟨rfl, rfl⟩
    exact .done

theorem spellAll_separator_iff : SpellAll (separator :: words) flags paths ↔
    flags = [] ∧ paths = words := by
  constructor
  · generalize same : separator :: words = all
    intro spell
    cases spell with
    | done => cases same
    | separated paths =>
        cases same
        exact ⟨rfl, rfl⟩
    | word spells _ => exact absurd (List.cons.inj same).1.symm spells.ne_separator
  · rintro ⟨rfl, rfl⟩
    exact .separated _

theorem spellAll_cons_iff (other : word ≠ separator) : SpellAll (word :: words) flags paths ↔
    ∃ flags₁ paths₁ flags₂ paths₂, Spells word flags₁ paths₁ ∧ SpellAll words flags₂ paths₂ ∧
      flags = flags₁ ++ flags₂ ∧ paths = paths₁ ++ paths₂ := by
  constructor
  · intro spell
    cases spell with
    | separated => exact absurd rfl other
    | word spells later => exact ⟨_, _, _, _, spells, later, rfl, rfl⟩
  · rintro ⟨_, _, _, _, spells, later, rfl, rfl⟩
    exact .word spells later

theorem spellAll_append_iff (opened : separator ∉ words) {more : List RawText} :
    SpellAll (words ++ more) flags paths ↔ ∃ flags₁ paths₁ flags₂ paths₂,
      SpellAll words flags₁ paths₁ ∧ SpellAll more flags₂ paths₂ ∧
        flags = flags₁ ++ flags₂ ∧ paths = paths₁ ++ paths₂ := by
  induction words generalizing flags paths with
  | nil => simp [spellAll_nil_iff]
  | cons word words ih =>
      rw [List.mem_cons, not_or] at opened
      have other := Ne.symm opened.1
      rw [List.cons_append, spellAll_cons_iff other]
      constructor
      · rintro ⟨_, _, _, _, spells, later, rfl, rfl⟩
        obtain ⟨_, _, _, _, within, beyond, rfl, rfl⟩ := (ih opened.2).1 later
        exact ⟨_, _, _, _, .word spells within, beyond, (List.append_assoc ..).symm,
          (List.append_assoc ..).symm⟩
      · rintro ⟨_, _, _, _, within, beyond, rfl, rfl⟩
        obtain ⟨_, _, _, _, spells, later, rfl, rfl⟩ := (spellAll_cons_iff other).1 within
        exact ⟨_, _, _, _, spells, (ih opened.2).2 ⟨_, _, _, _, later, beyond, rfl, rfl⟩,
          List.append_assoc .., List.append_assoc ..⟩

theorem spellAll_concat_iff (opened : separator ∉ words) (other : word ≠ separator) :
    SpellAll (words ++ [word]) flags paths ↔ ∃ flags₁ paths₁ flags₂ paths₂,
      SpellAll words flags₁ paths₁ ∧ Spells word flags₂ paths₂ ∧
        flags = flags₁ ++ flags₂ ∧ paths = paths₁ ++ paths₂ := by
  simp [spellAll_append_iff opened, spellAll_cons_iff other, spellAll_nil_iff]

theorem spellAll_concat_separator_iff (opened : separator ∉ words) :
    SpellAll (words ++ [separator]) flags paths ↔ SpellAll words flags paths := by
  simp [spellAll_append_iff opened, spellAll_separator_iff]

theorem spellAll_concat_iff_of_mem (closed : separator ∈ words) :
    SpellAll (words ++ [word]) flags paths ↔
      ∃ paths₁, SpellAll words flags paths₁ ∧ paths = paths₁ ++ [word] := by
  induction words generalizing flags paths with
  | nil => cases closed
  | cons first words ih =>
      by_cases same : first = separator
      · subst same
        simp [spellAll_separator_iff, and_assoc]
      · have later := (List.mem_cons.1 closed).resolve_left (Ne.symm same)
        simp only [List.cons_append, spellAll_cons_iff same, ih later]
        constructor
        · rintro ⟨_, _, _, _, spells, ⟨_, within, rfl⟩, rfl, rfl⟩
          exact ⟨_, ⟨_, _, _, _, spells, within, rfl, rfl⟩, (List.append_assoc ..).symm⟩
        · rintro ⟨_, ⟨_, _, _, _, spells, within, rfl, rfl⟩, rfl⟩
          exact ⟨_, _, _, _, spells, ⟨_, within, rfl⟩, rfl, List.append_assoc ..⟩

end Concat

/-! ## Parsers -/

def Matches.Sound (m : Matches Flag) : Prop := m.flags.Nodup ∧ m.operand ≠ some ⟨[]⟩

def Matches.Adds (m : Matches Flag) (flags : List Flag) (paths : List RawText) (m' : Matches Flag) :
    Prop :=
  m'.flags = m.flags ++ flags ∧ m'.operand.toList = m.operand.toList ++ paths ∧ m'.Sound

section Added

variable {m m' : Matches Flag} {flags : List Flag} {paths : List RawText} {word : RawText}

theorem Matches.Sound.adds_flags_iff (sound : m.Sound) :
    m.Adds flags [] m' ↔
      (m.flags ++ flags).Nodup ∧ m' = ⟨m.flags ++ flags, m.operand⟩ := by
  obtain ⟨flags', operand'⟩ := m'
  rw [Adds, List.append_nil, Matches.mk.injEq]
  constructor
  · rintro ⟨rfl, operand, nodup, -⟩
    refine ⟨nodup, rfl, Option.ext fun path => ?_⟩
    rw [← Option.mem_toList, ← Option.mem_toList, operand]
  · rintro ⟨nodup, rfl, rfl⟩
    exact ⟨rfl, rfl, nodup, sound.2⟩

theorem Matches.Sound.adds_operand_iff (sound : m.Sound) :
    m.Adds [] [word] m' ↔
      m.operand = none ∧ word.bytes ≠ [] ∧ m' = ⟨m.flags, some word⟩ := by
  obtain ⟨flags', operand'⟩ := m'
  rw [Adds, List.append_nil, Matches.mk.injEq]
  constructor
  · rintro ⟨rfl, operand, -, filled⟩
    dsimp only at operand filled
    cases held : m.operand with
    | none =>
        rw [held, Option.toList_none, List.nil_append, Option.toList_eq_singleton_iff] at operand
        subst operand
        exact ⟨rfl, fun empty => filled (congrArg some (RawText.ext empty)), rfl, rfl⟩
    | some first =>
        have most := Option.length_toList_le (o := operand')
        rw [operand, held] at most
        simp at most
  · rintro ⟨none, filled, rfl, rfl⟩
    refine ⟨rfl, by rw [none]; rfl, sound.1, fun empty => filled ?_⟩
    exact congrArg RawText.bytes (Option.some.inj empty)

theorem exists_toList_eq {operand : Option RawText} {paths' : List RawText}
    (parted : operand.toList = paths ++ paths') :
    ∃ before : Option RawText, before.toList = paths ∧ ∀ path ∈ before, path ∈ operand := by
  cases operand with
  | none =>
      obtain ⟨rfl, -⟩ := List.append_eq_nil_iff.1 parted.symm
      exact ⟨none, rfl, nofun⟩
  | some path =>
      rcases List.append_eq_singleton_iff.1 parted.symm with ⟨rfl, -⟩ | ⟨rfl, -⟩
      · exact ⟨none, rfl, nofun⟩
      · exact ⟨some path, rfl, fun _ same => same⟩

end Added

section Rules

variable {ε : Type} {parser : Parser Flag ε} (rules : parser.LeftToRight Arguments.command)
  {word : RawText} {words : List RawText} {flags : List Flag} {paths : List RawText}
  {m m' : Matches Flag}
include rules

theorem beginning_append {more : List RawText}
    (accepted : parser Arguments.command (words ++ more) = .ok m) :
    ∃ m', parser Arguments.command words = .ok m' := by
  induction more using List.reverseRecOn generalizing m with
  | nil => exact ⟨m, by rwa [List.append_nil] at accepted⟩
  | append_singleton more word ih =>
      rw [← List.append_assoc] at accepted
      obtain ⟨m', accepted⟩ := rules.beginning accepted
      exact ih accepted

theorem names_ok_iff (opened : separator ∉ words)
    (accepted : parser Arguments.command words = .ok m) (nodup : m.flags.Nodup) :
    parser Arguments.command (words ++ flags.map fun f => long f.name) = .ok m' ↔
      (m.flags ++ flags).Nodup ∧ m' = ⟨m.flags ++ flags, m.operand⟩ := by
  induction flags generalizing words m with
  | nil => simp [accepted, nodup, eq_comm]
  | cons f flags ih =>
      have named {m' : Matches Flag} : parser Arguments.command (words ++ [long f.name]) = .ok m' ↔
          f ∉ m.flags ∧ m' = ⟨m.flags ++ [f], m.operand⟩ :=
        rules.flag opened (Arguments.mem_flags_command f) accepted
      rw [List.map_cons, List.append_cons]
      by_cases known : f ∈ m.flags
      · constructor
        · intro accepted'
          obtain ⟨m₁, taken⟩ := beginning_append rules accepted'
          exact absurd known (named.1 taken).1
        · rintro ⟨nodup', -⟩
          rw [List.nodup_middle, List.nodup_cons, List.mem_append, not_or] at nodup'
          exact absurd known nodup'.1.1
      · have opened' : separator ∉ words ++ [long f.name] := by
          rw [List.mem_append, List.mem_singleton, not_or]
          exact ⟨opened, (Spells.name f).ne_separator.symm⟩
        have nodup' : (m.flags ++ [f]).Nodup := List.nodup_middle.2 (by simp [known, nodup])
        rw [ih opened' (named.2 ⟨known, rfl⟩) nodup', List.append_assoc, List.singleton_append]

theorem spells_ok_iff (opened : separator ∉ words) (spells : Spells word flags paths)
    (accepted : parser Arguments.command words = .ok m) (sound : m.Sound) :
    parser Arguments.command (words ++ [word]) = .ok m' ↔ m.Adds flags paths m' := by
  cases spells with
  | name f =>
      rw [sound.adds_flags_iff, ← names_ok_iff rules opened accepted sound.1]
      rfl
  | letters several each =>
      rw [rules.cluster opened several (fun f _ => Arguments.mem_flags_command f) each,
        sound.adds_flags_iff]
      exact names_ok_iff rules opened accepted sound.1
  | path plain => rw [rules.operand (.inr plain) accepted, sound.adds_operand_iff]

theorem exists_spells (opened : separator ∉ words) (other : word ≠ separator)
    (accepted : parser Arguments.command (words ++ [word]) = .ok m) :
    ∃ flags paths, Spells word flags paths := by
  by_contra unspelled
  push Not at unspelled
  have plain : ¬ IsOperand word := fun plain => unspelled _ _ (.path plain)
  refine rules.unknown opened plain other ?_ ?_ accepted
  · rintro f - rfl
    exact unspelled _ _ (.name f)
  · rintro letters flags - each rfl
    apply unspelled _ _ (.letters _ each)
    rintro rfl
    exact plain (.inl rfl)

theorem ok_iff_spellAll : parser Arguments.command words = .ok m ↔
    SpellAll words m.flags m.operand.toList ∧ m.Sound := by
  induction words using List.reverseRecOn generalizing m with
  | nil =>
      rw [rules.nothing, spellAll_nil_iff, Option.toList_eq_nil_iff]
      constructor
      · rintro ⟨⟩
        exact ⟨⟨rfl, rfl⟩, List.nodup_nil, nofun⟩
      · rintro ⟨⟨flags, operand⟩, -⟩
        exact congrArg Except.ok (Matches.ext flags operand).symm
  | append_singleton words word ih =>
      -- what is accepted before the word, if the right side is to hold behind it
      have before {flags flags' : List Flag} {paths paths' : List RawText}
          (spell : SpellAll words flags paths) (allFlags : m.flags = flags ++ flags')
          (allPaths : m.operand.toList = paths ++ paths') (sound : m.Sound) :
          ∃ m₁, parser Arguments.command words = .ok m₁ ∧ m₁.Sound ∧ m₁.Adds flags' paths' m := by
        obtain ⟨operand, rfl, within⟩ := exists_toList_eq allPaths
        have nodup : flags.Nodup := (allFlags ▸ sound.1).of_append_left
        have filled : operand ≠ some ⟨[]⟩ := fun empty => sound.2 (within _ empty)
        exact ⟨⟨flags, operand⟩, ih.2 ⟨spell, nodup, filled⟩, ⟨nodup, filled⟩, allFlags, allPaths,
          sound⟩
      by_cases closed : separator ∈ words
      case pos =>
        rw [spellAll_concat_iff_of_mem closed]
        constructor
        · intro accepted
          obtain ⟨m₁, taken⟩ := rules.beginning accepted
          obtain ⟨spell, sound⟩ := ih.1 taken
          obtain ⟨flags, operand, sound'⟩ :=
            sound.adds_operand_iff.2 ((rules.operand (.inl closed) taken).1 accepted)
          rw [flags, List.append_nil]
          exact ⟨⟨_, spell, operand⟩, sound'⟩
        · rintro ⟨⟨paths, spell, operand⟩, sound⟩
          obtain ⟨m₁, taken, sound₁, adds⟩ := before spell (List.append_nil _).symm operand sound
          exact (rules.operand (.inl closed) taken).2 (sound₁.adds_operand_iff.1 adds)
      by_cases same : word = separator
      case pos =>
        subst same
        rw [rules.separator closed, spellAll_concat_separator_iff closed, ih]
      rw [spellAll_concat_iff closed same]
      constructor
      · intro accepted
        obtain ⟨m₁, taken⟩ := rules.beginning accepted
        obtain ⟨flags, paths, spells⟩ := exists_spells rules closed same accepted
        obtain ⟨spell, sound⟩ := ih.1 taken
        obtain ⟨flags, operand, sound'⟩ :=
          (spells_ok_iff rules closed spells taken sound).1 accepted
        exact ⟨⟨_, _, _, _, spell, spells, flags, operand⟩, sound'⟩
      · rintro ⟨⟨flags₁, paths₁, flags₂, paths₂, spell, spells, flags, operand⟩, sound⟩
        obtain ⟨m₁, taken, sound₁, adds⟩ := before spell flags operand sound
        exact (spells_ok_iff rules closed spells taken sound₁).2 adds

end Rules

/-! ## Arguments -/

theorem Arguments.ext_has {a b : Arguments} (path : a.path = b.path)
    (flags : ∀ f, a.has f = b.has f) : a = b := by
  obtain ⟨p, c, l, v, n⟩ := a
  obtain ⟨p', c', l', v', n'⟩ := b
  have changesOnly := flags .changesOnly
  have locate := flags .locate
  have verbose := flags .verbose
  have noColour := flags .noColour
  simp only [has] at path changesOnly locate verbose noColour
  rw [path, changesOnly, locate, verbose, noColour]

theorem Arguments.eq_ofMatches_iff {a : Arguments} {m : Matches Flag} :
    m.flags.Nodup ∧ ofMatches m = a ↔
      (∀ f, m.flags.count f = (a.has f).toNat) ∧ m.operand = a.path := by
  constructor
  · rintro ⟨nodup, rfl⟩
    refine ⟨fun f => ?_, rfl⟩
    rw [has_ofMatches, List.contains_eq_mem]
    by_cases known : f ∈ m.flags
    · rw [List.count_eq_one_of_mem nodup known, decide_eq_true known]
      rfl
    · rw [List.count_eq_zero_of_not_mem known, decide_eq_false known]
      rfl
  · rintro ⟨counts, path⟩
    refine ⟨List.nodup_iff_count_le_one.2 fun f => ?_, ext_has path fun f => ?_⟩
    · rw [counts f]
      exact Bool.toNat_le _
    · rw [has_ofMatches, List.contains_eq_mem]
      cases held : a.has f with
      | true =>
          have count := counts f
          rw [held] at count
          exact decide_eq_true (List.count_pos_iff.1 (count ▸ Nat.one_pos))
      | false =>
          have count := counts f
          rw [held] at count
          exact decide_eq_false (List.count_eq_zero.1 count)

/-- Words are read as arguments just if they are a writing of them.  So there is no path twice and
no empty one, no flag twice and none with a value, and nothing that asks for a text; and what is
run is run with those arguments. -/
theorem parse_eq_ok_iff_writtenAs {ε : Type} {parser : Parser Flag ε}
    (rules : parser.LeftToRight Arguments.command) (words : List RawText) (a : Arguments) :
    (Arguments.parse parser words = .ok a ↔ a.WrittenAs words) ∧
      (Arguments.parse parser words = .ok a →
        (∀ word ∈ words.takeWhile (· ≠ separator), IsBare word) ∧
          ∀ stopped setting, invoke parser stopped setting words = (run setting a).ended) := by
  have parsed : Arguments.parse parser words = .ok a ↔
      ∃ m, parser Arguments.command words = .ok m ∧ Arguments.ofMatches m = a := by
    unfold Arguments.parse
    cases parser Arguments.command words <;> simp [Except.map]
  have written : Arguments.parse parser words = .ok a ↔ a.WrittenAs words := by
    rw [parsed]
    constructor
    · rintro ⟨m, accepted, same⟩
      obtain ⟨spell, nodup, filled⟩ := (ok_iff_spellAll rules).1 accepted
      obtain ⟨counts, path⟩ := Arguments.eq_ofMatches_iff.1 ⟨nodup, same⟩
      rw [path] at spell filled
      exact ⟨m.flags, _, spell, counts, rfl, filled⟩
    · rintro ⟨flags, _, spell, counts, rfl, filled⟩
      obtain ⟨nodup, same⟩ := (@Arguments.eq_ofMatches_iff a ⟨flags, a.path⟩).2 ⟨counts, rfl⟩
      exact ⟨⟨flags, a.path⟩, (ok_iff_spellAll rules).2 ⟨spell, nodup, filled⟩, same⟩
  refine ⟨written, fun read => ⟨?_, fun stopped setting => ?_⟩⟩
  · obtain ⟨_, _, spell, -⟩ := written.1 read
    exact spell.isBare
  · rw [invoke, read]

theorem parse_eq_ok_iff_writtenAs_dashed_path :
    let words : List RawText := [↑"--no-color", ↑"-vc", ↑"--", ↑"--"]
    let arguments : Arguments := ⟨some "--", true, false, true, true⟩
    Arguments.parse parse words = .ok arguments ∧ arguments.WrittenAs words ∧
      (∀ word ∈ ([↑"--no-color", ↑"-vc"] : List RawText), IsBare word) ∧
      ∀ stopped setting, invoke parse stopped setting words = (run setting arguments).ended := by
  intro words arguments
  have read : Arguments.parse parse words = .ok arguments := by decide +kernel
  obtain ⟨written, plain⟩ :=
    parse_eq_ok_iff_writtenAs (leftToRight Arguments.clear_command) words arguments
  obtain ⟨bare, invoked⟩ := plain read
  exact ⟨read, written.1 read, bare, invoked⟩

end BracketTally.CommandLine
