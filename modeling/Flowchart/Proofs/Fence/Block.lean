import Flowchart.Fence
import Flowchart.Proofs.Text.Lines
import Flowchart.Proofs.Text.Trimming

/-!
# What is taken out of a text

A text without marks at its start and without marks at the start of any later line is no block and
has no block in it, so nothing but blanks is taken off. A block comes apart again, alone or behind
words in which no marks begin: its content goes up to the first line that starts with marks, and no
line of the content does.
-/

set_option autoImplicit false

namespace Flowchart.Fence

/-! ## Texts without a fence -/

/-- No line of the text starts with marks, the first line aside. -/
def Unfenced (cs : List Char) : Prop :=
  ∀ part, part <:+ cs → startsWithFence part = false

/-- No fence is in nothing. -/
theorem unfenced_nil : Unfenced [] := by
  intro part suffix
  rw [List.suffix_nil.1 suffix]
  rfl

/-- A text has no fence if none starts in front and none is in the rest. -/
theorem unfenced_cons {c : Char} {cs : List Char} :
    Unfenced (c :: cs) ↔ startsWithFence (c :: cs) = false ∧ Unfenced cs := by
  constructor
  · intro h
    exact ⟨h _ List.suffix_rfl, fun part suffix => h part (List.suffix_cons_iff.2 (.inr suffix))⟩
  · rintro ⟨start, rest⟩ part suffix
    rcases List.suffix_cons_iff.1 suffix with rfl | inner
    · exact start
    · exact rest part inner

/-- A fence in the rest of a text would be one in the text. -/
theorem Unfenced.suffix {cs part : List Char} (h : Unfenced cs) (suffix : part <:+ cs) :
    Unfenced part :=
  fun inner isSuffix => h inner (isSuffix.trans suffix)

/-- Without a fence, no content ends. -/
theorem beforeFence?_of_unfenced {cs : List Char} (h : Unfenced cs) : beforeFence? cs = none := by
  induction cs with
  | nil => rfl
  | cons c cs ih =>
    obtain ⟨start, rest⟩ := unfenced_cons.1 h
    rw [beforeFence?, if_neg (by simp [start]), ih rest]
    rfl

/-- What stands behind the first line is the rest of the text. -/
theorem afterLine?_suffix {cs body : List Char} (h : afterLine? cs = some body) : body <:+ cs := by
  unfold afterLine? at h
  split at h
  · cases h
  · rename_i c rest cut
    cases h
    have suffix := List.dropWhile_suffix (l := cs) (· != '\n')
    rw [cut] at suffix
    exact (List.suffix_cons c _).trans suffix

/-- Marks are dropped from texts that start with them only. -/
theorem dropMarks?_eq_some {cs rest : List Char} (h : dropMarks? cs = some rest) :
    cs = marks ++ rest := by
  unfold dropMarks? at h
  split at h
  · cases h
    rfl
  · cases h

/-- A text in which no line but the first starts with marks has no block in it. -/
theorem embedded?_of_unfenced {cs : List Char} (h : Unfenced cs) : embedded? cs = none := by
  induction cs with
  | nil => rfl
  | cons c cs ih =>
    have closed : opened? (c :: cs) = none := by
      unfold opened?
      cases marked : dropMarks? (c :: cs) with
      | none => rfl
      | some rest =>
        cases line : afterLine? rest with
        | none => simp [line]
        | some body =>
          have inner : Unfenced body := by
            apply h.suffix
            rw [dropMarks?_eq_some marked]
            exact (afterLine?_suffix line).trans (List.suffix_append _ _)
          cases body with
          | nil => simp [line, content?]
          | cons d body =>
            simp [line, content?, beforeFence?_of_unfenced (unfenced_cons.1 inner).2]
    rw [embedded?, closed]
    exact ih (unfenced_cons.1 h).2

/-- A text that does not start with a backtick has no marks to drop. -/
theorem dropMarks?_of_ne {c : Char} (h : c ≠ '\x60') (cs : List Char) :
    dropMarks? (c :: cs) = none := by
  unfold dropMarks?
  split
  · rename_i same
    exact absurd (List.cons.inj same).1 h
  · rfl

/-- A text in which no line starts with marks is only trimmed. -/
theorem unwrapChars_of_unfenced {cs : List Char} (unmarked : ∀ c ∈ (Text.trim cs).head?, c ≠ '\x60')
    (unfenced : Unfenced (Text.trim cs)) : unwrapChars cs = Text.trim cs := by
  have opens : dropMarks? (Text.trim cs) = none := by
    cases start : Text.trim cs with
    | nil => rfl
    | cons c rest => exact dropMarks?_of_ne (unmarked c (by rw [start]; rfl)) rest
  unfold unwrapChars whole?
  simp only [opens, embedded?_of_unfenced unfenced]

/-- A single line has no fence. -/
theorem unfenced_line {line : List Char} (oneLine : '\n' ∉ line) : Unfenced line := by
  intro part suffix
  cases part with
  | nil => rfl
  | cons c part =>
    have other : '\n' ≠ c := by
      rintro rfl
      exact oneLine (suffix.subset List.mem_cons_self)
    simp [startsWithFence, List.isPrefixOf, other]

/-- A fence in lines would start one of the lines behind the first one. -/
theorem unfenced_append {line rest : List Char} (oneLine : '\n' ∉ line)
    (unmarked : ∀ c ∈ rest.head?, c ≠ '\x60') (unfenced : Unfenced rest) :
    Unfenced (line ++ '\n' :: rest) := by
  induction line with
  | nil =>
    refine unfenced_cons.2 ⟨?_, unfenced⟩
    cases rest with
    | nil => rfl
    | cons c rest =>
      have other : '\x60' ≠ c := fun same => unmarked c rfl same.symm
      simp [startsWithFence, marks, List.isPrefixOf, other]
  | cons c line ih =>
    rw [List.mem_cons, not_or] at oneLine
    refine unfenced_cons.2 ⟨?_, ih oneLine.2⟩
    simp [startsWithFence, List.isPrefixOf, oneLine.1]

/-- Lines that are set below each other make no fence if none of them starts with a backtick. -/
theorem unfenced_unlines {texts : List String}
    (h : ∀ text ∈ texts, '\n' ∉ text.toList ∧ ∃ c rest, text.toList = c :: rest ∧ c ≠ '\x60') :
    Unfenced (Text.unlines texts).toList := by
  induction texts with
  | nil => simpa [Text.unlines] using unfenced_nil
  | cons text texts ih =>
    obtain ⟨oneLine, -⟩ := h text List.mem_cons_self
    cases texts with
    | nil => simpa [Text.unlines] using unfenced_line oneLine
    | cons next texts =>
      have below := ih fun other mem => h other (List.mem_cons_of_mem text mem)
      obtain ⟨-, c, rest, chars, other⟩ := h next (by simp)
      rw [Text.toList_unlines_cons_cons]
      refine unfenced_append oneLine ?_ below
      intro d first
      rw [Text.head?_unlines (by simp [← String.toList_inj, chars]), chars] at first
      cases first
      exact other

/-! ## Blocks -/

/-- A block: marks with some words behind them, a content on lines of its own, and marks. -/
def block (words content : List Char) : List Char :=
  marks ++ words ++ '\n' :: content ++ '\n' :: marks

/-- Behind a first line stands what follows its line feed. -/
theorem afterLine?_append {words : List Char} (oneLine : '\n' ∉ words) (body : List Char) :
    afterLine? (words ++ '\n' :: body) = some body := by
  rw [afterLine?, Text.dropWhile_append_of_notMem oneLine]

/-- Marks at the end of a text are dropped. -/
theorem dropFinalMarks?_append (cs : List Char) : dropFinalMarks? (cs ++ marks) = some cs := by
  simp [dropFinalMarks?, dropMarks?, marks]

/-- A text that does not end in a backtick has no marks to drop at its end. -/
theorem dropFinalMarks?_of_ne {cs : List Char} {c : Char} (h : c ≠ '\x60') :
    dropFinalMarks? (cs ++ [c]) = none := by
  rw [dropFinalMarks?, List.reverse_append, List.reverse_singleton, List.singleton_append,
    dropMarks?_of_ne h]
  rfl

/-- A line feed at the end of a text is dropped. -/
theorem dropFinalBreak_concat (cs : List Char) : dropFinalBreak (cs ++ ['\n']) = cs := by
  simp [dropFinalBreak]

/-- A block starts with marks. -/
theorem dropMarks?_block (words content after : List Char) :
    dropMarks? (block words content ++ after) =
      some (words ++ '\n' :: (content ++ '\n' :: marks ++ after)) := by
  simp [block, marks, dropMarks?]

/-- A text that starts with a block is taken for one block if it ends in marks, whatever stands in
between. -/
theorem whole?_block_append {words : List Char} (oneLine : '\n' ∉ words)
    (content after : List Char) :
    whole? (block words content ++ after) =
      (dropFinalMarks? (content ++ '\n' :: marks ++ after)).map dropFinalBreak := by
  unfold whole?
  simp only [dropMarks?_block, afterLine?_append oneLine]

/-- A text that is one block has its content. -/
theorem whole?_block {words : List Char} (oneLine : '\n' ∉ words) (content : List Char) :
    whole? (block words content) = some content := by
  have body : content ++ '\n' :: marks = (content ++ ['\n']) ++ marks := by simp
  rw [← List.append_nil (block words content), whole?_block_append oneLine, List.append_nil, body,
    dropFinalMarks?_append, Option.map_some, dropFinalBreak_concat]

/-- A line feed behind a text starts no fence inside the text. -/
theorem startsWithFence_append {c : Char} {cs : List Char}
    (start : startsWithFence (c :: cs) = false) (rest : List Char) :
    startsWithFence (c :: cs ++ '\n' :: rest) = false := by
  -- The line feed comes too early for the marks if fewer than three characters are left.
  rcases cs with _ | ⟨d, _ | ⟨e, _ | ⟨f, cs⟩⟩⟩
  · simp [startsWithFence, marks, List.isPrefixOf]
  · simp [startsWithFence, marks, List.isPrefixOf]
  · simp [startsWithFence, marks, List.isPrefixOf]
  · simpa [startsWithFence, marks, List.isPrefixOf] using start

/-- Nothing but a fence ends the content of a block. -/
theorem beforeFence?_append {cs : List Char} (unfenced : Unfenced cs) (after : List Char) :
    beforeFence? (cs ++ '\n' :: marks ++ after) = some cs := by
  induction cs with
  | nil => rfl
  | cons c cs ih =>
    obtain ⟨start, rest⟩ := unfenced_cons.1 unfenced
    have startToo : startsWithFence (c :: (cs ++ '\n' :: marks ++ after)) = false := by
      simpa using startsWithFence_append start (marks ++ after)
    rw [List.cons_append, List.cons_append, beforeFence?, startToo, ih rest]
    rfl

/-- The content of a block is found behind its first marks, whatever follows the block. -/
theorem opened?_block {words content : List Char} (oneLine : '\n' ∉ words)
    (nonempty : content ≠ []) (unfenced : Unfenced content) (after : List Char) :
    opened? (block words content ++ after) = some content := by
  obtain ⟨c, rest, rfl⟩ := List.exists_cons_of_ne_nil nonempty
  have inner := beforeFence?_append (unfenced_cons.1 unfenced).2 after
  unfold opened?
  simp only [dropMarks?_block, Option.bind_eq_bind, Option.bind_some, afterLine?_append oneLine,
    List.cons_append, content?, inner, Option.map_some]

/-! ## Words around a block -/

/-- No marks begin in the text, whatever stands behind it. -/
def Clear (cs : List Char) : Prop :=
  ∀ part, part <:+ cs → part ≠ [] → ∀ rest, dropMarks? (part ++ rest) = none

/-- No marks begin in nothing. -/
theorem clear_nil : Clear [] := by
  intro part suffix nonempty
  exact absurd (List.suffix_nil.1 suffix) nonempty

/-- No marks begin in a text if none begin in front and none in the rest. -/
theorem clear_cons {c : Char} {cs : List Char} :
    Clear (c :: cs) ↔ (∀ rest, dropMarks? (c :: cs ++ rest) = none) ∧ Clear cs := by
  constructor
  · intro h
    exact ⟨h _ List.suffix_rfl (List.cons_ne_nil c cs),
      fun part suffix => h part (List.suffix_cons_iff.2 (.inr suffix))⟩
  · rintro ⟨start, tail⟩ part suffix nonempty
    rcases List.suffix_cons_iff.1 suffix with rfl | inner
    · exact start
    · exact tail part inner nonempty

/-- Marks in the rest of a text would be marks in the text. -/
theorem Clear.suffix {cs part : List Char} (h : Clear cs) (suffix : part <:+ cs) : Clear part :=
  fun inner isSuffix => h inner (isSuffix.trans suffix)

/-- No marks begin in two texts if none begin in either of them. -/
theorem Clear.append {cs ds : List Char} (first : Clear cs) (second : Clear ds) :
    Clear (cs ++ ds) := by
  induction cs with
  | nil => exact second
  | cons c cs ih =>
    obtain ⟨start, tail⟩ := clear_cons.1 first
    refine clear_cons.2 ⟨fun rest => ?_, ih tail⟩
    simpa using start (ds ++ rest)

/-- No marks begin in a text without a backtick. -/
theorem clear_of_quiet {cs : List Char} (quiet : '\x60' ∉ cs) : Clear cs := by
  intro part suffix nonempty rest
  obtain ⟨c, tail, rfl⟩ := List.exists_cons_of_ne_nil nonempty
  have other : c ≠ '\x60' := by
    rintro rfl
    exact quiet (suffix.subset List.mem_cons_self)
  exact dropMarks?_of_ne other (tail ++ rest)

/-- No marks begin in a text without marks if a character that is no backtick ends it. -/
theorem clear_concat {cs : List Char} (unmarked : ¬ marks <:+: cs) {c : Char} (other : c ≠ '\x60') :
    Clear (cs ++ [c]) := by
  induction cs with
  | nil => exact clear_of_quiet (by simpa using Ne.symm other)
  | cons d cs ih =>
    rw [List.cons_append, clear_cons]
    refine ⟨fun rest => ?_,
      ih fun marked => unmarked (marked.trans (List.suffix_cons d cs).isInfix)⟩
    rw [Option.eq_none_iff_forall_ne_some]
    intro after opened
    have whole : d :: cs ++ c :: rest = marks ++ after := by
      simpa using dropMarks?_eq_some opened
    -- The character would have to be one of the marks if they went on behind the text.
    rcases List.append_eq_append_iff.1 whole with ⟨others, split, beyond⟩ | ⟨others, split, -⟩
    · cases others with
      | nil => exact unmarked (by simp [split])
      | cons e others =>
        obtain ⟨rfl, -⟩ := List.cons.inj beyond
        have isMark : c ∈ marks := by simp [split]
        exact other (by simpa [marks] using isMark)
    · exact unmarked (split ▸ (List.prefix_append marks others).isInfix)

/-- A text in which no marks begin has none. -/
theorem Clear.unmarked {cs : List Char} (clear : Clear cs) : ¬ marks <:+: cs := by
  rintro ⟨before, after, rfl⟩
  have start := clear (marks ++ after) ⟨before, by simp⟩ (by simp [marks]) []
  simp [marks, dropMarks?] at start

/-- No marks begin in lines that are set below each other if none begin in the single lines. -/
theorem clear_unlines {lines : List String}
    (clear : ∀ line ∈ lines, Clear (line.toList ++ ['\n'])) :
    Clear ((Text.unlines lines).toList ++ ['\n']) := by
  induction lines with
  | nil => exact clear_of_quiet (by simp [Text.unlines])
  | cons line rest ih =>
    have first := clear line List.mem_cons_self
    cases rest with
    | nil => simpa [Text.unlines] using first
    | cons next rest =>
      have below := ih fun other mem => clear other (List.mem_cons_of_mem line mem)
      rw [Text.toList_unlines_cons_cons]
      simpa using first.append below

/-- The block is found behind words that no marks begin in. -/
theorem embedded?_append {before : List Char} (clear : Clear before) (rest : List Char) :
    embedded? (before ++ rest) = embedded? rest := by
  induction before with
  | nil => rfl
  | cons c before ih =>
    obtain ⟨start, tail⟩ := clear_cons.1 clear
    have closed : opened? (c :: before ++ rest) = none := by
      rw [opened?, start]
      rfl
    rw [List.cons_append] at closed ⊢
    rw [embedded?, closed]
    exact ih tail

/-- The content of a block is found behind words in which no marks begin. -/
theorem embedded?_block {before words content : List Char} (clear : Clear before)
    (oneLine : '\n' ∉ words) (nonempty : content ≠ []) (unfenced : Unfenced content)
    (after : List Char) :
    embedded? (before ++ (block words content ++ after)) = some content := by
  have found := opened?_block oneLine nonempty unfenced after
  obtain ⟨c, rest, chars⟩ : ∃ c rest, block words content ++ after = c :: rest := ⟨_, _, rfl⟩
  rw [embedded?_append clear, chars]
  rw [chars] at found
  rw [embedded?, found]

/-- A block is trimmed, since marks are at both of its ends. -/
theorem trim_block (words content : List Char) :
    Text.trim (block words content) = block words content := by
  apply Text.trim_eq_self
  · intro c first
    cases first
    decide
  · intro c last
    have ended : block words content =
        (marks ++ words ++ '\n' :: content ++ ['\n', '\x60', '\x60']) ++ ['\x60'] := by
      simp [block, marks]
    rw [ended, List.getLast?_concat] at last
    cases last
    decide

/-- The content of a block is taken out of a text in which the block is not the start. -/
theorem unwrapChars_block_within {before words content : List Char} (clear : Clear before)
    (visible : before.dropWhile Text.isBlank ≠ []) (oneLine : '\n' ∉ words)
    (nonempty : content ≠ []) (unfenced : Unfenced content) (after : List Char) :
    unwrapChars (before ++ block words content ++ after) = Text.trim content := by
  have trimmed := Text.trim_around (by simp [block, marks]) (trim_block words content) before after
  have clearToo := clear.suffix (List.dropWhile_suffix Text.isBlank)
  have partly : whole? (before.dropWhile Text.isBlank ++ block words content ++
      Text.trimEnd after) = none := by
    rw [List.append_assoc, whole?, clearToo _ List.suffix_rfl visible]
  have found := embedded?_block clearToo oneLine nonempty unfenced (Text.trimEnd after)
  rw [← List.append_assoc] at found
  unfold unwrapChars
  simp only [trimmed, partly, found]

/-- The content of a block is taken out of a text in which no marks begin before the block, unless
the text starts with the block and ends in other marks. -/
theorem unwrapChars_block_append {before words content after : List Char} (clear : Clear before)
    (oneLine : '\n' ∉ words) (nonempty : content ≠ []) (unfenced : Unfenced content)
    (apart : before.dropWhile Text.isBlank = [] → Text.trimEnd after ≠ [] →
      dropFinalMarks? (content ++ '\n' :: marks ++ Text.trimEnd after) = none) :
    unwrapChars (before ++ block words content ++ after) = Text.trim content := by
  by_cases bare : before.dropWhile Text.isBlank = []
  · have trimmed := Text.trim_around (by simp [block, marks])
      (trim_block words content) before after
    rw [bare, List.nil_append] at trimmed
    unfold unwrapChars
    simp only [trimmed]
    by_cases ends : Text.trimEnd after = []
    · simp only [ends, List.append_nil, whole?_block oneLine]
    · have partly : whole? (block words content ++ Text.trimEnd after) = none := by
        rw [whole?_block_append oneLine, apart bare ends, Option.map_none]
      have found := embedded?_block clear_nil oneLine nonempty unfenced (Text.trimEnd after)
      rw [List.nil_append] at found
      simp only [partly, found]
  · exact unwrapChars_block_within clear bare oneLine nonempty unfenced after

/-- The content of a block is taken out of a text that has no backticks around the block. -/
theorem unwrapChars_block {before words content after : List Char} (quietBefore : '\x60' ∉ before)
    (oneLine : '\n' ∉ words) (nonempty : content ≠ []) (unfenced : Unfenced content)
    (quietAfter : '\x60' ∉ after) :
    unwrapChars (before ++ block words content ++ after) = Text.trim content := by
  apply unwrapChars_block_append (clear_of_quiet quietBefore) oneLine nonempty unfenced
  rintro - ends
  obtain ⟨rest, c, last⟩ := (List.eq_nil_or_concat' (Text.trimEnd after)).resolve_left ends
  have other : c ≠ '\x60' := by
    rintro rfl
    exact quietAfter ((Text.prefix_trimEnd after).subset (last ▸ List.mem_concat_self))
  rw [last, ← List.append_assoc]
  exact dropFinalMarks?_of_ne other

/-! ## Blocks in strings -/

/-- A block among other words, in characters. -/
theorem toList_block (before words content after : String) :
    (before ++ "\x60\x60\x60" ++ words ++ "\n" ++ content ++ "\n\x60\x60\x60" ++ after).toList =
      before.toList ++ block words.toList content.toList ++ after.toList := by
  simp [block, marks]

/-- Nothing of a text is visible exactly if all of it is blank. -/
theorem dropWhile_isBlank_eq_nil_iff {s : String} :
    s.toList.dropWhile Text.isBlank = [] ↔ Text.allBlank s = true := by
  rw [List.dropWhile_eq_nil_iff, Text.allBlank, List.all_eq_true]

/-- The content of a block is taken out of a string that starts with other words than the block. -/
theorem unwrap_block_within {before words content : String} (clear : Clear before.toList)
    (visible : Text.allBlank before = false) (oneLine : '\n' ∉ words.toList)
    (nonempty : content ≠ "") (unfenced : Unfenced content.toList) (after : String) :
    unwrap (before ++ "\x60\x60\x60" ++ words ++ "\n" ++ content ++ "\n\x60\x60\x60" ++ after) =
      Text.trimmed content := by
  have other : before.toList.dropWhile Text.isBlank ≠ [] := by
    rw [Ne, dropWhile_isBlank_eq_nil_iff, visible]
    exact Bool.false_ne_true
  rw [unwrap, toList_block, unwrapChars_block_within clear other oneLine (by simpa using nonempty)
    unfenced, Text.trimmed]

end Flowchart.Fence
