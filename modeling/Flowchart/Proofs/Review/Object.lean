import Flowchart.Proofs.Review.Answer
import Flowchart.Proofs.Revision.Echo

/-!
# The object in a reviewer's answer

An answer that is a JSON object, or has one in a block, is read as this object, whatever its strings
hold: a line feed in a document stands between its parts, so no line of it starts with a backtick
and no fence begins in it. Among other words, without a block, the object is found only if no brace
closes after it, since the search goes on to the last brace of the answer.
-/

set_option autoImplicit false

namespace Flowchart

/-! ## Documents as texts -/

namespace Json

/-- The white space of documents is blank. -/
theorem isBlank_of_isSpace {c : Char} (h : Reader.isSpace c = true) : Text.isBlank c = true := by
  simp only [Reader.isSpace, Bool.or_eq_true, decide_eq_true_eq] at h
  rcases h with ((rfl | rfl) | rfl) | rfl <;> decide

/-- A text in which no line starts with a backtick has no fence in it. -/
theorem Calm.unfenced {cs : List Char} (h : Calm cs) : Fence.Unfenced cs := by
  suffices chained : ∀ c, (c :: cs).IsChain (fun c d => c = '\n' → d ≠ '\x60') → Fence.Unfenced cs
    from chained '\n' h
  clear h
  induction cs with
  | nil => exact fun _ _ => Fence.unfenced_nil
  | cons d cs ih =>
    intro c chain
    refine Fence.unfenced_cons.2 ⟨?_, ih d chain.tail⟩
    by_contra starts
    rw [Bool.not_eq_false, Fence.startsWithFence, List.isPrefixOf_iff_prefix] at starts
    obtain ⟨rest, whole⟩ := starts
    cases whole
    exact (List.isChain_cons_cons.1 chain.tail).1 rfl rfl

variable {depth : Nat} {fields : Fields} {text : List Char}

/-- The text of an object is trimmed, since braces are at both of its ends. -/
theorem Spells.trim_object (h : Spells depth (.value (.object fields)) text) :
    Text.trim text = text := by
  obtain ⟨middle, rfl, front, rfl⟩ := h.braces
  refine Text.trim_eq_self ?_ ?_
  · rintro c ⟨⟩
    decide
  · intro c last
    rw [← List.cons_append, List.getLast?_concat] at last
    cases last
    decide

/-- The text of an object is what trimming leaves of a document. -/
theorem spells_trim_of_read (h : read text depth = .ok (.object fields)) :
    Spells depth (.value (.object fields)) (Text.trim text) := by
  obtain ⟨before, inner, after, rfl, blank, blankAfter, spells⟩ := read_eq_ok_iff.1 h
  obtain ⟨c, rest, shape, -⟩ := spells.exists_opens
  have front : before.dropWhile Text.isBlank = [] :=
    List.dropWhile_eq_nil_iff.2 fun c mem => isBlank_of_isSpace (blank c mem)
  have back : Text.trimEnd after = [] :=
    List.rdropWhile_eq_nil_iff.2 fun c mem => isBlank_of_isSpace (blankAfter c mem)
  rw [Text.trim_around (by simp [shape]) spells.trim_object, front, back]
  simpa using spells

/-- A text that spells a value is read as this value. -/
theorem read_of_spells {v : Json} (h : Spells depth (.value v) text) : read text depth = .ok v :=
  read_eq_ok_iff.2 ⟨[], text, [], by simp, List.forall_mem_nil _, List.forall_mem_nil _, h⟩

/-- No line of a document starts with a backtick. -/
theorem calm_of_read {v : Json} (h : read text depth = .ok v) : Calm text := by
  obtain ⟨before, inner, after, rfl, blank, blankAfter, spells⟩ := read_eq_ok_iff.1 h
  exact (blank.calm.append spells.calm).append blankAfter.calm

end Json

namespace Review

/-! ## Answers that repeat a document -/

variable {depth : Nat}

/-- An answer holds the object that its content spells. -/
theorem objectIn_of_unwrapChars {text : String} {fields : Json.Fields}
    (h : Json.Spells depth (.value (.object fields)) (Fence.unwrapChars text.toList)) :
    objectIn text depth = .ok fields :=
  objectIn_eq_ok_iff.2 (.inl (Json.read_eq_ok_iff.1 (Json.read_of_spells h)))

/-- An object is found in the answers that repeat its document, by a reader that accepts the depth
of the document. -/
theorem objectIn_echo {document answer : String} {fields : Json.Fields}
    (isRead : Json.read document.toList depth = .ok (.object fields))
    (echo : Revision.Echo document answer) : objectIn answer depth = .ok fields := by
  have spells := Json.spells_trim_of_read isRead
  obtain ⟨middle, shape, -⟩ := spells.braces
  apply objectIn_of_unwrapChars
  cases echo with
  | bare =>
    rw [Fence.unwrapChars_of_unfenced]
    · exact spells
    · rw [shape]
      simp
    · exact spells.calm.unfenced
  | @block before words after quietBefore oneLine quietAfter =>
    have nonempty : document.toList ≠ [] := by
      intro empty
      rw [empty] at shape
      cases shape
    have chars : (before ++ "\x60\x60\x60" ++ words ++ "\n" ++ document ++
        "\n\x60\x60\x60" ++ after).toList =
        before.toList ++ Fence.block words.toList document.toList ++ after.toList := by
      simp [Fence.block, Fence.marks]
    rw [chars, Fence.unwrapChars_block quietBefore oneLine nonempty
      (Json.calm_of_read isRead).unfenced quietAfter]
    exact spells

/-- A document with a fence and a brace in a string. -/
def fencedRemark : String :=
  "\x7b\n  \x22strengths\x22: [\n    \x22\x60\x60\x60\\n\x7d\x22\n  ]\n\x7d"

/-- It is found in a block, between words that have braces of their own. -/
theorem objectIn_echo_fencedRemark :
    Json.read fencedRemark.toList =
        .ok (.object [("strengths", .array [.string "\x60\x60\x60\n\x7d"])]) ∧
      objectIn ("As \x7basked\x7d: " ++ "\x60\x60\x60" ++ "json" ++ "\n" ++ fencedRemark ++
          "\n\x60\x60\x60" ++ "\nThat is all \x7d") =
        .ok [("strengths", .array [.string "\x60\x60\x60\n\x7d"])] := by
  have isRead : Json.read fencedRemark.toList =
      .ok (.object [("strengths", .array [.string "\x60\x60\x60\n\x7d"])]) := by
    cbv
  exact ⟨isRead, objectIn_echo isRead (.block (by decide) (by decide) (by decide))⟩

/-! ## Objects among other words -/

/-- The search for an object goes from the first opening brace to the last closing brace. -/
theorem braced?_append {before object after : List Char} (noBrace : '\x7b' ∉ before)
    (opens : object.head? = some '\x7b') (closes : object.getLast? = some '\x7d') :
    braced? (before ++ object ++ after) = some (object ++ after.rdropWhile (· != '\x7d')) := by
  obtain ⟨rest, rfl⟩ := List.head?_eq_some_iff.1 opens
  have start : (before ++ '\x7b' :: rest ++ after).dropWhile (· != '\x7b') =
      '\x7b' :: rest ++ after := by
    rw [List.append_assoc, List.cons_append, Text.dropWhile_append_of_notMem noBrace]
  have final := Text.rdropWhile_append_of_getLast? (p := (· != '\x7d')) closes (by decide) after
  rw [List.rdropWhile] at final
  unfold braced?
  simp only [start, final]
  simp

variable {object : List Char} {fields : Json.Fields}

/-- Nothing but white space is left up to the last closing brace exactly if no brace closes. -/
theorem allSpace_rdropWhile_iff {after : List Char} :
    Json.AllSpace (after.rdropWhile (· != '\x7d')) ↔ '\x7d' ∉ after := by
  constructor
  · intro blank brace
    have kept := (Text.mem_rdropWhile_iff (p := (· != '\x7d')) (by decide)).2 brace
    exact absurd (blank _ kept) (by decide)
  · intro noBrace
    rw [List.rdropWhile_eq_nil_iff.2 (Text.bne_of_notMem noBrace)]
    exact List.forall_mem_nil _

/-- The search finds an object if no later brace closes. Otherwise it finds no document. -/
theorem bracedObject_append_iff {before after : List Char} (noBrace : '\x7b' ∉ before)
    (spells : Json.Spells depth (.value (.object fields)) object) :
    bracedObject (before ++ object ++ after) depth = .ok fields ↔ '\x7d' ∉ after := by
  obtain ⟨middle, shape, front, ends⟩ := spells.braces
  have opens : object.head? = some '\x7b' := by
    rw [shape]
    rfl
  have closes : object.getLast? = some '\x7d' := by
    rw [shape, ← ends, ← List.cons_append, List.getLast?_concat]
  have alone : Json.IsDocument depth (object ++ after.rdropWhile (· != '\x7d')) (.object fields) ↔
      Json.AllSpace (after.rdropWhile (· != '\x7d')) := by
    rw [← Json.read_eq_ok_iff]
    exact (Json.read_object_append_iff (List.forall_mem_nil _) spells).trans (and_iff_right rfl)
  rw [bracedObject_eq_ok_iff, braced?_append noBrace opens closes, ← allSpace_rdropWhile_iff,
    ← alone]
  simp

/-- If all of an answer is an object, then no other words stand behind the first object in it. -/
theorem allSpace_of_read {before after : List Char} {other : Json.Fields}
    (noBrace : '\x7b' ∉ before)
    (spells : Json.Spells depth (.value (.object fields)) object)
    (isRead : Json.read (before ++ (object ++ after)) depth = .ok (.object other)) :
    Json.AllSpace after := by
  have blank : Json.AllSpace before := by
    obtain ⟨space, inner, rest, whole, blank, -, spells'⟩ := Json.read_eq_ok_iff.1 isRead
    obtain ⟨middle, rfl, -⟩ := spells'.braces
    rw [List.append_assoc, List.append_eq_append_iff] at whole
    rcases whole with ⟨more, rfl, -⟩ | ⟨more, rfl, same⟩
    · exact fun c mem => blank c (List.mem_append_left more mem)
    · cases more with
      | nil => simpa using blank
      | cons c more =>
        obtain rfl : '\x7b' = c := (List.cons.inj same).1
        exact absurd (List.mem_append_right space List.mem_cons_self) noBrace
  exact ((Json.read_object_append_iff blank spells).1 isRead).2

/-- Words around an object make no block of it. -/
theorem unwrapChars_chatty {before after : List Char} (quietBefore : '\x60' ∉ before)
    (spells : Json.Spells depth (.value (.object fields)) object)
    (quietAfter : '\x60' ∉ after) :
    Fence.unwrapChars (before ++ object ++ after) =
      before.dropWhile Text.isBlank ++ object ++ Text.trimEnd after := by
  obtain ⟨middle, shape, -⟩ := spells.braces
  have trimmed := Text.trim_around (by simp [shape]) spells.trim_object before after
  have front : '\x60' ∉ before.dropWhile Text.isBlank :=
    fun mem => quietBefore ((List.dropWhile_suffix _).subset mem)
  have back : '\x60' ∉ Text.trimEnd after :=
    fun mem => quietAfter ((Text.prefix_trimEnd after).subset mem)
  rw [Fence.unwrapChars_of_unfenced, trimmed]
  · rw [trimmed, shape]
    intro c first
    cases cut : before.dropWhile Text.isBlank with
    | nil =>
      rw [cut] at first
      cases first
      decide
    | cons d rest =>
      rw [cut] at first front
      cases first
      rintro rfl
      exact front List.mem_cons_self
  · rw [trimmed]
    exact (((Json.calm_of_quiet front).append spells.calm).append
      (Json.calm_of_quiet back)).unfenced

/-- An object among other words, without a backtick around it, is found if and only if no brace
closes behind it and reading all of the answer does not forestall the search, with another document
or because it goes too deep. This holds for every depth that a reader may accept. -/
theorem objectIn_chatty_iff {before object after : String} {fields : Json.Fields}
    (noBrace : '\x7b' ∉ before.toList) (quietBefore : '\x60' ∉ before.toList)
    (opens : object.toList.head? = some '\x7b') (closes : object.toList.getLast? = some '\x7d')
    (isRead : Json.read object.toList depth = .ok (.object fields))
    (quietAfter : '\x60' ∉ after.toList) :
    objectIn (before ++ object ++ after) depth = .ok fields ↔
      '\x7d' ∉ after.toList ∧
        (∀ v, Json.read (Text.trim (before ++ object ++ after).toList) depth = .ok v →
          v = .object fields) ∧
        ∀ container, Json.read (Text.trim (before ++ object ++ after).toList) depth ≠
          .error (.tooDeep container) := by
  have trimmed : Text.trim object.toList = object.toList := by
    refine Text.trim_eq_self ?_ ?_
    · rw [opens]
      rintro c ⟨⟩
      decide
    · rw [closes]
      rintro c ⟨⟩
      decide
  have spells := Json.spells_trim_of_read isRead
  rw [trimmed] at spells
  obtain ⟨middle, shape, -⟩ := spells.braces
  have unwrapped := unwrapChars_chatty quietBefore spells quietAfter
  have content := Text.trim_around (by simp [shape]) trimmed before.toList after.toList
  have brace : '\x7d' ∈ Text.trimEnd after.toList ↔ '\x7d' ∈ after.toList :=
    Text.mem_rdropWhile_iff (by decide)
  have noBraceToo : '\x7b' ∉ before.toList.dropWhile Text.isBlank :=
    fun mem => noBrace ((List.dropWhile_suffix _).subset mem)
  have found : bracedObject (before.toList.dropWhile Text.isBlank ++ object.toList ++
      Text.trimEnd after.toList) depth = .ok fields ↔ '\x7d' ∉ Text.trimEnd after.toList :=
    bracedObject_append_iff noBraceToo spells
  unfold objectIn
  simp only [String.toList_append, unwrapped, content, ← brace]
  -- The content is either a document as a whole, too deep, or searched between its braces.
  cases document : Json.read (before.toList.dropWhile Text.isBlank ++ object.toList ++
      Text.trimEnd after.toList) depth with
  | ok v =>
    have alone : v = .object fields → '\x7d' ∉ Text.trimEnd after.toList := by
      rintro rfl brace
      rw [List.append_assoc] at document
      exact absurd (allSpace_of_read noBraceToo spells document _ brace) (by decide)
    simpa [fieldsOf_eq_ok_iff] using alone
  | error e =>
    cases e with
    | tooDeep container => simp
    | malformed position => simpa using found
    | integerTooLong => simpa using found

/-- The document of a refusal. -/
def refusal : String := "\x7b\x22reason\x22: \x22No\x22\x7d"

/-- It is found behind other words, though a brace opens after it. -/
theorem objectIn_chatty_iff_refusal :
    Json.read refusal.toList = .ok (.object [("reason", .string "No")]) ∧
      objectIn ("[] and " ++ refusal ++ " \x7bas asked") = .ok [("reason", .string "No")] := by
  have isRead : Json.read refusal.toList = .ok (.object [("reason", .string "No")]) := by
    cbv
  have failure : Json.read (Text.trim ("[] and " ++ refusal ++ " \x7bas asked").toList) =
      .error (.malformed 3) := by
    cbv
  refine ⟨isRead, (objectIn_chatty_iff (by decide) (by decide) rfl rfl isRead (by decide)).2
    ⟨by decide, ?_, ?_⟩⟩
  · intro v whole
    rw [failure] at whole
    cases whole
  · intro container whole
    rw [failure] at whole
    cases whole

/-- A refusal is not found in front of another object. -/
theorem objectIn_refusal_twice :
    Json.read refusal.toList = .ok (.object [("reason", .string "No")]) ∧
      (∀ v, Json.read ("" ++ refusal ++ (" or " ++ refusal)).toList ≠ .ok v) ∧
      objectIn ("" ++ refusal ++ (" or " ++ refusal)) =
        .error (.call (.malformed "Prompt analysis answer is not valid JSON")) := by
  have failure : Json.read ("" ++ refusal ++ (" or " ++ refusal)).toList =
      .error (.malformed 17) := by
    cbv
  refine ⟨by cbv, ?_, by cbv⟩
  intro v whole
  rw [failure] at whole
  cases whole

end Review

end Flowchart
