import Flowchart.Chat.Endpoint
import Flowchart.Proofs.Json.Depth

/-!
# What comes of a conversation

A conversation sends a single request, with its messages as they are, and what comes of it depends
on the outcome of the request alone. The service may be unavailable; else it is the body of the
response that counts. It tells a text, or it is too deep, which is no failure of the call: a
container opens in it inside more containers than the reader accepts, whatever number that is.
Everything else is malformed.
-/

set_option autoImplicit false

namespace Flowchart.Chat

/-! ## What is sent -/

/-- A service that may go by all that it was sent before, with what it was sent so far. -/
def recorded (service : List Post → Post → Outcome) (p : Post) : StateM (List Post) Outcome := do
  let sent ← get
  set (sent ++ [p])
  return service sent p

/-- The body of the request is an object that has the messages among its fields. -/
def Post.Carries (p : Post) (messages : List Json) : Prop :=
  ∃ fields, p.body = .object fields ∧
    Json.Fields.get? fields "messages" = some (.array messages)

/-- The request for a conversation carries its messages. -/
theorem carries_post (e : Endpoint) (messages : List Json) (temperature : Option Json) :
    (e.post messages temperature).Carries messages :=
  ⟨_, rfl, rfl⟩

/-- A conversation sends its request and nothing else, and answers what comes of it. -/
theorem run_chat (e : Endpoint) (service : List Post → Post → Outcome) (messages : List Json)
    (temperature : Option Json) (depth : Nat) (sent : List Post) :
    (e.chat (recorded service) messages temperature depth).run sent =
      (e.answer (service sent (e.post messages temperature)) depth,
        sent ++ [e.post messages temperature]) :=
  rfl

/-! ## What a body tells -/

/-- There is a message that is an object, its content is the text, and some character of the text is
not blank. -/
def HasContent (fields : Json.Fields) (text : String) : Prop :=
  ∃ message, Json.Fields.get? fields "message" = some (.object message) ∧
    Json.Fields.get? message "content" = some (.string text) ∧
    ∃ c ∈ text.toList, Text.isBlank c = false

/-- The body is the document of an object that has the text for the content of its message. -/
def Tells (depth : Nat) (body text : String) : Prop :=
  ∃ fields, Json.IsDocument depth body.toList (.object fields) ∧ HasContent fields text

variable {depth : Nat} {body text : String} {k : Json.Container}

/-- The content that is found in a document is the one that it has. -/
theorem contentIn?_eq_some_iff {document : Json} : Endpoint.contentIn? document = some text ↔
    ∃ fields, document = .object fields ∧ HasContent fields text := by
  have visible : (∃ c ∈ text.toList, Text.isBlank c = false) ↔ Text.allBlank text = false := by
    simp [Text.allBlank]
  simp only [HasContent, Endpoint.contentIn?, Option.bind_eq_bind, Option.bind_eq_some_iff,
    Json.fields?_eq_some_iff, Json.string?_eq_some_iff, visible]
  constructor
  · rintro ⟨fields, isObject, _, found, message, rfl, _, foundToo, content, rfl, shown⟩
    split at shown
    · cases shown
    · rename_i notBlank
      cases shown
      exact ⟨fields, isObject, message, found, foundToo, by simpa using notBlank⟩
  · rintro ⟨fields, isObject, message, found, foundToo, notBlank⟩
    exact ⟨fields, isObject, _, found, message, rfl, _, foundToo, text, rfl, by simp [notBlank]⟩

/-- A body answers the text that it tells. -/
theorem answerIn_eq_ok_iff : Endpoint.answerIn body depth = .ok text ↔ Tells depth body text := by
  have told : Tells depth body text ↔
      ∃ document, Json.read body.toList depth = .ok document ∧
        Endpoint.contentIn? document = some text := by
    simp only [Tells, contentIn?_eq_some_iff, Json.read_eq_ok_iff]
    constructor
    · rintro ⟨fields, isDocument, hasContent⟩
      exact ⟨_, isDocument, fields, rfl, hasContent⟩
    · rintro ⟨_, isDocument, fields, rfl, hasContent⟩
      exact ⟨fields, isDocument, hasContent⟩
  rw [told, Endpoint.answerIn]
  cases found : Json.read body.toList depth with
  | error e => simp
  | ok document => cases content : Endpoint.contentIn? document <;> simp [content]

/-- A body fails for its depth if and only if it is too deep. -/
theorem answerIn_eq_tooDeep_iff : Endpoint.answerIn body depth = .error (.tooDeep k) ↔
    Json.TooDeep depth body.toList k := by
  rw [← Json.read_eq_tooDeep_iff, Endpoint.answerIn]
  cases found : Json.read body.toList depth with
  | error e => cases e <;> simp [Failure.ofReadError]
  | ok document => cases content : Endpoint.contentIn? document <;> simp [content]

/-- A body that tells nothing is malformed, unless it is too deep. -/
theorem answerIn_cases (body : String) (depth : Nat) :
    (∃ text, Endpoint.answerIn body depth = .ok text) ∨
      (∃ k, Endpoint.answerIn body depth = .error (.tooDeep k)) ∨
        ∃ message, Endpoint.answerIn body depth = .error (.call (.malformed message)) := by
  unfold Endpoint.answerIn
  split
  · rename_i e _
    cases e with
    | tooDeep k => exact .inr (.inl ⟨k, rfl⟩)
    | malformed position => exact .inr (.inr ⟨_, rfl⟩)
    | integerTooLong => exact .inr (.inr ⟨_, rfl⟩)
  · split
    · exact .inl ⟨_, rfl⟩
    · exact .inr (.inr ⟨_, rfl⟩)

/-- A body that tells nothing and is not too deep is malformed. -/
theorem answerIn_malformed_iff :
    (∃ message, Endpoint.answerIn body depth = .error (.call (.malformed message))) ↔
      (∀ text, ¬ Tells depth body text) ∧ ∀ k, ¬ Json.TooDeep depth body.toList k := by
  simp only [← answerIn_eq_ok_iff, ← answerIn_eq_tooDeep_iff]
  rcases answerIn_cases body depth with ⟨text, told⟩ | ⟨k, tooDeep⟩ | ⟨message, malformed⟩
  · simp [told]
  · simp [tooDeep]
  · simp [malformed]

/-! ## What the outcome of a request means -/

/-- There is no response, or one whose status names an error. The bound of 600 is what an HTTP
client takes for one: a response whose status is 600 or more is accepted. -/
def Outcome.Refuses : Outcome → Prop
  | .failed _ => True
  | .answered status _ => 400 ≤ status ∧ status < 600

/-- There is a response with this body, and its status names no error. -/
def Outcome.Accepts (o : Outcome) (body : String) : Prop :=
  ∃ status, o = .answered status body ∧ ¬ (400 ≤ status ∧ status < 600)

variable {o : Outcome}

/-- The outcome of a request is an accepted response or a refusal. -/
theorem Outcome.accepts_or_refuses (o : Outcome) : (∃ body, o.Accepts body) ∨ o.Refuses := by
  cases o with
  | failed message => exact .inr trivial
  | answered status body =>
    by_cases isError : 400 ≤ status ∧ status < 600
    · exact .inr isError
    · exact .inl ⟨body, status, rfl, isError⟩

/-- It is not both. -/
theorem Outcome.Accepts.not_refuses (h : o.Accepts body) : ¬ o.Refuses := by
  obtain ⟨status, rfl, noError⟩ := h
  exact noError

/-- An accepted response has one body, so what holds of some body holds of this one. -/
theorem Outcome.Accepts.exists_iff (h : o.Accepts body) {P : String → Prop} :
    (∃ other, o.Accepts other ∧ P other) ↔ P body := by
  constructor
  · rintro ⟨other, ⟨status, rfl, -⟩, holds⟩
    obtain ⟨_, ⟨⟩, -⟩ := h
    exact holds
  · exact fun holds => ⟨body, h, holds⟩

/-- After a refusal, the service is unavailable. -/
theorem answer_of_refuses (e : Endpoint) (h : o.Refuses) (depth : Nat) :
    ∃ message, e.answer o depth = .error (.call (.unavailable message)) := by
  cases o with
  | failed message => exact ⟨_, rfl⟩
  | answered status body =>
    have isError : Endpoint.isErrorStatus status = true := by
      simpa [Endpoint.isErrorStatus, Outcome.Refuses] using h
    exact ⟨_, by rw [Endpoint.answer, if_pos isError]⟩

/-- An accepted response answers what its body answers. -/
theorem answer_of_accepts (e : Endpoint) (h : o.Accepts body) (depth : Nat) :
    e.answer o depth = Endpoint.answerIn body depth := by
  obtain ⟨status, rfl, noError⟩ := h
  have notError : ¬ Endpoint.isErrorStatus status = true := by
    simpa [Endpoint.isErrorStatus] using noError
  rw [Endpoint.answer, if_neg notError]

/-- The result of a conversation is what the outcome of its request means, to a reader that accepts
`depth` containers inside each other. -/
structure Means (depth : Nat) (o : Outcome) (result : Except Failure String) : Prop where
  told (text : String) : result = .ok text ↔ ∃ body, o.Accepts body ∧ Tells depth body text
  unavailable : (∃ message, result = .error (.call (.unavailable message))) ↔ o.Refuses
  tooDeep (k : Json.Container) :
    result = .error (.tooDeep k) ↔ ∃ body, o.Accepts body ∧ Json.TooDeep depth body.toList k
  malformed : (∃ message, result = .error (.call (.malformed message))) ↔
    ∃ body, o.Accepts body ∧ (∀ text, ¬ Tells depth body text) ∧
      ∀ k, ¬ Json.TooDeep depth body.toList k

/-- What an endpoint answers is what the outcome of its request means. -/
theorem means_answer (e : Endpoint) (o : Outcome) (depth : Nat) :
    Means depth o (e.answer o depth) := by
  rcases o.accepts_or_refuses with ⟨body, accepts⟩ | refuses
  · rw [answer_of_accepts e accepts]
    constructor
    · intro text
      rw [accepts.exists_iff, answerIn_eq_ok_iff]
    · refine iff_of_false ?_ accepts.not_refuses
      rcases answerIn_cases body depth with ⟨text, told⟩ | ⟨k, tooDeep⟩ | ⟨message, malformed⟩
      · simp [told]
      · simp [tooDeep]
      · simp [malformed]
    · intro k
      rw [accepts.exists_iff, answerIn_eq_tooDeep_iff]
    · rw [accepts.exists_iff, answerIn_malformed_iff]
  · obtain ⟨message, unavailable⟩ := answer_of_refuses e refuses depth
    have noBody (body : String) : ¬ o.Accepts body := fun accepts => accepts.not_refuses refuses
    rw [unavailable]
    constructor
    · simp [noBody]
    · exact iff_of_true ⟨message, rfl⟩ refuses
    · simp [noBody]
    · simp [noBody]

/-- A conversation sends one request, which carries the messages whatever service it is sent to, and
its result is what the outcome of that request means, however deep a body may be. -/
theorem chat_means (e : Endpoint) (messages : List Json) (temperature : Option Json) (depth : Nat) :
    ∃ p : Post, p.Carries messages ∧
      ∀ (service : List Post → Post → Outcome) (sent : List Post), ∃ result,
        (e.chat (recorded service) messages temperature depth).run sent = (result, sent ++ [p]) ∧
          Means depth (service sent p) result :=
  ⟨e.post messages temperature, carries_post e messages temperature, fun service sent =>
    ⟨_, run_chat e service messages temperature depth sent, means_answer e _ depth⟩⟩

/-! ## Bodies that are too deep -/

/-- Arrays that stand inside each other, with nothing else in them. -/
def nestedArrays (n : Nat) : List Char :=
  List.replicate n '[' ++ List.replicate n ']'

/-- They are a document for a reader that accepts as many. -/
theorem exists_spells_nestedArrays (n : Nat) :
    ∃ v, Json.Spells (n + 1) (.value v) (nestedArrays (n + 1)) := by
  have blank : Json.AllSpace [] := List.forall_mem_nil _
  induction n with
  | zero => exact ⟨_, .emptyArray blank⟩
  | succ n ih =>
    obtain ⟨v, spells⟩ := ih
    have whole : nestedArrays (n + 2) = '[' :: (nestedArrays (n + 1) ++ [']']) := by
      simp [nestedArrays, List.replicate_succ, ← List.replicate_succ']
    have around := Json.Spells.array blank (.lastItem spells blank)
    rw [whole]
    exact ⟨_, around⟩

/-- One more of them than the reader accepts are too deep, and so are any others on top. -/
theorem tooDeep_nestedArrays (depth extra : Nat) :
    Json.TooDeep depth (nestedArrays (depth + extra + 1)) .array :=
  ⟨[], _, rfl, List.forall_mem_nil _, Json.sinks_brackets depth extra _⟩

/-- A document of arrays that stand inside each other, with no message in it, is not malformed. -/
theorem answer_nestedArrays :
    (∃ v, Json.read (nestedArrays 3000) 3000 = .ok v) ∧
      ({} : Endpoint).answer (.answered 200 (String.ofList (nestedArrays 3000))) =
        .error (.tooDeep .array) := by
  constructor
  · obtain ⟨v, spells⟩ := exists_spells_nestedArrays 2999
    refine ⟨v, Json.read_eq_ok_iff.2 ⟨[], _, [], ?_, List.forall_mem_nil _, List.forall_mem_nil _,
      spells⟩⟩
    simp
  · have accepts : (Outcome.answered 200 (String.ofList (nestedArrays 3000))).Accepts
        (String.ofList (nestedArrays 3000)) := ⟨200, rfl, by decide⟩
    rw [answer_of_accepts _ accepts, answerIn_eq_tooDeep_iff, String.toList_ofList]
    exact tooDeep_nestedArrays Json.maxDepth 2009

end Flowchart.Chat
