import UiRunner.Proofs.Json.RoundTrip
import UiRunner.Proofs.WebDriver.Session

/-!
# Errors of the remote side

What a command makes of a reply whose value names an error. With a message that is a text, or with
none, the error is what the command returns, whatever the status; only to a search is a missing
element an answer. An error whose message is anything else is not read as one: a successful reply
is then taken for its value, and any other fails without a name of its own.
-/
namespace UiRunner.WebDriver

open Device Http

variable {σ : Type} {p : Patience} {c : Command} {status : Status} {value : Json.Fields}
  {name : String}

/-- A reply came whole, and its value is this object, which names an error. -/
structure NamesError (o : Outcome) (status : Status) (value : Json.Fields) (name : String) :
    Prop where
  reply : ∃ fields, reply? o = some (status, .obj fields) ∧
    Json.Fields.get? fields "value" = some (.obj value)
  error : Json.Fields.get? value "error" = some (.str name)

/-- The message in an object is a text, or there is none. -/
def Worded (value : Json.Fields) : Prop :=
  ∀ m, Json.Fields.get? value "message" = some m → ∃ text, m = .str text

/-- The command failed with a text that begins with this one. -/
def FailsWith {α : Type} (name : String) (r : Except Error α) : Prop :=
  ∃ rest, r = .error (.driver (name ++ rest))

/-- A command returns an error under its name. A search for an element that is missing finds
none. -/
def Returns (name : String) : (c : Command) → Except Error c.Answer → Prop
  | .find _, r => if name = "no such element" then r = .ok none else FailsWith name r
  | _, r => FailsWith name r

/-! ## Reading an error -/

theorem ofValue?_of_worded (error : Json.Fields.get? value "error" = some (.str name))
    (worded : Worded value) :
    ∃ message, RemoteError.ofValue? (.obj value) = some ⟨name, message⟩ := by
  simp only [RemoteError.ofValue?, Json.field?, error]
  cases found : Json.Fields.get? value "message" with
  | none => exact ⟨"", rfl⟩
  | some m =>
    obtain ⟨message, rfl⟩ := worded m found
    exact ⟨message, rfl⟩

theorem ofValue?_of_not_worded (unworded : ¬ Worded value) :
    RemoteError.ofValue? (.obj value) = none := by
  unfold Worded at unworded
  push Not at unworded
  obtain ⟨m, found, other⟩ := unworded
  simp only [RemoteError.ofValue?, Json.field?, found]
  cases m with
  | str text => exact absurd rfl (other text)
  | _ => cases Json.Fields.get? value "error" <;> simp

/-! ## Returning it -/

theorem failsWith_text {α : Type} (name message : String) :
    FailsWith (α := α) name (.error (.driver (RemoteError.mk name message).text)) := by
  simp only [FailsWith, RemoteError.text]
  split
  · exact ⟨"", by simp⟩
  · exact ⟨": " ++ message, by simp [String.append_assoc]⟩

/-- What a failure means for a command goes by its name. -/
theorem returns_failureOf (c : Command) (name message : String) :
    Returns name c (failureOf c ⟨name, message⟩) := by
  cases c with
  | find q =>
    simp only [Returns, failureOf, RemoteError.isNoSuchElement, beq_iff_eq]
    split
    · rfl
    · exact failsWith_text name message
  | _ => exact failsWith_text name message

theorem compact_obj_isEmpty (value : Json.Fields) : (Json.obj value).compact.isEmpty = false := by
  simp [Json.compact, String.isEmpty_eq_false_iff]

theorem failureOf_unknown (c : Command) (value : Json.Fields) :
    failureOf c ⟨"unknown error", (Json.obj value).compact⟩ =
      .error (.driver ("unknown error: " ++ (Json.obj value).compact)) := by
  have text : RemoteError.text ⟨"unknown error", (Json.obj value).compact⟩ =
      "unknown error: " ++ (Json.obj value).compact := by
    simp only [RemoteError.text, compact_obj_isEmpty]
    rfl
  cases c <;> simp [failureOf, RemoteError.isNoSuchElement, text]

namespace NamesError

variable {o : Outcome} (named : NamesError o status value name)
include named

theorem exists_body : ∃ body, reply? o = some (status, body) ∧ valueOf body = .obj value := by
  obtain ⟨fields, reply, held⟩ := named.reply
  exact ⟨_, reply, valueOf_eq_obj_iff.2 ⟨fields, rfl, held⟩⟩

/-- An error in the usual form is returned, also with a successful status. -/
theorem returns (worded : Worded value) : Returns name c (commandVerdict p c o) := by
  obtain ⟨body, reply, object⟩ := named.exists_body
  obtain ⟨message, read⟩ := ofValue?_of_worded named.error worded
  rw [commandVerdict_of_reply reply,
    parseReply_eq_error_iff.2 (.inl ((congrArg RemoteError.ofValue? object).trans read))]
  exact returns_failureOf c name message

/-- An error in any other form is not returned as such. -/
theorem commandVerdict_eq (unworded : ¬ Worded value) : commandVerdict p c o =
    if status.isSuccess = true then answerOf c (.obj value)
    else .error (.driver ("unknown error: " ++ (Json.obj value).compact)) := by
  obtain ⟨body, reply, object⟩ := named.exists_body
  have unread := (congrArg RemoteError.ofValue? object).trans (ofValue?_of_not_worded unworded)
  rw [commandVerdict_of_reply reply]
  by_cases success : status.isSuccess = true
  · rw [if_pos success, parseReply_eq_ok_iff.2 ⟨success, unread, rfl⟩, object]
  · have failure : status.isSuccess = false := by simpa using success
    rw [if_neg success, parseReply_eq_error_iff.2 (.inr ⟨unread, failure, rfl⟩), object]
    exact failureOf_unknown c value

end NamesError

/-! ## A stale element -/

/-- A body that is written as JSON is read back. -/
theorem reply?_eq_of_pretty {o : Outcome} {v : Json} (readable : Json.Readable Json.maxDepth v)
    (came : (o.toOption.bind fun r => r.text?.map fun text => (r.status, text)) =
      some (status, v.pretty)) : reply? o = some (status, v) := by
  cases o with
  | error f => cases came
  | ok r =>
    obtain ⟨text, whole, same⟩ := Option.map_eq_some_iff.1 came
    cases same
    rw [reply?, whole, Option.map_some, bodyOf, Json.read?_pretty readable, Option.getD_some]

/-- The value of a reply that says that an element is stale. -/
def stale (message : Json) : Json.Fields :=
  [("error", .str "stale element reference"), ("message", message)]

/-- A client in a session whose server has one reply, a successful one with this body. -/
def answered (body : Json) : Client (List (Status × String)) where
  net := [(200, body.pretty)]
  live := some ⟨"http://localhost:4723", "s"⟩

/-- What comes of a click then. -/
def clicked (body : Json) : Outcome :=
  (replying.send (commandRequest {} ⟨"http://localhost:4723", "s"⟩ (.click "b"))
    (answered body).net).1

theorem namesError_clicked {message : Json} (readable : Json.Readable 126 message)
    (came : ((clicked (.obj [("value", .obj (stale message))])).toOption.bind fun r =>
      r.text?.map fun text => (r.status, text)) =
        some (200, (Json.obj [("value", .obj (stale message))]).pretty)) :
    NamesError (clicked (.obj [("value", .obj (stale message))])) 200 (stale message)
      "stale element reference" := by
  have inner : Json.Readable 127 (.obj (stale message)) := by
    have order : "error" < "message" := by decide +kernel
    refine .obj (by decide) (List.pairwise_pair.2 order) ?_
    simp only [stale, List.forall_mem_cons]
    exact ⟨.str _ _, readable, by simp⟩
  have whole : Json.Readable Json.maxDepth (.obj [("value", .obj (stale message))]) := by
    refine .obj (by decide) (List.pairwise_singleton ..) ?_
    exact List.forall_mem_singleton.2 inner
  exact ⟨⟨_, reply?_eq_of_pretty whole came, rfl⟩, rfl⟩

/-- **An error with a message that is a text, or without one, is never lost.** Whatever the status
and whatever else the reply says, every command of a live session returns it under its name; to a
search, an element that is missing is not found. With any other message a successful reply counts
as its value, and any other reply as an unknown error. -/
theorem remote_error_returned (net : Network σ) (p : Patience) (c : Command) {s : Client σ}
    {l : Live} (live : s.live = some l) {status : Status} {value : Json.Fields} {name : String}
    (named : NamesError (net.send (commandRequest p l c) s.net).1 status value name) :
    (Worded value → Returns name c (command net p c s).1) ∧
    (¬ Worded value → (command net p c s).1 =
      if status.isSuccess = true then answerOf c (.obj value)
      else .error (.driver ("unknown error: " ++ (Json.obj value).compact))) := by
  have verdict : (command net p c s).1 =
      commandVerdict p c (net.send (commandRequest p l c) s.net).1 := by
    simp [command, live, exchange]
  rw [verdict]
  exact ⟨named.returns, named.commandVerdict_eq⟩

/-- A click on a stale element fails, although the status is a success. -/
theorem remote_error_returned_stale : FailsWith "stale element reference"
    (command replying {} (.click "b")
      (answered (.obj [("value", .obj (stale (.str "gone")))]))).1 := by
  have named := namesError_clicked (.str _ "gone") (by decide +kernel)
  have worded : Worded (stale (.str "gone")) := by
    intro m found
    exact ⟨"gone", (Option.some.inj found).symm⟩
  exact (remote_error_returned replying {} (.click "b") rfl named).1 worded

/-- With a message that is null the same click passes. -/
theorem remote_error_lost :
    NamesError (clicked (.obj [("value", .obj (stale .null))])) 200 (stale .null)
      "stale element reference" ∧
    (command replying {} (.click "b") (answered (.obj [("value", .obj (stale .null))]))).1 =
      .ok () :=
  ⟨namesError_clicked (.null _) (by decide +kernel), by decide +kernel⟩

end UiRunner.WebDriver
