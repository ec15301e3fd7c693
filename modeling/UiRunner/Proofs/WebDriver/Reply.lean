import UiRunner.WebDriver.Client

/-!
# Replies

What the answer to a command tells about the reply that the server gave. Only a reply that came
whole has an answer that is no error. An element counts as missing only where the server says so;
everything else that a command returns comes from a reply with a successful status.
-/
namespace UiRunner.WebDriver

open Device Http

variable {p : Patience} {c : Command} {o : Outcome} {q : Query} {e : ElementId}

/-- The status and the body of a reply that came whole. -/
def reply? : Outcome → Option (Status × Json)
  | .ok r => r.text?.map fun text => (r.status, bodyOf text)
  | .error _ => none

/-- The server says that there is no such element. -/
def SaysMissing (o : Outcome) : Prop :=
  ∃ status fields value, reply? o = some (status, .obj fields) ∧
    Json.Fields.get? fields "value" = some (.obj value) ∧
    Json.Fields.get? value "error" = some (.str "no such element") ∧
    ∀ m, Json.Fields.get? value "message" = some m → ∃ text, m = .str text

/-- The server names this element, and no error. -/
def Names (o : Outcome) (e : ElementId) : Prop :=
  ∃ status fields value, reply? o = some (status, .obj fields) ∧ status.isSuccess = true ∧
    Json.Fields.get? fields "value" = some (.obj value) ∧
    RemoteError.ofValue? (.obj value) = none ∧
    (Json.Fields.get? value elementKey = some (.str e) ∨
      Json.Fields.get? value elementKey = none ∧
        Json.Fields.get? value olderElementKey = some (.str e))

/-- The server answers successfully. -/
def Succeeds (o : Outcome) : Prop :=
  ∃ status body, reply? o = some (status, body) ∧ status.isSuccess = true

/-- The server answers successfully, and with the truth value `true`. -/
def Affirms (o : Outcome) : Prop :=
  ∃ status body, reply? o = some (status, body) ∧ status.isSuccess = true ∧
    (body = .bool true ∨
      ∃ fields, body = .obj fields ∧ Json.Fields.get? fields "value" = some (.bool true))

/-! ## Values -/

theorem valueOf_eq_obj_iff {body : Json} {value : Json.Fields} :
    valueOf body = .obj value ↔
      ∃ fields, body = .obj fields ∧ Json.Fields.get? fields "value" = some (.obj value) := by
  cases body with
  | obj fields => cases found : Json.Fields.get? fields "value" <;> simp [valueOf, found]
  | _ => simp [valueOf]

theorem valueOf_eq_true_iff {body : Json} : valueOf body = .bool true ↔
    body = .bool true ∨
      ∃ fields, body = .obj fields ∧ Json.Fields.get? fields "value" = some (.bool true) := by
  cases body with
  | obj fields => cases found : Json.Fields.get? fields "value" <;> simp [valueOf, found]
  | _ => simp [valueOf]

theorem parseReply_eq_ok_iff {success : Bool} {body v : Json} : parseReply success body = .ok v ↔
    success = true ∧ RemoteError.ofValue? (valueOf body) = none ∧ v = valueOf body := by
  rw [parseReply]
  cases RemoteError.ofValue? (valueOf body) <;> cases success <;> simp [eq_comm]

theorem parseReply_eq_error_iff {success : Bool} {body : Json} {r : RemoteError} :
    parseReply success body = .error r ↔ RemoteError.ofValue? (valueOf body) = some r ∨
      RemoteError.ofValue? (valueOf body) = none ∧ success = false ∧
        r = ⟨"unknown error", (valueOf body).compact⟩ := by
  rw [parseReply]
  cases RemoteError.ofValue? (valueOf body) <;> cases success <;> simp [eq_comm]

/-- A value that describes a missing element is an object that says so. -/
theorem exists_missing_iff {v : Json} :
    (∃ r, RemoteError.ofValue? v = some r ∧ r.isNoSuchElement = true) ↔
      ∃ value, v = .obj value ∧
        Json.Fields.get? value "error" = some (.str "no such element") ∧
        ∀ m, Json.Fields.get? value "message" = some m → ∃ text, m = .str text := by
  cases v with
  | obj value =>
    simp only [RemoteError.ofValue?, Json.field?, Json.obj.injEq]
    split
    · simp [*, RemoteError.isNoSuchElement]
    · simp [*, RemoteError.isNoSuchElement]
    · rename_i neither both
      constructor
      · rintro ⟨r, found, -⟩
        cases found
      · rintro ⟨value, rfl, error, text⟩
        cases message : Json.Fields.get? value "message" with
        | none => exact absurd message (neither _ error)
        | some m =>
          obtain ⟨t, rfl⟩ := text m message
          exact absurd message (both _ _ error)
  | _ => simp [RemoteError.ofValue?, Json.field?]

theorem element?_eq_some_iff {v : Json} : element? v = some e ↔ ∃ value, v = .obj value ∧
    (Json.Fields.get? value elementKey = some (.str e) ∨
      Json.Fields.get? value elementKey = none ∧
        Json.Fields.get? value olderElementKey = some (.str e)) := by
  have text : ∀ u : Option Json, u.bind Json.str? = some e ↔ u = some (.str e) := by
    rintro (_ | u)
    · simp
    · cases u <;> simp [Json.str?]
  cases v with
  | obj value =>
    rw [element?, text]
    cases newer : Json.Fields.get? value elementKey <;> simp [Json.field?, newer]
  | _ => simp [element?, Json.field?]

/-! ## Answers -/

/-- Without a whole reply every command fails. -/
theorem commandVerdict_of_no_reply (p : Patience) (c : Command) (none : reply? o = none) :
    ∃ error, commandVerdict p c o = .error error := by
  cases o with
  | error f => cases f <;> exact ⟨_, rfl⟩
  | ok r =>
    have cut : r.text? = .none := by simpa [reply?] using none
    rw [commandVerdict, cut]
    exact ⟨_, rfl⟩

theorem commandVerdict_of_reply {status : Status} {body : Json}
    (reply : reply? o = some (status, body)) : commandVerdict p c o =
      match parseReply status.isSuccess body with
      | .ok v => answerOf c v
      | .error r => failureOf c r := by
  cases o with
  | error f => cases reply
  | ok r =>
    obtain ⟨text, whole, same⟩ := Option.map_eq_some_iff.1 reply
    cases same
    cases parsed : parseReply r.status.isSuccess (bodyOf text) <;>
      simp only [commandVerdict, whole, parsed]

/-- A command that returns something got a whole reply: a value with success, or an error that the
command does not mind. -/
theorem commandVerdict_eq_ok_iff {a : c.Answer} : commandVerdict p c o = .ok a ↔
    ∃ status body, reply? o = some (status, body) ∧
      (parseReply status.isSuccess body = .ok (valueOf body) ∧ answerOf c (valueOf body) = .ok a ∨
        ∃ r, parseReply status.isSuccess body = .error r ∧ failureOf c r = .ok a) := by
  constructor
  · intro returned
    cases reply : reply? o with
    | none =>
      obtain ⟨error, failed⟩ := commandVerdict_of_no_reply p c reply
      cases failed.symm.trans returned
    | some whole =>
      obtain ⟨status, body⟩ := whole
      refine ⟨status, body, rfl, ?_⟩
      rw [commandVerdict_of_reply reply] at returned
      cases parsed : parseReply status.isSuccess body with
      | error r =>
        rw [parsed] at returned
        exact .inr ⟨r, rfl, returned⟩
      | ok v =>
        obtain ⟨-, -, rfl⟩ := parseReply_eq_ok_iff.1 parsed
        rw [parsed] at returned
        exact .inl ⟨rfl, returned⟩
  · rintro ⟨status, body, reply, ⟨parsed, answered⟩ | ⟨r, parsed, ignored⟩⟩
    · simpa only [commandVerdict_of_reply reply, parsed] using answered
    · simpa only [commandVerdict_of_reply reply, parsed] using ignored

theorem failureOf_find_eq_ok_iff {r : RemoteError} {found : Option ElementId} :
    failureOf (.find q) r = .ok found ↔ r.isNoSuchElement = true ∧ found = none := by
  rw [failureOf]
  cases r.isNoSuchElement <;> simp [eq_comm]

theorem answerOf_find_eq_ok_iff {v : Json} {found : Option ElementId} :
    answerOf (.find q) v = .ok found ↔ ∃ e, element? v = some e ∧ found = some e := by
  rw [answerOf]
  cases element? v <;> simp [eq_comm]

/-- A search finds no element exactly when the server says that it is missing. -/
theorem find_eq_none_iff : commandVerdict p (.find q) o = .ok none ↔ SaysMissing o := by
  rw [commandVerdict_eq_ok_iff]
  constructor
  · rintro ⟨status, body, reply, ⟨-, answered⟩ | ⟨r, failed, ignored⟩⟩
    · obtain ⟨e, -, found⟩ := answerOf_find_eq_ok_iff.1 answered
      cases found
    · obtain ⟨missing, -⟩ := failureOf_find_eq_ok_iff.1 ignored
      obtain described | ⟨-, -, rfl⟩ := parseReply_eq_error_iff.1 failed
      · obtain ⟨value, object, error, message⟩ := exists_missing_iff.1 ⟨r, described, missing⟩
        obtain ⟨fields, rfl, held⟩ := valueOf_eq_obj_iff.1 object
        exact ⟨status, fields, value, reply, held, error, message⟩
      · cases missing
  · rintro ⟨status, fields, value, reply, held, error, message⟩
    obtain ⟨r, described, missing⟩ := exists_missing_iff.2 ⟨value, rfl, error, message⟩
    rw [← valueOf_eq_obj_iff.2 ⟨fields, rfl, held⟩] at described
    exact ⟨status, _, reply, .inr ⟨r, parseReply_eq_error_iff.2 (.inl described),
      failureOf_find_eq_ok_iff.2 ⟨missing, rfl⟩⟩⟩

/-- A search finds an element exactly when the server names it. -/
theorem find_eq_some_iff : commandVerdict p (.find q) o = .ok (some e) ↔ Names o e := by
  rw [commandVerdict_eq_ok_iff]
  constructor
  · rintro ⟨status, body, reply, ⟨parsed, answered⟩ | ⟨r, -, ignored⟩⟩
    · obtain ⟨success, noError, -⟩ := parseReply_eq_ok_iff.1 parsed
      obtain ⟨e', named, found⟩ := answerOf_find_eq_ok_iff.1 answered
      cases found
      obtain ⟨value, object, key⟩ := element?_eq_some_iff.1 named
      obtain ⟨fields, rfl, held⟩ := valueOf_eq_obj_iff.1 object
      exact ⟨status, fields, value, reply, success, held, object ▸ noError, key⟩
    · cases (failureOf_find_eq_ok_iff.1 ignored).2
  · rintro ⟨status, fields, value, reply, success, held, noError, key⟩
    have object : valueOf (.obj fields) = .obj value := valueOf_eq_obj_iff.2 ⟨fields, rfl, held⟩
    rw [← object] at noError
    exact ⟨status, _, reply, .inl ⟨parseReply_eq_ok_iff.2 ⟨success, noError, rfl⟩,
      answerOf_find_eq_ok_iff.2 ⟨e, element?_eq_some_iff.2 ⟨value, object, key⟩, rfl⟩⟩⟩

/-- Apart from a search, a command that returns something is answered with success, and returns
what the value of the reply means. -/
theorem eq_ok_iff_of_ne_find {a : c.Answer} (other : ∀ q, c ≠ .find q) :
    commandVerdict p c o = .ok a ↔ ∃ status body, reply? o = some (status, body) ∧
      status.isSuccess = true ∧ RemoteError.ofValue? (valueOf body) = none ∧
        answerOf c (valueOf body) = .ok a := by
  have minds : ∀ r, failureOf c r ≠ .ok a := by
    cases c with
    | find q => exact absurd rfl (other q)
    | _ => exact fun r => nofun
  rw [commandVerdict_eq_ok_iff]
  simp [minds, parseReply_eq_ok_iff, and_assoc]

theorem succeeds_of_eq_ok {a : c.Answer} (other : ∀ q, c ≠ .find q)
    (returned : commandVerdict p c o = .ok a) : Succeeds o := by
  obtain ⟨status, body, reply, success, -⟩ := (eq_ok_iff_of_ne_find other).1 returned
  exact ⟨status, body, reply, success⟩

theorem getD_bool?_eq_true_iff {v : Json} : v.bool?.getD false = true ↔ v = .bool true := by
  cases v <;> simp [Json.bool?]

/-- A truth value describes no error. -/
theorem affirms_iff : Affirms o ↔ ∃ status body, reply? o = some (status, body) ∧
    status.isSuccess = true ∧ RemoteError.ofValue? (valueOf body) = none ∧
      (valueOf body).bool?.getD false = true := by
  simp only [Affirms, ← valueOf_eq_true_iff, getD_bool?_eq_true_iff]
  constructor
  · rintro ⟨status, body, reply, success, affirmed⟩
    exact ⟨status, body, reply, success, by rw [affirmed]; rfl, affirmed⟩
  · rintro ⟨status, body, reply, success, -, affirmed⟩
    exact ⟨status, body, reply, success, affirmed⟩

/-- Readiness is affirmed exactly by the truth value in a successful reply. -/
theorem displayed_eq_true_iff : commandVerdict p (.displayed e) o = .ok true ↔ Affirms o := by
  rw [eq_ok_iff_of_ne_find (by simp), affirms_iff]
  simp [answerOf]

theorem enabled_eq_true_iff : commandVerdict p (.enabled e) o = .ok true ↔ Affirms o := by
  rw [eq_ok_iff_of_ne_find (by simp), affirms_iff]
  simp [answerOf]

end UiRunner.WebDriver
