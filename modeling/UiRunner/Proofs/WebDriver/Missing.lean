import UiRunner.Proofs.WebDriver.Session

/-!
# Missing elements

What a client reports is borne out by the replies of the server, whatever they are. A step that
reports a missing element has got a whole reply to each of its requests, and each reply of its last
look, as of every look before, shows that the element is not there or not as it is wanted.
-/
namespace UiRunner.WebDriver

open Device Http Run Session Routine UiRunner.Action

variable {σ : Type} {p : Patience} {q : Query}

/-- The replies to one look at the screen show no element as it is wanted: the server says that
there is none, or it names one and then answers, without a failure, that this is not displayed or
not enabled. -/
inductive Unseen (q : Query) : List Made → Prop where
  | absent {o : Http.Outcome} : SaysMissing o → Unseen q [(.find q, o)]
  | hidden {o o' : Http.Outcome} {e : ElementId} :
      Names o e → Succeeds o' → ¬ Affirms o' → Unseen q [(.find q, o), (.displayed e, o')]
  | disabled {o o' o'' : Http.Outcome} {e : ElementId} :
      Names o e → Affirms o' → Succeeds o'' → ¬ Affirms o'' →
      Unseen q [(.find q, o), (.displayed e, o'), (.enabled e, o'')]

/-- What a script is told of a command tells the command, and what came of it. -/
theorem exists_of_told {c : Command} {a : Except Error c.Answer} {m : Made}
    (same : told p m = ⟨.command c, a⟩) : ∃ o, m = (c, o) ∧ commandVerdict p c o = a := by
  obtain ⟨c', o⟩ := m
  cases same
  exact ⟨o, rfl, rfl⟩

theorem exists_of_map_told_cons {c : Command} {a : Except Error c.Answer}
    {made : List Made} {xs : List Action.Exchange}
    (same : made.map (told p) = ⟨.command c, a⟩ :: xs) :
    ∃ o rest, made = (c, o) :: rest ∧ commandVerdict p c o = a ∧ rest.map (told p) = xs := by
  obtain ⟨m, rest, rfl, first, later⟩ := List.map_eq_cons_iff.1 same
  obtain ⟨o, rfl, verdict⟩ := exists_of_told first
  exact ⟨o, rest, rfl, verdict, later⟩

/-- A question that only an affirmation answers with `yes` was answered with success, and not
affirmed, when the answer is another one. -/
theorem unaffirmed_of_eq_ok {c : Command} {o : Http.Outcome} {yes no : c.Answer}
    (other : ∀ q, c ≠ .find q) (asks : commandVerdict p c o = .ok yes ↔ Affirms o) (ne : no ≠ yes)
    (denied : commandVerdict p c o = .ok no) : Succeeds o ∧ ¬ Affirms o := by
  refine ⟨succeeds_of_eq_ok other denied, fun affirms => ne ?_⟩
  exact Except.ok.inj (denied.symm.trans (asks.2 affirms))

/-- A look that was told to have missed got replies that show it. -/
theorem unseen_of_missed {look : List Made} (missed : Missed q (look.map (told p))) :
    Unseen q look := by
  generalize calls : look.map (told p) = xs at missed
  cases missed with
  | absent =>
    obtain ⟨o, rest, rfl, none, last⟩ := exists_of_map_told_cons calls
    obtain rfl := List.map_eq_nil_iff.1 last
    exact .absent (find_eq_none_iff.1 none)
  | hidden e =>
    obtain ⟨o, _, rfl, found, later⟩ := exists_of_map_told_cons calls
    obtain ⟨o', rest, rfl, denied, last⟩ := exists_of_map_told_cons later
    obtain rfl := List.map_eq_nil_iff.1 last
    obtain ⟨succeeds, unaffirmed⟩ :=
      unaffirmed_of_eq_ok (by simp) displayed_eq_true_iff Bool.false_ne_true denied
    exact .hidden (find_eq_some_iff.1 found) succeeds unaffirmed
  | disabled e =>
    obtain ⟨o, _, rfl, found, later⟩ := exists_of_map_told_cons calls
    obtain ⟨o', _, rfl, displayed, later⟩ := exists_of_map_told_cons later
    obtain ⟨o'', rest, rfl, denied, last⟩ := exists_of_map_told_cons later
    obtain rfl := List.map_eq_nil_iff.1 last
    obtain ⟨succeeds, unaffirmed⟩ :=
      unaffirmed_of_eq_ok (by simp) enabled_eq_true_iff Bool.false_ne_true denied
    exact .disabled (find_eq_some_iff.1 found) (displayed_eq_true_iff.1 displayed) succeeds
      unaffirmed

/-- Looks that were told to have missed got replies that show it. -/
theorem exists_unseen_of_flatten {looks : List (List Action.Exchange)} {made : List Made}
    (all : ∀ look ∈ looks, Missed q look) (calls : made.map (told p) = looks.flatten) :
    ∃ unseen : List (List Made), made = unseen.flatten ∧ unseen.length = looks.length ∧
      ∀ look ∈ unseen, Unseen q look := by
  induction looks generalizing made with
  | nil => exact ⟨[], List.map_eq_nil_iff.1 calls, rfl, by simp⟩
  | cons look rest ih =>
    obtain ⟨missed, others⟩ := List.forall_mem_cons.1 all
    obtain ⟨first, later, rfl, here, there⟩ := List.map_eq_append_iff.1 calls
    obtain ⟨unseen, rfl, length, shown⟩ := ih others there
    exact ⟨first :: unseen, rfl, congrArg (· + 1) length,
      List.forall_mem_cons.2 ⟨unseen_of_missed (here ▸ missed), shown⟩⟩

/-- What a step in a live session was answered when it reports a missing element. -/
theorem exists_unseen_of_execute {net : Network σ} {adb : Adb.Installation} {policy : Policy}
    {step : Step} {l : Live} {w u : World (Client σ)} {o : Action.Outcome}
    (live : w.outside.live = some l)
    (run : (policy.execute step).run (environment net p adb) none w =
      (.finished (.ok (.ok (some o))), u)) (missing : o.saysMissing = true) :
    ∃ d ps q looks, policy.prepare step = .ok (d, ps) ∧ queryOf ps = .ok q ∧ looks ≠ [] ∧
      (∀ look ∈ looks, Unseen q look) ∧
      u.outside.history = (looks.flatten.map (sent p l)).reverse ++ w.outside.history := by
  obtain ⟨r, unprepared, same⟩ | ⟨d, ps, made, q', prepared, plays, converses, ended⟩ :=
    run_execute (p := p) net adb policy step live
  · cases run.symm.trans same
    exact absurd rfl (ne_outcome_of_unprepared unprepared o)
  · obtain ⟨xs, ends, calls⟩ := plays.ends (ended o u run)
    obtain ⟨q, resolved, looks, flat, some, all⟩ := Behavior.allMissed_of_ends ends missing
    obtain ⟨unseen, rfl, length, shown⟩ := exists_unseen_of_flatten all (calls.symm.trans flat)
    rw [run] at converses
    refine ⟨d, ps, q, unseen, prepared, resolved, ?_, shown, converses.history⟩
    rintro rfl
    exact some (List.length_eq_zero_iff.1 length.symm)

/-- **No false success and no false miss.** A command of a session returns what comes of its one
request: an error unless a whole reply came, no element exactly if the server says that there is
none, an element exactly if the server names it, readiness exactly if the server affirms it, and
anything at all from another command only if the server answers with success. So a step that
reports a missing element has looked for it at least once, and the replies to each look are whole
and show no element as it is wanted. -/
theorem reports_borne_out {σ : Type} (net : Network σ) (p : Patience) (adb : Adb.Installation) :
    (∀ (c : Command) (s : Client σ) (l : Live), s.live = some l →
      ∃ o, (command net p c s).1 = commandVerdict p c o ∧
        (command net p c s).2.2.history = sent p l (c, o) :: s.history) ∧
    (∀ c o, reply? o = none → ∃ e, commandVerdict p c o = .error e) ∧
    (∀ q o, commandVerdict p (.find q) o = .ok none ↔ SaysMissing o) ∧
    (∀ q o e, commandVerdict p (.find q) o = .ok (some e) ↔ Names o e) ∧
    (∀ e o, commandVerdict p (.displayed e) o = .ok true ↔ Affirms o) ∧
    (∀ e o, commandVerdict p (.enabled e) o = .ok true ↔ Affirms o) ∧
    (∀ c o a, (∀ q, c ≠ .find q) → commandVerdict p c o = .ok a → Succeeds o) ∧
    ∀ (policy : Policy) (step : Step) (l : Live) (w u : World (Client σ)) (o : Action.Outcome),
      w.outside.live = some l →
      (policy.execute step).run (environment net p adb) none w =
        (.finished (.ok (.ok (some o))), u) →
      o.saysMissing = true →
      ∃ d ps q looks, policy.prepare step = .ok (d, ps) ∧ queryOf ps = .ok q ∧ looks ≠ [] ∧
        (∀ look ∈ looks, Unseen q look) ∧
        u.outside.history = (looks.flatten.map (sent p l)).reverse ++ w.outside.history := by
  refine ⟨fun c s l live => ?_, fun c o => commandVerdict_of_no_reply p c,
    fun q o => find_eq_none_iff, fun q o e => find_eq_some_iff, fun e o => displayed_eq_true_iff,
    fun e o => enabled_eq_true_iff, fun c o a => succeeds_of_eq_ok,
    fun policy step l w u o => exists_unseen_of_execute⟩
  obtain ⟨o, t, after, made⟩ := command_of_live net p c live
  exact ⟨o, by rw [made], by rw [made]⟩

/-- A click on a button, for which it is looked for a second. -/
def clickButton : Step where
  action := "click"
  params := [("kind", .str "resource-id"), ("timeout", .nat 1), ("value", .str "ok")]

/-- A session in which the button is not there, then not displayed, and then not enabled. -/
def buttonComing : World (Client (List (Http.Status × String))) where
  outside :=
    { live := some ⟨"http://localhost:4723", "s"⟩
      net := [(404, "\x7b\"value\": \x7b\"error\": \"no such element\"\x7d\x7d"),
        (200, "\x7b\"value\": \x7b\"ELEMENT\": \"b\"\x7d\x7d"), (200, "false"),
        (200, "\x7b\"value\": \x7b\"ELEMENT\": \"b\"\x7d\x7d"), (200, "true"), (200, "[]")] }

/-- The button is reported as missing after three looks with six requests. -/
theorem reports_borne_out_button :
    ∃ (o : Action.Outcome) (u : World (Client (List (Http.Status × String)))) (q : Query)
      (looks : List (List Made)),
      (Policy.execute {} clickButton).run (environment replying {} {}) none buttonComing =
        (.finished (.ok (.ok (some o))), u) ∧
      o.saysMissing = true ∧ (∀ look ∈ looks, Unseen q look) ∧
      u.outside.history = (looks.flatten.map (sent {} ⟨"http://localhost:4723", "s"⟩)).reverse ∧
      u.outside.history.length = 6 := by
  rcases run : (Policy.execute {} clickButton).run (environment replying {} {}) none buttonComing
    with ⟨x, u⟩
  have reported : ((Policy.execute {} clickButton).run (environment replying {} {}) none
      buttonComing).1.result?.any (fun r => r.toOption.any fun r => r.toOption.any
        (·.any (·.saysMissing))) = true ∧
      ((Policy.execute {} clickButton).run (environment replying {} {}) none
        buttonComing).2.outside.history.length = 6 := by decide +kernel
  rw [run] at reported
  obtain ⟨_, result, calm⟩ := (Option.any_eq_true _ _).1 reported.1
  obtain ⟨_, rfl, ends⟩ := exists_ok_of_any calm
  obtain ⟨_, rfl, acts⟩ := exists_ok_of_any ends
  obtain ⟨o, rfl, missing⟩ := (Option.any_eq_true _ _).1 acts
  obtain rfl := Progress.result?_eq_some_iff.1 result
  obtain ⟨-, -, -, -, -, -, -, steps⟩ := reports_borne_out replying {} {}
  obtain ⟨d, ps, q, looks, -, -, -, unseen, history⟩ :=
    steps {} clickButton _ buttonComing u o rfl run missing
  exact ⟨o, u, q, looks, rfl, missing, unseen, history.trans (List.append_nil _), reported.2⟩

end UiRunner.WebDriver
