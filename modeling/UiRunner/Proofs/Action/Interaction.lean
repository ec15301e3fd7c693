import UiRunner.Proofs.Action.Search

/-!
# Interactions

Clicking and typing are careful: they act on the screen once, with the last command of the script,
and only on the element that the look right before has shown ready. The script has passed exactly
if that command went out and did not fail.
-/
namespace UiRunner.Action

open Device Routine

variable {α β : Type} {xs : List Exchange}

/-- Whether a command does more than look at the screen. -/
def acts : Command → Bool
  | .click _ | .typeKeys .. | .activate _ | .pressKey _ => true
  | .find _ | .displayed _ | .enabled _ | .text _ | .currentPackage | .screenshot => false

/-- A request that leaves the screen as it is. -/
def Calm (r : Request) : Prop := ∀ c, r = .command c → acts c = false

theorem calm_command {c : Command} (h : acts c = false) : Calm (.command c) := by
  rintro _ ⟨⟩
  exact h

/-- A request to something else than the device. -/
def Aside (r : Request) : Prop := ∀ c, r ≠ .command c

theorem Aside.calm {r : Request} (h : Aside r) : Calm r := fun c same => absurd same (h c)

/-! ## What a script can ask for -/

theorem asks_bind {P : Request → Prop} {p : Script α} {f : α → Script β} (h : Asks P p.run)
    (g : ∀ a, Asks P (f a).run) : Asks P (p >>= f).run := by
  refine Asks.bind h fun res => ?_
  cases res with
  | error e => trivial
  | ok a => exact g a

theorem asks_command {P : Request → Prop} {c : Command} (h : P (.command c)) :
    Asks P (Script.command c).run := ⟨h, fun _ => trivial⟩

theorem asks_ask {P : Request → Prop} {r : Request} (h : P r) : Asks P (Script.ask r).run :=
  ⟨h, fun _ => trivial⟩

theorem asks_pure {P : Request → Prop} (a : α) : Asks P (pure a : Script α).run := trivial

theorem asks_ite {P : Request → Prop} {c : Prop} [Decidable c] {p q : Script α}
    (h : Asks P p.run) (g : Asks P q.run) : Asks P (if c then p else q : Script α).run := by
  split
  · exact h
  · exact g

theorem asks_settle (s : Settings) : Asks Aside (settle s).run :=
  asks_ite (asks_ask (by simp [Aside])) (asks_pure ())

theorem structural_calm : Structural fun p => Asks Calm p.run where
  pure := asks_pure
  bind := asks_bind
  find _ := asks_command (calm_command rfl)
  displayed _ := asks_command (calm_command rfl)
  enabled _ := asks_command (calm_command rfl)

/-- Looking for an element leaves the screen as it is. -/
theorem asks_poll (s : Settings) (query : Query) (secs : Nat) (r : Readiness) :
    Asks Calm (poll s query secs r).run :=
  structural_calm.poll (fun _ aside => asks_ask (Aside.calm aside)) s query secs r

/-! ## Where a sequence waits -/

/-- A sequence that waits for an answer waits in its first part, or that has ended with a value
and the second part waits. -/
theorem waiting_bind {p : Script α} {f : α → Script β} {r : Request}
    {next : r.Answer → Routine stage (Except Error β)}
    (h : Reaches (p >>= f).run xs (.ask r next)) :
    (∃ next', Reaches p.run xs (.ask r next')) ∨
      ∃ ys zs a, xs = ys ++ zs ∧ Ends p.run ys (.ok a) ∧ Reaches (f a).run zs (.ask r next) := by
  obtain ⟨p', reached, eq⟩ | ⟨ys, zs, res, rfl, ended, later⟩ := reaches_bind_iff.1 h
  · cases p' with
    | ask r' next' =>
      cases eq
      exact .inl ⟨next', reached⟩
    | done res =>
      -- The first part has just ended: the second one waits for its first answer.
      have ended : Ends p.run xs res := List.append_nil xs ▸ reached.ends (.done res)
      cases res with
      | error e => cases eq
      | ok a => exact .inr ⟨xs, [], a, by simp, ended, eq ▸ .here _⟩
  · cases res with
    | error e => cases later
    | ok a => exact .inr ⟨ys, zs, a, rfl, ended, later⟩

/-! ## Acting on an element -/

/-- Acts on the element that was found, if there is one. -/
def interact (s : Settings) (touch : ElementId → Command) (passed failed : String) :
    Option ElementId → Script Outcome
  | some e => do
    let _ ← Script.command (touch e)
    settle s
    return .passed passed
  | none => return .failed failed

/-- Polls for an element and acts on it. -/
def touching (s : Settings) (ps : Params) (r : Readiness) (touch : ElementId → Command)
    (passed failed : Selector → String) : Script Outcome :=
  selecting ps fun selector query =>
    poll s query (timeoutOf ps) r >>= interact s touch (passed selector) (failed selector)

theorem exists_script_click (s : Settings) (ps : Params) : ∃ passed failed,
    Behavior.click.script s ps = touching s ps .clickable .click passed failed := ⟨_, _, rfl⟩

theorem exists_script_typeText (s : Settings) (ps : Params) : ∃ passed failed,
    Behavior.typeText.script s ps =
      touching s ps .visible (.typeKeys · (ps.str "text")) passed failed := ⟨_, _, rfl⟩

theorem settled_of_ends {s : Settings} {res : Except Error Unit} (h : Ends (settle s).run xs res) :
    res = .ok () := by
  unfold settle at h
  split at h
  · obtain ⟨x, ys, rfl, rest⟩ := ends_ask_iff.1 h
    exact (ends_done_iff.1 rest).2
  · exact (ends_done_iff.1 h).2

section Interact

variable {s : Settings} {touch : ElementId → Command} {passed failed : String}
  {found : Option ElementId}

/-- The only command of an interaction is its first request, and is for the element found. -/
theorem interact_of_reaches {c : Command} {next : Except Error c.Answer → _}
    (h : Reaches (interact s touch passed failed found).run xs (.ask (.command c) next)) :
    ∃ e, found = some e ∧ c = touch e ∧ xs = [] := by
  cases found with
  | none => cases h
  | some e =>
    obtain ⟨next', asked⟩ | ⟨ys, zs, a, rfl, -, later⟩ := waiting_bind h
    · -- The command itself is under way, since nothing is asked once it has an answer.
      cases asked with
      | here => exact ⟨e, rfl, rfl, rfl⟩
      | @ask _ _ x _ _ ended => rcases x with e | a <;> cases ended
    · -- After it there is a pause at most.
      have aside := asks_bind (asks_settle s) fun _ => asks_pure (Outcome.passed passed)
      exact absurd rfl ((later.asks aside).2.1 c)

/-- How an interaction ends. -/
theorem interact_of_ends {res : Except Error Outcome}
    (h : Ends (interact s touch passed failed found).run xs res) :
    found = none ∧ xs = [] ∧ res = .ok (.failed failed) ∨
      ∃ e, found = some e ∧ ((∃ error, xs = [⟨.command (touch e), .error error⟩] ∧
          res = .error error) ∨
        ∃ a zs, xs = ⟨.command (touch e), .ok a⟩ :: zs ∧ res = .ok (.passed passed)) := by
  cases found with
  | none =>
    obtain ⟨rfl, rfl⟩ := ends_done_iff.1 h
    exact .inl ⟨rfl, rfl, rfl⟩
  | some e =>
    refine .inr ⟨e, rfl, ?_⟩
    obtain ⟨x, zs, rfl, rest⟩ := ends_ask_iff.1 h
    rcases x with error | a
    · obtain ⟨rfl, rfl⟩ := ends_done_iff.1 rest
      exact .inl ⟨error, rfl, rfl⟩
    · refine .inr ⟨a, zs, rfl, ?_⟩
      obtain ⟨error, -, settled⟩ | ⟨_, _, _, -, -, passes⟩ := ends_bind_cases rest
      · cases settled_of_ends settled
      · exact (ends_done_iff.1 passes).2

end Interact

variable {s : Settings} {ps : Params} {r : Readiness} {touch : ElementId → Command}
  {passed failed : Selector → String}

/-- Nothing has acted on the screen while a command is under way, and one that acts goes to the
element that polling has just found. -/
theorem touching_of_reaches {c : Command} {next : Except Error c.Answer → _}
    (h : Reaches (touching s ps r touch passed failed).run xs (.ask (.command c) next)) :
    (∀ x ∈ xs, Calm x.request) ∧ (acts c = true → ∃ query e, queryOf ps = .ok query ∧
      c = touch e ∧ Ends (poll s query (timeoutOf ps) r).run xs (.ok (some e))) := by
  unfold touching at h
  obtain ⟨e, -, run⟩ | ⟨selector, query, resolved, run⟩ := run_selecting ps _
  · rw [run] at h
    cases h
  · rw [run] at h
    obtain ⟨next', polling⟩ | ⟨ys, zs, found, rfl, polled, acting⟩ := waiting_bind h
    · obtain ⟨before, calm, -⟩ := polling.asks (asks_poll ..)
      refine ⟨before, fun act => ?_⟩
      cases act.symm.trans (calm c rfl)
    · obtain ⟨e, rfl, rfl, rfl⟩ := interact_of_reaches acting
      rw [List.append_nil]
      exact ⟨polled.asks (asks_poll ..), fun _ => ⟨query, e, resolved, rfl, polled⟩⟩

/-- How acting on an element after polling for it ends: without acting, or with an interaction that
fails, or with one that passes. -/
theorem touching_of_ends {res : Except Error Outcome}
    (h : Ends (touching s ps r touch passed failed).run xs res) :
    ((∀ x ∈ xs, Calm x.request) ∧ ∀ m, res ≠ .ok (.passed m)) ∨
      ∃ ys e, (∀ x ∈ ys, Calm x.request) ∧
        ((∃ error, xs = ys ++ [⟨.command (touch e), .error error⟩] ∧ res = .error error) ∨
          ∃ a zs m, xs = ys ++ ⟨.command (touch e), .ok a⟩ :: zs ∧ res = .ok (.passed m)) := by
  unfold touching at h
  obtain ⟨e, -, run⟩ | ⟨selector, query, resolved, run⟩ := run_selecting ps _
  · rw [run] at h
    obtain ⟨rfl, rfl⟩ := ends_done_iff.1 h
    exact .inl ⟨by simp, by simp⟩
  · rw [run] at h
    obtain ⟨error, rfl, polled⟩ | ⟨ys, zs, found, rfl, polled, acting⟩ := ends_bind_cases h
    · exact .inl ⟨polled.asks (asks_poll ..), by simp⟩
    · have calm := polled.asks (asks_poll ..)
      obtain ⟨-, rfl, rfl⟩ | ⟨e, -, ⟨error, rfl, rfl⟩ | ⟨a, us, rfl, rfl⟩⟩ :=
        interact_of_ends acting
      · exact .inl ⟨by simpa using calm, by simp⟩
      · exact .inr ⟨ys, e, calm, .inl ⟨error, rfl, rfl⟩⟩
      · exact .inr ⟨ys, e, calm, .inr ⟨a, us, _, rfl, rfl⟩⟩

/-- A script that acts on the screen once at most, by `touch` and as its last command, and only
when `sight` is what it has just seen. -/
structure Careful (touch : ElementId → Command) (sight : Query → ElementId → List Exchange)
    (ps : Params) (p : Routine stage (Except Error Outcome)) : Prop where
  guarded : ∀ xs c next, Reaches p xs (.ask (.command c) next) → acts c = true →
    ∃ query e, queryOf ps = .ok query ∧ c = touch e ∧ sight query e <:+ xs
  /-- While a command is under way, nothing before it has acted on the screen. -/
  last : ∀ xs c next, Reaches p xs (.ask (.command c) next) → ∀ x ∈ xs, Calm x.request
  passed_iff : ∀ xs res, Ends p xs res →
    ((∃ m, res = .ok (.passed m)) ↔ ∃ e a, ⟨.command (touch e), .ok a⟩ ∈ xs)
  untouched : ∀ xs m, Ends p xs (.ok (.failed m)) → ∀ x ∈ xs, Calm x.request

/-- Acting on an element after polling for it is careful. -/
theorem careful_touching (touches : ∀ e, acts (touch e) = true) :
    Careful touch r.sight ps (touching s ps r touch passed failed).run where
  guarded xs c next h act := by
    obtain ⟨query, e, resolved, same, polled⟩ := (touching_of_reaches h).2 act
    exact ⟨query, e, resolved, same, sight_of_poll polled⟩
  last xs c next h := (touching_of_reaches h).1
  passed_iff xs res h := by
    have absent : ∀ ys : List Exchange, (∀ x ∈ ys, Calm x.request) →
        ∀ e a, (⟨.command (touch e), .ok a⟩ : Exchange) ∉ ys := by
      intro ys calm e a mem
      cases (touches e).symm.trans (calm _ mem _ rfl)
    obtain ⟨calm, unpassed⟩ | ⟨ys, e, calm, ⟨error, rfl, rfl⟩ | ⟨a, zs, m, rfl, rfl⟩⟩ :=
      touching_of_ends h
    · exact iff_of_false (by simpa using unpassed) (by simpa using absent xs calm)
    · refine iff_of_false (by simp) ?_
      rintro ⟨e', a, mem⟩
      obtain mem | same := List.mem_append.1 mem
      · exact absent ys calm e' a mem
      · cases congrArg failure? (List.mem_singleton.1 same)
    · exact iff_of_true ⟨m, rfl⟩ ⟨e, a, by simp⟩
  untouched xs m h := by
    obtain ⟨calm, -⟩ | ⟨ys, e, -, ⟨error, -, same⟩ | ⟨a, zs, m', -, same⟩⟩ := touching_of_ends h
    · exact calm
    · cases same
    · cases same

/-- Clicking needs an element that is displayed and enabled, and typing one that is displayed. Both
go to the element that the search right before has found, once, and nothing is asked of the device
after it. They pass exactly if the command did not fail, and report a failure only without it. -/
theorem interactions_careful (s : Settings) (ps : Params) :
    Careful .click Readiness.clickable.sight ps (Behavior.click.script s ps).run ∧
      Careful (.typeKeys · (ps.str "text")) Readiness.visible.sight ps
        (Behavior.typeText.script s ps).run := by
  obtain ⟨_, _, click⟩ := exists_script_click s ps
  obtain ⟨_, _, typeText⟩ := exists_script_typeText s ps
  rw [click, typeText]
  exact ⟨careful_touching fun _ => rfl, careful_touching fun _ => rfl⟩

/-- A button that is looked for during a second. -/
def buyButton : Params where
  entries := [("kind", .str "id"), ("value", .str "buy"), ("timeout", .int 1)]

/-- The button is not there, then not displayed, and then ready, but as another element. -/
def buttonTurnsUp : List Exchange :=
  [⟨.now, 0⟩, ⟨.command (.find ⟨"id", "buy"⟩), .ok none⟩, ⟨.now, 3⟩, ⟨.pause (.ofMillis 500), ()⟩,
    ⟨.command (.find ⟨"id", "buy"⟩), .ok (some "old")⟩, ⟨.command (.displayed "old"), .ok false⟩,
    ⟨.now, 510⟩, ⟨.pause (.ofMillis 490), ()⟩,
    ⟨.command (.find ⟨"id", "buy"⟩), .ok (some "new")⟩, ⟨.command (.displayed "new"), .ok true⟩,
    ⟨.command (.enabled "new"), .ok true⟩]

theorem interactions_careful_button : ∃ next,
    Reaches (Behavior.click.script {} buyButton).run buttonTurnsUp
      (.ask (.command (.click "new")) next) ∧
    Readiness.clickable.sight ⟨"id", "buy"⟩ "new" <:+ buttonTurnsUp ∧
    ∀ x ∈ buttonTurnsUp, Calm x.request := by
  have resolved : queryOf buyButton = .ok ⟨"id", "buy"⟩ := by decide +kernel
  have timeout : timeoutOf buyButton = 1 := by decide +kernel
  obtain ⟨passed, failed, click⟩ := exists_script_click {} buyButton
  obtain ⟨next, clicks⟩ : ∃ next, Reaches (Behavior.click.script {} buyButton).run buttonTurnsUp
      (.ask (.command (.click "new")) next) := by
    rw [click]
    unfold touching
    rw [timeout]
    obtain ⟨e, refused, -⟩ | ⟨selector, query, accepted, run⟩ := run_selecting buyButton _
    · cases resolved.symm.trans refused
    · obtain rfl := Except.ok.inj (resolved.symm.trans accepted)
      rw [run]
      exact ⟨_, .ask <| .ask <| .ask <| .ask <| .ask <| .ask <| .ask <| .ask <| .ask <| .ask <|
        .ask <| .here _⟩
  refine ⟨next, clicks, ?_⟩
  have careful := (interactions_careful {} buyButton).1
  obtain ⟨query, e, accepted, same, seen⟩ := careful.guarded _ _ _ clicks rfl
  obtain rfl := Except.ok.inj (resolved.symm.trans accepted)
  cases same
  exact ⟨seen, careful.last _ _ _ clicks⟩

end UiRunner.Action
