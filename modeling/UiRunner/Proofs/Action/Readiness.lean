import UiRunner.Proofs.Action.Interaction

/-!
# Wanting less of an element

Given the same answers, polling for an element that need only be present is over no later than
polling for a visible one, and that no later than polling for one that can be clicked: the
exchanges of the one are the first exchanges of the other. So once a click has found its element,
waiting for that element has passed.
-/
namespace UiRunner.Action

open Device Routine

variable {s : Settings} {ps ps' : Params} {query : Query} {r r' : Readiness} {e : ElementId}
  {xs : List Exchange}

/-- How much is wanted of an element. -/
def Readiness.strength : Readiness → Nat
  | .present => 0
  | .visible => 1
  | .clickable => 2

theorem Readiness.sight_prefix (le : r.strength ≤ r'.strength) (query : Query) (e : ElementId) :
    r.sight query e <+: r'.sight query e := by
  cases r <;> cases r' <;> simp_all [strength, sight]

/-- The parts of a sequence come to their ends one after the other. -/
theorem ends_bind_run {α β : Type} {p : Script α} {f : α → Script β} {a : α} {ys : List Exchange}
    {res : Except Error β} (h : Ends p.run xs (.ok a)) (g : Ends (f a).run ys res) :
    Ends (p >>= f).run (xs ++ ys) res :=
  ends_bind_iff.2 ⟨xs, ys, _, rfl, h, g⟩

/-- Within these exchanges the script finds an element. -/
def FindsWithin (p : Script (Option ElementId)) (xs : List Exchange) : Prop :=
  ∃ ys e, ys <+: xs ∧ Ends p.run ys (.ok (some e))

/-! ## Polling -/

/-- Of the answers that an attempt has got, one that wants less needs the first ones only and finds
an element, or it needs all of them as well and finds none. -/
theorem attempt_cases {found : Option ElementId} (le : r.strength ≤ r'.strength)
    (h : Ends (attempt query r').run xs (.ok found)) :
    (∃ e, r.sight query e <+: xs) ∨ found = none ∧ Ends (attempt query r).run xs (.ok none) := by
  cases found with
  | some e =>
    rw [sight_of_attempt h]
    exact .inl ⟨e, r.sight_prefix le query e⟩
  | none =>
    cases missed_of_attempt h with
    | absent => exact .inr ⟨rfl, .ask (.done _)⟩
    | hidden e =>
      cases r with
      | present => exact .inl ⟨e, _, rfl⟩
      | visible | clickable => exact .inr ⟨rfl, .ask (.ask (.done _))⟩
    | disabled e =>
      cases r with
      | present | visible => exact .inl ⟨e, _, rfl⟩
      | clickable => exact .inr ⟨rfl, .ask (.ask (.ask (.done _)))⟩

theorem findsWithin_pollTimes {interval left : Nat} {deadline : Option Nat}
    (le : r.strength ≤ r'.strength)
    (h : Ends (pollTimes query r' interval deadline left).run xs (.ok (some e))) :
    FindsWithin (pollTimes query r interval deadline left) xs := by
  induction left generalizing xs with
  | zero =>
    obtain ⟨x, -⟩ := ends_ask_iff.1 h
    cases x
  | succ left ih =>
    obtain ⟨ys, zs, shown, rfl, looked, rest⟩ := ends_bind_ok h
    obtain ⟨e', sight⟩ | ⟨rfl, missed⟩ := attempt_cases le looked
    · refine ⟨_, e', sight.trans (List.prefix_append ..), ?_⟩
      rw [← List.append_nil (r.sight query e')]
      exact ends_bind_run (ends_attempt_sight query r e') (.done _)
    · cases deadline with
      | none =>
        obtain ⟨x, us, rfl, again⟩ := ends_ask_bind rest
        obtain ⟨vs, e', part, found⟩ := ih again
        exact ⟨ys ++ ⟨.pause _, x⟩ :: vs, e', by simpa using part,
          ends_bind_run missed (.ask found)⟩
      | some d =>
        obtain ⟨now, us, rfl, judged⟩ := ends_ask_bind rest
        by_cases passed : d ≤ now
        · rw [if_pos passed] at judged
          cases (ends_done_iff.1 judged).2
        · rw [if_neg passed] at judged
          obtain ⟨x, us, rfl, again⟩ := ends_ask_bind judged
          obtain ⟨vs, e', part, found⟩ := ih again
          have goesOn : Ends (if d ≤ now then pure none else do
              Script.pause (.ofMillis (min interval (d - now)))
              pollTimes query r interval (some d) left : Script (Option ElementId)).run
                (⟨.pause _, x⟩ :: vs) (.ok (some e')) := by
            rw [if_neg passed]
            exact .ask found
          exact ⟨ys ++ ⟨.now, now⟩ :: ⟨.pause _, x⟩ :: vs, e', by simpa using part,
            ends_bind_run missed (.ask goesOn)⟩

/-- Polling that wants less has found an element when polling that wants more has. -/
theorem findsWithin_poll {secs : Nat} (le : r.strength ≤ r'.strength)
    (h : Ends (poll s query secs r').run xs (.ok (some e))) :
    FindsWithin (poll s query secs r) xs := by
  obtain ⟨now, us, rfl, polled⟩ := ends_ask_bind h
  obtain ⟨vs, e', part, found⟩ := findsWithin_pollTimes le polled
  exact ⟨⟨.now, now⟩ :: vs, e', by simpa using part, .ask found⟩

/-! ## Waiting for an element -/

/-- What waiting for an element wants of it. -/
def wanted (ps : Params) : Readiness := if ps.bool "visible" then .visible else .present

theorem exists_script_waitForElement (s : Settings) (ps : Params) :
    ∃ f, Behavior.waitForElement.script s ps = selecting ps f ∧ ∀ selector query, ∃ g m,
      f selector query = poll s query (timeoutOf ps) (wanted ps) >>= g ∧
        ∀ e, g (some e) = pure (.passed m) :=
  ⟨_, rfl, fun _ _ => ⟨_, _, rfl, fun _ => rfl⟩⟩

/-- Two actions look for the same element, and for as long. -/
structure SameSearch (ps ps' : Params) : Prop where
  kind : ps.str "kind" = ps'.str "kind"
  value : ps.str "value" = ps'.str "value"
  timeout : ps.int "timeout" = ps'.int "timeout"

/-- Waiting for an element has passed when polling for it has found one. -/
theorem passes_waitForElement (resolved : queryOf ps = .ok query)
    (h : FindsWithin (poll s query (timeoutOf ps) (wanted ps)) xs) :
    ∃ ys m, ys <+: xs ∧ Ends (Behavior.waitForElement.script s ps).run ys (.ok (.passed m)) := by
  obtain ⟨ys, e, part, found⟩ := h
  obtain ⟨f, script, polls⟩ := exists_script_waitForElement s ps
  obtain ⟨e, refused, -⟩ | ⟨selector, query', accepted, run⟩ := run_selecting ps f
  · cases resolved.symm.trans refused
  · obtain rfl := Except.ok.inj (resolved.symm.trans accepted)
    obtain ⟨g, m, shape, passes⟩ := polls selector query
    have passed : Ends (g (some e)).run [] (.ok (.passed m)) := by
      rw [passes]
      exact .done _
    refine ⟨ys, m, part, ?_⟩
    rw [script, run, shape, ← List.append_nil ys]
    exact ends_bind_run found passed

/-- Once a click has come to its element, waiting for that element has passed. -/
theorem passes_of_click (same : SameSearch ps ps') {next : Except Error Unit → _}
    (h : Reaches (Behavior.click.script s ps).run xs (.ask (.command (.click e)) next)) :
    ∃ ys m, ys <+: xs ∧ Ends (Behavior.waitForElement.script s ps').run ys (.ok (.passed m)) := by
  obtain ⟨_, _, script⟩ := exists_script_click s ps
  rw [script] at h
  obtain ⟨query, e', resolved, -, polled⟩ := (touching_of_reaches h).2 rfl
  have query' : queryOf ps' = .ok query := by
    rw [← resolved, queryOf, queryOf, selectorOf, selectorOf, same.kind, same.value]
  have timeout : timeoutOf ps = timeoutOf ps' := by rw [timeoutOf, timeoutOf, same.timeout]
  refine passes_waitForElement query' ?_
  rw [timeout] at polled
  exact findsWithin_poll (by unfold wanted; split <;> decide) polled

end UiRunner.Action
