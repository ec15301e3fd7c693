import UiRunner.Proofs.Run.Interpretation
import UiRunner.Run.Orchestrator

/-!
# Outlines of runs

The trace of a run falls into the trace of its acquire, the walk over its steps and the release.
`Setup` lists the ways in which an acquire can go, `Outline` those of a run; every run is of one of
these forms.
-/
namespace UiRunner.Run

open Session Routine

/-! ## Acquiring -/

/-- Whether a request can be one of setting a session up, with the slot entered. -/
def Request.isOfSetup : Request → Bool
  | .check .. | .connect _ | .settle _ => true
  | _ => false

/-- A check or the connection panicked so. -/
def Breaks (t : Trace) (p : Panic) : Prop :=
  (∃ (c : Check) (config : Config), ⟨.check c config, .error p⟩ ∈ t) ∨
    ∃ config : Config, ⟨.connect config, .error p⟩ ∈ t

theorem Breaks.mono {t u : Trace} {p : Panic} (h : Breaks t p) (le : ∀ x ∈ t, x ∈ u) :
    Breaks u p := by
  obtain ⟨c, config, h⟩ | ⟨config, h⟩ := h
  · exact .inl ⟨c, config, le _ h⟩
  · exact .inr ⟨config, le _ h⟩

/-- The server opened a session of this name. -/
def Opens (t : Trace) (id : SessionId) : Prop :=
  ∃ config : Config, ⟨.connect config, .ok (.ok id)⟩ ∈ t

/-- How an acquire can go, and what it comes to. -/
inductive Setup : Trace → Attempt SessionId → Prop where
  | turnedAway : Setup [⟨.slot .enter, false⟩] (.ok (.error .sessionAlreadyActive))
  | opened {xs : Trace} {id : SessionId} :
      (∀ x ∈ xs, x.request.isOfSetup) → Opens xs id →
      Setup (⟨.slot .enter, true⟩ :: (xs ++ [⟨.slot (.conclude .active), ()⟩])) (.ok (.ok id))
  | refused {xs : Trace} (e : Error) :
      (∀ x ∈ xs, x.request.isOfSetup) →
      Setup (⟨.slot .enter, true⟩ :: (xs ++ [⟨.slot (.conclude .failed), ()⟩])) (.ok (.error e))
  | broken {xs : Trace} {p : Panic} :
      (∀ x ∈ xs, x.request.isOfSetup) → Breaks xs p →
      Setup (⟨.slot .enter, true⟩ :: (xs ++ [⟨.slot .abandon, ()⟩])) (.error p)

namespace Manager

variable {m : Manager} {config : Config}

theorem makeChecks_ends {cs : List Check} {xs : Trace} {r : Attempt Unit}
    (h : Ends (makeChecks config cs) xs r) :
    (∀ x ∈ xs, x.request.isOfSetup) ∧ ∀ p, r = .error p → Breaks xs p := by
  induction cs generalizing xs with
  | nil =>
    obtain ⟨rfl, rfl⟩ := ends_done_iff.1 h
    simp
  | cons c rest ih =>
    rw [makeChecks] at h
    obtain ⟨x, ys, rfl, afterCheck⟩ := ends_ask_bind_iff.1 h
    rcases x with p | e | ⟨⟩
    · obtain ⟨rfl, rfl⟩ := ends_done_iff.1 afterCheck
      refine ⟨by simp [Request.isOfSetup], ?_⟩
      rintro _ ⟨⟩
      exact .inl ⟨c, config, List.mem_cons_self⟩
    · obtain ⟨rfl, rfl⟩ := ends_done_iff.1 afterCheck
      exact ⟨by simp [Request.isOfSetup], nofun⟩
    · obtain ⟨setup, breaks⟩ := ih afterCheck
      refine ⟨List.forall_mem_cons.2 ⟨rfl, setup⟩, fun p hp => ?_⟩
      exact (breaks p hp).mono fun x hx => List.mem_cons_of_mem _ hx

section After

variable {xs ys : Trace} {r : Attempt SessionId}

theorem setup_of_refuse {e : Error} (before : ∀ y ∈ ys, y.request.isOfSetup)
    (h : Ends (refuse e) xs r) : Setup (⟨.slot .enter, true⟩ :: (ys ++ xs)) r := by
  obtain ⟨_, _, rfl, last⟩ := ends_ask_bind_iff.1 h
  obtain ⟨rfl, rfl⟩ := ends_done_iff.1 last
  exact .refused e before

theorem setup_of_unwind {p : Panic} (before : ∀ y ∈ ys, y.request.isOfSetup)
    (breaks : Breaks ys p) (h : Ends (unwind p) xs r) :
    Setup (⟨.slot .enter, true⟩ :: (ys ++ xs)) r := by
  obtain ⟨_, _, rfl, last⟩ := ends_ask_bind_iff.1 h
  obtain ⟨rfl, rfl⟩ := ends_done_iff.1 last
  exact .broken before breaks

theorem setup_of_settled {id : SessionId} (before : ∀ y ∈ ys, y.request.isOfSetup)
    (opens : Opens ys id)
    (h : Ends (do Course.conclude .active; pure (.ok (.ok id))) xs r) :
    Setup (⟨.slot .enter, true⟩ :: (ys ++ xs)) r := by
  obtain ⟨_, _, rfl, last⟩ := ends_ask_bind_iff.1 h
  obtain ⟨rfl, rfl⟩ := ends_done_iff.1 last
  exact .opened before opens

theorem setup_of_open (before : ∀ y ∈ ys, y.request.isOfSetup) (h : Ends (m.open_ config) xs r) :
    Setup (⟨.slot .enter, true⟩ :: (ys ++ xs)) r := by
  rw [open_] at h
  obtain ⟨x, zs, rfl, afterConnect⟩ := ends_ask_bind_iff.1 h
  have connected : ∀ y ∈ ys ++ [⟨.connect config, x⟩], y.request.isOfSetup := by
    simpa [or_imp, forall_and, Request.isOfSetup] using before
  rw [List.append_cons]
  rcases x with p | e | id
  · exact setup_of_unwind connected (.inr ⟨config, by simp⟩) afterConnect
  · exact setup_of_refuse connected afterConnect
  · have opens : Opens (ys ++ [⟨.connect config, .ok (.ok id)⟩]) id := ⟨config, by simp⟩
    dsimp only at afterConnect
    split at afterConnect
    · obtain ⟨_, us, rfl, settled⟩ := ends_ask_bind_iff.1 afterConnect
      rw [List.append_cons]
      refine setup_of_settled ?_ ⟨config, by simp⟩ settled
      simpa [or_imp, forall_and, Request.isOfSetup] using before
    · exact setup_of_settled connected opens afterConnect

end After

/-- An acquire goes in one of the ways of `Setup`. -/
theorem setup_of_acquire {xs : Trace} {r : Attempt SessionId}
    (h : Ends (m.acquire config) xs r) : Setup xs r := by
  rw [acquire] at h
  obtain ⟨entered, ys, rfl, afterGate⟩ := ends_ask_bind_iff.1 h
  cases entered with
  | false =>
    obtain ⟨rfl, rfl⟩ := ends_done_iff.1 afterGate
    exact .turnedAway
  | true =>
    obtain ⟨zs, us, checked, rfl, checks, afterChecks⟩ := ends_bind_iff.1 afterGate
    obtain ⟨before, breaks⟩ := makeChecks_ends checks
    rcases checked with p | e | ⟨⟩
    · exact setup_of_unwind before (breaks p rfl) afterChecks
    · exact setup_of_refuse before afterChecks
    · exact setup_of_open before afterChecks

end Manager

namespace Setup

variable {xs : Trace} {r : Attempt SessionId} {s u : Slot}

/-- The slot after an acquire that found it free: a handle is out exactly if there is a session. -/
theorem slot_eq (h : Setup xs r) (free : s.isFree) (path : SlotPath s xs u) :
    u = match r with
      | .ok (.ok _) => ⟨.active, true⟩
      | _ => ⟨.failed, false⟩ := by
  have entered : s.apply .enter = (true, ⟨.validating, false⟩) := by
    rw [Slot.apply_enter, if_pos free]
  cases h with
  | turnedAway =>
    obtain ⟨_, step, -⟩ := slotPath_cons_iff.1 path
    have answer := step.op_inv.1
    simp [entered] at answer
  | opened setup | refused _ setup | broken setup =>
    obtain ⟨_, enter, path⟩ := slotPath_cons_iff.1 path
    obtain ⟨_, middle, last⟩ := slotPath_append_iff.1 path
    obtain rfl := middle.eq_of_forall fun x hx op h => by
      have := setup x hx
      simp [h, Request.isOfSetup] at this
    obtain ⟨_, step, nil⟩ := slotPath_cons_iff.1 last
    obtain rfl := slotPath_nil_iff.1 nil
    rw [step.op_inv.2, enter.op_inv.2, entered]
    rfl

theorem request_cases (h : Setup xs r) :
    ∀ x ∈ xs, x.request.isOfSetup ∨ ∃ op, x.request = .slot op := by
  cases h with
  | turnedAway => simp
  | opened setup | refused _ setup | broken setup =>
    simp only [List.mem_cons, List.mem_append, List.not_mem_nil, or_false]
    rintro x (rfl | hx | rfl)
    · exact .inr ⟨_, rfl⟩
    · exact .inl (setup x hx)
    · exact .inr ⟨_, rfl⟩

theorem breaks {p : Panic} (h : Setup xs r) (panic : r = .error p) : Breaks xs p := by
  cases h with
  | turnedAway | opened | refused => cases panic
  | broken _ breaks =>
    cases panic
    exact breaks.mono fun x hx => List.mem_cons_of_mem _ (List.mem_append_left _ hx)

/-- An acquire sends no command to a device and ends no session. -/
theorem calls (h : Setup xs r) : ∀ c ∈ callsOf xs, c ≠ .quit ∧ ∀ d, c ≠ .command d := by
  intro c hc
  obtain ⟨x, hx, call⟩ := List.mem_filterMap.1 hc
  obtain ⟨r, x⟩ := x
  obtain setup | ⟨op, rfl⟩ := h.request_cases _ hx
  · cases r <;> simp_all [Request.isOfSetup, Request.call?] <;> simp [← call]
  · simp [Request.call?] at call

end Setup

/-- An acquire asks for nothing but its setup and the slot. -/
theorem Manager.acquire_asks {P : Request → Prop} (setup : ∀ r : Request, r.isOfSetup → P r)
    (slot : ∀ op, P (.slot op)) (m : Manager) (config : Config) : Asks P (m.acquire config) := by
  refine asks_of_ends answerable fun xs a acquire x hx => ?_
  obtain isOfSetup | ⟨op, same⟩ := (setup_of_acquire acquire).request_cases x hx
  · exact setup _ isOfSetup
  · exact same ▸ slot op

/-! ## Running a case -/

namespace Orchestrator

variable {o : Orchestrator} {case : TestCase}

/-- The run got a session: its acquire, which comes after a look at the clock, ended with one. -/
def Acquires (o : Orchestrator) (t : Trace) : Prop :=
  ∃ (start : Nat) (setup rest : Trace) (id : SessionId), t = ⟨.now, start⟩ :: (setup ++ rest) ∧
    Ends (o.manager.acquire o.config) setup (.ok (.ok id))

/-- The steps of a run in a live session, and the log they leave. -/
inductive Steps (o : Orchestrator) (case : TestCase) (start : Nat) : Trace → Log → Prop where
  | halted {xs : Trace} {es : List Entry} {h : Halt} :
      Walk o.policy 1 case.steps xs es h → h.panic? = none →
      Steps o case start xs (h.close { entries := es })
  | crashed {xs : Trace} {es : List Entry} {q : Panic} (u : Nat) :
      Walk o.policy 1 case.steps xs es (.crashed q) →
      Steps o case start (xs ++ [⟨.slot .markFailed, ()⟩, ⟨.now, u⟩])
        (Orchestrator.crashed { entries := es } q (.ofMillis (u - start)))

theorem steps_of_ends {start : Nat} {xs : Trace} {log : Log}
    (h : Ends (o.steps case start) xs log) : Steps o case start xs log := by
  obtain ⟨ys, zs, out, rfl, walked, after⟩ := ends_bind_iff.1 h
  obtain ⟨es, halt, walk, rfl⟩ := Policy.walk_of_interpretFrom walked
  cases halt with
  | crashed q =>
    obtain ⟨_, _, rfl, marked⟩ := ends_ask_bind_iff.1 after
    obtain ⟨u, _, rfl, last⟩ := ends_ask_bind_iff.1 marked
    obtain ⟨rfl, rfl⟩ := ends_done_iff.1 last
    exact .crashed u walk
  | finished | cancelled | stopped =>
    obtain ⟨rfl, rfl⟩ := ends_done_iff.1 after
    simpa using .halted walk rfl

theorem Steps.request_cases {start : Nat} {xs : Trace} {log : Log}
    (h : Steps o case start xs log) :
    ∀ x ∈ xs, x.request.isOfSteps ∨ x.request = .slot .markFailed := by
  cases h with
  | halted walk => exact fun x hx => .inl (walk.isOfSteps x hx)
  | crashed u walk =>
    simp only [List.mem_append, List.mem_cons, List.not_mem_nil, or_false]
    rintro x (hx | rfl | rfl)
    · exact .inl (walk.isOfSteps x hx)
    · exact .inr rfl
    · exact .inl rfl

theorem Steps.quit_notMem {start : Nat} {xs : Trace} {log : Log}
    (h : Steps o case start xs log) : .quit ∉ callsOf xs := by
  intro quit
  obtain ⟨⟨r, x⟩, hx, call⟩ := List.mem_filterMap.1 quit
  obtain isOfSteps | rfl := h.request_cases _ hx
  · cases r <;> simp_all [Request.isOfSteps, Request.call?]
    split at call <;> simp_all
  · simp [Request.call?] at call

/-- How a run can go, and what it comes to. -/
inductive Outline (o : Orchestrator) (case : TestCase) : Trace → Except Panic Report → Prop where
  | broken {setup : Trace} {p : Panic} (t : Nat) :
      Ends (o.manager.acquire o.config) setup (.error p) →
      Outline o case (⟨.now, t⟩ :: setup) (.error p)
  | refused {setup : Trace} {e : Error} (t u : Nat) :
      Ends (o.manager.acquire o.config) setup (.ok (.error e)) →
      Outline o case (⟨.now, t⟩ :: (setup ++ [⟨.now, u⟩]))
        (.ok (.ofLog case.name (setupFailure e (.ofMillis (u - t))) (.ofMillis (u - t))))
  | served {setup body : Trace} {id : SessionId} {log : Log} (t u : Nat) (a : Except Error Unit) :
      Ends (o.manager.acquire o.config) setup (.ok (.ok id)) → Steps o case t body log →
      Outline o case
        (⟨.now, t⟩ :: (setup ++ (body ++ [⟨.quit, a⟩, ⟨.slot .vacate, ()⟩, ⟨.now, u⟩])))
        (.ok (.ofLog case.name log (.ofMillis (u - t))))

theorem outline_of_execute {xs : Trace} {result : Except Panic Report}
    (h : Ends (o.execute case) xs result) : Outline o case xs result := by
  obtain ⟨t, _, rfl, afterNow⟩ := ends_ask_bind_iff.1 h
  obtain ⟨setup, rest, acquired, rfl, acquire, afterAcquire⟩ := ends_bind_iff.1 afterNow
  rcases acquired with p | e | id
  · obtain ⟨rfl, rfl⟩ := ends_done_iff.1 afterAcquire
    simpa using .broken t acquire
  · obtain ⟨u, _, rfl, last⟩ := ends_ask_bind_iff.1 afterAcquire
    obtain ⟨rfl, rfl⟩ := ends_done_iff.1 last
    exact .refused t u acquire
  · obtain ⟨body, _, log, rfl, steps, afterSteps⟩ := ends_bind_iff.1 afterAcquire
    obtain ⟨a, _, rfl, afterQuit⟩ := ends_ask_bind_iff.1 afterSteps
    obtain ⟨_, _, rfl, afterVacate⟩ := ends_ask_bind_iff.1 afterQuit
    obtain ⟨u, _, rfl, last⟩ := ends_ask_bind_iff.1 afterVacate
    obtain ⟨rfl, rfl⟩ := ends_done_iff.1 last
    exact .served t u a acquire (steps_of_ends steps)

theorem acquires_of_ends {t : Nat} {setup rest : Trace} {id : SessionId}
    (h : Ends (o.manager.acquire o.config) setup (.ok (.ok id))) :
    o.Acquires (⟨.now, t⟩ :: (setup ++ rest)) :=
  ⟨t, setup, rest, id, rfl, h⟩

/-- A run whose acquire ended otherwise got no session. -/
theorem not_acquires_of_ends {t : Nat} {setup rest : Trace} {r : Attempt SessionId}
    (h : Ends (o.manager.acquire o.config) setup r) (no : ∀ id, r ≠ .ok (.ok id)) :
    ¬ o.Acquires (⟨.now, t⟩ :: (setup ++ rest)) := by
  rintro ⟨t', setup', rest', id, same, h'⟩
  obtain ⟨-, tails⟩ := List.cons.inj same
  exact no id (h.unique h' tails).2

theorem not_acquires_of_panic {t : Nat} {setup : Trace} {p : Panic}
    (h : Ends (o.manager.acquire o.config) setup (.error p)) :
    ¬ o.Acquires (⟨.now, t⟩ :: setup) := by
  have none : ¬ o.Acquires (⟨.now, t⟩ :: (setup ++ [])) := not_acquires_of_ends h nofun
  simpa using none

namespace Outline

variable {xs : Trace} {result : Except Panic Report}

/-- A run that got a session ends it once, and this is its last call. -/
theorem calls_of_acquires (h : Outline o case xs result) (session : o.Acquires xs) :
    ∃ before, callsOf xs = before ++ [.quit] ∧ .quit ∉ before := by
  cases h with
  | broken t acquire =>
    exact absurd session (not_acquires_of_panic acquire)
  | refused t u acquire => exact absurd session (not_acquires_of_ends acquire nofun)
  | @served setup body _ _ t u a acquire steps =>
    refine ⟨callsOf (setup ++ body), by simp [callsOf, Request.call?], ?_⟩
    simp only [callsOf_append, List.mem_append, not_or]
    exact ⟨fun quit => (((Manager.setup_of_acquire acquire).calls _ quit).1 rfl), steps.quit_notMem⟩

/-- A run that got no session sends no command, and ends none. -/
theorem calls_of_not_acquires (h : Outline o case xs result) (none : ¬ o.Acquires xs) :
    ∀ c ∈ callsOf xs, c ≠ .quit ∧ ∀ d, c ≠ .command d := by
  cases h with
  | broken t acquire => exact (Manager.setup_of_acquire acquire).calls
  | refused t u acquire =>
    simpa [callsOf, Request.call?] using (Manager.setup_of_acquire acquire).calls
  | served t u a acquire steps => exact absurd (acquires_of_ends acquire) none

/-- A run that got no session panicked in its setup, or reports one failure. -/
theorem result_of_not_acquires (h : Outline o case xs result) (none : ¬ o.Acquires xs) :
    (∃ p, result = .error p ∧ Breaks xs p) ∨ ∃ (e : Error) (d : Span), result =
      .ok ⟨case.name, false, [⟨0, "Setup", .failure, e.describe, d⟩], false, d⟩ := by
  cases h with
  | @broken _ p t acquire =>
    have breaks := (Manager.setup_of_acquire acquire).breaks rfl
    exact .inl ⟨p, rfl, breaks.mono fun x hx => List.mem_cons_of_mem _ hx⟩
  | refused t u acquire => exact .inr ⟨_, _, rfl⟩
  | served t u a acquire steps => exact absurd (acquires_of_ends acquire) none

end Outline

end Orchestrator

/-! ## A small run -/

/-- The report of a run that came to one. -/
def Progress.report? {σ : Type} : Progress σ (Except Panic Report) → Option Report
  | .finished (.ok r) => some r
  | _ => none

theorem Progress.report?_eq_some_iff {σ : Type} {p : Progress σ (Except Panic Report)}
    {r : Report} :
    p.report? = some r ↔ p = .finished (.ok r) := by
  rcases p with (e | r') | p <;> simp [report?]

/-- A case that presses one key. -/
def keyPress : TestCase where
  name := "Home"
  steps := [{ action := "pressKey", params := [("key", .str "HOME")] }]

def plainRun : Orchestrator := { config := ⟨"http://localhost:4723", []⟩ }

end UiRunner.Run
