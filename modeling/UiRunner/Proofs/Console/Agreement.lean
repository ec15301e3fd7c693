import UiRunner.Console.Doctor
import UiRunner.Console.RunCase
import UiRunner.Proofs.WebDriver.Session

/-!
# Doctor and run

The doctor makes all checks and lists what they find; a run makes the checks it is set to make, and
stops at the first problem. What a check finds depends on the host and, for the server, on the state
of the network, so both come to the same decision, and the problem that stops a run is the first one
in the doctor's list.
-/
namespace UiRunner

/-- The settings with a choice of the checks that a run makes. -/
def Settings.checking (s : Settings) (server device capabilities : Bool) : Settings :=
  { s with preflight := ⟨server, device, capabilities, s.preflight.adb⟩ }

namespace Run

/-- The first problem among findings. -/
def firstProblem? (findings : List Finding) : Option Error := findings.findSome? Finding.problem

theorem all_passed_iff {findings : List Finding} :
    findings.all Finding.passed = true ↔ firstProblem? findings = none := by
  simp [firstProblem?, Finding.passed]

theorem firstProblem?_of_subset {fs gs : List Finding} (subset : fs ⊆ gs)
    (calm : firstProblem? gs = none) : firstProblem? fs = none := by
  simp only [firstProblem?, List.findSome?_eq_none_iff] at calm ⊢
  exact fun f hf => calm f (subset hf)

theorem find?_of_firstProblem? {findings : List Finding} {e : Error}
    (h : firstProblem? findings = some e) :
    ∃ f, findings.find? (fun f => !f.passed) = some f ∧ f.problem = some e := by
  induction findings with
  | nil => cases h
  | cons f rest ih =>
    cases problem : f.problem with
    | some e' =>
      exact ⟨f, by simp [Finding.passed, problem], by simpa [firstProblem?, problem] using h⟩
    | none =>
      obtain ⟨f', first, found⟩ := ih (by simpa [firstProblem?, problem] using h)
      exact ⟨f', by simpa [Finding.passed, problem] using first, found⟩

/-- What checks come to that are made until there is a problem. -/
def settledBy : Option Error → Except Error Unit
  | some e => .error e
  | none => .ok ()

end Run

namespace Console

open Run

variable {σ α : Type} {h : Host σ} {s : Settings} {config : Session.Config}
  {cs : List Session.Check}

/-! ## Checks on a host -/

/-- What a check finds on a host while the client is in this state. -/
def Host.verdict (h : Host σ) (config : Session.Config) (client : WebDriver.Client σ) :
    Session.Check → Except Error Unit
  | .server => (WebDriver.checkStatus h.network config client).1
  | c => c.verdict h.adb config

/-- What a diagnosis finds on a host while the client is in this state. -/
def Host.findings (h : Host σ) (config : Session.Config) (client : WebDriver.Client σ)
    (cs : List Session.Check) : List Finding :=
  cs.map fun c => .ofVerdict c (h.verdict config client c)

/-- What a check sends while the client is in this state. Only the server is asked for anything. -/
def Host.inquiry (h : Host σ) (config : Session.Config) (client : WebDriver.Client σ) :
    Session.Check → List Http.Sent
  | .server =>
    let request := WebDriver.statusRequest config
    [⟨request, (h.network.send request client.net).1⟩]
  | _ => []

/-- The server is asked first, if at all. -/
abbrev ServerFirst (cs : List Session.Check) : Prop := cs.Pairwise fun _ c => c ≠ .server

/-- Only what is found about the server depends on the client. -/
theorem Host.verdict_eq {c : Session.Check} (other : c ≠ .server)
    (k k' : WebDriver.Client σ) : h.verdict config k c = h.verdict config k' c := by
  cases c with
  | server => exact absurd rfl other
  | device | capabilities | staged => rfl

theorem Host.findings_eq (h : Host σ) (config : Session.Config)
    (others : ∀ c ∈ cs, c ≠ .server) (k k' : WebDriver.Client σ) :
    h.findings config k cs = h.findings config k' cs :=
  List.map_congr_left fun c hc => by rw [Host.verdict_eq (others c hc) k k']

theorem Host.flatMap_inquiry_eq_nil (h : Host σ) (config : Session.Config)
    (others : ∀ c ∈ cs, c ≠ .server) (k : WebDriver.Client σ) :
    cs.flatMap (h.inquiry config k) = [] := by
  refine List.flatMap_eq_nil_iff.2 fun c hc => ?_
  cases c with
  | server => exact absurd rfl (others _ hc)
  | device | capabilities | staged => rfl

/-- A check comes to what it finds, and sends its inquiry. -/
theorem Host.check_eq (h : Host σ) (s : Settings) (now : Nat) (c : Session.Check)
    (config : Session.Config) (client : WebDriver.Client σ) : ∃ t after,
      (h.environment s).check now c config client =
        WebDriver.reaction (.ok (h.verdict config client c), t, after) ∧
      after.history = (h.inquiry config client c).reverse ++ client.history := by
  cases c with
  | server =>
    rcases sends : h.network.send (WebDriver.statusRequest config) client.net with ⟨o, t, net⟩
    let after :=
      { client with net, history := ⟨WebDriver.statusRequest config, o⟩ :: client.history }
    refine ⟨t, after, ?_, ?_⟩
    · simp only [environment, WebDriver.environment, verdict, WebDriver.checkStatus,
        WebDriver.exchange, sends, after]
    · simp [inquiry, sends, after]
  | device | capabilities | staged => exact ⟨_, client, rfl, rfl⟩

/-- A check is answered with what it finds. -/
theorem run_check_bind (h : Host σ) (s : Settings) (config : Session.Config) (c : Session.Check)
    (w : World (WebDriver.Client σ)) : ∃ u, w.Leads u [(w.now, .check c)] ∧
      u.outside.history = (h.inquiry config w.outside c).reverse ++ w.outside.history ∧
      ∀ {β : Type} (f : Attempt Unit → Course β),
      (Course.check c config >>= f).run (h.environment s) none w =
        (f (.ok (h.verdict config w.outside c))).run (h.environment s) none u := by
  obtain ⟨t, after, made, history⟩ := h.check_eq s w.now c config w.outside
  have begun : w.begin (h.environment s) (.check c config) = w.call (.check c)
      (WebDriver.reaction (.ok (h.verdict config w.outside c), t, after)) :=
    congrArg (w.call (.check c)) made
  obtain ⟨u, rfl, leads, run⟩ := WebDriver.run_ask_of_reaction begun
  exact ⟨u, leads, history, run⟩

/-- A diagnosis finds what each of its checks finds. -/
theorem run_diagnose (h : Host σ) (s : Settings) (config : Session.Config)
    (first : ServerFirst cs) (w : World (WebDriver.Client σ)) :
    ∃ u, (diagnose config cs).run (h.environment s) none w =
      (.finished (.ok (h.findings config w.outside cs)), u) := by
  induction cs generalizing w with
  | nil => exact ⟨w, rfl⟩
  | cons c rest ih =>
    obtain ⟨others, first⟩ := List.pairwise_cons.1 first
    obtain ⟨v, -, -, run⟩ := run_check_bind h s config c w
    obtain ⟨u, run'⟩ := ih first v
    rw [diagnose, run]
    dsimp only
    rw [Course.run_bind, run']
    -- The later checks are not about the server, so it does not matter that it has been asked.
    exact ⟨u, by rw [h.findings_eq config others v.outside w.outside]; rfl⟩

/-- Checks that stop at a problem stop at the first one that a diagnosis finds. Nothing but checks
is called for, and only the server is asked. -/
theorem run_makeChecks (h : Host σ) (s : Settings) (config : Session.Config)
    (first : ServerFirst cs) (w : World (WebDriver.Client σ)) :
    ∃ u xs, (Manager.makeChecks config cs).run (h.environment s) none w =
      (.finished (.ok (settledBy (firstProblem? (h.findings config w.outside cs)))), u) ∧
      w.Leads u xs ∧ (∀ x ∈ xs, ∃ c, x.2 = .check c) ∧
      u.outside.history =
        (cs.flatMap (h.inquiry config w.outside)).reverse ++ w.outside.history := by
  induction cs generalizing w with
  | nil => exact ⟨w, [], rfl, .refl w, by simp, rfl⟩
  | cons c rest ih =>
    obtain ⟨others, first⟩ := List.pairwise_cons.1 first
    obtain ⟨v, made, asked, run⟩ := run_check_bind h s config c w
    obtain ⟨u, xs, run', later, all, history⟩ := ih first v
    -- The server is not asked again.
    rw [h.flatMap_inquiry_eq_nil config others v.outside, List.reverse_nil, List.nil_append]
      at history
    rw [List.flatMap_cons, h.flatMap_inquiry_eq_nil config others w.outside, List.append_nil]
    have findings := h.findings_eq config others v.outside w.outside
    rw [Manager.makeChecks, run]
    cases verdict : h.verdict config w.outside c with
    | error e =>
      have problem : firstProblem? (h.findings config w.outside (c :: rest)) = some e := by
        simp [Host.findings, verdict, Finding.ofVerdict, firstProblem?]
      exact ⟨v, _, by rw [problem]; rfl, made, by simp, asked⟩
    | ok _ =>
      have problem : firstProblem? (h.findings config w.outside (c :: rest)) =
          firstProblem? (h.findings config w.outside rest) := by
        simp [Host.findings, verdict, Finding.ofVerdict, firstProblem?]
      rw [problem, ← findings]
      exact ⟨u, _, run', made.trans later, List.forall_mem_append.2 ⟨all, by simp⟩,
        history.trans asked⟩

/-! ## Acquiring a session on a host -/

section

variable {m : Manager} {w : World (WebDriver.Client σ)}

/-- An acquire makes the checks, and then opens the connection or is refused for a problem. -/
theorem run_acquire (h : Host σ) (s : Settings) (config : Session.Config)
    (first : ServerFirst m.checks) (free : w.slot.isFree = true) :
    ∃ v xs, w.Leads v xs ∧ (∀ x ∈ xs, ∃ c, x.2 = .check c) ∧
      v.outside.history =
        (m.checks.flatMap (h.inquiry config w.outside)).reverse ++ w.outside.history ∧
      (m.acquire config).run (h.environment s) none w =
        ((firstProblem? (h.findings config w.outside m.checks)).elim (m.open_ config)
          Manager.refuse).run (h.environment s) none v := by
  obtain ⟨slot, entered⟩ : ∃ slot, w.slot.apply .enter = (true, slot) := by
    simp [Session.Slot.apply, Session.Slot.enter?, free]
  obtain ⟨v, xs, checked, leads, all, history⟩ := run_makeChecks h s config first
    { w with slot }
  have before : w.Leads { w with slot } [] := .of_eq rfl rfl rfl
  refine ⟨v, _, before.trans leads, by simpa using all, history, ?_⟩
  rw [Manager.acquire, Course.enter, Course.run_slot_bind, entered]
  simp only [ite_true]
  rw [Course.run_bind, checked]
  cases firstProblem? (h.findings config w.outside m.checks) <;> rfl

/-- Without a problem a run opens the connection. -/
theorem connects_of_execute (o : Orchestrator) (case : TestCase)
    (first : ServerFirst o.manager.checks) (free : w.slot.isFree = true)
    (calm : firstProblem? (h.findings o.config w.outside o.manager.checks) = none) :
    ∃ t, (t, .connect o.config) ∈
      w.callsSince ((o.execute case).run (h.environment s) none w).2 := by
  obtain ⟨v, xs, before, -, -, run⟩ := run_acquire h s o.config first free
  rw [calm, Option.elim] at run
  rw [Orchestrator.execute, Course.run_now_bind, Course.run_bind, run, ← Course.run_bind]
  exact ⟨v.now, Course.mem_callsSince_ask _ rfl _ before⟩

/-- A problem ends a run before it opens the connection, and is all that it reports. -/
theorem run_execute_of_problem (o : Orchestrator) (case : TestCase) {e : Error}
    (first : ServerFirst o.manager.checks) (free : w.slot.isFree = true)
    (problem : firstProblem? (h.findings o.config w.outside o.manager.checks) = some e) :
    ∃ d u xs, (o.execute case).run (h.environment s) none w =
        (.finished (.ok (.ofLog case.name (Orchestrator.setupFailure e d) d)), u) ∧
      w.Leads u xs ∧ (∀ x ∈ xs, ∃ c, x.2 = .check c) ∧ u.outside.history =
        (o.manager.checks.flatMap (h.inquiry o.config w.outside)).reverse ++ w.outside.history := by
  obtain ⟨v, xs, before, all, history, run⟩ := run_acquire h s o.config first free
  rw [problem, Option.elim] at run
  have refused : (Manager.refuse e).run (h.environment s) none v =
      (.finished (.ok (.error e)), { v with slot := v.slot.conclude .failed }) :=
    Course.run_slot_bind _ (.conclude .failed) _ v
  have after : v.Leads { v with slot := v.slot.conclude .failed } [] := .of_eq rfl rfl rfl
  obtain ⟨d, reported⟩ := Orchestrator.run_execute_of_refused case (run.trans refused)
  exact ⟨d, _, _, reported, before.trans after, by simpa using all, history⟩

end

/-! ## Commands -/

variable {opts : RunOptions} {case : TestCase} {d d' : Desk σ}

theorem serverFirst_checks (p : Session.Preflight) : ServerFirst p.checks := by
  rcases p with ⟨_ | _, _ | _, _ | _, adb⟩ <;> simp [ServerFirst, Session.Preflight.checks]

/-- The doctor makes every check that a run may be set to make. -/
theorem checks_subset_doctorChecks (s : Settings) (server device capabilities : Bool) :
    (s.checking server device capabilities).preflight.checks ⊆ doctorChecks s true := by
  cases server <;> cases device <;> cases capabilities <;>
    simp [Settings.checking, doctorChecks, Session.Preflight.checks]

theorem Checkup.passed_iff {c : Checkup} (readable : c.capabilitiesError = none) :
    c.passed = true ↔ firstProblem? c.findings = none := by
  rw [passed, readable, Option.isNone_none, Bool.true_and, all_passed_iff]

/-- A run gets as far as opening the connection. -/
def Connects (h : Host σ) (s : Settings) (opts : RunOptions) (d : Desk σ) : Prop :=
  ∃ t config, (t, .connect config) ∈ d.world.callsSince (runCase h s opts d).2.world

/-- At both desks the capabilities are the same, and the server gives the same status. The devices
that adb lists are those of the host. -/
structure Alike (h : Host σ) (s : Settings) (d d' : Desk σ) : Prop where
  capabilities : h.sessionConfig s d'.files = h.sessionConfig s d.files
  status : ∀ config, h.sessionConfig s d.files = .ok config →
    (WebDriver.checkStatus h.network config d'.world.outside).1 =
      (WebDriver.checkStatus h.network config d.world.outside).1

theorem perform_of_finished {c : Course (Except Panic α)} {a : α}
    {u : World (WebDriver.Client σ)}
    (run : c.run (h.environment s) none d.world = (.finished (.ok a), u)) :
    h.perform s c d = (.ok a, { d with world := u }) := by
  simp [Host.perform, Course.runWithin, run, Host.resultOf]

theorem callsSince_perform (w : World (WebDriver.Client σ)) (c : Course (Except Panic α)) :
    w.callsSince (h.perform s c d).2.world =
      w.callsSince (c.run (h.environment s) none d.world).2 := by
  refine World.callsSince_congr ?_
  simp only [Host.perform, Course.runWithin, Option.map_none]
  rcases c.run (h.environment s) none d.world with ⟨a | p, u⟩ <;> rfl

theorem runCase_world (loads : TestCase.load d.files opts.case = .ok case)
    (configured : h.sessionConfig s d.files = .ok config) : (runCase h s opts d).2.world =
      (h.perform s ((s.orchestrator config).execute case) d).2.world := by
  simp only [runCase, loads, configured]
  split <;> simp_all [Desk.print]

/-- What the doctor finds. -/
theorem checkup_eq (h : Host σ) (s : Settings) (d : Desk σ) : ∃ after, checkup h s d =
    (.ok ⟨s.serverUrl, h.findings (checkedConfig s (h.sessionConfig s d.files)) d.world.outside
      (doctorChecks s (problemOf (h.sessionConfig s d.files)).isNone),
        problemOf (h.sessionConfig s d.files), attachedDevices h s⟩, after) := by
  obtain ⟨u, run⟩ := run_diagnose h s (checkedConfig s (h.sessionConfig s d.files))
    (serverFirst_checks
      { capabilities := (problemOf (h.sessionConfig s d.files)).isNone, adb := s.preflight.adb })
    d.world
  refine ⟨{ d with world := u }, ?_⟩
  unfold checkup
  dsimp only
  rw [doctorChecks, perform_of_finished run]

/-- The run reports this error of its setup, and nothing else. -/
def ReportsSetup (h : Host σ) (s : Settings) (opts : RunOptions) (d : Desk σ) (name : String)
    (e : Error) : Prop :=
  ∃ (t : Span) (after : Desk σ), runCase h s opts d =
    (.ok false, after.print (shownReport h.paint opts.json
      (.ofLog name (Orchestrator.setupFailure e t) t)))

/-- A run in whose checks there is no problem opens the connection. -/
theorem connects_of_calm (loads : TestCase.load d.files opts.case = .ok case)
    (configured : h.sessionConfig s d.files = .ok config) (free : d.world.slot.isFree = true)
    (calm : firstProblem? (h.findings config d.world.outside s.preflight.checks) = none) :
    Connects h s opts d := by
  obtain ⟨t, made⟩ := connects_of_execute (s := s) (s.orchestrator config) case
    (serverFirst_checks s.preflight) free calm
  exact ⟨t, config, by rwa [runCase_world loads configured, callsSince_perform]⟩

/-- A run reports the first problem in its checks, and opens no connection. -/
theorem refused_of_problem {e : Error} (loads : TestCase.load d.files opts.case = .ok case)
    (configured : h.sessionConfig s d.files = .ok config) (free : d.world.slot.isFree = true)
    (problem : firstProblem? (h.findings config d.world.outside s.preflight.checks) = some e) :
    ¬ Connects h s opts d ∧ ReportsSetup h s opts d case.name e := by
  obtain ⟨t, u, xs, run, leads, all, -⟩ := run_execute_of_problem (s := s)
    (s.orchestrator config) case (serverFirst_checks s.preflight) free problem
  constructor
  · rintro ⟨t, config', made⟩
    rw [runCase_world loads configured, callsSince_perform, run, leads.callsSince_eq,
      List.mem_reverse] at made
    obtain ⟨c, check⟩ := all _ made
    cases check
  · refine ⟨t, { d with world := u }, ?_⟩
    simp only [runCase, loads, configured, perform_of_finished run]
    rfl

namespace Alike

theorem findings_eq (alike : Alike h s d d') (configured : h.sessionConfig s d.files = .ok config)
    (cs : List Session.Check) :
    h.findings config d'.world.outside cs = h.findings config d.world.outside cs := by
  refine List.map_congr_left fun c _ => congrArg (Finding.ofVerdict c) ?_
  cases c with
  | server => exact alike.status config configured
  | device | capabilities | staged => rfl

variable {e : Error} (alike : Alike h s d d')
  (loads : TestCase.load d'.files opts.case = .ok case)

include alike loads

/-- A run ends with the error that keeps the capabilities from being read. -/
theorem refused_of_unreadable (unreadable : h.sessionConfig s d.files = .error e) :
    runCase h (s.checking true true true) opts d' = (.error e, d') ∧
      ¬ Connects h (s.checking true true true) opts d' := by
  have unreadable' : h.sessionConfig (s.checking true true true) d'.files = .error e :=
    alike.capabilities.trans unreadable
  have refused : runCase h (s.checking true true true) opts d' = (.error e, d') := by
    simp only [runCase, loads, unreadable']
  refine ⟨refused, ?_⟩
  rintro ⟨t, config, made⟩
  rw [refused, (World.Leads.refl _).callsSince_eq] at made
  cases made

variable (configured : h.sessionConfig s d.files = .ok config)
  (free : d'.world.slot.isFree = true)

include configured free

/-- When the doctor finds no problem, neither do the checks of a run. -/
theorem connects
    (calm : firstProblem? (h.findings config d.world.outside (doctorChecks s true)) = none)
    (server device capabilities : Bool) :
    Connects h (s.checking server device capabilities) opts d' := by
  refine connects_of_calm loads (alike.capabilities.trans configured) free ?_
  rw [alike.findings_eq configured]
  exact firstProblem?_of_subset (List.map_subset _ (checks_subset_doctorChecks ..)) calm

/-- A run with all checks reports the first problem that the doctor finds. -/
theorem refused
    (problem : firstProblem? (h.findings config d.world.outside (doctorChecks s true)) = some e) :
    ¬ Connects h (s.checking true true true) opts d' ∧
      ReportsSetup h (s.checking true true true) opts d' case.name e := by
  refine refused_of_problem loads (alike.capabilities.trans configured) free ?_
  rw [alike.findings_eq configured]
  exact problem

end Alike

/-- **The doctor and the run agree.** The doctor succeeds exactly if a run with all checks gets as
far as opening the connection, and then so does a run with any choice of them. When it fails, the
run with all checks opens no connection: it ends with the error that keeps the capabilities from
being read, or reports the first problem in the doctor's list as that of its setup. -/
theorem doctor_agrees_with_run {σ : Type} (h : Host σ) (s : Settings) (json : Bool)
    (opts : RunOptions) (case : TestCase) (d d' : Desk σ) (alike : Alike h s d d')
    (free : d'.world.slot.isFree = true) (loads : TestCase.load d'.files opts.case = .ok case) :
    ∃ (c : Checkup) (after : Desk σ), checkup h s d = (.ok c, after) ∧
      doctor h s json d = (.ok c.passed, after.print (c.shown h.paint json)) ∧
      (c.passed = true ↔ Connects h (s.checking true true true) opts d') ∧
      (c.passed = true → ∀ server device capabilities,
        Connects h (s.checking server device capabilities) opts d') ∧
      (c.passed = false →
        (∃ e, c.capabilitiesError = some e ∧
          runCase h (s.checking true true true) opts d' = (.error e, d')) ∨
        ∃ f e, c.capabilitiesError = none ∧ c.findings.find? (fun f => !f.passed) = some f ∧
          f.message? = some e.message ∧
          ReportsSetup h (s.checking true true true) opts d' case.name e) := by
  obtain ⟨after, checked⟩ := checkup_eq h s d
  refine ⟨_, after, checked, by unfold doctor; rw [checked], ?_⟩
  cases configured : h.sessionConfig s d.files with
  | error e =>
    obtain ⟨refused, silent⟩ := alike.refused_of_unreadable loads configured
    simp only [Checkup.passed, problemOf, Option.isNone_some, Bool.false_and]
    exact ⟨iff_of_false nofun silent, nofun, fun _ => .inl ⟨e, rfl, refused⟩⟩
  | ok config =>
    simp only [problemOf, checkedConfig, Option.isNone_none]
    have passed := Checkup.passed_iff (c := ⟨s.serverUrl, h.findings config d.world.outside
      (doctorChecks s true), none, attachedDevices h s⟩) rfl
    cases problem : firstProblem? (h.findings config d.world.outside (doctorChecks s true)) with
    | none =>
      have connects := alike.connects loads configured free problem
      have passed := passed.2 problem
      exact ⟨iff_of_true passed (connects ..), fun _ => connects,
        fun failed => absurd passed (by simp [failed])⟩
    | some e =>
      have failed := mt passed.1 (by simp [problem])
      obtain ⟨silent, reports⟩ := alike.refused loads configured free problem
      obtain ⟨f, first, found⟩ := find?_of_firstProblem? problem
      exact ⟨iff_of_false failed silent, fun passed => absurd passed failed,
        fun _ => .inr ⟨f, e, trivial, first, by rw [Finding.message?, found]; rfl, reports⟩⟩

/-- A host with a server and an emulator. -/
def emulatorHost : Host Unit where
  adb :=
    { onPath := some "adb"
      run := fun _ => .exits 0 (Bytes.ofText "List of devices attached\nemulator-5554\tdevice\n") }
  network := ⟨fun _ _ s => (.answered 200 [] false, s)⟩

/-- A desk with a case and the capabilities for the emulator. -/
def emulatorDesk : Desk Unit :=
  .clean ()
    { entries :=
        [(["case.json"], .file (Bytes.ofText "[\"Home\", [[\"pressKey\"]]]")),
         (["caps.json"],
          .file (Bytes.ofText "\x7b\"appium:deviceName\": \"emulator-5554\"\x7d"))] }

/-- With the emulator the doctor succeeds and every run opens the connection. When nobody listens
at the address of the server, the doctor fails and a run reports why. -/
theorem doctor_agrees_with_run_emulator :
    let s : Settings := { capabilitiesFile := some "caps.json" }
    let opts : RunOptions := { case := "case.json" }
    let away : Host Unit := { emulatorHost with network := .deserted }
    (doctor emulatorHost s true emulatorDesk).1 = .ok true ∧
      (∀ server device capabilities,
        Connects emulatorHost (s.checking server device capabilities) opts emulatorDesk) ∧
      (doctor away s true emulatorDesk).1 = .ok false ∧
      ¬ Connects away (s.checking true true true) opts emulatorDesk ∧
      ∃ e, ReportsSetup away (s.checking true true true) opts emulatorDesk "Home" e := by
  intro s opts away
  have readable : (TestCase.load emulatorDesk.files opts.case).toOption.any
      (·.name = "Home") = true := by decide +kernel
  have calm : (checkup emulatorHost s emulatorDesk).1.toOption.any (·.passed) = true := by
    decide +kernel
  have troubled : (checkup away s emulatorDesk).1.toOption.any
      (fun c => !c.passed && c.capabilitiesError.isNone) = true := by decide +kernel
  obtain ⟨case, loads, name⟩ := exists_ok_of_any readable
  obtain ⟨c, after, checked, verdict, -, connects, -⟩ := doctor_agrees_with_run emulatorHost s true
    opts case emulatorDesk emulatorDesk ⟨rfl, fun _ _ => rfl⟩ rfl loads
  obtain ⟨c', after', checked', verdict', connects', -, reports⟩ := doctor_agrees_with_run away s
    true opts case emulatorDesk emulatorDesk ⟨rfl, fun _ _ => rfl⟩ rfl loads
  rw [checked] at calm
  rw [checked'] at troubled
  have passed : c.passed = true := calm
  have failed : c'.passed = false ∧ c'.capabilitiesError = none := by
    simpa [Except.toOption] using troubled
  rw [verdict, verdict', passed, failed.1, ← of_decide_eq_true name]
  obtain ⟨e, unreadable, -⟩ | ⟨f, e, -, -, -, setup⟩ := reports failed.1
  · cases unreadable.symm.trans failed.2
  · have silent : ¬ Connects away (s.checking true true true) opts emulatorDesk := fun opened => by
      simpa [failed.1] using connects'.2 opened
    exact ⟨rfl, connects passed, rfl, silent, e, setup⟩

end Console

end UiRunner
