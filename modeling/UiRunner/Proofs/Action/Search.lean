import UiRunner.Proofs.Action.FailFast

/-!
# Searching for elements

Every command about an element is about the one that the last search has found (`Follows`). An
action that reports an element as missing has looked for it at least once and each time been told
that it is not there or not ready (`Missed`), and an element that polling returns was found and
ready when it was looked at last (`Readiness.sight`).
-/
namespace UiRunner.Action

open Device Routine

variable {α β : Type} {xs : List Exchange}

/-! ## The element found last -/

/-- What the last search has found, after one more exchange. -/
def found (last : Option ElementId) : Exchange → Option ElementId
  | ⟨.command (.find _), .ok e⟩ => e
  | ⟨.command (.find _), .error _⟩ => none
  | _ => last

/-- Along every way through a script the commands about an element are about the one that the last
search has found, and a value is returned when the last search has found what is wanted. -/
inductive Follows (wanted : α → Option ElementId → Prop) :
    Option ElementId → Routine stage (Except Error α) → Prop where
  | value {last : Option ElementId} {a : α} : wanted a last → Follows wanted last (.done (.ok a))
  | error (last : Option ElementId) (e : Error) : Follows wanted last (.done (.error e))
  | ask {last : Option ElementId} {r : Request} {next : r.Answer → Routine stage (Except Error α)} :
      (∀ c e, r = .command c → c.element? = some e → last = some e) →
      (∀ x, Follows wanted (found last ⟨r, x⟩) (next x)) → Follows wanted last (.ask r next)

namespace Follows

variable {wanted : α → Option ElementId → Prop} {wanted' : β → Option ElementId → Prop}
  {last : Option ElementId} {p : Routine stage (Except Error α)}

theorem pure {a : α} (h : wanted a last) : Follows wanted last (pure a : Script α).run := .value h

theorem ite {c : Prop} [Decidable c] {p q : Script α} (h : Follows wanted last p.run)
    (g : Follows wanted last q.run) :
    Follows wanted last (if c then p else q : Script α).run := by
  split
  · exact h
  · exact g

theorem bind {p : Script α} {f : α → Script β} (h : Follows wanted last p.run)
    (g : ∀ a l, wanted a l → Follows wanted' l (f a).run) :
    Follows wanted' last (p >>= f).run := by
  suffices ∀ (q : Routine stage (Except Error α)) (last : Option ElementId),
      Follows wanted last q → Follows wanted' last (ExceptT.mk q >>= f).run from this p.run last h
  intro q last follows
  induction follows with
  | value done => exact g _ _ done
  | error last e => exact .error last e
  | ask about _ ih => exact .ask about ih

theorem mono (h : Follows wanted last p) {weaker : α → Option ElementId → Prop}
    (le : ∀ a l, wanted a l → weaker a l) : Follows weaker last p := by
  induction h with
  | value done => exact .value (le _ _ done)
  | error last e => exact .error last e
  | ask about _ ih => exact .ask about ih

/-- What is wanted of the end of a script holds where it ends. -/
theorem of_ends (h : Follows wanted last p) {a : α} (ends : Ends p xs (.ok a)) :
    ∃ l, wanted a l := by
  induction h generalizing xs with
  | value done =>
    cases (ends_done_iff.1 ends).2
    exact ⟨_, done⟩
  | error last e => cases (ends_done_iff.1 ends).2
  | ask _ _ ih =>
    obtain ⟨x, ys, rfl, rest⟩ := ends_ask_iff.1 ends
    exact ih x rest

theorem command {c : Command} {wanted : c.Answer → Option ElementId → Prop}
    (about : c.element? = none ∨ c.element? = last)
    (h : ∀ a, wanted a (found last ⟨.command c, .ok a⟩)) :
    Follows wanted last (Script.command c).run := by
  refine .ask ?_ fun x => ?_
  · rintro c' e same element
    cases same
    obtain none | same := about
    · cases none.symm.trans element
    · exact same.symm.trans element
  · rcases x with e | a
    · exact .error _ e
    · exact .value (h a)

/-- A command to the device, and what is done with its answer. -/
theorem command_bind {c : Command} {f : c.Answer → Script β}
    (about : c.element? = none ∨ c.element? = last)
    (g : ∀ a, Follows wanted' (found last ⟨.command c, .ok a⟩) (f a).run) :
    Follows wanted' last (Script.command c >>= f).run := by
  have asked : Follows (fun a l => l = found last ⟨.command c, .ok a⟩) last
      (Script.command c).run := .command about fun a => rfl
  refine asked.bind ?_
  rintro a _ rfl
  exact g a

/-- What is no command leaves the search as it is. -/
theorem ask_bind {r : Request} {f : r.Answer → Script β} (other : ∀ c, r ≠ .command c)
    (g : ∀ a, Follows wanted' last (f a).run) :
    Follows wanted' last (Script.ask r >>= f).run := by
  refine .ask (fun c e same => absurd same (other c)) fun x => ?_
  cases r <;> first | exact g x | exact absurd rfl (other _)

theorem forever : Follows wanted last (Script.forever : Script α).run := .ask nofun nofun

/-! ## Polling -/

/-- The search has found the element that is returned. -/
def Returned (res : Option ElementId) (last : Option ElementId) : Prop :=
  ∀ e, res = some e → last = some e

/-- Looking at an element leaves the search as it is. -/
theorem holds (r : Readiness) (e : ElementId) :
    Follows (fun _ l => l = some e) (some e) (r.holds e).run := by
  cases r with
  | present => exact .pure rfl
  | visible => exact .command (c := .displayed e) (.inr rfl) fun _ => rfl
  | clickable =>
    exact .command_bind (.inr rfl) fun displayed =>
      .ite (.command (c := .enabled e) (.inr rfl) fun _ => rfl) (.pure rfl)

theorem attempt (query : Query) (r : Readiness) :
    Follows Returned last (attempt query r).run := by
  refine .command_bind (.inl rfl) fun e => ?_
  cases e with
  | none => exact .pure nofun
  | some e =>
    refine .bind (.holds r e) ?_
    rintro ready _ rfl
    exact .ite (.pure fun _ => id) (.pure nofun)

theorem pollTimes (query : Query) (r : Readiness) (interval : Nat) (deadline : Option Nat)
    (left : Nat) : Follows Returned last (pollTimes query r interval deadline left).run := by
  induction left generalizing last with
  | zero => exact .forever
  | succ left ih =>
    refine .bind (.attempt query r) fun res l returned => ?_
    cases res with
    | some e => exact .pure returned
    | none =>
      cases deadline with
      | none => exact .ask_bind (by simp) fun _ => ih
      | some d =>
        refine .ask_bind (by simp) fun now => .ite (.pure nofun) ?_
        exact .ask_bind (by simp) fun _ => ih

theorem poll (s : Settings) (query : Query) (secs : Nat) (r : Readiness) :
    Follows Returned last (poll s query secs r).run :=
  .ask_bind (by simp) fun _ => .pollTimes ..

theorem selecting {wanted : Outcome → Option ElementId → Prop} {ps : Params}
    {f : Selector → Query → Script Outcome}
    (h : ∀ selector query, Follows wanted last (f selector query).run) :
    Follows wanted last (selecting ps f).run := by
  obtain ⟨e, -, run⟩ | ⟨selector, query, -, run⟩ := run_selecting ps f
  · exact run ▸ .error last e
  · exact run ▸ h selector query

end Follows

/-! ## Missing elements -/

/-- A look at the screen that shows no element as it is wanted. -/
inductive Missed (query : Query) : List Exchange → Prop where
  | absent : Missed query [⟨.command (.find query), .ok none⟩]
  | hidden (e : ElementId) : Missed query
      [⟨.command (.find query), .ok (some e)⟩, ⟨.command (.displayed e), .ok false⟩]
  | disabled (e : ElementId) : Missed query
      [⟨.command (.find query), .ok (some e)⟩, ⟨.command (.displayed e), .ok true⟩,
        ⟨.command (.enabled e), .ok false⟩]

/-- These commands are looks at the screen, at least one, and each shows no element as wanted. -/
def AllMissed (query : Query) (calls : List Exchange) : Prop :=
  ∃ looks, calls = looks.flatten ∧ looks ≠ [] ∧ ∀ x ∈ looks, Missed query x

/-- A sequence ends with the error of its first part, or as its second part does. -/
theorem ends_bind_cases {p : Script α} {f : α → Script β} {res : Except Error β}
    (h : Ends (p >>= f).run xs res) :
    (∃ e, res = .error e ∧ Ends p.run xs (.error e)) ∨
      ∃ ys zs a, xs = ys ++ zs ∧ Ends p.run ys (.ok a) ∧ Ends (f a).run zs res := by
  obtain ⟨ys, zs, first, rfl, ended, rest⟩ := ends_bind_iff.1 h
  cases first with
  | error e =>
    obtain ⟨rfl, rfl⟩ := ends_done_iff.1 rest
    exact .inl ⟨e, rfl, (List.append_nil ys).symm ▸ ended⟩
  | ok a => exact .inr ⟨ys, zs, a, rfl, ended, rest⟩

theorem ends_bind_ok {p : Script α} {f : α → Script β} {b : β}
    (h : Ends (p >>= f).run xs (.ok b)) :
    ∃ ys zs a, xs = ys ++ zs ∧ Ends p.run ys (.ok a) ∧ Ends (f a).run zs (.ok b) := by
  obtain ⟨e, failed, -⟩ | parts := ends_bind_cases h
  · cases failed
  · exact parts

theorem ends_command_ok {c : Command} {a : c.Answer}
    (h : Ends (Script.command c).run xs (.ok a)) : xs = [⟨.command c, .ok a⟩] := by
  obtain ⟨x, ys, rfl, rest⟩ := ends_ask_iff.1 h
  obtain ⟨rfl, rfl⟩ := ends_done_iff.1 rest
  rfl

theorem ends_command_bind {c : Command} {f : c.Answer → Script β} {b : β}
    (h : Ends (Script.command c >>= f).run xs (.ok b)) :
    ∃ a zs, xs = ⟨.command c, .ok a⟩ :: zs ∧ Ends (f a).run zs (.ok b) := by
  obtain ⟨ys, zs, a, rfl, asked, rest⟩ := ends_bind_ok h
  obtain rfl := ends_command_ok asked
  exact ⟨a, zs, rfl, rest⟩

theorem ends_ask_bind {r : Request} {f : r.Answer → Script β} {b : β}
    (h : Ends (Script.ask r >>= f).run xs (.ok b)) :
    ∃ a zs, xs = ⟨r, a⟩ :: zs ∧ Ends (f a).run zs (.ok b) := by
  obtain ⟨x, zs, rfl, rest⟩ := ends_ask_iff.1 h
  exact ⟨x, zs, rfl, rest⟩

/-- An element is not ready when it is not displayed, or displayed and not enabled. -/
theorem ends_holds_false {r : Readiness} {e : ElementId}
    (h : Ends (r.holds e).run xs (.ok false)) :
    xs = [⟨.command (.displayed e), .ok false⟩] ∨
      xs = [⟨.command (.displayed e), .ok true⟩, ⟨.command (.enabled e), .ok false⟩] := by
  cases r with
  | present => cases (ends_done_iff.1 h).2
  | visible => exact .inl (ends_command_ok h)
  | clickable =>
    obtain ⟨displayed, zs, rfl, rest⟩ := ends_command_bind h
    cases displayed with
    | false =>
      obtain ⟨rfl, -⟩ := ends_done_iff.1 rest
      exact .inl rfl
    | true =>
      obtain rfl := ends_command_ok rest
      exact .inr rfl

theorem missed_of_attempt {query : Query} {r : Readiness}
    (h : Ends (attempt query r).run xs (.ok none)) : Missed query xs := by
  obtain ⟨res, zs, rfl, rest⟩ := ends_command_bind h
  cases res with
  | none =>
    obtain ⟨rfl, -⟩ := ends_done_iff.1 rest
    exact .absent
  | some e =>
    obtain ⟨us, vs, ready, rfl, looked, last⟩ := ends_bind_ok rest
    cases ready with
    | true => cases (ends_done_iff.1 last).2
    | false =>
      obtain ⟨rfl, -⟩ := ends_done_iff.1 last
      obtain rfl | rfl := ends_holds_false looked
      · exact .hidden e
      · exact .disabled e

theorem Missed.callsIn_eq {query : Query} (h : Missed query xs) : callsIn xs = xs := by
  cases h <;> rfl

@[simp] theorem callsIn_append (xs ys : List Exchange) :
    callsIn (xs ++ ys) = callsIn xs ++ callsIn ys := List.filter_append ..

theorem AllMissed.cons {query : Query} {look calls : List Exchange} (missed : Missed query look)
    (h : AllMissed query calls) : AllMissed query (look ++ calls) := by
  obtain ⟨looks, rfl, -, all⟩ := h
  exact ⟨look :: looks, rfl, by simp, List.forall_mem_cons.2 ⟨missed, all⟩⟩

theorem AllMissed.of_missed {query : Query} {look : List Exchange} (missed : Missed query look) :
    AllMissed query look :=
  ⟨[look], by simp, by simp, by simpa using missed⟩

/-! ## Polling that has ended -/

/-- The exchanges of polling that has ended: attempts, and no command between them. -/
inductive Polls (query : Query) (r : Readiness) (deadline : Option Nat) :
    List Exchange → Option ElementId → Prop where
  | found {e : ElementId} {looked : List Exchange} :
      Ends (attempt query r).run looked (.ok (some e)) → Polls query r deadline looked (some e)
  | late {d : Nat} {looked aside : List Exchange} : deadline = some d →
      Ends (attempt query r).run looked (.ok none) → callsIn aside = [] →
      Polls query r deadline (looked ++ aside) none
  | again {res : Option ElementId} {looked aside later : List Exchange} :
      Ends (attempt query r).run looked (.ok none) → callsIn aside = [] →
      Polls query r deadline later res → Polls query r deadline (looked ++ (aside ++ later)) res

theorem polls_of_pollTimes {query : Query} {r : Readiness} {interval left : Nat}
    {deadline : Option Nat} {res : Option ElementId}
    (h : Ends (pollTimes query r interval deadline left).run xs (.ok res)) :
    Polls query r deadline xs res := by
  induction left generalizing xs with
  | zero =>
    obtain ⟨x, -⟩ := ends_ask_iff.1 h
    cases x
  | succ left ih =>
    obtain ⟨ys, zs, shown, rfl, looked, rest⟩ := ends_bind_ok h
    cases shown with
    | some e =>
      obtain ⟨rfl, same⟩ := ends_done_iff.1 rest
      cases same
      rw [List.append_nil]
      exact .found looked
    | none =>
      cases deadline with
      | none =>
        obtain ⟨x, vs, rfl, again⟩ := ends_ask_bind rest
        have pauses : callsIn [⟨.pause _, x⟩] = [] := rfl
        exact .again looked pauses (ih again)
      | some d =>
        obtain ⟨now, vs, rfl, judged⟩ := ends_ask_bind rest
        by_cases passed : d ≤ now
        · rw [if_pos passed] at judged
          obtain ⟨rfl, same⟩ := ends_done_iff.1 judged
          cases same
          exact .late rfl looked rfl
        · rw [if_neg passed] at judged
          obtain ⟨x, us, rfl, again⟩ := ends_ask_bind judged
          have pauses : callsIn [⟨.now, now⟩, ⟨.pause _, x⟩] = [] := rfl
          exact .again looked pauses (ih again)

theorem Polls.allMissed {query : Query} {r : Readiness} {deadline : Option Nat}
    (h : Polls query r deadline xs none) : AllMissed query (callsIn xs) := by
  generalize ended : none = res at h
  induction h with
  | found => cases ended
  | late _ looked calm =>
    have missed := missed_of_attempt looked
    rw [callsIn_append, calm, missed.callsIn_eq, List.append_nil]
    exact .of_missed missed
  | again looked calm _ ih =>
    have missed := missed_of_attempt looked
    rw [callsIn_append, callsIn_append, calm, missed.callsIn_eq]
    exact .cons missed (ih ended)

theorem missed_of_poll {s : Settings} {query : Query} {secs : Nat} {r : Readiness}
    (h : Ends (poll s query secs r).run xs (.ok none)) : AllMissed query (callsIn xs) := by
  obtain ⟨now, ys, rfl, rest⟩ := ends_ask_bind h
  have missed := (polls_of_pollTimes rest).allMissed
  exact missed

/-! ## Elements that are ready -/

/-- A look at the screen that shows an element as it is wanted. -/
def Readiness.sight (r : Readiness) (query : Query) (e : ElementId) : List Exchange :=
  ⟨.command (.find query), .ok (some e)⟩ :: match r with
    | .present => []
    | .visible => [⟨.command (.displayed e), .ok true⟩]
    | .clickable => [⟨.command (.displayed e), .ok true⟩, ⟨.command (.enabled e), .ok true⟩]

theorem ends_holds_true {query : Query} {r : Readiness} {e : ElementId}
    (h : Ends (r.holds e).run xs (.ok true)) :
    ⟨.command (.find query), .ok (some e)⟩ :: xs = r.sight query e := by
  cases r with
  | present =>
    obtain ⟨rfl, -⟩ := ends_done_iff.1 h
    rfl
  | visible =>
    obtain rfl := ends_command_ok h
    rfl
  | clickable =>
    obtain ⟨displayed, zs, rfl, rest⟩ := ends_command_bind h
    cases displayed with
    | false => cases (ends_done_iff.1 rest).2
    | true =>
      obtain rfl := ends_command_ok rest
      rfl

theorem sight_of_attempt {query : Query} {r : Readiness} {e : ElementId}
    (h : Ends (attempt query r).run xs (.ok (some e))) : xs = r.sight query e := by
  obtain ⟨res, zs, rfl, rest⟩ := ends_command_bind h
  cases res with
  | none => cases (ends_done_iff.1 rest).2
  | some e' =>
    obtain ⟨us, vs, ready, rfl, looked, last⟩ := ends_bind_ok rest
    cases ready with
    | false => cases (ends_done_iff.1 last).2
    | true =>
      obtain ⟨rfl, same⟩ := ends_done_iff.1 last
      obtain rfl : e = e' := by simpa using same
      simpa using ends_holds_true looked

/-- An attempt that has this sight returns the element. -/
theorem ends_attempt_sight (query : Query) (r : Readiness) (e : ElementId) :
    Ends (attempt query r).run (r.sight query e) (.ok (some e)) := by
  cases r with
  | present => exact .ask (.done _)
  | visible => exact .ask (.ask (.done _))
  | clickable => exact .ask (.ask (.ask (.done _)))

theorem Polls.sight_suffix {query : Query} {r : Readiness} {deadline : Option Nat} {e : ElementId}
    (h : Polls query r deadline xs (some e)) : r.sight query e <:+ xs := by
  generalize ended : some e = res at h
  induction h with
  | found looked =>
    cases ended
    exact sight_of_attempt looked ▸ List.suffix_rfl
  | late => cases ended
  | again _ _ _ ih =>
    exact (ih ended).trans ((List.suffix_append _ _).trans (List.suffix_append _ _))

/-- The element that polling returns was ready when it was looked at last. -/
theorem sight_of_poll {s : Settings} {query : Query} {secs : Nat} {r : Readiness} {e : ElementId}
    (h : Ends (poll s query secs r).run xs (.ok (some e))) : r.sight query e <:+ xs := by
  obtain ⟨now, ys, rfl, rest⟩ := ends_ask_bind h
  exact (polls_of_pollTimes rest).sight_suffix.trans (List.suffix_cons ..)

/-! ## Builtin actions -/

/-- The outcome says that an element is not there, or not as it is wanted. -/
def Outcome.saysMissing : Outcome → Bool
  | .passed _ => false
  | .failed message => "Element not ".toList.isPrefixOf message.toList

/-- An outcome that is not about a missing element. -/
abbrev Unmissed (o : Outcome) (_ : Option ElementId) : Prop := o.saysMissing = false

theorem ends_selecting {ps : Params} {f : Selector → Query → Script Outcome} {o : Outcome}
    (h : Ends (selecting ps f).run xs (.ok o)) :
    ∃ selector query, queryOf ps = .ok query ∧ Ends (f selector query).run xs (.ok o) := by
  obtain ⟨e, -, run⟩ | ⟨selector, query, resolved, run⟩ := run_selecting ps f
  · rw [run] at h
    cases (ends_done_iff.1 h).2
  · exact ⟨selector, query, resolved, run ▸ h⟩

theorem Follows.failed {last : Option ElementId} {message : String}
    (h : (Outcome.failed message).saysMissing = false) :
    Follows Unmissed last (Pure.pure (Outcome.failed message) : Script Outcome).run := .value h

theorem Follows.settle_bind (s : Settings) {wanted : α → Option ElementId → Prop}
    {last : Option ElementId} {f : Unit → Script α} (h : Follows wanted last (f ()).run) :
    Follows wanted last (settle s >>= f).run := by
  unfold settle
  split
  · exact .ask_bind (by simp) fun _ => h
  · exact h

namespace Behavior

variable {b : Behavior} {last : Option ElementId} (s : Settings) (ps : Params)

/-- An action about an element polls for it. Without one it fails, and with one it goes on. -/
theorem exists_polling (selects : b.selects = true) : ∃ f, b.script s ps = selecting ps f ∧
    ∀ selector query, ∃ secs r g, f selector query = poll s query secs r >>= g ∧
      (∃ m, g none = pure (.failed m)) ∧ ∀ e, Follows Unmissed (some e) (g (some e)).run := by
  cases b with
  | click =>
    refine ⟨_, rfl, fun selector query => ⟨_, _, _, rfl, ⟨_, rfl⟩, fun e => ?_⟩⟩
    exact .command_bind (.inr rfl) fun _ => .settle_bind s (.pure rfl)
  | typeText =>
    refine ⟨_, rfl, fun selector query => ⟨_, _, _, rfl, ⟨_, rfl⟩, fun e => ?_⟩⟩
    exact .command_bind (.inr rfl) fun _ => .settle_bind s (.pure rfl)
  | waitForElement =>
    exact ⟨_, rfl, fun selector query => ⟨_, _, _, rfl, ⟨_, rfl⟩, fun e => .pure rfl⟩⟩
  | assertText =>
    refine ⟨_, rfl, fun selector query => ⟨_, _, _, rfl, ⟨_, rfl⟩, fun e => ?_⟩⟩
    refine .command_bind (.inr rfl) fun actual => .ite (.pure rfl) (.failed ?_)
    simp only [Outcome.saysMissing, String.toList_append, List.append_assoc]
    rfl
  | launchApp | pressKey | screenshot | wait => cases selects

/-- An action about no element does not say that one is missing. -/
theorem unmissed_of_not_selects (other : b.selects = false) :
    Follows Unmissed last (b.script s ps).run := by
  cases b with
  | launchApp =>
    refine .command_bind (.inl rfl) fun _ => .ask_bind (by simp) fun _ => ?_
    refine .command_bind (.inl rfl) fun current => .ite (.pure rfl) (.failed ?_)
    simp only [Outcome.saysMissing, String.toList_append, List.append_assoc]
    rfl
  | pressKey =>
    rw [script, Action.pressKey]
    cases Key.code? (ps.str "key") with
    | none =>
      refine .failed ?_
      simp only [Outcome.saysMissing, String.toList_append, List.append_assoc]
      rfl
    | some code => exact .command_bind (.inl rfl) fun _ => .settle_bind s (.pure rfl)
  | screenshot =>
    -- Unfolded by hand: unification would evaluate the file name in the condition.
    rw [script, Action.screenshot]
    refine .ite (.failed ?_) (.ask_bind (by simp) fun made => ?_)
    · simp only [Outcome.saysMissing, String.toList_append, List.append_assoc]
      rfl
    · cases made with
      | error e =>
        refine .failed ?_
        simp only [Outcome.saysMissing, String.toList_append, List.append_assoc]
        rfl
      | ok u =>
        refine .command_bind (.inl rfl) fun png => .ask_bind (by simp) fun written => ?_
        cases written with
        | ok u => exact .pure rfl
        | error e =>
          refine .failed ?_
          simp only [Outcome.saysMissing, String.toList_append, List.append_assoc]
          rfl
  | wait =>
    refine .ite (.failed ?_) (.ask_bind (by simp) fun _ => .pure rfl)
    simp only [Outcome.saysMissing, String.toList_append]
    rfl
  | click | typeText | waitForElement | assertText => cases other

/-- The commands of an action are about the elements that it finds. -/
theorem follows (b : Behavior) : Follows (fun _ _ => True) last (b.script s ps).run := by
  cases selects : b.selects with
  | true =>
    obtain ⟨f, script, polls⟩ := exists_polling s ps selects
    rw [script]
    refine .selecting fun selector query => ?_
    obtain ⟨secs, r, g, shape, ⟨m, without⟩, goesOn⟩ := polls selector query
    rw [shape]
    refine .bind (.poll s query secs r) fun res l returned => ?_
    cases res with
    | none =>
      rw [without]
      exact .pure trivial
    | some e =>
      rw [returned e rfl]
      exact (goesOn e).mono fun _ _ _ => trivial
  | false => exact (unmissed_of_not_selects s ps selects).mono fun _ _ _ => trivial

variable {s ps}

/-- An action that says that an element is missing has looked for it. -/
theorem allMissed_of_ends {o : Outcome} (h : Ends (b.script s ps).run xs (.ok o))
    (missing : o.saysMissing = true) :
    ∃ query, queryOf ps = .ok query ∧ AllMissed query (callsIn xs) := by
  cases selects : b.selects with
  | false =>
    have quiet : Follows Unmissed none (b.script s ps).run := unmissed_of_not_selects s ps selects
    obtain ⟨_, unmissed⟩ := quiet.of_ends h
    cases unmissed.symm.trans missing
  | true =>
    obtain ⟨f, script, polls⟩ := exists_polling s ps selects
    rw [script] at h
    obtain ⟨selector, query, resolved, h⟩ := ends_selecting h
    obtain ⟨secs, r, g, shape, ⟨m, without⟩, goesOn⟩ := polls selector query
    rw [shape] at h
    obtain ⟨ys, zs, res, rfl, polled, rest⟩ := ends_bind_ok h
    cases res with
    | none =>
      rw [without] at rest
      obtain ⟨rfl, -⟩ := ends_done_iff.1 rest
      exact ⟨query, resolved, by simpa using missed_of_poll polled⟩
    | some e =>
      obtain ⟨_, unmissed⟩ := (goesOn e).of_ends rest
      cases unmissed.symm.trans missing

end Behavior

end UiRunner.Action
