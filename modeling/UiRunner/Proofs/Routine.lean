import Mathlib.Data.List.Basic
import UiRunner.Routine

/-!
# Endings and requests of routines

`Ends` and `Reaches` are taken apart along the structure of a routine. No ending continues
another one, so a trace tells where one part of a routine ends and the next one begins. `Asks`
bounds what a routine can ever ask for.
-/
namespace UiRunner.Routine

variable {I : Interface} {α β : Type}

@[simp] theorem ends_done_iff {a b : α} {xs : List (Exchange I)} :
    Ends (.done a : Routine I α) xs b ↔ xs = [] ∧ b = a := by
  constructor
  · rintro ⟨⟩
    exact ⟨rfl, rfl⟩
  · rintro ⟨rfl, rfl⟩
    exact .done _

@[simp] theorem ends_ask_iff {r : I.Request} {next : I.Answer r → Routine I α}
    {xs : List (Exchange I)} {b : α} :
    Ends (.ask r next) xs b ↔ ∃ x ys, xs = ⟨r, x⟩ :: ys ∧ Ends (next x) ys b := by
  constructor
  · rintro ⟨⟩
    exact ⟨_, _, rfl, ‹_›⟩
  · rintro ⟨x, ys, rfl, h⟩
    exact .ask h

/-- The two parts of a sequence end one after the other. -/
theorem ends_bind_iff {p : Routine I α} {f : α → Routine I β} {xs : List (Exchange I)} {b : β} :
    Ends (p >>= f) xs b ↔ ∃ ys zs a, xs = ys ++ zs ∧ Ends p ys a ∧ Ends (f a) zs b := by
  induction p generalizing xs with
  | done a => simp
  | ask r next ih =>
    simp only [ask_bind, ends_ask_iff, ih]
    constructor
    · rintro ⟨x, _, rfl, ys, zs, a, rfl, hp, hf⟩
      exact ⟨⟨r, x⟩ :: ys, zs, a, rfl, ⟨x, ys, rfl, hp⟩, hf⟩
    · rintro ⟨_, zs, a, rfl, ⟨x, ys, rfl, hp⟩, hf⟩
      exact ⟨x, ys ++ zs, rfl, ys, zs, a, rfl, hp, hf⟩

/-- No ending of a routine continues another one. -/
theorem Ends.unique {p : Routine I α} {xs ys us vs : List (Exchange I)} {a b : α}
    (h : Ends p xs a) (g : Ends p ys b) (same : xs ++ us = ys ++ vs) : xs = ys ∧ a = b := by
  induction h generalizing ys with
  | done a =>
    obtain ⟨rfl, rfl⟩ := ends_done_iff.1 g
    exact ⟨rfl, rfl⟩
  | ask _ ih =>
    obtain ⟨x, zs, rfl, hz⟩ := ends_ask_iff.1 g
    simp only [List.cons_append, List.cons.injEq, Exchange.mk.injEq, heq_eq_eq, true_and] at same
    obtain ⟨rfl, tails⟩ := same
    obtain ⟨rfl, rfl⟩ := ih hz tails
    exact ⟨rfl, rfl⟩

theorem Reaches.ends {p q : Routine I α} {xs ys : List (Exchange I)} {a : α}
    (h : Reaches p xs q) (g : Ends q ys a) : Ends p (xs ++ ys) a := by
  induction h with
  | here p => exact g
  | ask _ ih => exact .ask (ih g)

theorem Reaches.snoc {p : Routine I α} {xs : List (Exchange I)} {r : I.Request}
    {next : I.Answer r → Routine I α} (h : Reaches p xs (.ask r next)) (x : I.Answer r) :
    Reaches p (xs ++ [⟨r, x⟩]) (next x) := by
  generalize hq : Routine.ask r next = q at h
  induction h with
  | here p =>
    subst hq
    exact .ask (.here _)
  | ask _ ih => exact .ask (ih hq)

/-- A sequence has come to a point of its first part, or that has ended and the second part has
come there. -/
theorem reaches_bind_iff {p : Routine I α} {f : α → Routine I β} {xs : List (Exchange I)}
    {q : Routine I β} : Reaches (p >>= f) xs q ↔
      (∃ p', Reaches p xs p' ∧ q = p' >>= f) ∨
        ∃ ys zs a, xs = ys ++ zs ∧ Ends p ys a ∧ Reaches (f a) zs q := by
  induction p generalizing xs with
  | done a =>
    refine ⟨fun h => .inr ⟨[], xs, a, rfl, .done a, h⟩, ?_⟩
    rintro (⟨p', h, rfl⟩ | ⟨ys, zs, b, rfl, h, g⟩)
    · cases h
      exact .here _
    · cases h
      exact g
  | ask r next ih =>
    constructor
    · rintro (_ | @⟨_, _, x, tail, _, h⟩)
      · exact .inl ⟨_, .here _, rfl⟩
      · obtain ⟨p', g, rfl⟩ | ⟨ys, zs, a, rfl, g, k⟩ := ih x |>.1 h
        · exact .inl ⟨p', .ask g, rfl⟩
        · exact .inr ⟨_ :: ys, zs, a, rfl, .ask g, k⟩
    · rintro (⟨p', h, rfl⟩ | ⟨ys, zs, a, rfl, h, k⟩)
      · cases h with
        | here => exact .here _
        | ask h => exact .ask ((ih _).2 (.inl ⟨p', h, rfl⟩))
      · cases h with
        | ask h => exact .ask ((ih _).2 (.inr ⟨_, zs, a, rfl, h, k⟩))

/-- Where every request has an answer, every routine has an ending. -/
theorem exists_ends (answerable : ∀ r, Nonempty (I.Answer r)) (p : Routine I α) :
    ∃ xs a, Ends p xs a := by
  induction p with
  | done a => exact ⟨[], a, .done a⟩
  | ask r next ih =>
    obtain ⟨x⟩ := answerable r
    obtain ⟨xs, a, h⟩ := ih x
    exact ⟨_, a, .ask h⟩

/-- Every request that the routine can come to satisfies `P`, whatever the answers are. -/
def Asks (P : I.Request → Prop) : Routine I α → Prop
  | .done _ => True
  | .ask r next => P r ∧ ∀ x, Asks P (next x)

theorem Asks.bind {P : I.Request → Prop} {p : Routine I α} {f : α → Routine I β}
    (h : Asks P p) (g : ∀ a, Asks P (f a)) : Asks P (p >>= f) := by
  induction p with
  | done a => exact g a
  | ask r next ih => exact ⟨h.1, fun x => ih x (h.2 x)⟩

theorem Asks.mono {P Q : I.Request → Prop} {p : Routine I α} (h : Asks P p)
    (le : ∀ r, P r → Q r) : Asks Q p := by
  induction p with
  | done a => trivial
  | ask r next ih => exact ⟨le r h.1, fun x => ih x (h.2 x)⟩

theorem Ends.asks {P : I.Request → Prop} {p : Routine I α} {xs : List (Exchange I)} {a : α}
    (h : Ends p xs a) (bound : Asks P p) : ∀ x ∈ xs, P x.request := by
  induction h with
  | done a => simp
  | ask _ ih =>
    intro x hx
    obtain rfl | hx := List.mem_cons.1 hx
    · exact bound.1
    · exact ih (bound.2 _) x hx

/-- What was asked on the way to a point, and what can be asked from there. -/
theorem Reaches.asks {P : I.Request → Prop} {p q : Routine I α} {xs : List (Exchange I)}
    (h : Reaches p xs q) (bound : Asks P p) : (∀ x ∈ xs, P x.request) ∧ Asks P q := by
  induction h with
  | here p => exact ⟨by simp, bound⟩
  | ask _ ih =>
    obtain ⟨before, after⟩ := ih (bound.2 _)
    exact ⟨List.forall_mem_cons.2 ⟨bound.1, before⟩, after⟩

/-- A bound on what is asked along every ending bounds what is asked at all. -/
theorem asks_of_ends (answerable : ∀ r, Nonempty (I.Answer r)) {P : I.Request → Prop}
    {p : Routine I α} (bound : ∀ xs a, Ends p xs a → ∀ x ∈ xs, P x.request) : Asks P p := by
  induction p with
  | done a => trivial
  | ask r next ih =>
    refine ⟨?_, fun x => ih x fun xs a h y hy =>
      bound _ a (.ask h) y (List.mem_cons_of_mem _ hy)⟩
    obtain ⟨x⟩ := answerable r
    obtain ⟨xs, a, h⟩ := exists_ends answerable (next x)
    exact bound _ a (.ask h) ⟨r, x⟩ List.mem_cons_self

end UiRunner.Routine
