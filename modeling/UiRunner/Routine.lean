/-!
# Routines

A routine is a tree of requests: it has ended with a value, or it asks for something and goes on
with the answer. What requests mean is left to whoever runs the routine, so the same routine can
be run on a real device, on a scripted one, beside other routines, or against any answers at all.
-/
namespace UiRunner

/-- What may be asked for, and what each request is answered with. -/
structure Interface where
  Request : Type
  Answer : Request → Type

inductive Routine (I : Interface) (α : Type) where
  | done (a : α)
  | ask (r : I.Request) (next : I.Answer r → Routine I α)

namespace Routine

variable {I : Interface} {α β γ : Type}

def bind : Routine I α → (α → Routine I β) → Routine I β
  | .done a, f => f a
  | .ask r next, f => .ask r fun x => (next x).bind f

/-- One request, and its answer. -/
def request (r : I.Request) : Routine I (I.Answer r) := .ask r .done

instance : Monad (Routine I) where
  pure := .done
  bind := bind

@[simp] theorem pure_eq (a : α) : (pure a : Routine I α) = .done a := rfl
@[simp] theorem done_bind (a : α) (f : α → Routine I β) : Routine.done a >>= f = f a := rfl
@[simp] theorem ask_bind (r : I.Request) (next : I.Answer r → Routine I α)
    (f : α → Routine I β) : Routine.ask r next >>= f = .ask r fun x => next x >>= f := rfl

theorem bind_done (p : Routine I α) : p >>= Routine.done = p := by
  induction p with
  | done a => rfl
  | ask r next ih => simp only [ask_bind, ih]

theorem bind_assoc (p : Routine I α) (f : α → Routine I β) (g : β → Routine I γ) :
    p >>= f >>= g = p >>= fun a => f a >>= g := by
  induction p with
  | done a => rfl
  | ask r next ih => simp only [ask_bind, ih]

instance : LawfulMonad (Routine I) :=
  LawfulMonad.mk' _ (fun p => bind_done p) (fun _ _ => rfl) bind_assoc

/-- One exchange of a routine: a request and the answer it got. -/
structure Exchange (I : Interface) where
  request : I.Request
  answer : I.Answer request

/-- The routine, given these answers in order, ends with this value. -/
inductive Ends : Routine I α → List (Exchange I) → α → Prop where
  | done (a : α) : Ends (.done a) [] a
  | ask {r next x tail a} : Ends (next x) tail a → Ends (.ask r next) (⟨r, x⟩ :: tail) a

/-- The routine, given these answers in order, has come to this point. -/
inductive Reaches : Routine I α → List (Exchange I) → Routine I α → Prop where
  | here (p : Routine I α) : Reaches p [] p
  | ask {r next x tail q} : Reaches (next x) tail q → Reaches (.ask r next) (⟨r, x⟩ :: tail) q

end Routine

end UiRunner
