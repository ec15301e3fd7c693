import UiRunner.Console.Catalog
import UiRunner.Console.Doctor
import UiRunner.Console.Init
import UiRunner.Console.RunCase

/-!
# Commands

The commands of the program, and what each of them does with given settings.
-/
namespace UiRunner.Console

inductive Command where
  | run (options : RunOptions)
  | actions (json : Bool)
  | doctor (json : Bool)
  | init (options : InitOptions)
deriving DecidableEq, Repr

variable {σ : Type}

def Command.perform (h : Host σ) (s : Settings) : Command → Desk σ → Verdict × Desk σ
  | .run o, d => runCase h s o d
  | .actions json, d => (.ok true, d.print (shownCatalog h.paint json .builtin))
  | .doctor json, d => Console.doctor h s json d
  | .init o, d => Console.init h s o d

end UiRunner.Console
