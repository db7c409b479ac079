import Courier.Command.Arguments
import Courier.Exchange.Client
import Courier.Store.Connection

/-!
# What commands meet and do

A `World` is what a command meets outside the program: files, the environment, the answers
to its requests and the database. A `Report` is what a command does, in order, so that what
it sends, prints and records, and what comes first, can be told from its answer alone.
-/

namespace Courier.Command

/-- What a command meets. -/
structure World where
  /-- The content of a file. -/
  file : String → Option (List UInt8)
  /-- The value of a variable of the environment. -/
  env : String → Option String
  /-- What the requests to an address meet, in order. -/
  exchanges : Url → List Exchange
  /-- The database behind an address, or why it cannot be reached. -/
  reach : Url → Except String Store.Database
  /-- An id that is not in use. -/
  newId : Store.EventId
  now : Store.Timestamp

/-- The exchange of a request whose connection cannot be made, with the reason of the
network. -/
def unreachable (reason : String) (url : Url) : Exchange :=
  ⟨.failed (.send url.toText ["client error (Connect)", "tcp connect error", reason]), some 0⟩

/-- Why a command fails, outermost first. -/
structure Failure where
  message : String
  causes : List String
deriving DecidableEq, Repr

/-- How a command ends. -/
inductive Conclusion where
  | done
  | failed (f : Failure)
  /-- The command line asks for nothing that could be done. -/
  | stopped (s : Stop)
  /-- It waits for an answer that never comes. -/
  | waiting
deriving DecidableEq, Repr

/-- The code that a process exits with. -/
def Conclusion.exitCode : Conclusion → Nat
  | .done | .stopped .help => 0
  | .failed _ | .waiting => 1
  | .stopped .misuse => 2

/-- One thing that a command does. -/
inductive Effect where
  | request (r : Request)
  /-- It prints a text with a line end after it. -/
  | print (text : String)
  /-- It warns about a key that nobody reads. -/
  | warn (pointer : String)
  /-- It adds a row to the database. -/
  | record (row : Store.Row)

namespace Effect

/-- The text that is printed, if one is. -/
def printed? : Effect → Option String
  | .print text => some text
  | _ => none

/-- The pointer that is warned about, if one is. -/
def unused? : Effect → Option String
  | .warn pointer => some pointer
  | _ => none

end Effect

/-- What a command does. -/
structure Report where
  /-- All that it does to the outside, in order. -/
  effects : List Effect
  conclusion : Conclusion

namespace Report

/-- The report of a command that does nothing but end. -/
def ending (c : Conclusion) : Report :=
  ⟨[], c⟩

/-- The report of a command that fails before it does anything. -/
def failure (message : String) (causes : List String) : Report :=
  ending (.failed ⟨message, causes⟩)

/-- The report of a command that prints and succeeds. -/
def output (printed : List String) : Report :=
  ⟨printed.map .print, .done⟩

variable (r : Report)

/-- The report of a command that does something else first. -/
def after (effects : List Effect) : Report :=
  ⟨effects ++ r.effects, r.conclusion⟩

/-- The texts that a command prints, in order. -/
def printed : List String :=
  r.effects.filterMap (·.printed?)

/-- The pointers of keys that it warns about. -/
def unused : List String :=
  r.effects.filterMap (·.unused?)

/-- What a command writes to its output. -/
def outputText : String :=
  String.join (r.printed.map (· ++ "\n"))

end Report

end Courier.Command
