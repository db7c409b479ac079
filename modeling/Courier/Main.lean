import Courier.Command.Run

/-!
# The program

Reads what a command may need, carries it out and shows the report. The program has no
network of its own, so every connection fails.
-/

namespace Courier.Main

open Courier.Command

/-- The reason of every failed connection. -/
def noNetwork : String := "Network is unreachable (os error 101)"

/-- The content of a file. -/
def content? (path : String) : IO (String × Option (List UInt8)) := do
  try
    let bytes ← IO.FS.readBinFile path
    return (path, some bytes.toList)
  catch _ => return (path, none)

/-- The files that an invocation names. -/
def paths : Invocation → List String
  | .send configs .. => configs
  | .configHash paths _ => paths
  | .dbStatus | .dbMigrate => []

/-- The names of variables that may be looked up: that of the database, those that the
settings ask for, and every word of the local file. -/
def names (file : String → Option (List UInt8)) (paths : List String) : List String :=
  let local_ := match file variablesFile with
    | none => []
    | some bytes =>
      ((String.ofList (Variables.validText bytes)).split fun c => !(c.isAlphanum || c == '_')).toList.map
        (·.copy)
  let asked := match Config.ofPaths file paths with
    | .error _ => []
    | .ok config => Settings.asked config.value
  Store.addressVariable :: asked ++ local_

/-- The world of an invocation. -/
def world (invocation : Invocation) : IO World := do
  let files ← (variablesFile :: paths invocation).mapM content?
  let file (path : String) : Option (List UInt8) := (Entries.get? path files).join
  let env ← (names file (paths invocation)).mapM fun name => return (name, ← IO.getEnv name)
  return {
    file := file
    env := fun name => (Entries.get? name env).join
    exchanges := fun url => [unreachable noNetwork url]
    reach := fun _ => .error noNetwork
    newId := ⟨"00000000-0000-4000-8000-000000000000"⟩
    now := ⟨0⟩ }

/-- The text of a failure with its causes. -/
def failureText (f : Failure) : String :=
  let causes := f.causes.map ("    " ++ ·)
  "\n".intercalate (("Error: " ++ f.message) :: (if causes.isEmpty then [] else "" :: "Caused by:" :: causes))

end Courier.Main

open Courier Courier.Command in
/-- Carries the command line out. -/
def main (args : List String) : IO UInt32 := do
  let report ← match Invocation.ofArguments args with
    | .error s => pure (Report.ending (.stopped s))
    | .ok invocation => pure (run (← Main.world invocation) args)
  IO.print report.outputText
  for pointer in report.unused do
    IO.eprintln ("WARN unused config key pointer=" ++ pointer)
  match report.conclusion with
  | .failed f => IO.eprintln (Main.failureText f)
  | .stopped s => IO.eprintln (if s = .help then "see the documentation" else "wrong arguments")
  | _ => pure ()
  return UInt32.ofNat report.conclusion.exitCode
