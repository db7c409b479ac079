import Courier.Command.Send
import Courier.Command.Variables
import Courier.Config.Unused

/-!
# Commands

`Command.run` carries a command line out. Before anything else the variables of a local
file are added to the environment.
-/

namespace Courier.Command

/-- The file with local variables. -/
def variablesFile : String := ".env.local"

/-- The world with the local variables in its environment. -/
def World.withVariables (w : World) : World :=
  match w.file variablesFile with
  | none => w
  | some bytes => { w with env := Variables.extend w.env bytes }

/-- The command that shows the digest and the canonical text of a configuration. -/
def configHash (w : World) (paths : List String) (failUnused : Bool) : Report :=
  match Config.ofPaths w.file paths with
  | .error e => .failure e.message []
  | .ok config =>
    let policy : Config.UnusedPolicy := if failUnused then .fail else .warn
    match Config.checkUnused policy Config.consumedPointers config.value with
    | .error e => .failure e.message []
    | .ok report =>
      (Report.output ["config_hash=" ++ config.hash, config.canonicalText]).after
        (report.unused.toList.map .warn)

/-- A command on the database. -/
def onDatabase (w : World) (command : Store.Database → Report) : Report :=
  match Store.connect w.env w.reach with
  | .error e => .failure e.message e.reasons
  | .ok d => command d

/-- The word for a truth value. -/
def flagWord (b : Bool) : String :=
  if b then "true" else "false"

/-- The command that shows the state of the database. -/
def dbStatus (d : Store.Database) : Report :=
  .output ["db_ok=" ++ flagWord d.status.ok ++ " has_source_events_table="
    ++ flagWord d.status.hasTable]

/-- The command that applies the migrations. -/
def dbMigrate (d : Store.Database) : Report :=
  match d.migrate with
  | .error e => .failure "db migrate failed" [e.message]
  | .ok _ => .output ["migrations_applied=true"]

/-- Carries an invocation out. -/
def perform (w : World) : Invocation → Report
  | .send configs request recording => send w configs request recording
  | .configHash paths failUnused => configHash w paths failUnused
  | .dbStatus => onDatabase w dbStatus
  | .dbMigrate => onDatabase w dbMigrate

/-- Carries the words of a command line out. -/
def run (w : World) (words : List String) : Report :=
  match Invocation.ofArguments words with
  | .error s => .ending (.stopped s)
  | .ok invocation => perform w.withVariables invocation

end Courier.Command
