/-!
# Migrations

A schema grows by migrations, each applied once, in the order of their versions. The
database remembers which ones it had, and whether one was interrupted or has been changed
since; then no other is applied.
-/

namespace Courier.Store

/-- A migration. -/
structure Migration where
  version : Nat
  description : String
deriving DecidableEq, Repr

/-- The migrations of the store. -/
def migrations : List Migration :=
  [⟨1, "source events"⟩]

/-- What a database remembers of a migration. -/
structure Applied where
  version : Nat
  /-- Whether it is what it was when it was applied. -/
  intact : Bool
  /-- Whether it was applied to its end. -/
  complete : Bool
deriving DecidableEq, Repr

/-- Why migrations cannot be applied. -/
inductive MigrateError where
  | partially (version : Nat)
  /-- The database had a migration that there is no more. -/
  | missing (version : Nat)
  | modified (version : Nat)
deriving DecidableEq, Repr

/-- The wording of an error. -/
def MigrateError.message : MigrateError → String
  | .partially version => "migration " ++ toString version
      ++ " is partially applied; fix and remove row from `_sqlx_migrations` table"
  | .missing version => "migration " ++ toString version
      ++ " was previously applied but is missing in the resolved migrations"
  | .modified version => "migration " ++ toString version
      ++ " was previously applied but has been modified"

/-- The migrations still to be applied, if those before can stay. -/
def pending (known : List Migration) (applied : List Applied) :
    Except MigrateError (List Migration) :=
  match applied.find? (!·.complete) with
  | some a => .error (.partially a.version)
  | none =>
    match applied.find? fun a => !known.any (·.version = a.version) with
    | some a => .error (.missing a.version)
    | none =>
      match applied.find? (!·.intact) with
      | some a => .error (.modified a.version)
      | none => .ok (known.filter fun m => !applied.any (·.version = m.version))

end Courier.Store
