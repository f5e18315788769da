import RouteBinding.CompileError
import RouteBinding.Config.Edit
import RouteBinding.Config.Error
import RouteBinding.Document.Error
import RouteBinding.Host.Basic
import RouteBinding.Route.Basic

/-!
# Failures

Every way in which an action on a host fails, with its message and the exit code of a command that
fails so. An action changes the host; what it has changed stays changed when it fails.
-/

namespace RouteBinding

/-- Why an action fails. -/
inductive Failure
  | document (e : DocumentError)
  | route (e : RouteError)
  | config (e : ConfigError)
  | compile (errors : List CompileError)
  | warnings (count : Nat)
  | unknownType (name : String)
  | setting (key : String) (fault : EditFault)
  | breakdown (b : Breakdown)
deriving DecidableEq, Inhabited

/-- What is wrong with the change of a setting. -/
def EditFault.message (key : String) : EditFault → String
  | noSection => "Invalid config key: " ++ key
  | noLeaf => "Unknown config key: " ++ key
  | invalid _ => "Validation error: " ++ readerDetail

namespace Failure

/-- What a failure says. A breakdown says nothing of its own. -/
def message : Failure → String
  | document e => e.message
  | route e => e.message
  | config e => e.message
  | compile errors => failureMessage errors
  | warnings count => s!"{count} warning(s) reported and fail_on_warnings is enabled."
  | unknownType name => "No type named '" ++ name ++ "'"
  | setting key fault => fault.message key
  | breakdown _ => ""

/-- What a command says about a failure: every error of a compilation and then their count, and one
message in any other case. -/
def lines : Failure → List String
  | compile errors => errors.map (·.message) ++ [failureHeading errors.length ++ "."]
  | e => [e.message]

/-- The exit code of a command that fails so. -/
def exitCode : Failure → Nat
  | document _ => 7
  | route _ => 2
  | config _ => 1
  | compile _ => 8
  | warnings _ => 1
  | unknownType _ => 2
  | setting .. => 2
  | breakdown _ => 1

end Failure

/-- What is done on a host. -/
abbrev Action (α : Type) := ExceptT Failure (StateM Host) α

namespace Action

/-- Fails for a cause. -/
def fail {α : Type} (e : Failure) : Action α :=
  throw e

/-- Changes the host, or breaks down. -/
def change (step : Host → Except Breakdown Host) : Action Unit := do
  match step (← get) with
  | .ok h => set h
  | .error b => throw (.breakdown b)

/-- The value of an outcome that is known already. -/
def ofExcept {ε α : Type} (cause : ε → Failure) : Except ε α → Action α
  | .ok a => return a
  | .error e => throw (cause e)

end Action

end RouteBinding
