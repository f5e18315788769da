import RouteBinding.CompileError

/-!
# Steps of a compilation

A step reads and changes a state and gives a value, or halts. What a step has changed stays changed
when it halts. A step that halts with an error may be attempted, so that the error can be collected
and the compilation go on; a breakdown ends the whole run.
-/

namespace RouteBinding

/-- A fault of the input that no error describes: the run breaks off. -/
inductive Breakdown
  | documentNotMapping
  | componentsNotMapping
  | keyNotText
  | unhashableKey
  | endlessRoutes
  | unreadableText
  | badAddress
  | unwritableFile
  | nameTooLong
  | unwritableData
  | numberTooLong
  | badMarkup
  | invalidValue
  | unknownWord (word : String)
deriving DecidableEq, Inhabited

/-- How a step of a compilation stops: with an error, which is collected, or with a breakdown,
which ends the whole run. -/
inductive Halt
  | error (e : CompileError)
  | breakdown (b : Breakdown)
deriving DecidableEq, Inhabited

/-- The halt with an error that shows a value: a breakdown if the value has no text. -/
def Halt.showing (e : String → CompileError) : Option String → Halt
  | some shown => .error (e shown)
  | none => .breakdown .numberTooLong

/-- What is made of the text of a value, if it has one. -/
def spelled {ε α : Type} (cause : Breakdown → ε) : Option α → Except ε α
  | some a => .ok a
  | none => .error (cause .numberTooLong)

/-- A step over a state. -/
abbrev Step (σ α : Type) := ExceptT Halt (StateM σ) α

namespace Step

/-- Halts with an error. -/
def fail {σ α : Type} (e : CompileError) : Step σ α :=
  throw (.error e)

/-- Halts with a breakdown. -/
def breakOff {σ α : Type} (b : Breakdown) : Step σ α :=
  throw (.breakdown b)

/-- Halts with an error that shows a value, or breaks off if the value has no text. -/
def failShowing {σ α : Type} (e : String → CompileError) (shown : Option String) : Step σ α :=
  throw (Halt.showing e shown)

/-- The value of an outcome that is known already. -/
def ofExcept {σ α : Type} : Except CompileError α → Step σ α
  | .ok a => return a
  | .error e => fail e

/-- An outcome that is known already, as a step. -/
def ofOutcome {σ α : Type} (outcome : Except Halt α) : Step σ α :=
  fun s => (outcome, s)

/-- Runs a step and gives its error, if it halts with one. -/
def attempt {σ α : Type} (step : Step σ α) : Step σ (Except CompileError α) :=
  fun s =>
    match step s with
    | (.ok a, s) => (.ok (.ok a), s)
    | (.error (.error e), s) => (.ok (.error e), s)
    | (.error (.breakdown b), s) => (.error (.breakdown b), s)

/-- Runs a step over a part of a larger state. -/
def zoom {σ τ α : Type} (part : σ → τ) (update : τ → σ → σ) (step : Step τ α) : Step σ α :=
  fun s =>
    match step (part s) with
    | (outcome, t) => (outcome, update t s)

end Step

end RouteBinding
