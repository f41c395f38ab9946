/-
TokenAlignment/Run/Config.lean

The settings of a run: defaults, and the overrides of the environment.

Two variables are read, the time budget and the size limit, in this order; one
that is set but holds no natural number is an error.
-/
import TokenAlignment.Decimal.Natural
import TokenAlignment.Language

namespace TokenAlignment

/-- The settings of one run. -/
structure EvalConfig where
  /-- The time budget of a document, in milliseconds. -/
  timeoutMillis : Nat
  /-- Longer documents are skipped. -/
  maxDocumentBytes : Nat
  /-- Worker threads; zero leaves the choice to the machine. -/
  threads : Nat
  /-- How many results may wait for the summary. -/
  channelCapacity : Nat
  /-- Documents in other languages are skipped. -/
  languages : List Language
  deriving DecidableEq, Repr

/-- A variable of the environment that is set but of no use. -/
structure EnvironmentError where
  variableName : String
  value : String
  deriving DecidableEq, Repr

namespace EnvironmentError

/-- The wording of the error. -/
def message (e : EnvironmentError) : String :=
  s!"invalid value `{e.value}` for {e.variableName}: expected a non-negative integer"

end EnvironmentError

namespace EvalConfig

/-- The variable with the time budget in milliseconds. -/
def timeoutVariable : String := "TOKENSCORE_TIMEOUT_MS"

/-- The variable with the size limit in bytes. -/
def maxBytesVariable : String := "TOKENSCORE_MAX_BYTES"

/-- The settings unless something else is said. -/
def standard : EvalConfig where
  timeoutMillis := 10000
  maxDocumentBytes := 256 * 1024
  threads := 0
  channelCapacity := 1024
  languages := Language.all

/-- The number that a variable holds, if it is set. -/
def readVariable (lookup : String → Option String) (name : String) :
    Except EnvironmentError (Option Nat) :=
  match lookup name with
  | none => .ok none
  | some value =>
    match Natural.read (Text.trim value.toList) with
    | .ok n => .ok (some n.toNat)
    | .error _ => .error ⟨name, value⟩

/-- The settings with the overrides of an environment. -/
def withEnvironment (config : EvalConfig) (lookup : String → Option String) :
    Except EnvironmentError EvalConfig := do
  let timeout ← readVariable lookup timeoutVariable
  let maxBytes ← readVariable lookup maxBytesVariable
  return { config with
    timeoutMillis := timeout.getD config.timeoutMillis
    maxDocumentBytes := maxBytes.getD config.maxDocumentBytes }

/-- Whether documents in the language are scored. -/
def accepts (config : EvalConfig) (lang : Language) : Bool :=
  config.languages.contains lang

end EvalConfig

end TokenAlignment
