import SdpRelay.ProblemFile.Parser
import SdpRelay.ProblemFile.Writer
import SdpRelay.Session.Parameters

namespace SdpRelay

/-!
# Saving and restoring sessions

A session is saved as its stored problem and its settings. A session that is
restored accepts the settings first and then loads the problem.
-/

/-- The serialiser that writes records with named members, for numbers as given. -/
def FileNumbers.serialiser
    {α : Type}
    [Scalar α]
    (numbers : FileNumbers α) :
    Serialiser α where
  writeNumber := numbers.write
  readNumber := fun text =>
    match ProblemFile.numberValue numbers text with
    | .ok (value, []) => some value
    | _ => none
  encode := ProblemFile.encode numbers
  decode := ProblemFile.decode numbers

/-- The files of the programs. -/
def doubleFile : FileFormat Float :=
  doubleNumbers.serialiser.doubleFormat

namespace Session

variable {σ τ α : Type} [Scalar α]

/-- The text of the file that a session is saved to. -/
def save
    (session : Session σ τ α)
    (format : FileFormat α) :
    List Char :=
  format.write
    { program := session.store.toProgram, settings := session.settings }

/-- The session that a file was saved from, around a new solver. -/
def restore
    [Solver σ α]
    (format : FileFormat α)
    (text : List Char)
    (sentinel : α)
    (solver : σ)
    (oneVariable : τ) :
    Except (Fault α) (Session σ τ α) := do
  let file ← (format.read text).mapError .file
  let session ← create sentinel file.settings solver oneVariable
  match load file.program session with
  | .ok _ restored => return restored
  | .error fault _ => throw fault

end Session

end SdpRelay
