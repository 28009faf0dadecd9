import SdpRelay.ProblemFile.Fault

namespace SdpRelay

/-!
# Print targets

Where diagnostic text goes. Text for a file waits in a buffer of limited size
until it is flushed, the target is changed, or the buffer is too small for it.
The printer also remembers what its surroundings received: the stream, and the
file opened last.

A printer shows where text goes that its target takes. Whether a target takes a
text is decided outside; an outlet holds these decisions for one target.
-/

/-- A destination of diagnostic text. -/
inductive PrintTarget where
  | stdout
  | stderr
  /-- A file, with the text that has not reached it yet. -/
  | file (pending : String)
  /-- Text kept in memory. -/
  | buffer (text : String)
  | stream
  | discard
  deriving Repr, DecidableEq

/-- The name of a target in messages. -/
def PrintTarget.describe : PrintTarget → String
  | stdout => "PrintTarget(stdout)"
  | stderr => "PrintTarget(stderr)"
  | file _ => "PrintTarget(file)"
  | buffer text =>
      "PrintTarget(buffer, " ++ toString text.utf8ByteSize ++ " bytes)"
  | stream => "PrintTarget(stream)"
  | discard => "PrintTarget(discard)"

/-- A print target with what its surroundings have received. -/
structure Printer where
  target : PrintTarget
  /-- Text that the stream has received. -/
  streamed : String
  /-- How often the stream has been flushed. -/
  streamFlushes : Nat
  /-- Content of the file opened last. -/
  fileContent : Option String
  deriving Repr, DecidableEq

namespace Printer

/-- A printer to standard output. -/
def standard : Printer :=
  {
    target := .stdout
    streamed := ""
    streamFlushes := 0
    fileContent := none
  }

/-- Bytes that fit into the buffer of a file. -/
def fileBufferSize : Nat := 8192

/-- Text reaches the file opened last. -/
def appendToFile
    (printer : Printer)
    (text : String) :
    Printer :=
  { printer with fileContent := printer.fileContent.map (· ++ text) }

/-- Push waiting text to where it belongs. -/
def flush (printer : Printer) : Printer :=
  match printer.target with
  | .file pending =>
      { printer.appendToFile pending with target := .file "" }
  | .stream =>
      { printer with streamFlushes := printer.streamFlushes + 1 }
  | _ => printer

/-- Change the target after flushing the old one. -/
def redirect
    (printer : Printer)
    (target : PrintTarget) :
    Printer :=
  { printer.flush with target := target }

/-- Continue in a new empty file. -/
def redirectToFile (printer : Printer) : Printer :=
  { printer.redirect (.file "") with fileContent := some "" }

/-- Text for a file: it waits if it fits, and text as large as the whole buffer does not wait. -/
def writeFile
    (printer : Printer)
    (pending text : String) :
    Printer :=
  let room := fileBufferSize - pending.utf8ByteSize
  if text.utf8ByteSize < room then
    { printer with target := .file (pending ++ text) }
  else
    let (cleared, waiting) :=
      if room < text.utf8ByteSize then
        (printer.appendToFile pending, "")
      else
        (printer, pending)
    if fileBufferSize ≤ text.utf8ByteSize then
      { cleared.appendToFile text with target := .file waiting }
    else
      { cleared with target := .file (waiting ++ text) }

/-- Print text. -/
def write
    (printer : Printer)
    (text : String) :
    Printer :=
  match printer.target with
  | .file pending => printer.writeFile pending text
  | .buffer old => { printer with target := .buffer (old ++ text) }
  | .stream => { printer with streamed := printer.streamed ++ text }
  | _ => printer

/-- The text kept in memory, or the sentence that there is none. -/
def bufferedText (printer : Printer) : Except String String :=
  match printer.target with
  | .buffer text => .ok text
  | other =>
      .error ("diagnostics are not buffered (" ++ other.describe ++ ")")

end Printer

/-- A print target as its user meets it. Standard output, files and streams can refuse a text. -/
structure Outlet where
  /-- The faults of the prints, counted since the target was chosen; none where one succeeds. -/
  refusals : Nat → Option FileFault
  /-- How often has been printed. -/
  prints : Nat

namespace Outlet

/-- A target that takes every text, as one in memory does. -/
def accepting : Outlet :=
  { refusals := fun _ => none, prints := 0 }

/-- The fault of the next print, if it fails. -/
def refusal? (outlet : Outlet) : Option FileFault :=
  outlet.refusals outlet.prints

/-- The outlet after one more print, successful or not. -/
def afterPrint (outlet : Outlet) : Outlet :=
  { outlet with prints := outlet.prints + 1 }

end Outlet

end SdpRelay
