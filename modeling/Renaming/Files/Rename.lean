import Renaming.Access.Document
import Renaming.Files.Writer
import Renaming.Mappings.Load

/-!
# Loading and renaming files

`renameFile` writes what it makes of the input into a temporary file beside the output and moves
that over the output only when nothing has failed. If something fails before, the temporary file is
removed. A failure to move it holds the temporary file, which stays until the failure is dropped
(`dropFailure`).
-/

namespace Renaming.Files

variable {m : Type → Type} [Monad m] [Disk m]

def failure (context : Context) (error : SystemError) : Failure := ⟨[context], .io (.system error)⟩

def loadFile (settings : Settings) (path : Text) :
    m (Traced Failure (Dictionary × RowTally)) := do
  match ← Disk.source path with
  | .error error => return Traced.fail (failure (.openingMappings path) error)
  | .ok source =>
    return (Mappings.load settings source).mapError (Failure.within (.readingMappings path))

/-- Renames lines, the first of which has the given number, and writes each of them, until one
cannot be read, renamed or written. -/
def renameLines (settings : Settings) (d : Dictionary) (fault : Option Fault) :
    Writer (Disk.Temporary m) → Nat → List Text →
      m (Traced Failure (LineTally × Writer (Disk.Temporary m)))
  | writer, number, [] =>
    match fault with
    | none => return Traced.pure (.zero, writer)
    | some fault => return Traced.fail ⟨[.readingLine number], .io fault⟩
  | writer, number, line :: rest => do
    let ⟨events, renamed⟩ := Access.renameLine settings d number line
    match renamed with
    | .error failed => return ⟨events, .error (failed.within (.inLine number))⟩
    | .ok new =>
      match ← writer.writeLine new with
      | .error error => return ⟨events, .error (failure (.writingLine number) error)⟩
      | .ok writer =>
        let run ← renameLines settings d fault writer (number + 1) rest
        return ⟨events ++ run.events, run.result.map fun (tally, writer) =>
          (tally.count (LineKind.ofLine line), writer)⟩

/-- Renames all lines of a source, flushes the writer and reports the tally. -/
def renameAll (settings : Settings) (d : Dictionary) (source : Source)
    (writer : Writer (Disk.Temporary m)) :
    m (Traced Failure (LineTally × Writer (Disk.Temporary m))) := do
  let run ← renameLines settings d source.fault writer 1 source.lines
  match run.result with
  | .error failed => return ⟨run.events, .error failed⟩
  | .ok (tally, writer) =>
    match ← writer.flush with
    | .error error => return ⟨run.events, .error (failure .flushing error)⟩
    | .ok writer => return ⟨run.events ++ [.linesRenamed tally], .ok (tally, writer)⟩

/-- Fills a temporary file beside the output with the renamed lines of the input. -/
def fill (settings : Settings) (d : Dictionary) (input output : Text) (source : Source)
    (temporary : Disk.Temporary m) : m (Traced Failure LineTally) := do
  let run ← renameAll settings d source ⟨temporary, []⟩
  match run.result with
  | .error failed => return ⟨run.events, .error (failed.within (.renamingFile input output))⟩
  | .ok (tally, writer) =>
    -- giving up the writer flushes it once more
    match ← writer.flush with
    | .error error => return ⟨run.events, .error (failure .flushing error)⟩
    | .ok writer =>
      match ← Disk.sync writer.file with
      | .error error =>
        let path ← Disk.pathIn (Path.directory output) temporary
        return ⟨run.events, .error (failure (.syncing path) error)⟩
      | .ok () => return ⟨run.events, .ok tally⟩

/-- A failure, and the temporary file that it holds if it has one. -/
structure FileFailure (τ : Type) where
  failure : Failure
  temporary : Option τ

def renameFile (settings : Settings) (d : Dictionary) (input output : Text) :
    m (Traced (FileFailure (Disk.Temporary m)) LineTally) := do
  match ← Disk.source input with
  | .error error => return Traced.fail ⟨failure (.openingInput input) error, none⟩
  | .ok source =>
    let directory := Path.directory output
    match ← Disk.createTemporary directory with
    | .error error => return Traced.fail ⟨failure (.creatingTemporary directory) error, none⟩
    | .ok temporary =>
      let run ← fill settings d input output source temporary
      match run.result with
      | .error failed =>
        Disk.remove temporary
        return ⟨run.events, .error ⟨failed, none⟩⟩
      | .ok tally =>
        match ← Disk.moveOver temporary output with
        | .error error =>
          let failed := (failure (.persisting error) error).within (.movingTo output)
          return ⟨run.events, .error ⟨failed, some temporary⟩⟩
        | .ok () => return ⟨run.events, .ok tally⟩

/-- Drops the failure of a result, if it has one. A temporary file that it holds is removed. -/
def dropFailure {α : Type} (run : Traced (FileFailure (Disk.Temporary m)) α) :
    m (Traced Failure α) := do
  match run.result with
  | .ok a => return ⟨run.events, .ok a⟩
  | .error ⟨failed, none⟩ => return ⟨run.events, .error failed⟩
  | .error ⟨failed, some temporary⟩ =>
    Disk.remove temporary
    return ⟨run.events, .error failed⟩

end Renaming.Files
