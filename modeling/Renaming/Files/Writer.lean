import Renaming.Files.Disk

/-!
# Buffered writers

A writer keeps back what it is given as long as its buffer has room, and hands it to its file when
the next piece does not fit or when it is flushed. So the file may refuse what the writer was given
long before.
-/

namespace Renaming

/-- A file and the bytes that it is still to be given. -/
structure Writer (τ : Type) where
  file : τ
  pending : Bytes

namespace Writer

/-- How many bytes a writer keeps back at most. -/
def capacity : Nat := 8192

variable {m : Type → Type} [Monad m] [Disk m]

/-- Hands over what is pending. -/
def flush (writer : Writer (Disk.Temporary m)) :
    m (Except SystemError (Writer (Disk.Temporary m))) := do
  if writer.pending.isEmpty then return .ok writer
  else
    match ← Disk.append writer.file writer.pending with
    | .error error => return .error error
    | .ok () => return .ok { writer with pending := [] }

/-- Keeps a piece for which there is room. One that fills a whole buffer is handed over at once. -/
def keep (writer : Writer (Disk.Temporary m)) (piece : Bytes) :
    m (Except SystemError (Writer (Disk.Temporary m))) := do
  if piece.length < capacity then return .ok { writer with pending := writer.pending ++ piece }
  else
    match ← Disk.append writer.file piece with
    | .error error => return .error error
    | .ok () => return .ok writer

/-- Writes a piece, and what is pending before it if there is no room for both. -/
def write (writer : Writer (Disk.Temporary m)) (piece : Bytes) :
    m (Except SystemError (Writer (Disk.Temporary m))) := do
  if writer.pending.length + piece.length ≤ capacity then writer.keep piece
  else
    match ← writer.flush with
    | .error error => return .error error
    | .ok writer => writer.keep piece

/-- Writes a line and, as a piece of its own, the line feed behind it. -/
def writeLine (writer : Writer (Disk.Temporary m)) (line : Text) :
    m (Except SystemError (Writer (Disk.Temporary m))) := do
  match ← writer.write line.encode with
  | .error error => return .error error
  | .ok writer => writer.write (Text.encode ['\n'])

end Writer

end Renaming
