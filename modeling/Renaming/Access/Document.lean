import Renaming.Access.Rename
import Renaming.Source

/-!
# Renaming an access file

The lines of a source are renamed and written one after the other, each with a line feed behind it,
until one cannot be read, renamed or written. A `Run` tells what was written up to there.
-/

namespace Renaming.Access

/-- How many more bytes a writer takes, if there is a limit. -/
abbrev Room := Option Nat

namespace Room

def fits (room : Room) (size : Nat) : Bool := room.all fun free => size ≤ free

def after (room : Room) (size : Nat) : Room := room.map fun free => free - size

/-- The part of the bytes that is written before the writer fails. -/
def cut : Room → Bytes → Bytes
  | none, bytes => bytes
  | some free, bytes => bytes.take free

end Room

structure Run where
  events : List Event
  output : Bytes
  result : Except Failure LineTally

namespace Run

def stop (events : List Event) (output : Bytes) (failure : Failure) : Run :=
  ⟨events, output, .error failure⟩

/-- The run that writes a line and then goes on with `rest`. -/
def cons (events : List Event) (bytes : Bytes) (kind : LineKind) (rest : Run) : Run where
  events := events ++ rest.events
  output := bytes ++ rest.output
  result := rest.result.map fun tally => tally.count kind

/-- Flushes the writer and reports the tally, once all lines are written. -/
def finish (run : Run) (flush : Except Fault Unit) : Run :=
  match run.result, flush with
  | .ok tally, .ok () => { run with events := run.events ++ [.linesRenamed tally] }
  | .ok _, .error fault => { run with result := .error ⟨[.flushing], .io fault⟩ }
  | .error _, _ => run

end Run

/-- Renames the lines, the first of which has the given number. After the last of them comes the
fault, if there is one. -/
def renameLines (settings : Settings) (d : Dictionary) (fault : Option Fault) :
    Room → Nat → List Text → Run
  | _, number, [] =>
    match fault with
    | none => ⟨[], [], .ok .zero⟩
    | some fault => Run.stop [] [] ⟨[.readingLine number], .io fault⟩
  | room, number, line :: rest =>
    let ⟨events, renamed⟩ := renameLine settings d number line
    match renamed with
    | .error failure => Run.stop events [] (failure.within (.inLine number))
    | .ok new =>
      let bytes := Text.encode (new ++ ['\n'])
      if room.fits bytes.length then
        Run.cons events bytes (LineKind.ofLine line)
          (renameLines settings d fault (room.after bytes.length) (number + 1) rest)
      else Run.stop events (room.cut bytes) ⟨[.writingLine number], .io .writerFull⟩

/-- Renames all lines of a source, up to but without the flush at the end. -/
def renameAll (settings : Settings) (d : Dictionary) (source : Source) (room : Room) : Run :=
  renameLines settings d source.fault room 1 source.lines

/-- Renames all lines of a source and flushes. -/
def rename (settings : Settings) (d : Dictionary) (source : Source) (room : Room)
    (flush : Except Fault Unit) : Run :=
  (renameAll settings d source room).finish flush

end Renaming.Access
