import Renaming.Failure
import Renaming.Tally

/-!
# Events

What a run has to tell while it works. Each event has a level, a target (the part of the program it
comes from) and a message.
-/

namespace Renaming

/-- How important an event is, the most important level first. -/
inductive Level where
  | error
  | warn
  | info
  | debug
  | trace
  deriving DecidableEq, Repr

namespace Level

def name : Level → String
  | .error => "ERROR"
  | .warn => "WARN"
  | .info => "INFO"
  | .debug => "DEBUG"
  | .trace => "TRACE"

def rank : Level → Nat
  | .error => 0
  | .warn => 1
  | .info => 2
  | .debug => 3
  | .trace => 4

/-- Whether a log kept at the first level has the events of the second. -/
def admits (kept level : Level) : Bool := level.rank ≤ kept.rank

end Level

inductive Event where
  | versionAssumed (major minor : Text)
  | columnsChosen (source : Text) (sourceColumn : Nat) (target : Text) (targetColumn : Nat)
  | rowSkipped (row : ShortRow)
  | entryReplaced (kind : Kind) (source old new : Text)
  | mappingsRead (tally : RowTally)
  | descriptorKept (descriptor outside : Text)
  | headerRenamed (old new : Text)
  | headerKept (line source : Text)
  | linesRenamed (tally : LineTally)
  | nothingMapped (mappings : Text)
  | fileWritten (lines : Nat) (output : Text)
  deriving DecidableEq, Repr

namespace Event

def level : Event → Level
  | .versionAssumed .. => .warn
  | .columnsChosen .. => .debug
  | .rowSkipped .. => .warn
  | .entryReplaced .. => .debug
  | .mappingsRead .. => .info
  | .descriptorKept .. => .trace
  | .headerRenamed .. => .debug
  | .headerKept .. => .warn
  | .linesRenamed .. => .info
  | .nothingMapped .. => .warn
  | .fileWritten .. => .info

def target : Event → String
  | .versionAssumed .. | .columnsChosen .. | .rowSkipped .. | .entryReplaced ..
  | .mappingsRead .. => "widener::tiny_v2"
  | .descriptorKept .. => "widener::remapper"
  | .headerRenamed .. | .headerKept .. | .linesRenamed .. => "widener::access_widener"
  | .nothingMapped .. | .fileWritten .. => "widener_remap"

def message : Event → String
  | .versionAssumed major minor =>
    "mappings declare tiny version " ++ String.ofList major ++ "." ++ String.ofList minor ++
      ", reading them as tiny v2"
  | .columnsChosen source sourceColumn target targetColumn =>
    "mapping namespace " ++ source.quoted ++ s!" (column {sourceColumn}) to " ++ target.quoted ++
      s!" (column {targetColumn})"
  | .rowSkipped row => "skipping mapping row: " ++ row.message
  | .entryReplaced kind source old new =>
    kind.name ++ " " ++ source.quoted ++ " was mapped to " ++ old.quoted ++
      " before, now mapping it to " ++ new.quoted
  | .mappingsRead ⟨classes, fields, methods, skipped⟩ =>
    s!"read {classes} class, {fields} field and {methods} method mappings, " ++
      s!"skipped {skipped} rows"
  | .descriptorKept descriptor outside =>
    "leaving descriptor " ++ descriptor.quoted ++ " as is, " ++ outside.quoted ++
      " is outside of the remapped packages"
  | .headerRenamed old new => "rewrote header " ++ old.quoted ++ " to " ++ new.quoted
  | .headerKept line source =>
    "header " ++ line.quoted ++ " doesn't mention the namespace " ++ source.quoted ++
      ", leaving it as is"
  | .linesRenamed ⟨lines, _, _, classes, methods, fields, other⟩ =>
    s!"remapped {lines} lines: {classes} classes, {methods} methods, {fields} fields, " ++
      s!"{other} other"
  | .nothingMapped mappings =>
    "no mappings were read from " ++ mappings.quoted ++ ", only the header will change"
  | .fileWritten lines output => s!"wrote {lines} lines to " ++ output.quoted

/-- The line of a log that tells of the event. -/
def logLine (event : Event) : String :=
  "[" ++ event.level.name ++ " " ++ event.target ++ "] " ++ event.message

end Event

end Renaming
