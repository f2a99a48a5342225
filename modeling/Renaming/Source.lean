import Renaming.Fault
import Renaming.Text.Bytes

/-!
# Sources of lines

What can be read from a file: its lines up to the first one that cannot be read, and the fault that
stands in the way of that one. `Source.ofBytes` reads bytes.
-/

namespace Renaming

structure Source where
  lines : List Text
  fault : Option Fault
  deriving DecidableEq, Repr

namespace Source

/-- A source that cannot be read at all. -/
def unreadable (fault : Fault) : Source := ⟨[], some fault⟩

/-- The lines up to the first that is not valid UTF-8. -/
def ofBytes (bytes : Bytes) : Source :=
  let lines := bytes.lines.map Bytes.decode?
  { lines := (lines.takeWhile (·.isSome)).filterMap id
    fault := if lines.all (·.isSome) then none else some .invalidUtf8 }

example : ofBytes [97, 10, 255, 10, 98] = ⟨[['a']], some .invalidUtf8⟩ := by decide +kernel

end Source

end Renaming
