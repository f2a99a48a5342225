import Renaming.Kind

/-!
# Tallies

`RowTally` counts the rows read from mappings, `LineTally` the lines of a file that were renamed.
-/

namespace Renaming

/-- The rows that named something, by kind, and the rows that were too short. -/
structure RowTally where
  classes : Nat
  fields : Nat
  methods : Nat
  skipped : Nat
  deriving DecidableEq, Repr

namespace RowTally

def zero : RowTally := ⟨0, 0, 0, 0⟩

def count (tally : RowTally) : Kind → RowTally
  | .klass => { tally with classes := tally.classes + 1 }
  | .field => { tally with fields := tally.fields + 1 }
  | .method => { tally with methods := tally.methods + 1 }

def skip (tally : RowTally) : RowTally := { tally with skipped := tally.skipped + 1 }

end RowTally

/-- What a line is about. -/
inductive LineKind where
  | header
  | comment
  | declaration (kind : Kind)
  | other
  deriving DecidableEq, Repr

structure LineTally where
  lines : Nat
  headers : Nat
  comments : Nat
  classes : Nat
  methods : Nat
  fields : Nat
  other : Nat
  deriving DecidableEq, Repr

namespace LineTally

def zero : LineTally := ⟨0, 0, 0, 0, 0, 0, 0⟩

def count (tally : LineTally) (kind : LineKind) : LineTally :=
  let tally := { tally with lines := tally.lines + 1 }
  match kind with
  | .header => { tally with headers := tally.headers + 1 }
  | .comment => { tally with comments := tally.comments + 1 }
  | .declaration .klass => { tally with classes := tally.classes + 1 }
  | .declaration .method => { tally with methods := tally.methods + 1 }
  | .declaration .field => { tally with fields := tally.fields + 1 }
  | .other => { tally with other := tally.other + 1 }

end LineTally

end Renaming
