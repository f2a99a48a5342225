import Renaming.Failure

/-!
# Rows of mappings

A row is a line of a mappings file: tabs that tell how deep it lies, then cells with tabs between
them. The header names the namespaces; a class row lies at the top, field and method rows one level
below. The names of a row stand behind its fixed cells, one for each namespace, and `Columns` says
which two of them belong to the source and the target namespace.
-/

namespace Renaming.Mappings

structure Row where
  number : Nat
  depth : Nat
  cells : List Text
  raw : Text
  deriving DecidableEq, Repr

namespace Row

def ofLine (number : Nat) (line : Text) : Row where
  number := number
  depth := (line.takeWhile (· == '\t')).length
  cells := Text.columns (line.dropWhile (· == '\t'))
  raw := line

/-- Whether the row is the header, which only the first can be. -/
def isHeader (row : Row) : Bool :=
  row.number == 1 && row.depth == 0 && row.cells.head? == some "tiny".toList

/-- What the row gives a name to, if anything. -/
def kind? (row : Row) : Option Kind :=
  match row.depth, row.cells with
  | 0, ['c'] :: _ => some .klass
  | 1, ['f'] :: _ => some .field
  | 1, ['m'] :: _ => some .method
  | _, _ => none

def tooShort (row : Row) (kind : RowKind) (expected : Nat) : ShortRow :=
  ⟨row.number, kind, expected, row.cells.length, row.raw⟩

end Row

/-- How many fixed cells stand before the names. A member row has its descriptor there. -/
def fixedCells : Kind → Nat
  | .klass => 1
  | .field | .method => 2

/-- The places of the source name and of the target name among the names of a row. -/
structure Columns where
  source : Nat
  target : Nat
  deriving DecidableEq, Repr

/-- Where the columns come from. -/
inductive Layout where
  | declared (columns : Columns)
  | implicit
  deriving DecidableEq, Repr

/-- The columns for a row with so many names. Without a header three names stand for an official,
an intermediate and a final namespace, of which the last two count. -/
def Layout.columns : Layout → Nat → Columns
  | .declared columns, _ => columns
  | .implicit, names => if 3 ≤ names then ⟨1, 2⟩ else ⟨0, 1⟩

/-- What a row of some kind comes to. -/
inductive Entry where
  | short (row : ShortRow)
  | unnamed
  | pair (source target : Text)
  deriving DecidableEq, Repr

/-- Reads the two names. A row without one of the cells is too short; an empty name is none. -/
def Row.entry (row : Row) (layout : Layout) (kind : Kind) : Entry :=
  let names := row.cells.drop (fixedCells kind)
  let columns := layout.columns names.length
  match names[columns.source]?, names[columns.target]? with
  | some source, some target =>
    if source.isEmpty || target.isEmpty then .unnamed else .pair source target
  | _, _ =>
    .short (row.tooShort (.entry kind)
      (fixedCells kind + max columns.source columns.target + 1))

theorem getElem?_pair_eq_none_iff {α : Type} (cells : List α) (i j : Nat) :
    (cells[i]? = none ∨ cells[j]? = none) ↔ cells.length < max i j + 1 := by
  simp only [List.getElem?_eq_none_iff]
  omega

end Renaming.Mappings
