import Renaming.Mappings.Load
import Renaming.Proofs.Bounds.Place

/-!
# Loading mappings by place

The cells of a row are read by index once they have been counted. A header has its version in the
second and third cell and its namespaces from the fourth on, so three cells are enough for it; the
cells that a row needs are counted from its tag, and its names from the first of them on
(`Row.entryAt?_eq`). `load?` is `load` (`load?_eq`).
-/

namespace Renaming.Mappings

/-- How deep a row lies is how many bytes the line has more than the cells. -/
def Row.ofLine? (number : Nat) (line : Text) : Option Row := do
  let rest : Text := line.dropWhile (· == '\t')
  let depth ← sub? line.encode.length rest.encode.length
  return ⟨number, depth, Text.columns rest, line⟩

/-- Reads the header. Its minor version is read only to be told of. -/
def columnsOfHeader? (settings : Settings) (row : Row) : Option (Traced Failure Columns) :=
  if row.cells.length < 3 then some (Traced.fail (.of (.shortRow (row.tooShort .header 3))))
  else do
    let major ← row.cells[1]?
    let warning ← if major = ['2'] then some (Traced.pure ())
      else row.cells[2]?.map fun minor => Traced.tell (.versionAssumed major minor)
    let namespaces ← drop? row.cells 3
    return do
      warning
      let columns ← ⟨[], chooseColumns settings namespaces⟩
      Traced.tell
        (.columnsChosen settings.source columns.source settings.target columns.target)
      return columns

/-- Reads the two names. A row that ends before its names has none. -/
def Row.entryAt? (row : Row) (layout : Layout) (kind : Kind) : Option Entry :=
  let names := (drop? row.cells (fixedCells kind)).getD []
  let columns := layout.columns names.length
  let needed := fixedCells kind + max columns.source columns.target + 1
  if row.cells.length < needed then some (.short (row.tooShort (.entry kind) needed))
  else do
    let source ← names[columns.source]?
    let target ← names[columns.target]?
    return if source.isEmpty || target.isEmpty then .unnamed else .pair source target

def Progress.read? (layout : Layout) (p : Progress) (row : Row) : Option Progress :=
  match row.kind? with
  | none => some p
  | some kind => do
    match ← row.entryAt? layout kind with
    | .short missing => return p.skip missing
    | .unnamed => return p
    | .pair source target => return p.put kind source target

/-- Reads the rows behind the header, each when the ones before it have been read. -/
def readRows? (layout : Layout) : Progress → Nat → List Text → Option Progress
  | p, _, [] => some p
  | p, number, line :: rest => do
    let p ← p.read? layout (← Row.ofLine? number line)
    readRows? layout p (number + 1) rest

def loadRows? (layout : Layout) (first : Nat) (lines : List Text) (fault : Option Fault) :
    Option (Traced Failure (Dictionary × RowTally)) := do
  let ⟨dictionary, tally, events⟩ ← readRows? layout .start first lines
  match fault with
  | some fault =>
    return ⟨events.toList, .error ⟨[.readingLine (first + lines.length)], .io fault⟩⟩
  | none => return ⟨events.toList ++ [.mappingsRead tally], .ok (dictionary, tally)⟩

def load? (settings : Settings) (source : Source) :
    Option (Traced Failure (Dictionary × RowTally)) :=
  match source.lines with
  | [] => loadRows? .implicit 1 [] source.fault
  | line :: rest => do
    let row ← Row.ofLine? 1 line
    if row.isHeader then
      let columns ← columnsOfHeader? settings row
      (columns.mapError (Failure.within .headerLine)).bind? fun columns =>
        loadRows? (.declared columns) 2 rest source.fault
    else loadRows? .implicit 1 (line :: rest) source.fault

theorem Row.ofLine?_eq (number : Nat) (line : Text) :
    Row.ofLine? number line = some (Row.ofLine number line) := by
  have htabs : ∀ c ∈ line.takeWhile (· == '\t'), c.toNat < 128 := by
    intro c hc
    have htab := List.all_eq_true.1 List.all_takeWhile c hc
    rw [beq_iff_eq.1 htab]
    decide
  have hlength : line.encode.length =
      (line.takeWhile (· == '\t')).length + (Text.encode (line.dropWhile (· == '\t'))).length := by
    conv_lhs => rw [← List.takeWhile_append_dropWhile (p := (· == '\t')) (l := line)]
    rw [Text.encode_append, List.length_append, Text.encode_of_ascii htabs, List.length_map]
  rw [ofLine?, hlength, sub?_add_right]
  rfl

theorem columnsOfHeader?_eq (settings : Settings) (row : Row) :
    columnsOfHeader? settings row = some (columnsOfHeader settings row) := by
  rw [columnsOfHeader?, columnsOfHeader]
  match hcells : row.cells with
  | [] | [_] | [_, _] => rfl
  | tag :: major :: minor :: namespaces =>
    have hmajor : (tag :: major :: minor :: namespaces)[1]? = some major := rfl
    have hminor : (tag :: major :: minor :: namespaces)[2]? = some minor := rfl
    have hrest : drop? (tag :: major :: minor :: namespaces) 3 = some namespaces :=
      drop?_append [tag, major, minor] namespaces
    rw [if_neg (by simp)]
    simp only [hmajor, hminor, hrest, Option.bind_eq_bind, Option.bind_some, Option.map_some]
    by_cases htwo : major = ['2']
    · simp only [htwo]
      rfl
    · rw [if_neg htwo, if_pos htwo]
      rfl

theorem Row.entryAt?_eq (row : Row) (layout : Layout) (kind : Kind) :
    row.entryAt? layout kind = some (row.entry layout kind) := by
  have hlength : (row.cells.drop (fixedCells kind)).length = row.cells.length - fixedCells kind :=
    List.length_drop
  rw [entryAt?, drop?_getD_nil, entry]
  generalize row.cells.drop (fixedCells kind) = names at hlength
  generalize layout.columns names.length = columns
  by_cases hlong : fixedCells kind + max columns.source columns.target + 1 ≤ row.cells.length
  · have hsource : columns.source < names.length := by omega
    have htarget : columns.target < names.length := by omega
    rw [if_neg (by omega), List.getElem?_eq_getElem hsource, List.getElem?_eq_getElem htarget]
    rfl
  · have hnone := (getElem?_pair_eq_none_iff names columns.source columns.target).2 (by omega)
    rw [if_pos (by omega)]
    split
    · rename_i hsource htarget
      rw [hsource, htarget] at hnone
      simp at hnone
    · rfl

theorem Progress.read?_eq (layout : Layout) (p : Progress) (row : Row) :
    p.read? layout row = some (p.read layout row) := by
  rw [read?, read]
  cases row.kind? with
  | none => rfl
  | some kind =>
    simp only [Row.entryAt?_eq, Option.bind_eq_bind, Option.bind_some]
    cases row.entry layout kind <;> rfl

theorem readRows?_eq (layout : Layout) (p : Progress) (number : Nat) (lines : List Text) :
    readRows? layout p number lines = some ((rows number lines).foldl (Progress.read layout) p) := by
  induction lines generalizing p number with
  | nil => rfl
  | cons line rest ih =>
    rw [readRows?, Row.ofLine?_eq]
    show (p.read? layout (Row.ofLine number line)).bind _ = _
    rw [Progress.read?_eq]
    exact ih ..

theorem loadRows?_eq (layout : Layout) (first : Nat) (lines : List Text) (fault : Option Fault) :
    loadRows? layout first lines fault = some (loadRows layout first lines fault) := by
  rw [loadRows?, loadRows, readRows?_eq]
  cases fault <;> rfl

theorem load?_eq (settings : Settings) (source : Source) :
    load? settings source = some (load settings source) := by
  rw [load?, load]
  cases source.lines with
  | nil => exact loadRows?_eq ..
  | cons line rest =>
    show (Row.ofLine? 1 line).bind _ = _
    rw [Row.ofLine?_eq, Option.bind_some, columnsOfHeader?_eq]
    by_cases hheader : (Row.ofLine 1 line).isHeader = true
    · simp only [hheader, if_true, loadRows?_eq]
      exact Traced.bind?_some _ _
    · simp only [hheader, loadRows?_eq]
      rfl

end Renaming.Mappings
