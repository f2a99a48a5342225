import Renaming.Dictionary
import Renaming.Mappings.Row
import Renaming.Settings
import Renaming.Source
import Renaming.Traced

/-!
# Loading mappings

`load` reads a dictionary from the lines of a mappings file. A bad header and an unreadable line
are failures; a row that is too short is only skipped. A later row wins over an earlier one for the
same name.
-/

namespace Renaming.Mappings

/-- The place of a namespace in the header. -/
def position (namespaces : List Text) (name : Text) : Except Failure Nat :=
  match namespaces.idxOf? name with
  | some column => .ok column
  | none => .error (.of (.unknownNamespace name namespaces))

/-- The columns of the two namespaces of the settings. The source is looked for first. -/
def chooseColumns (settings : Settings) (namespaces : List Text) : Except Failure Columns := do
  let source ← position namespaces settings.source
  let target ← position namespaces settings.target
  return ⟨source, target⟩

def columnsOfHeader (settings : Settings) (row : Row) : Traced Failure Columns :=
  match row.cells with
  | _ :: major :: minor :: namespaces => do
    if major ≠ ['2'] then Traced.tell (.versionAssumed major minor)
    let columns ← ⟨[], chooseColumns settings namespaces⟩
    Traced.tell
      (.columnsChosen settings.source columns.source settings.target columns.target)
    return columns
  | _ => Traced.fail (.of (.shortRow (row.tooShort .header 3)))

/-- What the rows read so far have come to. -/
structure Progress where
  dictionary : Dictionary
  tally : RowTally
  events : Array Event

namespace Progress

def start : Progress := ⟨.empty, .zero, #[]⟩

def skip (p : Progress) (row : ShortRow) : Progress :=
  { p with tally := p.tally.skip, events := p.events.push (.rowSkipped row) }

def put (p : Progress) (kind : Kind) (source target : Text) : Progress :=
  let (old?, dictionary) := p.dictionary.exchange kind source target
  { dictionary := dictionary
    tally := p.tally.count kind
    events :=
      match old? with
      | some old => p.events.push (.entryReplaced kind source old target)
      | none => p.events }

def read (layout : Layout) (p : Progress) (row : Row) : Progress :=
  match row.kind? with
  | none => p
  | some kind =>
    match row.entry layout kind with
    | .short missing => p.skip missing
    | .unnamed => p
    | .pair source target => p.put kind source target

end Progress

/-- Numbers the lines from `first` on and makes rows of them. -/
def rows (first : Nat) (lines : List Text) : List Row :=
  (lines.zipIdx first).map fun (line, number) => Row.ofLine number line

/-- Reads the rows behind the header. After the last of them comes the fault, if there is one. -/
def loadRows (layout : Layout) (first : Nat) (lines : List Text) (fault : Option Fault) :
    Traced Failure (Dictionary × RowTally) :=
  let ⟨dictionary, tally, events⟩ := (rows first lines).foldl (Progress.read layout) .start
  match fault with
  | some fault =>
    ⟨events.toList, .error ⟨[.readingLine (first + lines.length)], .io fault⟩⟩
  | none => ⟨events.toList ++ [.mappingsRead tally], .ok (dictionary, tally)⟩

def load (settings : Settings) (source : Source) : Traced Failure (Dictionary × RowTally) :=
  match source.lines with
  | [] => loadRows .implicit 1 [] source.fault
  | line :: rest =>
    let row := Row.ofLine 1 line
    if row.isHeader then do
      let columns ← (columnsOfHeader settings row).mapError (Failure.within .headerLine)
      loadRows (.declared columns) 2 rest source.fault
    else loadRows .implicit 1 (line :: rest) source.fault

end Renaming.Mappings
