import Renaming.Files.Disk

/-!
# Machines

A tree of files does not show everything that stops a program: a file may not be readable, a disk
may be full. A `Machine` is a tree together with what its system refuses to do, and it remembers the
paths that were opened. Programs run on a machine as they run on a tree.
-/

namespace Renaming

/-- What the system refuses to do, whatever files there are. A file that is opened is known by the
number of files that were opened before. -/
structure Refusals where
  opening : Nat → Option SystemError
  /-- After how many lines the reading of a file breaks off. -/
  reading : Nat → Option (Nat × SystemError)
  creating : Option SystemError
  /-- After how many bytes the writing of a file breaks off. -/
  writing : Option (Nat × SystemError)
  syncing : Option SystemError
  moving : Option SystemError

/-- A system that does whatever the tree of files allows. -/
def Refusals.nothing : Refusals := ⟨fun _ => none, fun _ => none, none, none, none, none⟩

structure Machine where
  tree : Tree
  refusals : Refusals
  /-- The paths that were opened, or were to be opened, the first one first. -/
  opened : List Text

def Source.breakOff (source : Source) : Option (Nat × SystemError) → Source
  | none => source
  | some (count, error) => ⟨source.lines.take count, some (.system error)⟩

namespace Machine

def put (machine : Machine) (place : Place) (node : Node) : Machine :=
  { machine with tree := machine.tree.put place node }

def erase (machine : Machine) (place : Place) : Machine :=
  { machine with tree := machine.tree.erase place }

/-- The machine that remembers one more path. -/
def remember (machine : Machine) (path : Text) : Machine :=
  { machine with opened := machine.opened ++ [path] }

def source (machine : Machine) (path : Text) : Except SystemError Source :=
  match machine.refusals.opening machine.opened.length with
  | some error => .error error
  | none => (machine.tree.source path).map
    fun source => source.breakOff (machine.refusals.reading machine.opened.length)

def newPlace (machine : Machine) (directory : Text) : Except SystemError Place :=
  match machine.refusals.creating with
  | some error => .error error
  | none => machine.tree.newPlace directory

/-- Writes as many of the bytes behind those of the file as the system takes. -/
def append (machine : Machine) (place : Place) (bytes : Bytes) :
    Except SystemError Unit × Machine :=
  let content := machine.tree.content place ++ bytes
  match machine.refusals.writing with
  | none => (.ok (), machine.put place (.file content))
  | some (count, error) =>
    if content.length ≤ count then (.ok (), machine.put place (.file content))
    else (.error error, machine.put place (.file (content.take count)))

def sync (machine : Machine) : Except SystemError Unit :=
  match machine.refusals.syncing with
  | some error => .error error
  | none => .ok ()

def moveOver (machine : Machine) (place : Place) (path : Text) : Except SystemError Tree :=
  match machine.refusals.moving with
  | some error => .error error
  | none => machine.tree.moveOver place path

end Machine

instance : Disk (StateM Machine) where
  Temporary := Place
  source path := fun machine => (machine.source path, machine.remember path)
  createTemporary directory := fun machine =>
    match machine.newPlace directory with
    | .ok place => (.ok place, machine.put place (.file []))
    | .error error => (.error error, machine)
  pathIn directory place := fun machine =>
    (machine.tree.absolute directory (place.getLastD []), machine)
  append place bytes := fun machine => machine.append place bytes
  sync _ := fun machine => (machine.sync, machine)
  moveOver place path := fun machine =>
    match machine.moveOver place path with
    | .ok tree => (.ok (), { machine with tree := tree })
    | .error error => (.error error, machine)
  remove place := fun machine => ((), machine.erase place)

end Renaming
