import Renaming.Files.Tree
import Renaming.Source

/-!
# What the program asks of a file system

`Disk m` says that programs in `m` can read a file, make a temporary file in a directory, write to
it, move it over another file and remove it. The instance for states that are trees is the file
system that statements are about.
-/

namespace Renaming

class Disk (m : Type → Type) where
  /-- By what a temporary file is known until it is moved or removed. -/
  Temporary : Type
  /-- Opens a file. What opens need not be readable. -/
  source : Text → m (Except SystemError Source)
  /-- Makes an empty file under an unused name in a directory. -/
  createTemporary : Text → m (Except SystemError Temporary)
  /-- The path of a temporary file that was made in the directory, from the root. -/
  pathIn : Text → Temporary → m Text
  /-- Writes bytes behind those that the file has. -/
  append : Temporary → Bytes → m (Except SystemError Unit)
  /-- Waits until what was written is on the disk. -/
  sync : Temporary → m (Except SystemError Unit)
  /-- Gives the file a path of its own, in place of a file that may be there. -/
  moveOver : Temporary → Text → m (Except SystemError Unit)
  remove : Temporary → m Unit

namespace Tree

def source (tree : Tree) (path : Text) : Except SystemError Source := do
  let place ← tree.resolve path
  match tree.node? place with
  | some (.file content) => return .ofBytes content
  | some .directory => return .unreadable (.system .isADirectory)
  | none => throw .notFound

/-- The bytes of the file at a place. -/
def content (tree : Tree) (place : Place) : Bytes :=
  match tree.node? place with
  | some (.file content) => content
  | _ => []

/-- The place of a new file in a directory. The path of the file from the root has to be a proper
one, too. -/
def newPlace (tree : Tree) (directory : Text) : Except SystemError Place := do
  let _ ← tree.start (tree.absolute directory tree.unusedName)
  let place ← tree.resolveDirectory directory
  return place ++ [tree.unusedName]

/-- The tree in which the file at `place` lies under `path` instead. -/
def moveOver (tree : Tree) (place : Place) (path : Text) : Except SystemError Tree := do
  if path.contains '\x00' then throw .invalidArgument
  let target ← tree.resolveFile path
  match tree.node? place with
  | some node => return (tree.erase place).put target node
  | none => throw .notFound

end Tree

/-- Runs a step that answers or changes the tree, and leaves the tree alone if it fails. -/
def Tree.change (step : Tree → Except SystemError Tree) : StateM Tree (Except SystemError Unit) :=
  fun tree =>
    match step tree with
    | .ok tree' => (.ok (), tree')
    | .error error => (.error error, tree)

instance : Disk (StateM Tree) where
  Temporary := Place
  source path := fun tree => (tree.source path, tree)
  createTemporary directory := fun tree =>
    match tree.newPlace directory with
    | .ok place => (.ok place, tree.put place (.file []))
    | .error error => (.error error, tree)
  pathIn directory place := fun tree => (tree.absolute directory (place.getLastD []), tree)
  append place bytes := fun tree => (.ok (), tree.put place (.file (tree.content place ++ bytes)))
  sync _ := fun tree => (.ok (), tree)
  moveOver place path := Tree.change fun tree => tree.moveOver place path
  remove place := fun tree => ((), tree.erase place)

end Renaming
