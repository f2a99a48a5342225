import Renaming.Fault
import Renaming.Files.Path
import Renaming.Text.Bytes
import Std.Data.ExtTreeMap

/-!
# Trees of files

A tree holds files and directories by their place, the names on the way down from its root, and
knows the place of the working directory. The root itself is always a directory and has no entry.
A path is walked from the root or from the working directory, segment by segment, and each segment
needs a directory to start from (`Tree.walk`).
-/

namespace Renaming

inductive Node where
  | file (content : Bytes)
  | directory
  deriving DecidableEq, Repr

abbrev Place := List Text

structure Tree where
  entries : Std.ExtTreeMap Place Node
  /-- The working directory. -/
  home : Place

namespace Tree

def node? (tree : Tree) (place : Place) : Option Node :=
  if place.isEmpty then some .directory else tree.entries[place]?

def isDirectory (tree : Tree) (place : Place) : Bool := tree.node? place == some .directory

def put (tree : Tree) (place : Place) (node : Node) : Tree :=
  { tree with entries := tree.entries.insert place node }

def erase (tree : Tree) (place : Place) : Tree := { tree with entries := tree.entries.erase place }

/-- Puts a directory at a place, and at every place on the way down to it. -/
def makeDirectory (tree : Tree) (place : Place) : Tree :=
  (List.range place.length).foldl (fun tree n => tree.put (place.take (n + 1)) .directory) tree

/-- The tree that holds nothing but its working directory. -/
def ofHome (home : Place) : Tree := makeDirectory ⟨∅, home⟩ home

/-- What lies below the working directory, each by its place from there. -/
def contents (tree : Tree) : List (Place × Node) :=
  tree.entries.toList.filterMap fun (place, node) =>
    if tree.home.isPrefixOf place && place != tree.home then
      some (place.drop tree.home.length, node)
    else none

/-- Follows segments from a place. -/
def walk (tree : Tree) : Place → List Text → Except SystemError Place
  | place, [] => .ok place
  | place, segment :: rest =>
    if !tree.isDirectory place then .error .notADirectory
    else if Path.isIdle segment then tree.walk place rest
    else if Path.isUp segment then tree.walk place.dropLast rest
    else if Path.isLongName segment then .error .nameTooLong
    else if (tree.node? (place ++ [segment])).isSome then tree.walk (place ++ [segment]) rest
    else .error .notFound

/-- The place at which a path starts. Of some paths no name is ever looked at. -/
def start (tree : Tree) (path : Text) : Except SystemError Place :=
  if path.contains '\x00' then .error .nullInPath
  else if path.isEmpty then .error .notFound
  else if Path.isLong path then .error .nameTooLong
  else .ok (if Path.isAbsolute path then [] else tree.home)

/-- The place that a path leads to. -/
def resolve (tree : Tree) (path : Text) : Except SystemError Place := do
  tree.walk (← tree.start path) (Path.segments path)

/-- The place of the directory that a path leads to. -/
def resolveDirectory (tree : Tree) (path : Text) : Except SystemError Place := do
  let place ← tree.resolve path
  if tree.isDirectory place then return place else throw .notADirectory

/-- The place at which a file may be put under a path. The name has to be a proper one, nothing may
follow it, and no directory may have it. -/
def resolveFile (tree : Tree) (path : Text) : Except SystemError Place := do
  let start ← tree.start path
  match (Path.segments path).reverse.dropWhile List.isEmpty with
  | [] => throw .busy
  | name :: before =>
    let directory ← tree.walk start before.reverse
    if !tree.isDirectory directory then throw .notADirectory
    if name == ['.'] || Path.isUp name then throw .busy
    if Path.isLongName name then throw .nameTooLong
    if path.getLast? == some '/' then throw .notADirectory
    if tree.isDirectory (directory ++ [name]) then throw .isADirectory
    return directory ++ [name]

/-- The path of a name in a directory, written from the root. -/
def absolute (tree : Tree) (directory name : Text) : Text :=
  let above := if Path.isAbsolute directory then [] else [] :: tree.home
  ['/'].intercalate (above ++ [directory, name])

/-- How the names of temporary files begin. -/
def temporaryStem : Text := ".tmp000000".toList

/-- A name that no entry of the tree has: it is longer than all names that begin like it. -/
def unusedName (tree : Tree) : Text :=
  let taken := tree.entries.keys.flatten.filter temporaryStem.isPrefixOf
  temporaryStem ++ List.replicate taken.flatten.length '0'

theorem length_lt_length_unusedName {tree : Tree} {place : Place} {name : Text}
    (hp : place ∈ tree.entries) (hn : name ∈ place) (h : temporaryStem.isPrefixOf name) :
    name.length < tree.unusedName.length := by
  have hm : name ∈ tree.entries.keys.flatten.filter temporaryStem.isPrefixOf :=
    List.mem_filter.mpr ⟨List.mem_flatten_of_mem (Std.ExtTreeMap.mem_keys.mpr hp) hn, h⟩
  have hl := (List.sublist_flatten_of_mem hm).length_le
  have hs : 0 < temporaryStem.length := by decide
  simp only [unusedName, List.length_append, List.length_replicate]
  omega

@[simp] theorem node?_unusedName (tree : Tree) (place : Place) :
    tree.node? (place ++ [tree.unusedName]) = none := by
  have hk : place ++ [tree.unusedName] ∉ tree.entries := fun hp =>
    Nat.lt_irrefl _ (length_lt_length_unusedName hp (by simp) (by simp [unusedName]))
  simp [node?, hk]

end Tree

end Renaming
