import Renaming.Text.Bytes

/-!
# Paths

A path is a text with slashes between its segments. One that begins with a slash is walked from the
root, any other from the working directory. Names and paths have a greatest length, which is counted
in bytes. `parent?` is the text of the path that remains without the last name; slashes and single
dots around that name go with it.
-/

namespace Renaming.Path

def segments (path : Text) : List Text := path.splitOn '/'

/-- Whether a segment stays where it is. -/
def isIdle (segment : Text) : Bool := segment == [] || segment == ['.']

def isUp (segment : Text) : Bool := segment == ['.', '.']

def isAbsolute (path : Text) : Bool := path.head? == some '/'

def maxNameSize : Nat := 255

def maxSize : Nat := 4095

def isLongName (segment : Text) : Bool := maxNameSize < segment.encode.length

def isLong (path : Text) : Bool := maxSize < path.encode.length

/-- The path without its last name. The root and the empty path have none. -/
def parent? (path : Text) : Option Text :=
  match segments path with
  | [] => none
  | first :: rest =>
    match rest.reverse.dropWhile isIdle with
    | [] => if first.isEmpty then none else some []
    | _ :: before =>
      match (before.dropWhile isIdle).reverse with
      | [] => if first.isEmpty then some ['/'] else some first
      | kept => some (['/'].intercalate (first :: kept))

/-- The directory that the file lies in, a single dot if the path names none. -/
def directory (path : Text) : Text :=
  match parent? path with
  | some parent => if parent.isEmpty then ['.'] else parent
  | none => ['.']

example : ["a/b", "./a", "/a", "a//b/", "a/..", "a", "", "/"].map
    (fun path => String.ofList (directory path.toList)) =
    ["a", ".", "/", "a", "a", ".", ".", "."] := by decide +kernel

end Renaming.Path
