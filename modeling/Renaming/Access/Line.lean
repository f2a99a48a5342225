import Renaming.Tally

/-!
# The lines of an access file

A line is a header, a comment, the declaration of a class, a field or a method, or anything else.
The first two show at the start of the line, a declaration by the tag in its second column.
-/

namespace Renaming

namespace LineKind

def headerMark : Text := "accessWidener".toList

def ofLine (line : Text) : LineKind :=
  if headerMark.isPrefixOf line then .header
  else if line.head? = some '#' then .comment
  else
    match line.columns with
    | _ :: tag :: _ =>
      match Kind.ofTag? tag with
      | some kind => .declaration kind
      | none => .other
    | _ => .other

example : ofLine "accessible\tclass\ta/B".toList = .declaration .klass := by decide +kernel
example : ofLine "#\tclass\ta/B".toList = .comment := by decide +kernel
example : ofLine [] = .other := by decide +kernel

end LineKind

end Renaming
