import Renaming.Access.Line
import Renaming.Descriptor.Rename

/-!
# Renaming a line of an access file

The header gets the target namespace in place of the source namespace. In a declaration the class
in the third column is renamed, and for a field or a method also its name in the fourth column and
its descriptor in the fifth; further columns stay. Every other line stays.
-/

namespace Renaming.Access

def renameHeader (settings : Settings) (line : Text) : Traced Failure Text :=
  match Text.cut? settings.source line with
  | some (before, after) =>
    let new := before ++ settings.target ++ after
    ⟨[.headerRenamed line new], .ok new⟩
  | none => ⟨[.headerKept line settings.source], .ok line⟩

/-- Says where a missing class was met: in the descriptor of a member, on a line. -/
def missingIn (line : Nat) (kind : Kind) (owner name : Text) (missing : MissingClass) : Failure :=
  ⟨[.descriptorOf kind owner name], .missingClass (some line) missing⟩

/-- How many columns the declaration of a kind needs. -/
def columnsNeeded : Kind → Nat
  | .klass => 3
  | .field | .method => 5

def tooShort (number : Nat) (kind : Kind) (line : Text) : Failure :=
  .of (.shortRow ⟨number, .entry kind, columnsNeeded kind, line.columns.length, line⟩)

def renameClass (d : Dictionary) (number : Nat) (line : Text) : Traced Failure Text :=
  match line.columns with
  | access :: tag :: name :: extra =>
    Traced.pure (Text.ofColumns (access :: tag :: d.rename .klass name :: extra))
  | _ => Traced.fail (tooShort number .klass line)

def renameMember (settings : Settings) (d : Dictionary) (kind : Kind) (number : Nat)
    (line : Text) : Traced Failure Text :=
  match line.columns with
  | access :: tag :: owner :: name :: descriptor :: extra => do
    let descriptor ←
      (Descriptor.rename settings d descriptor).mapError (missingIn number kind owner name)
    Traced.pure (Text.ofColumns
      (access :: tag :: d.rename .klass owner :: d.rename kind name :: descriptor :: extra))
  | _ => Traced.fail (tooShort number kind line)

/-- The line as it reads in the target namespace. Its number is for the failure only. -/
def renameLine (settings : Settings) (d : Dictionary) (number : Nat) (line : Text) :
    Traced Failure Text :=
  match LineKind.ofLine line with
  | .header => renameHeader settings line
  | .declaration .klass => renameClass d number line
  | .declaration kind => renameMember settings d kind number line
  | .comment | .other => Traced.pure line

end Renaming.Access
