import Renaming.Descriptor.Piece
import Renaming.Dictionary
import Renaming.Settings
import Renaming.Traced

/-!
# Renaming the classes of a descriptor

A descriptor is renamed as a whole or not at all. It stays as it is if one of the classes it refers
to lies outside the packages of the settings. Otherwise each of its classes has to be known to the
dictionary, as a source or as a target, and a class that is only a target keeps its name.
-/

namespace Renaming

/-- Whether a class occurs in the dictionary on either side. -/
def Dictionary.knowsClass (d : Dictionary) (name : Text) : Bool :=
  (d.get? .klass name).isSome || d.hasTarget .klass name

namespace Descriptor

def Piece.rename (d : Dictionary) : Piece → Piece
  | .plain c => .plain c
  | .reference name => .reference (d.rename .klass name)

/-- Puts the new name of a class where the text first refers to the class. -/
def replaceReference (d : Dictionary) (s name : Text) : Text :=
  Text.replaceFirst (Piece.reference name).render (Piece.reference name |>.rename d).render s

def substitute (d : Dictionary) (s : Text) : Substitution → Text
  | .positional => join ((pieces s).map (Piece.rename d))
  | .firstOccurrence => (references s).foldl (replaceReference d) s

def rename (settings : Settings) (d : Dictionary) (s : Text) : Traced MissingClass Text :=
  let names := references s
  match names.find? fun name => !settings.covers name with
  | some outside => ⟨[.descriptorKept s outside], .ok s⟩
  | none =>
    match names.find? fun name => !d.knowsClass name with
    | some name => Traced.fail ⟨name, s⟩
    | none => Traced.pure (substitute d s settings.substitution)

end Descriptor

end Renaming
