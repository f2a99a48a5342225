import Renaming.Text.Basic

/-!
# The grammar of descriptors

A field has a type. A method has a type for each parameter and for what it returns, if it returns
anything. `render` writes a descriptor down, `classNames` lists the classes it refers to in the order
of the text, and `mapNames` puts other names in their place.
-/

namespace Renaming

namespace Descriptor

inductive Primitive where
  | byte
  | char
  | double
  | float
  | int
  | long
  | short
  | boolean
  deriving DecidableEq, Repr

def Primitive.letter : Primitive → Char
  | .byte => 'B'
  | .char => 'C'
  | .double => 'D'
  | .float => 'F'
  | .int => 'I'
  | .long => 'J'
  | .short => 'S'
  | .boolean => 'Z'

inductive FieldType where
  | primitive (type : Primitive)
  | object (name : Text)
  | array (element : FieldType)
  deriving DecidableEq, Repr

namespace FieldType

def render : FieldType → Text
  | .primitive type => [type.letter]
  | .object name => 'L' :: name ++ [';']
  | .array element => '[' :: element.render

def classNames : FieldType → List Text
  | .primitive _ => []
  | .object name => [name]
  | .array element => element.classNames

def mapNames (f : Text → Text) : FieldType → FieldType
  | .primitive type => .primitive type
  | .object name => .object (f name)
  | .array element => .array (element.mapNames f)

end FieldType

end Descriptor

/-- The result of a method that returns nothing is `none`. -/
inductive Descriptor where
  | field (type : Descriptor.FieldType)
  | method (parameters : List Descriptor.FieldType) (result : Option Descriptor.FieldType)
  deriving DecidableEq, Repr

namespace Descriptor

def render : Descriptor → Text
  | .field type => type.render
  | .method parameters result =>
    '(' :: parameters.flatMap FieldType.render ++ ')' :: result.elim ['V'] FieldType.render

def classNames : Descriptor → List Text
  | .field type => type.classNames
  | .method parameters result =>
    parameters.flatMap FieldType.classNames ++ result.elim [] FieldType.classNames

def mapNames (f : Text → Text) : Descriptor → Descriptor
  | .field type => .field (type.mapNames f)
  | .method parameters result =>
    .method (parameters.map (FieldType.mapNames f)) (result.map (FieldType.mapNames f))

example :
    render (.method [.primitive .int, .array (.object "a/B".toList)] none) = "(I[La/B;)V".toList := by
  decide

end Descriptor

end Renaming
