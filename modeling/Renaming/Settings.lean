import Renaming.Text.Basic

/-!
# Settings

The two namespaces, the packages whose classes are renamed inside descriptors, and how a renamed
class is put into a descriptor.
-/

namespace Renaming

inductive Substitution where
  /-- Each reference is replaced where it stands. -/
  | positional
  /-- For each reference in turn, the first occurrence of its text is replaced. -/
  | firstOccurrence
  deriving DecidableEq, Repr

structure Settings where
  source : Text
  target : Text
  packages : List Text
  substitution : Substitution
  deriving DecidableEq, Repr

namespace Settings

def standard : Settings where
  source := "intermediary".toList
  target := "named".toList
  packages := ["net/minecraft".toList, "com/mojang".toList]
  substitution := .positional

/-- Whether the class lies in one of the packages. A package is the beginning of a name, whether
or not a whole component of it ends there. -/
def covers (settings : Settings) (name : Text) : Bool :=
  settings.packages.any fun package => package.isPrefixOf name

theorem covers_iff {settings : Settings} {name : Text} :
    settings.covers name = true ↔ ∃ package ∈ settings.packages, package <+: name := by
  simp [covers]

example : standard.covers "net/minecraftforge/Bar".toList = true := by decide
example : standard.covers "com/other/Bar".toList = false := by decide

end Settings

end Renaming
