import Renaming.Text.Basic

/-!
# Kinds of names

A name belongs to a class, a field or a method. `Kind.ofTag?` reads the tag by which a declaration
says which (`Kind.ofTag?_eq_some_iff`).
-/

namespace Renaming

inductive Kind where
  | klass
  | field
  | method
  deriving DecidableEq, Repr

namespace Kind

def name : Kind → String
  | .klass => "class"
  | .field => "field"
  | .method => "method"

/-- How a declaration spells its kind. -/
def tag (kind : Kind) : Text := kind.name.toList

def ofTag? (tag : Text) : Option Kind :=
  [klass, field, method].find? fun kind => kind.tag = tag

theorem ofTag?_eq_some_iff {tag : Text} {kind : Kind} : ofTag? tag = some kind ↔ tag = kind.tag := by
  constructor
  · intro h
    have := List.find?_some h
    simpa [eq_comm] using this
  · rintro rfl
    cases kind <;> decide

instance {p : Kind → Prop} [DecidablePred p] : Decidable (∀ kind, p kind) :=
  decidable_of_iff (p .klass ∧ p .field ∧ p .method)
    ⟨fun h kind => match kind with
      | .klass => h.1
      | .field => h.2.1
      | .method => h.2.2,
    fun h => ⟨h _, h _, h _⟩⟩

end Kind

end Renaming
