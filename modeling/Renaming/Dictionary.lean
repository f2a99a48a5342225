import Renaming.Kind
import Std.Data.ExtTreeMap

/-!
# The dictionary of names

For each kind a finite map from the names of the source namespace to the names of the target
namespace. The three maps are independent of each other, and two dictionaries are equal as soon as
every look-up agrees (`Dictionary.ext_get?`), so the order in which entries came does not matter.
-/

namespace Renaming

/-- Target names by source name, in the order of their characters. -/
abbrev Names := Std.ExtTreeMap Text Text

structure Dictionary where
  classes : Names
  fields : Names
  methods : Names

namespace Dictionary

def empty : Dictionary := ⟨∅, ∅, ∅⟩

def names (d : Dictionary) : Kind → Names
  | .klass => d.classes
  | .field => d.fields
  | .method => d.methods

def get? (d : Dictionary) (kind : Kind) (name : Text) : Option Text := (d.names kind)[name]?

/-- Adds an entry. An older entry for the same name is lost. -/
def insert (d : Dictionary) (kind : Kind) (source target : Text) : Dictionary :=
  match kind with
  | .klass => { d with classes := d.classes.insert source target }
  | .field => { d with fields := d.fields.insert source target }
  | .method => { d with methods := d.methods.insert source target }

/-- Adds an entry and gives back the target of the older one, if there was one. -/
def exchange (d : Dictionary) (kind : Kind) (source target : Text) : Option Text × Dictionary :=
  (d.get? kind source, d.insert kind source target)

/-- The target name, and the name itself where there is none. -/
def rename (d : Dictionary) (kind : Kind) (name : Text) : Text := (d.get? kind name).getD name

/-- Whether some entry of the kind has this target. -/
def hasTarget (d : Dictionary) (kind : Kind) (target : Text) : Bool :=
  (d.names kind).toList.any fun entry => entry.2 == target

def size (d : Dictionary) (kind : Kind) : Nat := (d.names kind).size

def isEmpty (d : Dictionary) : Bool :=
  d.classes.isEmpty && d.fields.isEmpty && d.methods.isEmpty

/-! ### Look-up -/

@[simp] theorem names_empty (kind : Kind) : empty.names kind = ∅ := by cases kind <;> rfl

theorem names_insert (d : Dictionary) (kind kind' : Kind) (source target : Text) :
    (d.insert kind source target).names kind' =
      if kind = kind' then (d.names kind).insert source target else d.names kind' := by
  cases kind <;> cases kind' <;> rfl

@[simp] theorem get?_empty (kind : Kind) (name : Text) : empty.get? kind name = none := by
  simp [get?]

theorem get?_insert (d : Dictionary) (kind kind' : Kind) (source target name : Text) :
    (d.insert kind source target).get? kind' name =
      if kind = kind' ∧ source = name then some target else d.get? kind' name := by
  rw [get?, names_insert]
  by_cases hk : kind = kind'
  · subst hk
    simp [get?, Std.ExtTreeMap.getElem?_insert]
  · simp [hk, get?]

theorem hasTarget_iff {d : Dictionary} {kind : Kind} {target : Text} :
    d.hasTarget kind target = true ↔ ∃ source, d.get? kind source = some target := by
  simp only [hasTarget, get?, List.any_eq_true, beq_iff_eq, Prod.exists]
  constructor
  · rintro ⟨source, _, hmem, rfl⟩
    exact ⟨source, Std.ExtTreeMap.mem_toList_iff_getElem?_eq_some.mp hmem⟩
  · rintro ⟨source, h⟩
    exact ⟨source, target, Std.ExtTreeMap.mem_toList_iff_getElem?_eq_some.mpr h, rfl⟩

theorem ext_get? {d d' : Dictionary} (h : ∀ kind name, d.get? kind name = d'.get? kind name) :
    d = d' := by
  have hn : ∀ kind, d.names kind = d'.names kind :=
    fun kind => Std.ExtTreeMap.ext_getElem? fun name => h kind name
  cases d
  cases d'
  have hc := hn .klass
  have hf := hn .field
  have hm := hn .method
  simp only [names] at hc hf hm
  subst hc hf hm
  rfl

end Dictionary

end Renaming
