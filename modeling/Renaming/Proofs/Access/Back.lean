import Mathlib.Control.Monad.Basic
import Renaming.Proofs.Access.Line

/-!
# Renaming a declaration back

A declaration mentions names in up to three columns (`mentioned`). If the dictionary has an inverse
and no mentioned name is a target without being a source, renaming with the inverse undoes the
renaming of the declaration (`renameLine_back`).
-/

namespace Renaming.Access
variable {settings : Settings} {d d' : Dictionary} {number : Nat} {line new : Text} {kind : Kind}

/-- The names that a declaration mentions, each with its kind. -/
def mentioned (kind : Kind) (line : Text) : List (Kind × Text) :=
  match kind, line.columns with
  | .klass, _ :: _ :: name :: _ => [(.klass, name)]
  | .klass, _ => []
  | kind, _ :: _ :: owner :: name :: descriptor :: _ =>
    (.klass, owner) :: (kind, name) ::
      (Descriptor.references descriptor).map fun name => (.klass, name)
  | _, _ => []

theorem mentioned_class {access tag name : Text} {extra : List Text}
    (hc : line.columns = access :: tag :: name :: extra) :
    mentioned .klass line = [(.klass, name)] := by
  simp only [mentioned, hc]

theorem mentioned_member {access tag owner name descriptor : Text} {extra : List Text}
    (hk : kind ≠ .klass) (hc : line.columns = access :: tag :: owner :: name :: descriptor :: extra) :
    mentioned kind line = (.klass, owner) :: (kind, name) ::
      (Descriptor.references descriptor).map fun name => (.klass, name) := by
  cases kind with
  | klass => exact absurd rfl hk
  | field => simp only [mentioned, hc]
  | method => simp only [mentioned, hc]

/-- Renaming a declaration there with a dictionary and back with its inverse is the identity. -/
theorem renameLine_back (number' : Nat) (hmode : settings.substitution = .positional)
    (hinverse : d.Inverse d') (htab : ∀ kind, d.Targets kind ('\t' ∉ ·))
    (hclass : d.Targets .klass fun target =>
      Descriptor.IsClassName target ∧ settings.covers target = true)
    (hkind : LineKind.ofLine line = .declaration kind)
    (hmentioned : ∀ entry ∈ mentioned kind line, d.Unmixed entry.1 entry.2)
    (hok : (renameLine settings d number line).result = .ok new) :
    (renameLine settings d' number' new).result = .ok line := by
  rw [renameLine_eq_ok_iff]
  cases renameLine_eq_ok_iff.1 hok with
  | header h => rw [h] at hkind; cases hkind
  | other h => rcases h with h | h <;> rw [h] at hkind <;> cases hkind
  | klass h hc =>
    rename_i access tag name extra
    rw [h] at hkind; cases hkind
    rw [mentioned_class hc] at hmentioned
    have hname : d.Unmixed .klass name := hmentioned _ (List.mem_singleton_self _)
    have hcols := columns_of_class (htab .klass) hc
    have hback : Renames settings d' _ _ := .klass ((LineKind.ofLine_congr hc hcols).trans h) hcols
    rw [hinverse.rename_rename hname, ← hc, Text.ofColumns_columns] at hback
    exact hback
  | member h hk hc hdesc =>
    rename_i access tag owner name descriptor descriptor' extra kind
    rw [h] at hkind; cases hkind
    rw [mentioned_member hk hc] at hmentioned
    simp only [List.forall_mem_cons, List.forall_mem_map] at hmentioned
    obtain ⟨hmowner, hmname, hmdescriptor⟩ := hmentioned
    have hcols := columns_of_member kind htab hc hdesc
    have hdback : (Descriptor.rename settings d' descriptor').result = .ok descriptor :=
      Descriptor.rename_back hmode hinverse (hclass.mono fun _ h => h.1) (hclass.mono fun _ h => h.2)
        hmdescriptor hdesc
    have hback : Renames settings d' _ _ :=
      .member ((LineKind.ofLine_congr hc hcols).trans h) hk hcols hdback
    rw [hinverse.rename_rename hmowner, hinverse.rename_rename hmname, ← hc,
      Text.ofColumns_columns] at hback
    exact hback

/-- A method with a class of its own in a further column; the descriptor has a class twice and `x/D`,
which no dictionary knows, stands in the class column. -/
theorem renameLine_back_method :
    let d := (Dictionary.empty.insert .klass "a/B".toList "a/C".toList).insert
      .method "m".toList "n".toList
    let d' := (Dictionary.empty.insert .klass "a/C".toList "a/B".toList).insert
      .method "n".toList "m".toList
    let settings : Settings := ⟨[], [], ["a/".toList], .positional⟩
    let line := "open\tmethod\tx/D\tm\t(La/B;[La/B;)V\ta/B".toList
    let new := "open\tmethod\tx/D\tn\t(La/C;[La/C;)V\ta/B".toList
    (renameLine settings d 1 line).result = .ok new ∧
      (renameLine settings d' 2 new).result = .ok line := by
  intro d d' settings line new
  have hok : (renameLine settings d 1 line).result = .ok new := by decide +kernel
  have hmode : settings.substitution = .positional := rfl
  have hinverse : d.Inverse d' := by decide
  have hkind : LineKind.ofLine line = .declaration .method := by decide +kernel
  refine ⟨hok, ?_⟩
  exact renameLine_back 2 hmode hinverse (by decide) (by decide +kernel) hkind (by decide +kernel)
    hok

end Renaming.Access
