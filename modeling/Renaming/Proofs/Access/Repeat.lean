import Mathlib.Control.Monad.Basic
import Renaming.Proofs.Access.Line

/-!
# Renaming a declaration again and again

The targets of a dictionary may be sources too, in chains or in cycles, so that each time a line is
renamed all its names may change once more, and its descriptor may leave the packages or come back into
them. What stays is that the line is a declaration of its kind with so many columns that can be
renamed (`Renamable`), so any number of turns succeeds (`renameLine_repeatedly`).
-/

namespace Renaming.Access
variable {settings : Settings} {d : Dictionary} {number width : Nat} {numbers : List Nat}
  {line new : Text} {kind : Kind}

/-- Renames the line, then the new line, and so on, once for each number. -/
def renameRepeatedly (settings : Settings) (d : Dictionary) (numbers : List Nat) (line : Text) :
    Traced Failure Text :=
  numbers.foldlM (fun line number => renameLine settings d number line) line

/-- The line declares something of the kind in so many columns and can be renamed. -/
structure Renamable (settings : Settings) (d : Dictionary) (kind : Kind) (width : Nat) (line : Text) :
    Prop where
  ofLine_eq : LineKind.ofLine line = .declaration kind
  length_columns : line.columns.length = width
  exists_renames : ∃ new, Renames settings d line new

/-- One turn. -/
theorem Renamable.of_renames (hmode : settings.substitution = .positional)
    (hclass : d.Targets .klass Descriptor.IsClassName) (htab : ∀ kind, d.Targets kind ('\t' ∉ ·))
    (hkind : LineKind.ofLine line = .declaration kind) (h : Renames settings d line new) :
    Renamable settings d kind line.columns.length new := by
  cases h with
  | header h => rw [h] at hkind; cases hkind
  | other h => rcases h with h | h <;> rw [h] at hkind <;> cases hkind
  | klass h hc =>
    rename_i access tag name extra
    have hcols := columns_of_class (htab .klass) hc
    have hnew := LineKind.ofLine_congr hc hcols
    refine ⟨hnew.trans hkind, ?_, _, .klass (hnew.trans h) hcols⟩
    rw [hcols, hc]
    rfl
  | member h hk hc hdesc =>
    rename_i access tag owner name descriptor descriptor' extra kind
    have hcols := columns_of_member kind htab hc hdesc
    have hnew := LineKind.ofLine_congr hc hcols
    obtain ⟨descriptor'', hdesc'⟩ := Descriptor.exists_rename_of_rename hmode hclass hdesc
    refine ⟨hnew.trans hkind, ?_, _, .member (hnew.trans h) hk hcols hdesc'⟩
    rw [hcols, hc]
    rfl

/-- Any number of turns. -/
theorem Renamable.exists_renameRepeatedly (hmode : settings.substitution = .positional)
    (hclass : d.Targets .klass Descriptor.IsClassName) (htab : ∀ kind, d.Targets kind ('\t' ∉ ·))
    (h : Renamable settings d kind width line) (numbers : List Nat) :
    ∃ last, (renameRepeatedly settings d numbers line).result = .ok last ∧
      Renamable settings d kind width last := by
  induction numbers generalizing line with
  | nil => exact ⟨line, rfl, h⟩
  | cons number numbers ih =>
    obtain ⟨new, hnew⟩ := h.exists_renames
    have hstep := Renamable.of_renames hmode hclass htab h.ofLine_eq hnew
    rw [h.length_columns] at hstep
    obtain ⟨last, hlast, hrenamable⟩ := ih hstep
    refine ⟨last, ?_, hrenamable⟩
    rw [renameRepeatedly, List.foldlM_cons]
    exact Traced.bind_result_eq_ok_iff.2 ⟨new, renameLine_eq_ok_iff.2 hnew, hlast⟩

/-- Let the class targets be names of classes and no other target hold a tab. A declaration that could
be renamed once can be renamed any number of times, and stays a declaration of its kind with as many
columns. -/
theorem renameLine_repeatedly (hmode : settings.substitution = .positional)
    (hclass : d.Targets .klass Descriptor.IsClassName)
    (hmember : ∀ kind, kind ≠ .klass → d.Targets kind ('\t' ∉ ·))
    (hkind : LineKind.ofLine line = .declaration kind)
    (hok : (renameLine settings d number line).result = .ok new) (numbers : List Nat) :
    ∃ last, (renameRepeatedly settings d numbers new).result = .ok last ∧
      LineKind.ofLine last = .declaration kind ∧ last.columns.length = line.columns.length := by
  have htab := targets_not_mem (.inl rfl) hclass hmember
  have hnew := Renamable.of_renames hmode hclass htab hkind (renameLine_eq_ok_iff.1 hok)
  obtain ⟨last, hlast, hrenamable⟩ := hnew.exists_renameRepeatedly hmode hclass htab numbers
  exact ⟨last, hlast, hrenamable.ofLine_eq, hrenamable.length_columns⟩

/-- The classes form a cycle, and the field names one of two. The first turn brings the class `b/Z`
into the descriptor, which lies outside the packages, so the next ones leave the descriptor. -/
theorem renameLine_repeatedly_cycle :
    let d := ((((Dictionary.empty.insert .klass "a/X".toList "a/Y".toList).insert .klass "a/Y".toList
      "b/Z".toList).insert .klass "b/Z".toList "a/X".toList).insert .field "f".toList
      "g".toList).insert .field "g".toList "f".toList
    let settings : Settings := ⟨[], [], ["a/".toList], .positional⟩
    let line : Text := "mutable\tfield\ta/X\tf\t[La/Y;\textra".toList
    let new : Text := "mutable\tfield\ta/Y\tg\t[Lb/Z;\textra".toList
    (renameLine settings d 1 line).result = .ok new ∧
      (renameRepeatedly settings d [2, 3] new).result =
        .ok "mutable\tfield\ta/X\tg\t[Lb/Z;\textra".toList ∧
      ∃ last, (renameRepeatedly settings d [2, 3] new).result = .ok last ∧
        LineKind.ofLine last = .declaration .field ∧ last.columns.length = line.columns.length := by
  intro d settings line new
  have hok : (renameLine settings d 1 line).result = .ok new := by decide +kernel
  have hmode : settings.substitution = .positional := rfl
  have hclass : d.Targets .klass Descriptor.IsClassName := by decide +kernel
  have hmember : ∀ kind, kind ≠ .klass → d.Targets kind ('\t' ∉ ·) := by decide
  have hkind : LineKind.ofLine line = .declaration .field := by decide +kernel
  refine ⟨hok, by decide +kernel, ?_⟩
  exact renameLine_repeatedly hmode hclass hmember hkind hok [2, 3]

end Renaming.Access
