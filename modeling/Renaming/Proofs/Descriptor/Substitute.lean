import Renaming.Proofs.Descriptor.Rename
import Renaming.Proofs.Text.Columns

/-!
# Renaming a descriptor that was renamed

If the class targets are names of classes, the references of a substituted text are those of the
text with the new names, at the same places (`pieces_substitute`), so two renamings compose piece by
piece, and with one dictionary the second does not fail (`exists_rename_of_rename`). `rename_again` and
`rename_back` are about the whole descriptor: the packages may keep the second renaming from touching
it where the first one did not, or the other way round.
-/

namespace Renaming.Descriptor
variable {settings : Settings} {d d' : Dictionary} {s t : Text} {x : Char}

theorem isClassName_rename (hclass : d.Targets .klass IsClassName) :
    ∀ name ∈ references s, IsClassName (d.rename .klass name) :=
  fun _ hname => hclass.rename (isClassName_of_mem_references hname)

theorem pieces_substitute (hclass : d.Targets .klass IsClassName) :
    pieces (substitute d s .positional) = (pieces s).map (Piece.mapName (d.rename .klass)) := by
  rw [substitute_positional, pieces_join_map_mapName (isClassName_rename hclass)]

theorem references_substitute (hclass : d.Targets .klass IsClassName) :
    references (substitute d s .positional) = (references s).map (d.rename .klass) := by
  rw [substitute_positional, references_join_map_mapName (isClassName_rename hclass)]

theorem Piece.mapName_mapName (f g : Text → Text) (piece : Piece) :
    (piece.mapName f).mapName g = piece.mapName fun name => g (f name) := by
  cases piece <;> rfl

theorem substitute_substitute (hclass : d.Targets .klass IsClassName) :
    substitute d' (substitute d s .positional) .positional =
      join ((pieces s).map (Piece.mapName fun name => d'.rename .klass (d.rename .klass name))) := by
  rw [substitute_positional, pieces_substitute hclass, List.map_map]
  exact congrArg join (List.map_congr_left fun piece _ => piece.mapName_mapName ..)

/-- The classes of a substituted text are targets. -/
theorem knows_references_substitute (hclass : d.Targets .klass IsClassName)
    (hknown : ∀ name ∈ references s, d.Knows name) :
    ∀ name ∈ references (substitute d s .positional), d.Knows name := by
  rw [references_substitute hclass]
  intro name hname
  obtain ⟨old, hold, rfl⟩ := List.mem_map.1 hname
  exact (hknown old hold).rename

/-- A descriptor that was renamed can be renamed once more, whatever its classes became. -/
theorem exists_rename_of_rename (hmode : settings.substitution = .positional)
    (hclass : d.Targets .klass IsClassName) (h : (rename settings d s).result = .ok t) :
    ∃ t', (rename settings d t).result = .ok t' := by
  rcases rename_eq_ok_iff.1 h with ⟨hout, rfl⟩ | ⟨-, hknown, rfl⟩
  · exact ⟨t, rename_of_outside hout⟩
  · rw [hmode]
    exact exists_rename_iff.2 (.inr (knows_references_substitute hclass hknown))

/-- Renaming a renamed descriptor again leaves it. Its classes are all known, as targets; if one of
them left the packages, that leaves the descriptor too. -/
theorem rename_again (hmode : settings.substitution = .positional) (hsettled : d.Settled)
    (hclass : d.Targets .klass IsClassName) (h : (rename settings d s).result = .ok t) :
    (rename settings d t).result = .ok t := by
  rcases rename_eq_ok_iff.1 h with ⟨hout, rfl⟩ | ⟨-, hknown, rfl⟩
  · exact rename_of_outside hout
  · rw [hmode]
    by_cases hout : Outside settings (substitute d s .positional)
    · exact rename_of_outside hout
    · have hknown' := knows_references_substitute hclass hknown
      have hsame :
          substitute d (substitute d s .positional) .positional = substitute d s .positional := by
        rw [substitute_substitute hclass, substitute_positional]
        exact congrArg join (map_mapName_congr fun name _ => hsettled.rename_rename)
      rw [rename_of_known hout hknown', hmode, hsame]

/-- Renaming a renamed descriptor with the inverse dictionary gives the descriptor back. Each class
of it was a source, since it is no mere target, so its new name lies inside the packages. -/
theorem rename_back (hmode : settings.substitution = .positional) (hinverse : d.Inverse d')
    (hclass : d.Targets .klass IsClassName) (hcovers : d.Targets .klass (settings.covers · = true))
    (hunmixed : ∀ name ∈ references s, d.Unmixed .klass name)
    (h : (rename settings d s).result = .ok t) : (rename settings d' t).result = .ok s := by
  rcases rename_eq_ok_iff.1 h with ⟨hout, rfl⟩ | ⟨-, hknown, rfl⟩
  · exact rename_of_outside hout
  · rw [hmode]
    have hentry : ∀ name ∈ references (substitute d s .positional),
        ∃ old, d.get? .klass old = some name := by
      rw [references_substitute hclass]
      intro name hname
      obtain ⟨old, hold, rfl⟩ := List.mem_map.1 hname
      obtain ⟨target, hget⟩ := (hknown old hold).isSource (hunmixed old hold)
      exact ⟨old, by rw [Dictionary.rename_of_get? hget, hget]⟩
    have hout : ¬ Outside settings (substitute d s .positional) := by
      refine not_outside_iff.2 fun name hname => ?_
      obtain ⟨old, hget⟩ := hentry name hname
      exact hcovers old name hget
    have hknown' : ∀ name ∈ references (substitute d s .positional), d'.Knows name := by
      intro name hname
      obtain ⟨old, hget⟩ := hentry name hname
      exact .inl ⟨old, (hinverse .klass old name).1 hget⟩
    have hsame : substitute d' (substitute d s .positional) .positional = s := by
      have hfixed : ∀ name ∈ namesOf (pieces s),
          d'.rename .klass (d.rename .klass name) = name :=
        fun name hname => hinverse.rename_rename (hunmixed name hname)
      rw [substitute_substitute hclass, map_mapName_of_fixed hfixed, join_pieces]
    rw [rename_of_known hout hknown', hmode, hsame]

/-! ### Characters of a substituted text -/

/-- A character that ends a column or a line. -/
def IsBreak (x : Char) : Prop := x = '\t' ∨ x = '\r' ∨ x = '\n'

theorem IsBreak.isNameChar (hx : IsBreak x) : isNameChar x = false := by
  rcases hx with rfl | rfl | rfl <;> rfl

theorem not_mem_of_isClassName (hx : IsBreak x) {name : Text} (h : IsClassName name) : x ∉ name :=
  fun hmem => Bool.false_ne_true (hx.isNameChar.symm.trans (h.2 x hmem))

theorem not_mem_render_reference (hx : IsBreak x) {name : Text} (hname : x ∉ name) :
    x ∉ (Piece.reference name).render := by
  have hne : x ≠ 'L' ∧ x ≠ ';' := by rcases hx with rfl | rfl | rfl <;> decide
  simp [Piece.render, hne, hname]

theorem not_mem_join_map (hx : IsBreak x) {f : Text → Text} {ps : List Piece}
    (hf : ∀ name ∈ namesOf ps, x ∉ f name) (hps : x ∉ join ps) :
    x ∉ join (ps.map (Piece.mapName f)) := by
  induction ps with
  | nil => exact hps
  | cons piece ps ih =>
    rw [join_cons, List.mem_append, not_or] at hps
    rw [List.map_cons, join_cons, List.mem_append, not_or]
    cases piece with
    | plain c => exact ⟨hps.1, ih hf hps.2⟩
    | reference name =>
      obtain ⟨hname, hrest⟩ := List.forall_mem_cons.1 hf
      exact ⟨not_mem_render_reference hx hname, ih hrest hps.2⟩

/-- In either mode, no break gets into a text if none stands in a target. -/
theorem not_mem_substitute (hx : IsBreak x) (hd : d.Targets .klass (x ∉ ·))
    (hs : x ∉ s) (mode : Substitution) : x ∉ substitute d s mode := by
  have hname : ∀ name ∈ references s, x ∉ d.rename .klass name := fun name hname =>
    hd.rename (not_mem_of_isClassName hx (isClassName_of_mem_references hname))
  cases mode with
  | positional =>
    rw [substitute_positional]
    exact not_mem_join_map hx hname (by rwa [join_pieces])
  | firstOccurrence =>
    rw [substitute]
    -- over the references still to come: none of the replacements made so far has brought it in
    generalize references s = names at hname
    induction names generalizing s with
    | nil => exact hs
    | cons name names ih =>
      obtain ⟨hfirst, hrest⟩ := List.forall_mem_cons.1 hname
      refine ih (fun hmem => ?_) hrest
      rcases Text.mem_replaceFirst hmem with hmem | hmem
      · exact not_mem_render_reference hx hfirst hmem
      · exact hs hmem

theorem not_mem_of_rename (hx : IsBreak x) (hd : d.Targets .klass (x ∉ ·))
    (hs : x ∉ s) (h : (rename settings d s).result = .ok t) : x ∉ t := by
  rcases rename_eq_ok_iff.1 h with ⟨-, rfl⟩ | ⟨-, -, rfl⟩
  · exact hs
  · exact not_mem_substitute hx hd hs _

end Renaming.Descriptor
