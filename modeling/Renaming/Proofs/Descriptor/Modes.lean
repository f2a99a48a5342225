import Renaming.Proofs.Descriptor.FirstOccurrence

/-!
# The two ways to substitute

Both ways fail on the same texts, with the same class, since the look-ups come from the old text.
They can differ only where the first occurrence of a reference lies in a reference that was put
there before. If no replacement collides with an earlier one (`Apart`), each reference is replaced
where it stands (`foldl_of_apart`), so the two ways agree (`rename_modes_agree`).
-/

namespace Renaming.Descriptor
variable {d : Dictionary} {s name : Text} {before after : List Piece}

/-- Each class keeps its name, or a reference to it occurs in no reference that was put there before
its turn. -/
def Apart (d : Dictionary) (names : List Text) : Prop :=
  names.Pairwise fun earlier name => d.rename .klass name = name ∨
    ¬ (Piece.reference name).render <:+: (Piece.reference (d.rename .klass earlier)).render

instance (names : List Text) : Decidable (Apart d names) :=
  inferInstanceAs (Decidable (List.Pairwise _ names))

/-- A reference that occurs before its own copy occurs in a reference that was put there. -/
theorem exists_mem_of_occurs {f : Text → Text}
    (h : Scanned (before ++ .reference name :: after))
    (hoccurs : (Piece.reference name).render <:+: join (before.map (Piece.mapName f))) :
    ∃ earlier ∈ namesOf before,
      (Piece.reference name).render <:+: (Piece.reference (f earlier)).render := by
  obtain ⟨left, right, heq⟩ := hoccurs
  obtain ⟨before', outer, after', lead, trail, hsplit, houter, -, -⟩ :=
    h.quiet_map.inside h.right.1 heq.symm
  have hmem : outer ∈ (namesOf before).map f := by
    rw [← namesOf_map_mapName, hsplit, namesOf_append, namesOf_reference]
    simp
  obtain ⟨earlier, hearlier, rfl⟩ := List.mem_map.1 hmem
  exact ⟨earlier, hearlier, lead, trail, houter.symm⟩

theorem foldl_of_apart (h : pieces s = before ++ after) (hapart : Apart d (namesOf before)) :
    (namesOf before).foldl (replaceReference d) s =
      join (before.map (Piece.mapName (d.rename .klass))) ++ join after := by
  induction before using List.reverseRecOn generalizing after with
  | nil => exact eq_of_pieces h
  | append_singleton before piece ih =>
    rw [List.append_assoc, List.singleton_append] at h
    rw [namesOf_append] at hapart ⊢
    obtain ⟨hbefore, -, hlast⟩ := List.pairwise_append.1 hapart
    have hfirst := ih h hbefore
    rw [List.foldl_append, List.map_append, join_append]
    cases piece with
    | plain c => rw [hfirst]; simp [Piece.mapName]
    | reference name =>
      have hscanned : Scanned (before ++ .reference name :: after) := h ▸ scanned_pieces s
      obtain ⟨front, hfront⟩ := exists_reaches d h
      have hsame : front = join (before.map (Piece.mapName (d.rename .klass))) :=
        List.append_cancel_right (hfront.text_eq.symm.trans hfirst)
      obtain ⟨left, right, -, hnew, hplace⟩ := hfront.replacement hscanned.right.1
      show replaceReference d _ name = _
      rw [hnew]
      rcases hplace with ⟨rfl, rfl⟩ | ⟨middle, hmiddle, rfl⟩
      · rw [hsame]
        simp [Piece.mapName]
      · -- an earlier occurrence: the class keeps its name, so whichever is replaced stays
        rw [hmiddle] at hsame
        obtain ⟨earlier, hearlier, hoccurs⟩ :=
          exists_mem_of_occurs hscanned ⟨left, middle, hsame⟩
        have hkept : d.rename .klass name = name :=
          (hlast earlier hearlier name (List.mem_singleton_self name)).resolve_right fun hnot =>
            hnot hoccurs
        rw [← hsame, hkept]
        simp [Piece.mapName, hkept]

theorem substitute_of_apart (h : Apart d (references s)) :
    substitute d s .firstOccurrence = substitute d s .positional := by
  have hall := foldl_of_apart (List.append_nil (pieces s)).symm h
  rw [join_nil, List.append_nil] at hall
  rw [substitute_positional, ← hall]
  rfl

/-- The two ways to substitute succeed on the same descriptors and report the same missing class on
the others, and they agree altogether where no replacement collides with an earlier one. -/
theorem rename_modes_agree (settings : Settings) (d : Dictionary) (s : Text) :
    let positional := rename { settings with substitution := .positional } d s
    let firstOccurrence := rename { settings with substitution := .firstOccurrence } d s
    ((∃ t, firstOccurrence.result = .ok t) ↔ ∃ t, positional.result = .ok t) ∧
    (∀ missing, firstOccurrence.result = .error missing ↔ positional.result = .error missing) ∧
    (Apart d (references s) → firstOccurrence = positional) := by
  have houtside : Outside { settings with substitution := .firstOccurrence } s ↔
      Outside { settings with substitution := .positional } s := Iff.rfl
  refine ⟨?_, fun missing => ?_, fun hapart => ?_⟩
  · rw [exists_rename_iff, exists_rename_iff, houtside]
  · rw [rename_eq_error_iff, rename_eq_error_iff, houtside]
  · rw [rename_eq, rename_eq, substitute_of_apart hapart]
    rfl

/-- The class `a/Z` is only a target, so that its reference occurs before it does no harm. -/
theorem rename_modes_agree_kept :
    let d := (Dictionary.empty.insert .klass "a/X".toList "a/Z".toList).insert
      .klass "a/Y".toList "a/W".toList
    let settings : Settings := ⟨[], [], ["a/".toList], .firstOccurrence⟩
    let s := "(La/X;La/Y;La/Z;)V".toList
    Apart d (references s) ∧ (rename settings d s).result = .ok "(La/Z;La/W;La/Z;)V".toList ∧
      (rename { settings with substitution := .positional } d s).result =
        .ok "(La/Z;La/W;La/Z;)V".toList := by
  intro d settings s
  have hapart : Apart d (references s) := by decide +kernel
  have h : (rename settings d s).result = .ok "(La/Z;La/W;La/Z;)V".toList := by decide +kernel
  have hagree := (rename_modes_agree settings d s).2.2 hapart
  exact ⟨hapart, h, hagree ▸ h⟩

end Renaming.Descriptor
