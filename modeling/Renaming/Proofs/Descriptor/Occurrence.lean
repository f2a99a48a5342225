import Mathlib.Data.List.Basic
import Renaming.Proofs.Descriptor.Scan

/-!
# Where a reference can occur

The only `;` of a reference is its last character. So a reference that starts in a text with a `;`
at the end also ends in it (`prefix_of_semicolon`), and among pieces none of whose plain characters
opens a reference (`Quiet`) a reference occurs only inside another one
(`Quiet.inside`). The pieces of a text are quiet, and those before a reference stay quiet
whatever is put into the references among them (`Scanned.quiet_map`): a plain `L` there meets a
character that ends a name before it meets a reference.
-/

namespace Renaming.Descriptor
variable {name : Text} {c : Char}

theorem semicolon_not_mem (h : IsClassName name) : ';' ∉ 'L' :: name := by
  refine fun hmem => absurd (show isNameChar ';' = false from by decide) ?_
  rcases List.mem_cons.1 hmem with heq | hmem
  · exact absurd heq (by decide)
  · simp [h.2 ';' hmem]

theorem prefix_of_semicolon {s rest : Text} (h : IsClassName name) (hs : s.getLast? = some ';')
    (hstarts : (Piece.reference name).render <+: s ++ rest) :
    (Piece.reference name).render <+: s := by
  rcases List.prefix_or_prefix_of_prefix hstarts (List.prefix_append s rest) with hle | hge
  · exact hle
  · rcases List.prefix_concat_iff.1 hge with heq | hshort
    · exact heq ▸ List.prefix_refl _
    · exact absurd (hshort.mem (List.mem_of_getLast? hs)) (semicolon_not_mem h)

theorem getLast?_render (name : Text) : (Piece.reference name).render.getLast? = some ';' :=
  List.getLast?_concat

theorem not_prefix_of_closes {s : Text} (h : IsClassName name)
    (hs : c = 'L' → closes false s = false) : ¬ (Piece.reference name).render <+: c :: s := by
  rintro ⟨rest, heq⟩
  have hopen : reference? (c :: s) = some (name, rest) := heq ▸ reference?_render h rest
  by_cases hc : c = 'L'
  · rw [hc, reference?_eq_none_iff.2 (hs hc)] at hopen
    cases hopen
  · rw [reference?_eq_none_of_ne s hc] at hopen
    cases hopen

/-- No reference starts in `gap` when `rest` comes after. -/
def Free (gap rest : Text) : Prop :=
  ∀ tail, tail <:+ gap → tail ≠ [] → ∀ name, IsClassName name →
    ¬ (Piece.reference name).render <+: tail ++ rest

theorem free_nil (rest : Text) : Free [] rest :=
  fun _ htail hne => absurd (List.suffix_nil.1 htail) hne

theorem free_cons_iff {gap rest : Text} :
    Free (c :: gap) rest ↔ (c = 'L' → closes false (gap ++ rest) = false) ∧ Free gap rest := by
  constructor
  · intro h
    refine ⟨fun hc => reference?_eq_none_iff.1 ?_,
      fun tail htail => h tail (htail.trans (List.suffix_cons c gap))⟩
    rw [Option.eq_none_iff_forall_ne_some]
    rintro ⟨name, after⟩ hopen
    obtain ⟨hname, heq⟩ := reference?_eq_some_iff.1 hopen
    refine h (c :: gap) (List.suffix_refl _) (List.cons_ne_nil c gap) name hname ⟨after, ?_⟩
    rw [← heq, hc, List.cons_append]
  · rintro ⟨hc, h⟩ tail htail hne name hname
    rcases List.suffix_cons_iff.1 htail with rfl | htail
    · exact not_prefix_of_closes hname hc
    · exact h tail htail hne name hname

/-- No plain character opens a reference. -/
def Quiet : List Piece → Prop
  | [] => True
  | .plain c :: ps => (c = 'L' → closes false (join ps) = false) ∧ Quiet ps
  | .reference _ :: ps => Quiet ps

theorem Quiet.of_cons {piece : Piece} {ps : List Piece} (h : Quiet (piece :: ps)) : Quiet ps := by
  cases piece with
  | plain c => exact h.2
  | reference name => exact h

theorem Scanned.quiet {ps : List Piece} (h : Scanned ps) : Quiet ps := by
  induction ps with
  | nil => trivial
  | cons piece ps ih =>
    cases piece with
    | plain c => exact ⟨h.1, ih h.2⟩
    | reference name => exact ih h.2

theorem eq_of_pieces {s : Text} {before after : List Piece} (h : pieces s = before ++ after) :
    s = join before ++ join after := by
  rw [← join_append, ← h, join_pieces]

theorem Scanned.right {ps qs : List Piece} (h : Scanned (ps ++ qs)) : Scanned qs := by
  induction ps with
  | nil => exact h
  | cons piece ps ih =>
    cases piece with
    | plain c => exact ih h.2
    | reference name => exact ih h.2

theorem isClassName_of_pieces {s : Text} {before after : List Piece}
    (h : pieces s = before ++ .reference name :: after) : IsClassName name :=
  (h ▸ scanned_pieces s).right.1

/-- The text up to a reference decides whether a plain `L` opens one, and only as far as the first
reference in it. -/
theorem closes_of_closes_map {f : Text → Text} {ps after : List Piece}
    (h : Scanned (ps ++ .reference name :: after)) {named : Bool} (rest : Text)
    (hmap : closes named (join (ps.map (Piece.mapName f)) ++ rest) = true) :
    closes named (join (ps ++ .reference name :: after)) = true := by
  induction ps generalizing named with
  | nil => exact closes_reference h.1 ..
  | cons piece ps ih =>
    cases piece with
    | plain c =>
      change closes named (c :: (join (ps.map (Piece.mapName f)) ++ rest)) = true at hmap
      show closes named (c :: join (ps ++ .reference name :: after)) = true
      rw [closes] at hmap ⊢
      split
      · rename_i hc
        rw [if_pos hc] at hmap
        exact ih h.2 hmap
      · rename_i hc
        rwa [if_neg hc] at hmap
    | reference old => exact closes_reference h.1 ..

theorem closes_map_eq_false {f : Text → Text} {ps after : List Piece}
    (h : Scanned (.plain c :: ps ++ .reference name :: after)) (rest : Text) (hc : c = 'L') :
    closes false (join (ps.map (Piece.mapName f)) ++ rest) = false := by
  rw [← Bool.not_eq_true]
  intro hmap
  exact Bool.false_ne_true ((h.1 hc).symm.trans (closes_of_closes_map h.2 rest hmap))

theorem Scanned.quiet_map {f : Text → Text} {ps after : List Piece}
    (h : Scanned (ps ++ .reference name :: after)) : Quiet (ps.map (Piece.mapName f)) := by
  induction ps with
  | nil => trivial
  | cons piece ps ih =>
    cases piece with
    | plain c => exact ⟨by simpa using closes_map_eq_false h [], ih h.2⟩
    | reference old => exact ih h.2

/-- The reference between `left` and `right` stands inside a reference among the pieces. -/
def Inside (ps : List Piece) (name left right : Text) : Prop :=
  ∃ before outer after lead trail, ps = before ++ .reference outer :: after ∧
    (Piece.reference outer).render = lead ++ (Piece.reference name).render ++ trail ∧
    left = join before ++ lead ∧ right = trail ++ join after

theorem Inside.cons {ps : List Piece} {left right : Text} (h : Inside ps name left right)
    (piece : Piece) : Inside (piece :: ps) name (piece.render ++ left) right := by
  obtain ⟨before, outer, after, lead, trail, rfl, houter, rfl, hright⟩ := h
  exact ⟨piece :: before, outer, after, lead, trail, rfl, houter, by simp, hright⟩

/-- Among quiet pieces a reference occurs only inside a reference. -/
theorem Quiet.inside {ps : List Piece} (h : Quiet ps) (hname : IsClassName name)
    {left right : Text} (heq : join ps = left ++ (Piece.reference name).render ++ right) :
    Inside ps name left right := by
  induction ps generalizing left with
  | nil => simp [Piece.render] at heq
  | cons piece ps ih =>
    by_cases hlater : piece.render <+: left
    · obtain ⟨left, rfl⟩ := hlater
      simp only [join_cons, List.append_assoc, List.append_cancel_left_eq] at heq
      exact (ih h.of_cons (by rw [heq, List.append_assoc])).cons piece
    · -- it starts in the first piece, where a plain character opens no reference
      rw [join_cons, List.append_assoc] at heq
      rcases List.append_eq_append_iff.1 heq with ⟨left', hleft, -⟩ | ⟨inner, hpiece, hrest⟩
      · exact absurd ⟨left', hleft.symm⟩ hlater
      · have hinner : inner ≠ [] := by
          rintro rfl
          exact hlater ⟨[], by rw [hpiece, List.append_nil, List.append_nil]⟩
        cases piece with
        | plain c =>
          obtain ⟨rfl, rfl⟩ | ⟨-, hnil⟩ := List.singleton_eq_append_iff.1 hpiece
          · exact absurd ⟨right, hrest⟩ (not_prefix_of_closes hname h.1)
          · exact absurd hnil hinner
        | reference outer =>
          have hlast : inner.getLast? = some ';' := by
            rw [← List.getLast?_append_of_ne_nil left hinner, ← hpiece, getLast?_render]
          obtain ⟨trail, rfl⟩ := prefix_of_semicolon hname hlast ⟨right, hrest⟩
          rw [List.append_assoc, List.append_cancel_left_eq] at hrest
          exact ⟨[], outer, ps, left, trail, rfl, by rw [hpiece, List.append_assoc], rfl, hrest⟩

end Renaming.Descriptor
