import Renaming.Descriptor.Rename

/-!
# Pieces that a scan finds again

`Scanned ps` says that the text of the pieces `ps` is cut into these very pieces
(`Scanned.pieces_join`). What a plain `L` must not do is open a reference, and whether it does depends
only on the text up to the first character that is no name character (`closes`). That part of a
text is the same whatever names stand in its references, so putting other names into them keeps
pieces scanned (`Scanned.map_mapName`).
-/

namespace Renaming.Descriptor

/-- Whether a text goes on with name characters up to a `;`. The flag says whether one of them came
already, since a reference needs at least one. -/
def closes : Bool → Text → Bool
  | _, [] => false
  | named, c :: s => if isNameChar c then closes true s else named && c == ';'

theorem closes_iff {named : Bool} {s : Text} :
    closes named s = true ↔ ∃ name rest, (named = true ∨ name ≠ []) ∧
      (∀ c ∈ name, isNameChar c = true) ∧ s = name ++ ';' :: rest := by
  induction s generalizing named with
  | nil => simp [closes]
  | cons c s ih =>
    rw [closes]
    split
    · rename_i hc
      rw [ih]
      constructor
      · rintro ⟨name, rest, -, hall, rfl⟩
        exact ⟨c :: name, rest, .inr (List.cons_ne_nil _ _), List.forall_mem_cons.2 ⟨hc, hall⟩, rfl⟩
      · rintro ⟨name, rest, -, hall, heq⟩
        cases name with
        | nil =>
          have : c = ';' := (List.cons.inj heq).1
          rw [this] at hc; exact absurd hc (by decide)
        | cons c' name =>
          obtain ⟨-, hs⟩ := List.cons.inj heq
          exact ⟨name, rest, .inl rfl, (List.forall_mem_cons.1 hall).2, hs⟩
    · rename_i hc
      rw [Bool.and_eq_true, beq_iff_eq]
      constructor
      · rintro ⟨hn, rfl⟩
        exact ⟨[], s, .inl hn, by simp, rfl⟩
      · rintro ⟨name, rest, hn, hall, heq⟩
        cases name with
        | nil => exact ⟨by simpa using hn, (List.cons.inj heq).1⟩
        | cons c' name =>
          obtain ⟨rfl, -⟩ := List.cons.inj heq
          exact absurd (hall c (List.mem_cons_self ..)) hc

theorem reference?_eq_none_of_ne {c : Char} (s : Text) (hc : c ≠ 'L') :
    reference? (c :: s) = none := by
  rw [reference?, if_neg hc]

theorem reference?_eq_none_iff {s : Text} :
    reference? ('L' :: s) = none ↔ closes false s = false := by
  rw [← Bool.not_eq_true, ← Option.not_isSome_iff_eq_none]
  refine not_congr ?_
  rw [Option.isSome_iff_exists, closes_iff, Prod.exists]
  refine exists_congr fun name => exists_congr fun rest => ?_
  rw [reference?_eq_some_iff]
  simp [IsClassName, Piece.render, and_assoc]

theorem closes_reference {name : Text} (h : IsClassName name) (named : Bool) (rest : Text) :
    closes named ((Piece.reference name).render ++ rest) = true := by
  refine closes_iff.2 ⟨'L' :: name, rest, .inr (List.cons_ne_nil _ _), ?_, by simp [Piece.render]⟩
  exact List.forall_mem_cons.2 ⟨by decide, h.2⟩

@[simp] theorem join_nil : join [] = [] := rfl

@[simp] theorem join_cons (piece : Piece) (ps : List Piece) :
    join (piece :: ps) = piece.render ++ join ps := rfl

@[simp] theorem join_append (ps qs : List Piece) : join (ps ++ qs) = join ps ++ join qs := by
  simp [join]

/-- Each reference has the name of a class, and no plain `L` opens a reference. -/
def Scanned : List Piece → Prop
  | [] => True
  | .plain c :: ps => (c = 'L' → closes false (join ps) = false) ∧ Scanned ps
  | .reference name :: ps => IsClassName name ∧ Scanned ps

theorem scanned_pieces (s : Text) : Scanned (pieces s) := by
  fun_induction pieces s with
  | case1 => trivial
  | case2 c s name rest h hlt ih => exact ⟨isClassName_of_reference? h, ih⟩
  | case3 c s h ih =>
    refine ⟨fun hc => ?_, ih⟩
    rw [join_pieces]
    exact reference?_eq_none_iff.1 (hc ▸ h)

theorem Scanned.pieces_join {ps : List Piece} (h : Scanned ps) : pieces (join ps) = ps := by
  induction ps with
  | nil => exact pieces_nil
  | cons piece ps ih =>
    cases piece with
    | plain c =>
      obtain ⟨hc, hps⟩ := h
      have hnone : reference? (c :: join ps) = none := by
        by_cases hL : c = 'L'
        · rw [hL]; exact reference?_eq_none_iff.2 (hc hL)
        · exact reference?_eq_none_of_ne _ hL
      show pieces (c :: join ps) = _
      rw [pieces_cons_of_none hnone, ih hps]
    | reference name =>
      obtain ⟨hname, hps⟩ := h
      rw [join_cons, pieces_of_reference? (reference?_render hname _), ih hps]

/-- Puts another name into a reference. -/
def Piece.mapName (f : Text → Text) : Piece → Piece
  | .plain c => .plain c
  | .reference name => .reference (f name)

theorem Piece.rename_eq_mapName (d : Dictionary) :
    Piece.rename d = Piece.mapName (d.rename .klass) := by
  funext piece
  cases piece <;> rfl

/-- The names in the references among pieces. -/
def namesOf (ps : List Piece) : List Text := ps.filterMap Piece.name?

theorem references_eq_namesOf (s : Text) : references s = namesOf (pieces s) := rfl

@[simp] theorem namesOf_nil : namesOf [] = [] := rfl

@[simp] theorem namesOf_plain (c : Char) (ps : List Piece) :
    namesOf (.plain c :: ps) = namesOf ps := rfl

@[simp] theorem namesOf_reference (name : Text) (ps : List Piece) :
    namesOf (.reference name :: ps) = name :: namesOf ps := rfl

@[simp] theorem namesOf_append (ps qs : List Piece) :
    namesOf (ps ++ qs) = namesOf ps ++ namesOf qs := List.filterMap_append

theorem namesOf_map_mapName (f : Text → Text) (ps : List Piece) :
    namesOf (ps.map (Piece.mapName f)) = (namesOf ps).map f := by
  induction ps with
  | nil => rfl
  | cons piece ps ih => cases piece <;> simp [Piece.mapName, ih]

theorem map_mapName_congr {f g : Text → Text} {ps : List Piece}
    (h : ∀ name ∈ namesOf ps, f name = g name) :
    ps.map (Piece.mapName f) = ps.map (Piece.mapName g) := by
  induction ps with
  | nil => rfl
  | cons piece ps ih =>
    cases piece with
    | plain c => rw [List.map_cons, List.map_cons, ih h]; rfl
    | reference name =>
      obtain ⟨hname, hps⟩ := List.forall_mem_cons.1 h
      rw [List.map_cons, List.map_cons, ih hps, Piece.mapName, Piece.mapName, hname]

theorem map_mapName_of_fixed {f : Text → Text} {ps : List Piece}
    (h : ∀ name ∈ namesOf ps, f name = name) : ps.map (Piece.mapName f) = ps := by
  have hid : Piece.mapName id = id := by
    funext piece
    cases piece <;> rfl
  rw [map_mapName_congr (g := id) h, hid, List.map_id]

theorem Scanned.isClassName {ps : List Piece} (h : Scanned ps) :
    ∀ name ∈ namesOf ps, IsClassName name := by
  induction ps with
  | nil => simp
  | cons piece ps ih =>
    cases piece with
    | plain c => exact ih h.2
    | reference name => exact List.forall_mem_cons.2 ⟨h.1, ih h.2⟩

theorem isClassName_of_mem_references {s name : Text} (h : name ∈ references s) : IsClassName name :=
  (scanned_pieces s).isClassName name h

theorem closes_join_map_mapName {f : Text → Text} {ps : List Piece} (hps : Scanned ps)
    (hf : ∀ name ∈ namesOf ps, IsClassName (f name)) (named : Bool) :
    closes named (join (ps.map (Piece.mapName f))) = closes named (join ps) := by
  induction ps generalizing named with
  | nil => rfl
  | cons piece ps ih =>
    cases piece with
    | plain c =>
      show closes named (c :: join _) = closes named (c :: join ps)
      rw [closes, closes, ih hps.2 hf]
    | reference name =>
      rw [List.map_cons, join_cons, join_cons, closes_reference hps.1]
      exact closes_reference (hf name (List.mem_cons_self ..)) ..

theorem Scanned.map_mapName {f : Text → Text} {ps : List Piece} (h : Scanned ps)
    (hf : ∀ name ∈ namesOf ps, IsClassName (f name)) : Scanned (ps.map (Piece.mapName f)) := by
  induction ps with
  | nil => trivial
  | cons piece ps ih =>
    cases piece with
    | plain c => exact ⟨fun hc => (closes_join_map_mapName h.2 hf _).trans (h.1 hc), ih h.2 hf⟩
    | reference name =>
      obtain ⟨hname, hps⟩ := List.forall_mem_cons.1 hf
      exact ⟨hname, ih h.2 hps⟩

/-- Putting names of classes into the references of a text keeps the places of the references. -/
theorem pieces_join_map_mapName {f : Text → Text} {s : Text}
    (hf : ∀ name ∈ references s, IsClassName (f name)) :
    pieces (join ((pieces s).map (Piece.mapName f))) = (pieces s).map (Piece.mapName f) :=
  ((scanned_pieces s).map_mapName hf).pieces_join

theorem references_join_map_mapName {f : Text → Text} {s : Text}
    (hf : ∀ name ∈ references s, IsClassName (f name)) :
    references (join ((pieces s).map (Piece.mapName f))) = (references s).map f := by
  rw [references_eq_namesOf, pieces_join_map_mapName hf, namesOf_map_mapName, references_eq_namesOf]

end Renaming.Descriptor
