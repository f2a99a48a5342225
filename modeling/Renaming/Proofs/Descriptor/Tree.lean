import Renaming.Descriptor.Grammar
import Renaming.Proofs.Descriptor.Rename

/-!
# Renaming acts on the tree of a descriptor

The scan knows nothing of the grammar, yet it cuts the text of a descriptor into the pieces that
the grammar put there (`pieces_render`): the letters of the primitive types, the brackets and the
`V` are no `L`, so an `L` stands only where a class type begins. `rename_render` is then a map over
the tree.
-/

namespace Renaming.Descriptor

theorem scanned_of_ne {ps : List Piece} (hplain : ∀ c, .plain c ∈ ps → c ≠ 'L')
    (hnames : ∀ name ∈ namesOf ps, IsClassName name) : Scanned ps := by
  induction ps with
  | nil => trivial
  | cons piece ps ih =>
    have hps : ∀ c, .plain c ∈ ps → c ≠ 'L' := fun c hc => hplain c (List.mem_cons_of_mem _ hc)
    cases piece with
    | plain c => exact ⟨fun hc => absurd hc (hplain c (List.mem_cons_self ..)), ih hps hnames⟩
    | reference name =>
      obtain ⟨hname, hrest⟩ := List.forall_mem_cons.1 hnames
      exact ⟨hname, ih hps hrest⟩

namespace FieldType

def toPieces : FieldType → List Piece
  | .primitive type => [.plain type.letter]
  | .object name => [.reference name]
  | .array element => .plain '[' :: element.toPieces

theorem join_toPieces (type : FieldType) : join type.toPieces = type.render := by
  induction type with
  | primitive type => rfl
  | object name => simp [toPieces, render, Piece.render]
  | array element ih => rw [toPieces, join_cons, ih]; rfl

theorem namesOf_toPieces (type : FieldType) : namesOf type.toPieces = type.classNames := by
  induction type with
  | primitive type => rfl
  | object name => rfl
  | array element ih => exact ih

theorem toPieces_mapNames (f : Text → Text) (type : FieldType) :
    (type.mapNames f).toPieces = type.toPieces.map (Piece.mapName f) := by
  induction type with
  | primitive type => rfl
  | object name => rfl
  | array element ih => rw [mapNames, toPieces, ih]; rfl

theorem ne_of_plain_mem (type : FieldType) {c : Char} (hc : .plain c ∈ type.toPieces) : c ≠ 'L' := by
  induction type with
  | primitive type =>
    have heq : c = type.letter := by simpa [toPieces] using hc
    rw [heq]; cases type <;> decide
  | object name => simp [toPieces] at hc
  | array element ih =>
    rw [toPieces, List.mem_cons] at hc
    rcases hc with hc | hc
    · cases hc; decide
    · exact ih hc

end FieldType

/-- The pieces of a descriptor: the classes it refers to, and every other character by itself. -/
def toPieces : Descriptor → List Piece
  | .field type => type.toPieces
  | .method parameters result =>
    .plain '(' :: parameters.flatMap FieldType.toPieces ++
      .plain ')' :: result.elim [.plain 'V'] FieldType.toPieces

theorem join_toPieces (tree : Descriptor) : join tree.toPieces = tree.render := by
  cases tree with
  | field type => exact type.join_toPieces
  | method parameters result =>
    have hparameters :
        join (parameters.flatMap FieldType.toPieces) = parameters.flatMap FieldType.render := by
      rw [join, List.flatMap_assoc]
      exact congrArg parameters.flatMap (funext FieldType.join_toPieces)
    have hresult :
        join (result.elim [.plain 'V'] FieldType.toPieces) = result.elim ['V'] FieldType.render := by
      cases result with
      | none => rfl
      | some type => exact type.join_toPieces
    simp [toPieces, render, Piece.render, hparameters, hresult]

theorem namesOf_toPieces (tree : Descriptor) : namesOf tree.toPieces = tree.classNames := by
  cases tree with
  | field type => exact type.namesOf_toPieces
  | method parameters result =>
    have hparameters :
        namesOf (parameters.flatMap FieldType.toPieces) = parameters.flatMap FieldType.classNames := by
      rw [namesOf, List.filterMap_flatMap]
      exact congrArg parameters.flatMap (funext FieldType.namesOf_toPieces)
    have hresult :
        namesOf (result.elim [.plain 'V'] FieldType.toPieces) =
          result.elim [] FieldType.classNames := by
      cases result with
      | none => rfl
      | some type => exact type.namesOf_toPieces
    simp [toPieces, classNames, hparameters, hresult]

theorem toPieces_mapNames (f : Text → Text) (tree : Descriptor) :
    (tree.mapNames f).toPieces = tree.toPieces.map (Piece.mapName f) := by
  cases tree with
  | field type => exact type.toPieces_mapNames f
  | method parameters result =>
    have hparameters : (parameters.map (FieldType.mapNames f)).flatMap FieldType.toPieces =
        (parameters.flatMap FieldType.toPieces).map (Piece.mapName f) := by
      rw [List.flatMap_map, List.map_flatMap]
      exact congrArg parameters.flatMap (funext (FieldType.toPieces_mapNames f))
    have hresult : (result.map (FieldType.mapNames f)).elim [.plain 'V'] FieldType.toPieces =
        (result.elim [.plain 'V'] FieldType.toPieces).map (Piece.mapName f) := by
      cases result with
      | none => rfl
      | some type => exact type.toPieces_mapNames f
    simp [toPieces, mapNames, hparameters, hresult, Piece.mapName]

theorem ne_of_plain_mem (tree : Descriptor) {c : Char} (hc : .plain c ∈ tree.toPieces) :
    c ≠ 'L' := by
  cases tree with
  | field type => exact type.ne_of_plain_mem hc
  | method parameters result =>
    simp only [toPieces, List.cons_append, List.mem_cons, List.mem_append, List.mem_flatMap,
      Piece.plain.injEq] at hc
    rcases hc with rfl | ⟨type, -, hc⟩ | rfl | hc
    · decide
    · exact type.ne_of_plain_mem hc
    · decide
    · cases result with
      | none =>
        have heq : c = 'V' := by simpa using hc
        rw [heq]; decide
      | some type => exact type.ne_of_plain_mem hc

/-- Every class of the descriptor has a name that can stand in a reference. -/
def Named (tree : Descriptor) : Prop := ∀ name ∈ tree.classNames, IsClassName name

instance (tree : Descriptor) : Decidable tree.Named :=
  inferInstanceAs (Decidable (∀ name ∈ tree.classNames, IsClassName name))

theorem pieces_render {tree : Descriptor} (h : tree.Named) : pieces tree.render = tree.toPieces := by
  rw [← join_toPieces]
  refine (scanned_of_ne (fun c hc => tree.ne_of_plain_mem hc) ?_).pieces_join
  rw [namesOf_toPieces]
  exact h

theorem references_render {tree : Descriptor} (h : tree.Named) :
    references tree.render = tree.classNames := by
  rw [references_eq_namesOf, pieces_render h, namesOf_toPieces]

theorem substitute_render (d : Dictionary) {tree : Descriptor} (h : tree.Named) :
    substitute d tree.render .positional = (tree.mapNames (d.rename .klass)).render := by
  rw [substitute_positional, pieces_render h, ← toPieces_mapNames, join_toPieces]

/-- The text of a descriptor stays if a class of it lies outside the packages. If all its classes
are known it becomes the text of the same tree with the classes renamed, and else the first unknown
class is reported, with the text and without a line. -/
theorem rename_render {settings : Settings} (d : Dictionary) {tree : Descriptor} (h : tree.Named)
    (hmode : settings.substitution = .positional) :
    ((∃ name ∈ tree.classNames, settings.covers name = false) →
      (rename settings d tree.render).result = .ok tree.render) ∧
    ((∀ name ∈ tree.classNames, settings.covers name = true) →
      (∀ name ∈ tree.classNames, d.Knows name) →
      (rename settings d tree.render).result = .ok (tree.mapNames (d.rename .klass)).render) ∧
    ((∀ name ∈ tree.classNames, settings.covers name = true) →
      (∃ name ∈ tree.classNames, ¬ d.Knows name) →
      ∃ before name after, tree.classNames = before ++ name :: after ∧
        (∀ earlier ∈ before, d.Knows earlier) ∧ ¬ d.Knows name ∧
        (rename settings d tree.render).result = .error ⟨name, tree.render⟩) := by
  rw [← references_render h]
  refine ⟨rename_of_outside, fun hcovers hknown => ?_, fun hcovers hunknown => ?_⟩
  · rw [rename_of_known (not_outside_iff.2 hcovers) hknown, hmode, substitute_render d h]
  · have hsome : ¬ ∀ name ∈ references tree.render, d.Knows name := by simpa using hunknown
    obtain ⟨before, name, after, hs, hbefore, hname⟩ := exists_first_unknown hsome
    exact ⟨before, name, after, hs, hbefore, hname,
      rename_of_unknown (not_outside_iff.2 hcovers) hs hbefore hname⟩

/-- One class outside the packages, all classes known (`a/C` as a target only), and two unknown. -/
theorem rename_render_outcomes :
    let d := Dictionary.empty.insert .klass "a/B".toList "a/C".toList
    let settings : Settings := ⟨[], [], ["a/".toList], .positional⟩
    (rename settings d "(La/B;[La/C;I)Lx/D;".toList).result = .ok "(La/B;[La/C;I)Lx/D;".toList ∧
    (rename settings d "(La/B;[La/C;I)La/B;".toList).result = .ok "(La/C;[La/C;I)La/C;".toList ∧
    (rename settings d "(La/B;[La/E;I)La/F;".toList).result =
      .error ⟨"a/E".toList, "(La/B;[La/E;I)La/F;".toList⟩ := by
  intro d settings
  have hB : d.Knows "a/B".toList := by decide
  have hE : ¬ d.Knows "a/E".toList := by decide
  let tree (second result : FieldType) : Descriptor :=
    .method [.object "a/B".toList, .array second, .primitive .int] (some result)
  have hmode : settings.substitution = .positional := rfl
  refine ⟨?_, ?_, ?_⟩
  · have h : (tree (.object "a/C".toList) (.object "x/D".toList)).Named := by decide +kernel
    exact (rename_render d h hmode).1 (by decide)
  · have h : (tree (.object "a/C".toList) (.object "a/B".toList)).Named := by decide +kernel
    exact (rename_render d h hmode).2.1 (by decide) (by decide)
  · have h : (tree (.object "a/E".toList) (.object "a/F".toList)).Named := by decide +kernel
    obtain ⟨before, name, after, hs, hbefore, hname, herr⟩ :=
      (rename_render d h hmode).2.2 (by decide) ⟨"a/E".toList, by decide, hE⟩
    match before, hs with
    | [], hs => cases hs; exact absurd hB hname
    | [_], hs => cases hs; exact herr
    | _ :: second :: _, hs =>
      obtain ⟨-, hs⟩ := List.cons.inj hs
      obtain ⟨rfl, -⟩ := List.cons.inj hs
      exact absurd (hbefore "a/E".toList (by simp)) hE

end Renaming.Descriptor
