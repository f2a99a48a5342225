import Mathlib.Logic.ExistsUnique
import Renaming.Proofs.Descriptor.Occurrence
import Renaming.Proofs.Descriptor.Rename

/-!
# Texts cut at their references

A `Cut` is a text in the form gap, reference, gap, reference, and so on. It is `Leftmost` if no
reference starts in a gap, that is, if each reference is the first one after the one before it. Every
text has exactly one such cut (`Cut.existsUnique_leftmost`), and renaming acts on it as a whole
(`rename_leftmost_cut`).
-/

namespace Renaming.Descriptor
variable {s : Text} {c : Char}

inductive Cut where
  | tail (text : Text)
  | reference (gap name : Text) (rest : Cut)
  deriving DecidableEq, Repr

namespace Cut
variable {cut : Cut}

def render : Cut → Text
  | .tail text => text
  | .reference gap name rest => gap ++ (Piece.reference name).render ++ rest.render

def names : Cut → List Text
  | .tail _ => []
  | .reference _ name rest => name :: rest.names

def mapNames (f : Text → Text) : Cut → Cut
  | .tail text => .tail text
  | .reference gap name rest => .reference gap (f name) (rest.mapNames f)

/-- Each reference is the first one in the text that is left. -/
def Leftmost : Cut → Prop
  | .tail text => Free text []
  | .reference gap name rest =>
    Free gap ((Piece.reference name).render ++ rest.render) ∧ IsClassName name ∧ rest.Leftmost

/-! ### Cuts and pieces -/

def toPieces : Cut → List Piece
  | .tail text => text.map .plain
  | .reference gap name rest => gap.map .plain ++ .reference name :: rest.toPieces

/-- Puts a character in front of the first gap. -/
def push (c : Char) : Cut → Cut
  | .tail text => .tail (c :: text)
  | .reference gap name rest => .reference (c :: gap) name rest

def ofPieces : List Piece → Cut
  | [] => .tail []
  | .plain c :: ps => (ofPieces ps).push c
  | .reference name :: ps => .reference [] name (ofPieces ps)

theorem toPieces_push (c : Char) (cut : Cut) : (cut.push c).toPieces = .plain c :: cut.toPieces := by
  cases cut <;> rfl

theorem toPieces_ofPieces (ps : List Piece) : (ofPieces ps).toPieces = ps := by
  induction ps with
  | nil => rfl
  | cons piece ps ih =>
    cases piece with
    | plain c => rw [ofPieces, toPieces_push, ih]
    | reference name =>
      show .reference name :: (ofPieces ps).toPieces = _
      rw [ih]

theorem ofPieces_toPieces (cut : Cut) : ofPieces cut.toPieces = cut := by
  induction cut with
  | tail text =>
    induction text with
    | nil => rfl
    | cons c text ih =>
      show (ofPieces (tail text).toPieces).push c = _
      rw [ih]
      rfl
  | reference gap name rest ih =>
    induction gap with
    | nil =>
      show reference [] name (ofPieces rest.toPieces) = _
      rw [ih]
    | cons c gap ihgap =>
      show (ofPieces (reference gap name rest).toPieces).push c = _
      rw [ihgap]
      rfl

theorem join_map_plain (text : Text) : join (text.map .plain) = text := by
  induction text with
  | nil => rfl
  | cons c text ih =>
    rw [List.map_cons, join_cons, ih]
    rfl

theorem namesOf_map_plain (text : Text) : namesOf (text.map .plain) = [] := by
  induction text with
  | nil => rfl
  | cons c text ih => exact ih

theorem join_toPieces (cut : Cut) : join cut.toPieces = cut.render := by
  induction cut with
  | tail text => exact join_map_plain text
  | reference gap name rest ih =>
    rw [toPieces, join_append, join_map_plain, join_cons, ih, render, List.append_assoc]

theorem namesOf_toPieces (cut : Cut) : namesOf cut.toPieces = cut.names := by
  induction cut with
  | tail text => exact namesOf_map_plain text
  | reference gap name rest ih =>
    rw [toPieces, namesOf_append, namesOf_map_plain, namesOf_reference, ih]
    rfl

theorem toPieces_mapNames (f : Text → Text) (cut : Cut) :
    (cut.mapNames f).toPieces = cut.toPieces.map (Piece.mapName f) := by
  have hplain : ∀ text : Text,
      (text.map Piece.plain).map (Piece.mapName f) = text.map Piece.plain := fun text => by
    rw [List.map_map]
    exact List.map_congr_left fun _ _ => rfl
  induction cut with
  | tail text => exact (hplain text).symm
  | reference gap name rest ih =>
    rw [mapNames, toPieces, toPieces, ih, List.map_append, List.map_cons, hplain]
    rfl

theorem scanned_map_plain_append_iff {gap : Text} {ps : List Piece} :
    Scanned (gap.map .plain ++ ps) ↔ Free gap (join ps) ∧ Scanned ps := by
  induction gap with
  | nil => exact ⟨fun h => ⟨free_nil _, h⟩, And.right⟩
  | cons c gap ih =>
    have hjoin : join (gap.map .plain ++ ps) = gap ++ join ps := by
      rw [join_append, join_map_plain]
    rw [free_cons_iff, and_assoc, ← ih, ← hjoin]
    rfl

theorem scanned_toPieces_iff : Scanned cut.toPieces ↔ cut.Leftmost := by
  induction cut with
  | tail text =>
    rw [toPieces, ← List.append_nil (text.map Piece.plain), scanned_map_plain_append_iff]
    exact and_iff_left trivial
  | reference gap name rest ih =>
    rw [toPieces, scanned_map_plain_append_iff, join_cons, join_toPieces, Leftmost, ← ih]
    rfl

theorem Leftmost.pieces_render (h : cut.Leftmost) : pieces cut.render = cut.toPieces := by
  rw [← join_toPieces]
  exact (scanned_toPieces_iff.2 h).pieces_join

theorem Leftmost.references_render (h : cut.Leftmost) : references cut.render = cut.names := by
  rw [references_eq_namesOf, h.pieces_render, namesOf_toPieces]

theorem Leftmost.substitute_render (d : Dictionary) (h : cut.Leftmost) :
    substitute d cut.render .positional = (cut.mapNames (d.rename .klass)).render := by
  rw [substitute_positional, h.pieces_render, ← toPieces_mapNames, join_toPieces]

theorem leftmost_ofPieces (s : Text) : (ofPieces (pieces s)).Leftmost :=
  scanned_toPieces_iff.1 ((toPieces_ofPieces (pieces s)).symm ▸ scanned_pieces s)

theorem render_ofPieces (s : Text) : (ofPieces (pieces s)).render = s := by
  rw [← join_toPieces, toPieces_ofPieces, join_pieces]

theorem existsUnique_leftmost (s : Text) : ∃! cut : Cut, cut.Leftmost ∧ cut.render = s := by
  refine ⟨ofPieces (pieces s), ⟨leftmost_ofPieces s, render_ofPieces s⟩, ?_⟩
  rintro cut ⟨h, rfl⟩
  rw [h.pieces_render, ofPieces_toPieces]

end Cut

variable {settings : Settings}

theorem covers_eq_false_iff {name : Text} :
    settings.covers name = false ↔ ∀ package ∈ settings.packages, ¬ package <+: name := by
  rw [← Bool.not_eq_true, Settings.covers_iff]
  simp

/-- A text stays as it is if it has no reference or if one of them lies outside the packages. If all
are known, each name is replaced between the old gaps, and else the first unknown one is reported. -/
theorem rename_leftmost_cut (d : Dictionary) (s : Text)
    (hmode : settings.substitution = .positional) :
    (∃! cut : Cut, cut.Leftmost ∧ cut.render = s) ∧
    ∀ cut : Cut, cut.Leftmost → cut.render = s →
      ((cut.names = [] ∨ ∃ name ∈ cut.names, ∀ package ∈ settings.packages, ¬ package <+: name) →
        (rename settings d s).result = .ok s) ∧
      ((∀ name ∈ cut.names, ∃ package ∈ settings.packages, package <+: name) →
        ((∀ name ∈ cut.names, d.Knows name) →
          (rename settings d s).result = .ok (cut.mapNames (d.rename .klass)).render) ∧
        ((∃ name ∈ cut.names, ¬ d.Knows name) →
          ∃ before name after, cut.names = before ++ name :: after ∧
            (∀ earlier ∈ before, d.Knows earlier) ∧ ¬ d.Knows name ∧
            (rename settings d s).result = .error ⟨name, s⟩)) := by
  refine ⟨Cut.existsUnique_leftmost s, ?_⟩
  rintro cut hcut rfl
  rw [← hcut.references_render]
  refine ⟨?_, fun hcovers => ?_⟩
  · rintro (hnil | ⟨name, hname, hpackages⟩)
    · have hout : ¬ Outside settings cut.render := by simp [Outside, hnil]
      have hnames : cut.names = [] := by rw [← hcut.references_render, hnil]
      rw [rename_of_known hout (by simp [hnil]), hmode, hcut.substitute_render]
      cases cut with
      | tail text => rfl
      | reference gap name rest => cases hnames
    · exact rename_of_outside ⟨name, hname, covers_eq_false_iff.2 hpackages⟩
  · have hout : ¬ Outside settings cut.render :=
      not_outside_iff.2 fun name hname => Settings.covers_iff.2 (hcovers name hname)
    constructor
    · intro hknown
      rw [rename_of_known hout hknown, hmode, hcut.substitute_render]
    · rintro ⟨name, hname, hunknown⟩
      obtain ⟨before, first, after, hs, hbefore, hfirst⟩ :=
        exists_first_unknown fun hknown => hunknown (hknown name hname)
      exact ⟨before, first, after, hs, hbefore, hfirst, rename_of_unknown hout hs hbefore hfirst⟩

/-- The text is no descriptor, and the new name of `a/B` has a `;` in it. -/
theorem rename_leftmost_cut_outcomes :
    let s := "xLa/B;é;LLa/C;(L".toList
    let d := (Dictionary.empty.insert .klass "a/B".toList "q;L".toList).insert
      .klass "z".toList "La/C".toList
    let settings (packages : List Text) : Settings := ⟨[], [], packages, .positional⟩
    (rename (settings ["a/".toList]) .empty s).result = .ok s ∧
    (rename (settings ["a/".toList, "La/".toList]) d s).result = .ok "xLq;L;é;LLa/C;(L".toList ∧
    (rename (settings [[]]) (.insert .empty .klass "a/B".toList "q".toList) s).result =
      .error ⟨"La/C".toList, s⟩ := by
  intro s d settings
  have hmode (packages : List Text) : (settings packages).substitution = .positional := rfl
  have hcut : Cut.ofPieces (pieces s) = .reference "x".toList "a/B".toList
      (.reference "é;".toList "La/C".toList (.tail "(L".toList)) := by decide +kernel
  have hleft := Cut.leftmost_ofPieces s
  have hrender := Cut.render_ofPieces s
  rw [hcut] at hleft hrender
  refine ⟨?_, ?_, ?_⟩
  · have h := (rename_leftmost_cut .empty s (hmode ["a/".toList])).2 _ hleft hrender
    exact h.1 (.inr (by decide))
  · have h := (rename_leftmost_cut d s (hmode ["a/".toList, "La/".toList])).2 _ hleft hrender
    exact (h.2 (by decide)).1 (by decide)
  · have h := (rename_leftmost_cut (.insert .empty .klass "a/B".toList "q".toList) s
      (hmode [[]])).2 _ hleft hrender
    obtain ⟨before, name, after, hnames, hbefore, hname, herror⟩ := (h.2 (by decide)).2 (by decide)
    match before, hnames with
    | [], hnames => cases hnames; exact absurd (by decide) hname
    | [_], hnames => cases hnames; exact herror
    | _ :: _ :: _, hnames => exact absurd hnames (by simp [Cut.names])

end Renaming.Descriptor
