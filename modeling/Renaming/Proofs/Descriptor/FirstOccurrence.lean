import Mathlib.Data.List.Induction
import Renaming.Proofs.Descriptor.Occurrence
import Renaming.Proofs.Descriptor.Rename
import Renaming.Proofs.Text.Replace

/-!
# Replacing one reference after the other

When the turn of a reference comes, the text before it may be anything: earlier replacements may
have hit the wrong places. What holds is that the text before it is `Sealed`, no reference that
starts in it goes on into the pieces still to come, and that these pieces stand as they did
(`Reaches`, `exists_reaches`). So the first occurrence of the reference is its own copy or lies
wholly before it. The text before the first reference is never hit since no reference starts in it,
whatever comes after (`free_of_plain`).
-/

namespace Renaming.Descriptor
variable {settings : Settings} {d : Dictionary} {s t text front rest name : Text}
  {before after : List Piece} {c : Char}

/-- A reference that starts in `front` ends in it when `rest` comes after. -/
def Sealed (front rest : Text) : Prop :=
  ∀ tail, tail <:+ front → tail ≠ [] → ∀ name, IsClassName name →
    (Piece.reference name).render <+: tail ++ rest → (Piece.reference name).render <+: tail

theorem sealed_nil (rest : Text) : Sealed [] rest :=
  fun _ htail hne => absurd (List.suffix_nil.1 htail) hne

theorem sealed_of_semicolon (h : front.getLast? = some ';') : Sealed front rest := by
  intro tail htail hne name hname hstarts
  refine prefix_of_semicolon hname ?_ hstarts
  obtain ⟨lead, rfl⟩ := htail
  rwa [List.getLast?_append_of_ne_nil lead hne] at h

/-- A character that opens no reference can be added. -/
theorem Sealed.concat (h : Sealed front (c :: rest)) (hc : c = 'L' → closes false rest = false) :
    Sealed (front ++ [c]) rest := by
  intro tail htail hne name hname hstarts
  obtain rfl | ⟨tail', rfl, htail'⟩ := List.suffix_concat_iff.1 htail
  · exact absurd rfl hne
  · by_cases hne' : tail' = []
    · rw [hne'] at hstarts
      exact absurd hstarts (not_prefix_of_closes hname hc)
    · rw [List.append_assoc] at hstarts
      exact (h tail' htail' hne' name hname hstarts).trans (List.prefix_append tail' [c])

/-- The first occurrence of a reference is its own copy behind `front`, or lies in `front`. -/
theorem Sealed.exists_cut? (h : Sealed front ((Piece.reference name).render ++ rest))
    (hname : IsClassName name) :
    ∃ left right,
      Text.cut? (Piece.reference name).render (front ++ (Piece.reference name).render ++ rest) =
        some (left, right) ∧
      ((left = front ∧ right = rest) ∨ ∃ middle,
        front = left ++ (Piece.reference name).render ++ middle ∧
          right = middle ++ (Piece.reference name).render ++ rest) := by
  obtain ⟨left, right, hcut, tail, rfl⟩ := Text.exists_cut? (Piece.reference name).render front rest
  have heq := Text.eq_of_cut? hcut
  simp only [List.append_assoc, List.append_cancel_left_eq] at heq
  refine ⟨left, right, hcut, ?_⟩
  by_cases htail : tail = []
  · rw [htail, List.nil_append, List.append_cancel_left_eq] at heq
    exact .inl ⟨by rw [htail, List.append_nil], heq.symm⟩
  · obtain ⟨middle, rfl⟩ := h tail (List.suffix_append left tail) htail name hname ⟨right, heq.symm⟩
    rw [List.append_assoc, List.append_cancel_left_eq] at heq
    exact .inr ⟨middle, (List.append_assoc ..).symm, by rw [← heq, List.append_assoc]⟩

/-- The text came so far that `front` stands for the pieces `before` and the pieces `after` are
still to come. Though `front` need not be what the pieces `before` are renamed to, it is as long. -/
structure Reaches (d : Dictionary) (before after : List Piece) (text front : Text) : Prop where
  text_eq : text = front ++ join after
  sealed_front : Sealed front (join after)
  length_eq : front.encode.length =
    (join (before.map (Piece.mapName (d.rename .klass)))).encode.length

namespace Reaches

theorem plain (h : Reaches d before (.plain c :: after) text front)
    (hc : c = 'L' → closes false (join after) = false) :
    Reaches d (before ++ [.plain c]) after text (front ++ [c]) where
  text_eq := by rw [h.text_eq]; simp [Piece.render]
  sealed_front := h.sealed_front.concat hc
  length_eq := by
    have hlength := h.length_eq
    simp only [List.map_append, join_append, Text.encode_append, List.length_append, hlength]
    rfl

/-- What is replaced when the turn of a reference comes. -/
theorem replacement (h : Reaches d before (.reference name :: after) text front)
    (hname : IsClassName name) :
    ∃ left right, Text.cut? (Piece.reference name).render text = some (left, right) ∧
      replaceReference d text name =
        left ++ (Piece.reference (d.rename .klass name)).render ++ right ∧
      ((left = front ∧ right = join after) ∨ ∃ middle,
        front = left ++ (Piece.reference name).render ++ middle ∧
          right = middle ++ (Piece.reference name).render ++ join after) := by
  have hsealed : Sealed front ((Piece.reference name).render ++ join after) := h.sealed_front
  obtain ⟨left, right, hcut, hplace⟩ := hsealed.exists_cut? hname
  rw [List.append_assoc, ← join_cons, ← h.text_eq] at hcut
  refine ⟨left, right, hcut, ?_, hplace⟩
  rw [replaceReference, Text.replaceFirst, hcut]
  rfl

theorem reference (h : Reaches d before (.reference name :: after) text front)
    (hname : IsClassName name) :
    ∃ front', Reaches d (before ++ [.reference name]) after (replaceReference d text name) front' := by
  have hlength := h.length_eq
  obtain ⟨left, right, -, hnew, ⟨rfl, rfl⟩ | ⟨middle, rfl, rfl⟩⟩ := h.replacement hname
  · refine ⟨left ++ (Piece.reference (d.rename .klass name)).render, hnew, ?_, ?_⟩
    · exact sealed_of_semicolon (by rw [List.getLast?_append, getLast?_render, Option.some_or])
    · simp [hlength, Piece.mapName]
  · refine ⟨left ++ (Piece.reference (d.rename .klass name)).render ++
      (middle ++ (Piece.reference name).render), ?_, ?_, ?_⟩
    · rw [hnew]
      simp only [List.append_assoc]
    · refine sealed_of_semicolon ?_
      rw [List.getLast?_append, List.getLast?_append, getLast?_render, Option.some_or, Option.some_or]
    · simp only [List.map_append, join_append, Text.encode_append, List.length_append] at hlength ⊢
      simp only [List.map_cons, List.map_nil, join_cons, join_nil, List.append_nil, Piece.mapName]
      omega

end Reaches

theorem exists_reaches (d : Dictionary) (h : pieces s = before ++ after) :
    ∃ front, Reaches d before after ((namesOf before).foldl (replaceReference d) s) front := by
  induction before using List.reverseRecOn generalizing after with
  | nil => exact ⟨[], eq_of_pieces h, sealed_nil _, rfl⟩
  | append_singleton before piece ih =>
    rw [List.append_assoc, List.singleton_append] at h
    obtain ⟨front, hfront⟩ := ih h
    have hscanned : Scanned (piece :: after) := (h ▸ scanned_pieces s).right
    rw [namesOf_append, List.foldl_append]
    cases piece with
    | plain c => exact ⟨front ++ [c], hfront.plain hscanned.1⟩
    | reference name => exact hfront.reference hscanned.1

/-! ### The text before the first reference -/

/-- No reference starts in the text before the first reference, whatever comes after it. -/
theorem free_of_plain {lead : List Piece} {first : Text}
    (h : Scanned (lead ++ .reference first :: after)) (hlead : namesOf lead = []) (rest : Text) :
    Free (join lead) rest := by
  induction lead with
  | nil => exact free_nil rest
  | cons piece lead ih =>
    cases piece with
    | reference name => cases hlead
    | plain c =>
      have hsame : lead.map (Piece.mapName id) = lead := map_mapName_of_fixed fun _ _ => rfl
      have hclosed := closes_map_eq_false (f := id) h rest
      rw [hsame] at hclosed
      exact free_cons_iff.2 ⟨hclosed, ih h.2 hlead⟩

theorem foldl_replaceReference_append {lead : Text} {names : List Text}
    (h : ∀ rest, Free lead rest) (hnames : ∀ name ∈ names, IsClassName name) (rest : Text) :
    names.foldl (replaceReference d) (lead ++ rest) =
      lead ++ names.foldl (replaceReference d) rest := by
  induction names generalizing rest with
  | nil => rfl
  | cons name names ih =>
    obtain ⟨hname, hnames⟩ := List.forall_mem_cons.1 hnames
    have hstep : replaceReference d (lead ++ rest) name = lead ++ replaceReference d rest name :=
      Text.replaceFirst_append _ fun tail htail hne => h rest tail htail hne name hname
    rw [List.foldl_cons, List.foldl_cons, hstep, ih hnames]

theorem prefix_substitute (h : pieces s = before ++ .reference name :: after)
    (hbefore : namesOf before = []) : join before <+: substitute d s .firstOccurrence := by
  have hscanned : Scanned (before ++ .reference name :: after) := h ▸ scanned_pieces s
  have hnames : ∀ name ∈ references s, IsClassName name := fun _ => isClassName_of_mem_references
  have hsame := foldl_replaceReference_append (d := d) (free_of_plain hscanned hbefore) hnames
    (join (.reference name :: after))
  rw [← eq_of_pieces h] at hsame
  exact ⟨_, hsame.symm⟩

theorem suffix_substitute (h : pieces s = before ++ .reference name :: after)
    (hafter : namesOf after = []) : join after <:+ substitute d s .firstOccurrence := by
  rw [List.append_cons] at h
  obtain ⟨front, hfront⟩ := exists_reaches d h
  have hnames : references s = namesOf (before ++ [.reference name]) := by
    rw [references_eq_namesOf, h, namesOf_append _ after, hafter, List.append_nil]
  exact ⟨front, by rw [← hfront.text_eq, substitute, hnames]⟩

theorem length_substitute (d : Dictionary) (s : Text) :
    (substitute d s .firstOccurrence).encode.length =
      (substitute d s .positional).encode.length := by
  obtain ⟨front, hfront⟩ := exists_reaches d (List.append_nil (pieces s)).symm
  have htext := hfront.text_eq
  rw [join_nil, List.append_nil] at htext
  rw [substitute_positional, ← hfront.length_eq, ← htext]
  rfl

/-- Where each reference is replaced at its first occurrence, every reference still occurs when its
turn comes, what is replaced is its own copy or lies wholly before it, and what comes after its own
copy is the rest of the old descriptor. So the new descriptor has as many bytes as if each reference
had been replaced where it stands, and the old text before the first and after the last one. -/
theorem rename_reference_by_reference (hmode : settings.substitution = .firstOccurrence)
    (hcovers : ∀ name ∈ references s, settings.covers name = true)
    (h : (rename settings d s).result = .ok t) :
    t = (references s).foldl (replaceReference d) s ∧
    (∀ before name after, pieces s = before ++ .reference name :: after →
      let text := (namesOf before).foldl (replaceReference d) s
      ∃ front left right, text = front ++ (Piece.reference name).render ++ join after ∧
        Text.cut? (Piece.reference name).render text = some (left, right) ∧
        replaceReference d text name =
          left ++ (Piece.reference (d.rename .klass name)).render ++ right ∧
        (left = front ∨ ∃ middle, front = left ++ (Piece.reference name).render ++ middle)) ∧
    (∃ t', (rename { settings with substitution := .positional } d s).result = .ok t' ∧
      t.encode.length = t'.encode.length) ∧
    ∀ before name after, pieces s = before ++ .reference name :: after →
      (namesOf before = [] → join before <+: t) ∧ (namesOf after = [] → join after <:+ t) := by
  have hout : ¬ Outside settings s := not_outside_iff.2 hcovers
  rcases rename_eq_ok_iff.1 h with ⟨hout', -⟩ | ⟨-, hknown, rfl⟩
  · exact absurd hout' hout
  rw [hmode]
  refine ⟨rfl, fun before name after hs => ?_, ?_, fun before name after hs => ?_⟩
  · obtain ⟨front, hfront⟩ := exists_reaches d hs
    obtain ⟨left, right, hcut, hnew, hplace⟩ := hfront.replacement (isClassName_of_pieces hs)
    refine ⟨front, left, right, ?_, hcut, hnew, hplace.imp And.left ?_⟩
    · rw [hfront.text_eq, join_cons, List.append_assoc]
    · exact fun ⟨middle, hmiddle, _⟩ => ⟨middle, hmiddle⟩
  · have hout' : ¬ Outside { settings with substitution := .positional } s := hout
    exact ⟨_, rename_of_known hout' hknown, length_substitute d s⟩
  · exact ⟨prefix_substitute hs, suffix_substitute hs⟩

/-- The second reference is replaced inside the name that was put into the first one. -/
theorem rename_reference_by_reference_inside :
    let d := (Dictionary.empty.insert .klass "a/X".toList "I;La/Y".toList).insert
      .klass "a/Y".toList "b".toList
    let settings : Settings := ⟨[], [], ["a/".toList], .firstOccurrence⟩
    let s := "(La/X;La/Y;)V".toList
    (rename settings d s).result = .ok "(LI;Lb;La/Y;)V".toList ∧
    (∃ front left right, "(LI;La/Y;La/Y;)V".toList = front ++ "La/Y;".toList ++ ")V".toList ∧
      Text.cut? "La/Y;".toList "(LI;La/Y;La/Y;)V".toList = some (left, right) ∧
      "(LI;Lb;La/Y;)V".toList = left ++ "Lb;".toList ++ right ∧
      (left = front ∨ ∃ middle, front = left ++ "La/Y;".toList ++ middle)) ∧
    "(".toList <+: "(LI;Lb;La/Y;)V".toList ∧ ")V".toList <:+ "(LI;Lb;La/Y;)V".toList := by
  intro d settings s
  have h : (rename settings d s).result = .ok "(LI;Lb;La/Y;)V".toList := by decide +kernel
  have hcovers : ∀ name ∈ references s, settings.covers name = true := by decide +kernel
  have hfirst : pieces s = [.plain '('] ++ .reference "a/X".toList ::
      [.reference "a/Y".toList, .plain ')', .plain 'V'] := by decide +kernel
  have hsecond : pieces s = [.plain '(', .reference "a/X".toList] ++ .reference "a/Y".toList ::
      [.plain ')', .plain 'V'] := by decide +kernel
  obtain ⟨-, hstep, -, hends⟩ := rename_reference_by_reference rfl hcovers h
  exact ⟨h, hstep _ _ _ hsecond, (hends _ _ _ hfirst).1 rfl, (hends _ _ _ hsecond).2 rfl⟩

end Renaming.Descriptor
