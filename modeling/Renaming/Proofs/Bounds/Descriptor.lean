import Mathlib.Data.List.Forall2
import Renaming.Proofs.Bounds.Scan

/-!
# Renaming a descriptor by place

All that is read of a reference is cut out of the text between its places. A place holds a reference
if the whole of it can be cut out there (`HoldsAt`), and then so can its name
(`HoldsAt.className?`). The places that the scan finds hold the references, so `rename?` is
`rename` (`rename?_eq`).
-/

namespace Renaming.Descriptor
variable {settings : Settings} {d : Dictionary} {s name : Text} {place : Nat × Nat}

/-! ### Cutting at the places -/

/-- The name in the reference at a place, without the `L` and the `;`. -/
def className? (s : Text) (place : Nat × Nat) : Option Text := do
  s.slice? (place.1 + 1) (← sub? place.2 1)

/-- The reference at the place has this name. -/
def HoldsAt (s : Text) (place : Nat × Nat) (name : Text) : Prop :=
  s.slice? place.1 place.2 = some (Piece.reference name).render

theorem holdsAt_append (before after name : Text) :
    HoldsAt (before ++ ((Piece.reference name).render ++ after)) (before.encode.length,
      before.encode.length + (Piece.reference name).render.encode.length) name := by
  refine Text.slice?_eq_some_iff.2 ⟨before, after, (List.append_assoc ..).symm, rfl, ?_⟩
  rw [Text.encode_append, List.length_append]

theorem reference_append (before name : Text) :
    before ++ (Piece.reference name).render = before ++ ['L'] ++ name ++ [';'] := by
  simp [Piece.render]

theorem HoldsAt.className? (h : HoldsAt s place name) : className? s place = some name := by
  obtain ⟨before, after, rfl, hstart, hstop⟩ := Text.slice?_eq_some_iff.1 h
  have hsub : sub? place.2 1 = some (before ++ ['L'] ++ name).encode.length := by
    have hlength : place.2 = (before ++ ['L'] ++ name).encode.length + 1 := by
      rw [← hstop, reference_append, Text.encode_append, List.length_append]
      rfl
    rw [hlength, sub?_add_right]
  rw [Descriptor.className?, hsub]
  refine Text.slice?_eq_some_iff.2 ⟨before ++ ['L'], ';' :: after, ?_, ?_, rfl⟩
  · rw [reference_append]
    simp
  · rw [Text.encode_append, List.length_append, hstart]
    rfl

theorem holdsAt_spansFrom (lead : Text) (ps : List Piece) :
    List.Forall₂ (HoldsAt (lead ++ join ps))
      ((spansFrom lead.encode.length ps).map Span.place) (namesOf ps) := by
  induction ps generalizing lead with
  | nil => exact .nil
  | cons piece ps ih =>
    have hrest := ih (lead ++ piece.render)
    rw [List.append_assoc, ← join_cons, Text.encode_append, List.length_append] at hrest
    cases piece with
    | plain c => exact hrest
    | reference name => exact .cons (holdsAt_append lead (join ps) name) hrest

theorem holdsAt_spans (s : Text) :
    List.Forall₂ (HoldsAt s) ((spans s).map Span.place) (references s) := by
  have h := holdsAt_spansFrom [] (pieces s)
  rwa [List.nil_append, join_pieces] at h

/-! ### The rounds of the loops -/

/-- The first class outside the packages among those referred to at the places. -/
def firstOutside? (settings : Settings) (s : Text) : List (Nat × Nat) → Option (Option Text)
  | [] => some none
  | place :: places => do
    let name ← className? s place
    if settings.covers name then firstOutside? settings s places else return some name

/-- What a class is called in the descriptor's new text. -/
def lookUp (d : Dictionary) (s name : Text) : Except MissingClass Text :=
  match d.get? .klass name with
  | some new => .ok new
  | none => if d.hasTarget .klass name then .ok name else .error ⟨name, s⟩

def lookUpAt? (d : Dictionary) (s : Text) (place : Nat × Nat) : Option (Except MissingClass Text) :=
  (className? s place).map (lookUp d s)

/-- Writes `new` on with the text from byte `last`, each reference replaced where it stands. -/
def splice? (d : Dictionary) (s : Text) (new : Text) (last : Nat) :
    List (Nat × Nat) → Option (Except MissingClass Text)
  | [] => do
    let tail ← s.slice? last s.encode.length
    return .ok (new ++ tail)
  | place :: places => do
    match ← lookUpAt? d s place with
    | .error missing => return .error missing
    | .ok name =>
      let gap ← s.slice? last place.1
      splice? d s (new ++ gap ++ (Piece.reference name).render) place.2 places

/-- For each reference in turn, replaces the first occurrence of its text in `new`. -/
def replaceEach? (d : Dictionary) (s : Text) (new : Text) :
    List (Nat × Nat) → Option (Except MissingClass Text)
  | [] => some (.ok new)
  | place :: places => do
    match ← lookUpAt? d s place with
    | .error missing => return .error missing
    | .ok name =>
      let old ← s.slice? place.1 place.2
      replaceEach? d s (Text.replaceFirst old (Piece.reference name).render new) places

def substitute? (d : Dictionary) (s : Text) (places : List (Nat × Nat)) :
    Substitution → Option (Except MissingClass Text)
  | .positional => splice? d s [] 0 places
  | .firstOccurrence => replaceEach? d s s places

/-- Renames the classes of a descriptor, which is read by place wherever it is read. -/
def rename? (settings : Settings) (d : Dictionary) (s : Text) :
    Option (Traced MissingClass Text) := do
  let places ← scan? s.encode 0
  if places.isEmpty then return Traced.pure s
  match ← firstOutside? settings s places with
  | some outside => return ⟨[.descriptorKept s outside], .ok s⟩
  | none => return ⟨[], ← substitute? d s places settings.substitution⟩

theorem lookUp_eq (d : Dictionary) (s name : Text) : lookUp d s name =
    if d.knowsClass name then .ok (d.rename .klass name) else .error ⟨name, s⟩ := by
  rw [lookUp, Dictionary.knowsClass]
  cases hget : d.get? .klass name with
  | none =>
    rw [Dictionary.rename_of_get?_none hget]
    rfl
  | some new =>
    rw [Dictionary.rename_of_get? hget]
    rfl

theorem HoldsAt.lookUpAt? (h : HoldsAt s place name) : lookUpAt? d s place =
    some (if d.knowsClass name then .ok (d.rename .klass name) else .error ⟨name, s⟩) := by
  rw [Descriptor.lookUpAt?, h.className?, Option.map_some, lookUp_eq]

/-- The first missing class, or else the new text. -/
def outcome (d : Dictionary) (s : Text) (names : List Text) (new : Text) :
    Except MissingClass Text :=
  match names.find? fun name => !d.knowsClass name with
  | some name => .error ⟨name, s⟩
  | none => .ok new

theorem outcome_cons (name : Text) (names : List Text) (new : Text) :
    outcome d s (name :: names) new =
      if d.knowsClass name then outcome d s names new else .error ⟨name, s⟩ := by
  rw [outcome, List.find?_cons]
  cases d.knowsClass name <;> rfl

theorem firstOutside?_eq {places : List (Nat × Nat)} {names : List Text}
    (h : List.Forall₂ (HoldsAt s) places names) :
    firstOutside? settings s places = some (names.find? fun name => !settings.covers name) := by
  induction h with
  | nil => rfl
  | @cons place name places names hname _ ih =>
    rw [firstOutside?, hname.className?, List.find?_cons]
    show (if settings.covers name then _ else _) = _
    cases settings.covers name with
    | true => exact ih
    | false => rfl

theorem replaceEach?_cons (h : HoldsAt s place name) (new : Text) (places : List (Nat × Nat)) :
    replaceEach? d s new (place :: places) =
      if d.knowsClass name then replaceEach? d s (replaceReference d new name) places
      else some (.error ⟨name, s⟩) := by
  have hold : s.slice? place.1 place.2 = some (Piece.reference name).render := h
  rw [replaceEach?, h.lookUpAt?]
  cases d.knowsClass name with
  | false => rfl
  | true =>
    show (s.slice? place.1 place.2).bind _ = _
    rw [hold]
    rfl

theorem replaceEach?_eq {places : List (Nat × Nat)} {names : List Text} (new : Text)
    (h : List.Forall₂ (HoldsAt s) places names) :
    replaceEach? d s new places = some (outcome d s names (names.foldl (replaceReference d) new)) := by
  induction h generalizing new with
  | nil => rfl
  | @cons place name places names hname _ ih =>
    rw [replaceEach?_cons hname, ih, outcome_cons]
    cases d.knowsClass name <;> rfl

theorem splice?_cons {last : Nat} {gap : Text} (h : HoldsAt s place name)
    (hgap : s.slice? last place.1 = some gap) (new : Text) (places : List (Nat × Nat)) :
    splice? d s new last (place :: places) =
      if d.knowsClass name then
        splice? d s (new ++ gap ++ (Piece.reference (d.rename .klass name)).render) place.2 places
      else some (.error ⟨name, s⟩) := by
  rw [splice?, h.lookUpAt?]
  cases d.knowsClass name with
  | false => rfl
  | true =>
    show (s.slice? last place.1).bind _ = _
    rw [hgap]
    rfl

/-- What is still to be written is the gap and, renamed, the pieces behind it. -/
theorem splice?_eq (lead gap new : Text) {ps : List Piece} (hs : s = lead ++ gap ++ join ps) :
    splice? d s new lead.encode.length
        ((spansFrom (lead ++ gap).encode.length ps).map Span.place) =
      some (outcome d s (namesOf ps) (new ++ gap ++ join (ps.map (Piece.rename d)))) := by
  induction ps generalizing lead gap new with
  | nil =>
    have htail : s.slice? lead.encode.length s.encode.length = some gap :=
      Text.slice?_eq_some_iff.2 ⟨lead, [], hs, rfl, by rw [hs, join_nil, List.append_nil]⟩
    show (s.slice? lead.encode.length s.encode.length).bind _ = _
    rw [htail, List.map_nil, join_nil, List.append_nil]
    rfl
  | cons piece ps ih =>
    cases piece with
    | plain c =>
      have hnext := ih lead (gap ++ [c]) new (by simp [hs, Piece.render])
      simpa [spansFrom, Piece.render, Piece.rename, Nat.add_assoc] using hnext
    | reference name =>
      have hnext := ih (lead ++ gap ++ (Piece.reference name).render) []
        (new ++ gap ++ (Piece.reference (d.rename .klass name)).render) (by simp [hs])
      rw [List.append_nil, Text.encode_append (lead ++ gap), List.length_append] at hnext
      have hgap : s.slice? lead.encode.length (lead ++ gap).encode.length = some gap :=
        Text.slice?_eq_some_iff.2 ⟨lead, _, hs, rfl, rfl⟩
      have hname := holdsAt_append (lead ++ gap) (join ps) name
      rw [← join_cons, ← hs] at hname
      refine (splice?_cons hname hgap new _).trans ?_
      rw [hnext]
      show _ = some (outcome d s (name :: namesOf ps) _)
      rw [outcome_cons]
      cases d.knowsClass name with
      | false => rfl
      | true => simp [Piece.rename]

theorem substitute?_eq (d : Dictionary) (s : Text) (mode : Substitution) :
    substitute? d s ((spans s).map Span.place) mode =
      some (outcome d s (references s) (substitute d s mode)) := by
  cases mode with
  | positional => exact splice?_eq [] [] [] (join_pieces s).symm
  | firstOccurrence => exact replaceEach?_eq s (holdsAt_spans s)

theorem substitute_of_references (h : references s = []) (mode : Substitution) :
    substitute d s mode = s := by
  cases mode with
  | positional =>
    have hfixed : ∀ name ∈ namesOf (pieces s), d.rename .klass name = name := by
      rw [← references_eq_namesOf, h]
      exact fun _ => nofun
    rw [substitute_positional, map_mapName_of_fixed hfixed, join_pieces]
  | firstOccurrence => rw [substitute, h, List.foldl_nil]

theorem rename?_eq (settings : Settings) (d : Dictionary) (s : Text) :
    rename? settings d s = some (rename settings d s) := by
  have hplaces := holdsAt_spans s
  have hsubstitute := substitute?_eq d s settings.substitution
  generalize hp : (spans s).map Span.place = places at hplaces hsubstitute
  rw [rename?, scan?_eq, hp]
  cases places with
  | nil =>
    have hnames : references s = [] := List.forall₂_nil_left_iff.1 hplaces
    rw [rename_eq, hnames, substitute_of_references hnames]
    rfl
  | cons place places =>
    show (firstOutside? settings s (place :: places)).bind _ = _
    rw [firstOutside?_eq hplaces, rename_eq, Option.bind_some]
    cases (references s).find? fun name => !settings.covers name with
    | some outside => rfl
    | none =>
      show (substitute? d s (place :: places) settings.substitution).bind _ = _
      rw [hsubstitute, outcome]
      cases (references s).find? fun name => !d.knowsClass name <;> rfl

end Renaming.Descriptor
