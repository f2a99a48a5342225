import Renaming.Text.Bytes

/-!
# The pieces of a descriptor

A reference to a class is an `L`, a non-empty name and a `;`. `pieces` cuts a text from left to
right into references and the characters between them, and `join_pieces` says that nothing is
lost. A text need not be a descriptor for that. `reference?_eq_some_iff` says what a reference is and
`spans` where the references are, in bytes.
-/

namespace Renaming.Descriptor

/-- The characters that the name of a class may have. -/
def isNameChar (c : Char) : Bool := c.isAlphanum || c == '_' || c == '/' || c == '$'

/-- Whether a text can stand between the `L` and the `;` of a reference. -/
def IsClassName (name : Text) : Prop := name ≠ [] ∧ ∀ c ∈ name, isNameChar c = true

instance (name : Text) : Decidable (IsClassName name) :=
  decidable_of_iff (name ≠ [] ∧ name.all isNameChar = true)
    (and_congr_right fun _ => List.all_eq_true)

inductive Piece where
  | plain (c : Char)
  | reference (name : Text)
  deriving DecidableEq, Repr

namespace Piece

def render : Piece → Text
  | .plain c => [c]
  | .reference name => 'L' :: name ++ [';']

def name? : Piece → Option Text
  | .plain _ => none
  | .reference name => some name

end Piece

/-- The text that the pieces are cut from. -/
def join (pieces : List Piece) : Text := pieces.flatMap Piece.render

/-- The name in the reference at the start of a text, and what follows the reference. -/
def reference? : Text → Option (Text × Text)
  | [] => none
  | c :: s =>
    if c = 'L' then
      match s.takeWhile isNameChar, s.dropWhile isNameChar with
      | first :: name, ';' :: rest => some (first :: name, rest)
      | _, _ => none
    else none

theorem eq_of_reference? {s name rest : Text} (h : reference? s = some (name, rest)) :
    s = (Piece.reference name).render ++ rest := by
  cases s with
  | nil => cases h
  | cons c s =>
    rw [reference?] at h
    split at h
    · rename_i hc
      split at h
      · rename_i first name' rest' htake hdrop
        cases h
        have := List.takeWhile_append_dropWhile (p := isNameChar) (l := s)
        rw [htake, hdrop] at this
        simp [Piece.render, hc, ← this]
      · cases h
    · cases h

theorem reference?_render {name : Text} (h : IsClassName name) (rest : Text) :
    reference? ((Piece.reference name).render ++ rest) = some (name, rest) := by
  obtain ⟨hne, hall⟩ := h
  cases name with
  | nil => exact absurd rfl hne
  | cons first name =>
    have hstop : isNameChar ';' = false := by decide
    have htake : (first :: name ++ ';' :: rest).takeWhile isNameChar = first :: name := by
      rw [List.takeWhile_append_of_pos hall, List.takeWhile_cons_of_neg (by simp [hstop]),
        List.append_nil]
    have hdrop : (first :: name ++ ';' :: rest).dropWhile isNameChar = ';' :: rest := by
      rw [List.dropWhile_append_of_pos hall, List.dropWhile_cons_of_neg (by simp [hstop])]
    have hrender : (Piece.reference (first :: name)).render ++ rest =
        'L' :: (first :: name ++ ';' :: rest) := by
      simp [Piece.render]
    rw [hrender, reference?, if_pos rfl, htake, hdrop]
    rfl

theorem isClassName_of_reference? {s name rest : Text} (h : reference? s = some (name, rest)) :
    IsClassName name := by
  cases s with
  | nil => cases h
  | cons c s =>
    rw [reference?] at h
    split at h
    · split at h
      · rename_i first name' rest' htake hdrop
        cases h
        refine ⟨List.cons_ne_nil _ _, List.all_eq_true.mp ?_⟩
        rw [← htake]
        exact List.all_takeWhile
      · cases h
    · cases h

theorem reference?_eq_some_iff {s name rest : Text} :
    reference? s = some (name, rest) ↔
      IsClassName name ∧ s = (Piece.reference name).render ++ rest := by
  constructor
  · intro h
    exact ⟨isClassName_of_reference? h, eq_of_reference? h⟩
  · rintro ⟨hname, rfl⟩
    exact reference?_render hname rest

theorem length_lt_of_reference? {s name rest : Text} (h : reference? s = some (name, rest)) :
    rest.length < s.length := by
  rw [eq_of_reference? h]
  simp [Piece.render]
  omega

/-- The pieces of a text. A reference starts at the first `L` at which one can start. -/
def pieces : Text → List Piece
  | [] => []
  | c :: s =>
    match h : reference? (c :: s) with
    | some (name, rest) =>
      have := length_lt_of_reference? h
      .reference name :: pieces rest
    | none => .plain c :: pieces s
termination_by s => s.length
decreasing_by
  · assumption
  · exact Nat.lt_succ_self _

theorem pieces_nil : pieces [] = [] := by rw [pieces]

theorem pieces_of_reference? {s name rest : Text} (h : reference? s = some (name, rest)) :
    pieces s = .reference name :: pieces rest := by
  cases s with
  | nil => cases h
  | cons c s =>
    rw [pieces]
    split
    · rename_i heq
      rw [h] at heq
      cases heq
      rfl
    · rename_i heq
      rw [h] at heq
      cases heq

theorem pieces_cons_of_none {c : Char} {s : Text} (h : reference? (c :: s) = none) :
    pieces (c :: s) = .plain c :: pieces s := by
  rw [pieces]
  split
  · rename_i heq
    rw [h] at heq
    cases heq
  · rfl

@[simp] theorem join_pieces (s : Text) : join (pieces s) = s := by
  fun_induction pieces s with
  | case1 => rfl
  | case2 c s name rest h hlt ih => rw [eq_of_reference? h]; simpa [join] using ih
  | case3 c s h ih => simpa [join, Piece.render] using ih

/-- The names that a text refers to, from left to right. -/
def references (s : Text) : List Text := (pieces s).filterMap Piece.name?

/-! ### Places -/

/-- A part of a text, from byte `start` up to and without byte `stop`. -/
structure Span where
  start : Nat
  stop : Nat
  text : Text
  deriving DecidableEq, Repr

/-- The spans of the references among pieces that start at the given byte. -/
def spansFrom (start : Nat) : List Piece → List Span
  | [] => []
  | piece :: rest =>
    let stop := start + piece.render.encode.length
    match piece with
    | .plain _ => spansFrom stop rest
    | .reference _ => ⟨start, stop, piece.render⟩ :: spansFrom stop rest

def spans (s : Text) : List Span := spansFrom 0 (pieces s)

example : (spans "é(LLa/b;".toList).map (fun span => (span.start, span.stop)) = [(3, 9)] := by
  decide +kernel

end Renaming.Descriptor
