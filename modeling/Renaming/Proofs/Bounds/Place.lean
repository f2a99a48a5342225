import Renaming.Proofs.Text.Ascii
import Renaming.Traced

/-!
# Reading by place

What is read by its place need not be there. The functions here read lists by index and texts by
byte, and give `none` where there is nothing to read: past the end, between a start and an earlier
stop, and inside a character. `slice?_eq_some_iff` says of texts which slices there are and what they
hold.
-/

namespace Renaming

/-- A difference of places, which must not be negative. -/
def sub? (a b : Nat) : Option Nat := if b ≤ a then some (a - b) else none

theorem sub?_add_right (a b : Nat) : sub? (a + b) b = some a := by simp [sub?]

theorem add_of_sub? {a b c : Nat} (h : sub? a b = some c) : c + b = a := by
  rw [sub?] at h
  split at h
  · rw [← Option.some.inj h]
    omega
  · cases h

section Lists
variable {α : Type}

/-- The list from a place on, which may be its end. -/
def drop? (l : List α) (place : Nat) : Option (List α) :=
  if place ≤ l.length then some (l.drop place) else none

/-- The list with another entry at a place. -/
def set? (l : List α) (place : Nat) (a : α) : Option (List α) :=
  if place < l.length then some (l.set place a) else none

theorem drop?_append (left right : List α) : drop? (left ++ right) left.length = some right := by
  rw [drop?, if_pos (by simp), List.drop_left]

theorem drop?_getD_nil (l : List α) (place : Nat) : (drop? l place).getD [] = l.drop place := by
  rw [drop?]
  split
  · rfl
  · rw [List.drop_eq_nil_of_le (by omega)]
    rfl

end Lists

/-- Goes on from a success with something that reads by place. -/
def Traced.bind? {ε α β : Type} (x : Traced ε α) (f : α → Option (Traced ε β)) :
    Option (Traced ε β) :=
  match x.result with
  | .ok a => (f a).map fun y => ⟨x.events ++ y.events, y.result⟩
  | .error e => some ⟨x.events, .error e⟩

theorem Traced.bind?_some {ε α β : Type} (x : Traced ε α) (f : α → Traced ε β) :
    (x.bind? fun a => some (f a)) = some (x >>= f) := by
  rcases x with ⟨events, e | a⟩ <;> rfl

namespace Text
variable {s left right part : Text} {start stop place : Nat}

/-- The texts before and after a byte, if a character starts there or the text ends there. -/
def splitAt? : Text → Nat → Option (Text × Text)
  | s, 0 => some ([], s)
  | [], _ + 1 => none
  | c :: s, place + 1 => do
    let (left, right) ← splitAt? s (← sub? (place + 1) (String.utf8EncodeChar c).length)
    return (c :: left, right)

/-- The text from byte `start` up to and without byte `stop`, if it starts and stops between characters. -/
def slice? (s : Text) (start stop : Nat) : Option Text := do
  let (left, _) ← s.splitAt? stop
  let (_, part) ← left.splitAt? start
  return part

theorem encode_cons_length (c : Char) (s : Text) :
    (encode (c :: s)).length = (encode s).length + (String.utf8EncodeChar c).length := by
  show (String.utf8EncodeChar c ++ encode s).length = _
  rw [List.length_append, Nat.add_comm]

theorem splitAt?_cons {c : Char} (hplace : 0 < place) : splitAt? (c :: s) place = do
    let (left, right) ← splitAt? s (← sub? place (String.utf8EncodeChar c).length)
    return (c :: left, right) := by
  cases place with
  | zero => exact absurd hplace (Nat.lt_irrefl 0)
  | succ place => rfl

theorem splitAt?_append (left right : Text) :
    splitAt? (left ++ right) left.encode.length = some (left, right) := by
  induction left with
  | nil => cases right <;> rfl
  | cons c left ih =>
    have hpos := List.length_pos_of_ne_nil (utf8EncodeChar_ne_nil c)
    have hplace : 0 < (encode (c :: left)).length := by
      rw [encode_cons_length]
      omega
    rw [List.cons_append, splitAt?_cons hplace, encode_cons_length, sub?_add_right]
    show (splitAt? (left ++ right) (encode left).length).bind _ = _
    rw [ih]
    rfl

theorem splitAt?_eq_some_iff :
    s.splitAt? place = some (left, right) ↔ s = left ++ right ∧ left.encode.length = place := by
  constructor
  · intro h
    fun_induction splitAt? s place generalizing left with
    | case1 s =>
      cases h
      exact ⟨rfl, rfl⟩
    | case2 place => cases h
    | case3 c s place ih =>
      obtain ⟨rest, hrest, h⟩ := Option.bind_eq_some_iff.1 h
      obtain ⟨⟨left, right⟩, hsplit, h⟩ := Option.bind_eq_some_iff.1 h
      cases h
      obtain ⟨rfl, hleft⟩ := ih rest hsplit
      refine ⟨rfl, ?_⟩
      rw [encode_cons_length, hleft]
      exact add_of_sub? hrest
  · rintro ⟨rfl, rfl⟩
    exact splitAt?_append left right

theorem slice?_eq_some_iff : s.slice? start stop = some part ↔ ∃ before after,
    s = before ++ part ++ after ∧ before.encode.length = start ∧
      (before ++ part).encode.length = stop := by
  constructor
  · intro h
    obtain ⟨⟨left, after⟩, hstop, h⟩ := Option.bind_eq_some_iff.1 h
    obtain ⟨⟨before, part⟩, hstart, h⟩ := Option.bind_eq_some_iff.1 h
    cases h
    obtain ⟨rfl, hleft⟩ := splitAt?_eq_some_iff.1 hstop
    obtain ⟨rfl, hbefore⟩ := splitAt?_eq_some_iff.1 hstart
    exact ⟨before, after, rfl, hbefore, hleft⟩
  · rintro ⟨before, after, rfl, rfl, rfl⟩
    rw [slice?, splitAt?_append]
    show (splitAt? (before ++ part) before.encode.length).bind _ = _
    rw [splitAt?_append]
    rfl

example : slice? "aé".toList 0 1 = some ['a'] := by decide +kernel
example : slice? "aé".toList 1 2 = none := by decide +kernel

end Text
end Renaming
