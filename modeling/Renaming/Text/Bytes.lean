import Renaming.Text.Basic

/-!
# Bytes

Text is stored in UTF-8. `decode?_eq_some_iff` says that `encode` and `decode?` are inverse to each
other. `lines` cuts bytes into lines: a line ends at a line feed, with one carriage return before
it, or where the bytes end.
-/

namespace Renaming

abbrev Bytes := List UInt8

namespace Text

def encode (s : Text) : Bytes := s.flatMap String.utf8EncodeChar

@[simp] theorem encode_nil : encode [] = [] := rfl

@[simp] theorem encode_append (s t : Text) : encode (s ++ t) = encode s ++ encode t :=
  List.flatMap_append

end Text

namespace Bytes

/-- The text that the bytes encode, if they are valid UTF-8. -/
def decode? (bytes : Bytes) : Option Text := bytes.toByteArray.utf8Decode?.map Array.toList

@[simp] theorem decode?_encode (s : Text) : decode? s.encode = some s := by
  have h : s.encode.toByteArray = List.utf8Encode s := rfl
  rw [decode?, h, List.utf8Decode?_utf8Encode]
  rfl

theorem eq_encode_of_decode? {bytes : Bytes} {s : Text} (h : decode? bytes = some s) :
    bytes = s.encode := by
  obtain ⟨chars, hd, rfl⟩ := Option.map_eq_some_iff.mp h
  have hs : bytes.toByteArray.utf8Decode?.isSome := by simp [hd]
  have := ByteArray.utf8Encode_get_utf8Decode? (h := hs)
  simp only [hd, Option.get_some, List.utf8Encode] at this
  have := congrArg (fun b : ByteArray => b.data.toList) this
  simpa [Text.encode] using this.symm

theorem decode?_eq_some_iff {bytes : Bytes} {s : Text} : decode? bytes = some s ↔ bytes = s.encode :=
  ⟨eq_encode_of_decode?, fun h => h ▸ decode?_encode s⟩

def lineFeed : UInt8 := 10
def carriageReturn : UInt8 := 13

/-- Takes one carriage return off the end. -/
def chomp (line : Bytes) : Bytes :=
  if line.getLast? = some carriageReturn then line.dropLast else line

/-- The lines of a file. What follows the last line feed is a line of its own unless it is empty,
and keeps its carriage returns. -/
def lines (bytes : Bytes) : List Bytes :=
  let pieces := bytes.splitOn lineFeed
  pieces.dropLast.map chomp ++ pieces.getLast?.toList.filter fun rest => !rest.isEmpty

example : lines [97, 13, 13, 10, 10, 98, 13] = [[97, 13], [], [98, 13]] := by decide
example : lines [97, 10] = [[97]] := by decide
example : lines [] = [] := by decide

end Bytes

end Renaming
