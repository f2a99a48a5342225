import Renaming.Text.Basic
import Renaming.Text.Unprintable

/-!
# Quoted text

`quoted` writes a text between double quotes: the quote and the backslash after a backslash, tab,
line feed, carriage return and NUL by a letter, every other unprintable character by its number in
hexadecimal. `quotedList` does so for the members of a list.
-/

namespace Renaming.Text

/-- How a character is written between quotes. -/
def escape (c : Char) : Text :=
  match c with
  | '"' => ['\\', '"']
  | '\\' => ['\\', '\\']
  | '\t' => ['\\', 't']
  | '\n' => ['\\', 'n']
  | '\r' => ['\\', 'r']
  | '\x00' => ['\\', '0']
  | c =>
    if isPlainAscii c || !isUnprintable c then [c]
    else ['\\', 'u', '\x7b'] ++ Nat.toDigits 16 c.toNat ++ ['\x7d']

def quoted (s : Text) : String := String.ofList ('"' :: s.flatMap escape ++ ['"'])

def quotedList (items : List Text) : String :=
  "[" ++ ", ".intercalate (items.map quoted) ++ "]"

example : quoted "a\"\t'\u0301é".toList = "\"a\\\"\\t'\\u\x7b301\x7dé\"" := by decide +kernel
example : quotedList ["a".toList, []] = "[\"a\", \"\"]" := by decide +kernel

end Renaming.Text
