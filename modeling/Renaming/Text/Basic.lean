/-!
# Text

Text is a list of characters. Lines are cut into columns at their tabs (`columns`) and put together
again (`ofColumns`); `cut?` finds the first occurrence of a pattern and `replaceFirst` puts another
text in its place.
-/

namespace Renaming

abbrev Text := List Char

namespace Text

/-- The texts between the tabs of a line. There is always at least one. -/
def columns (line : Text) : List Text := line.splitOn '\t'

/-- The line that has the given columns. -/
def ofColumns (cells : List Text) : Text := ['\t'].intercalate cells

@[simp] theorem ofColumns_columns (line : Text) : ofColumns line.columns = line :=
  List.intercalate_splitOn _

theorem columns_ofColumns {cells : List Text} (h : ∀ cell ∈ cells, '\t' ∉ cell) (hne : cells ≠ []) :
    columns (ofColumns cells) = cells :=
  List.splitOn_intercalate _ h hne

/-- The texts before and after the first occurrence of `pattern`. The empty pattern occurs at the
start of every text. -/
def cut? (pattern s : Text) : Option (Text × Text) :=
  match pattern.isPrefixOf? s, s with
  | some after, _ => some ([], after)
  | none, [] => none
  | none, c :: s => (cut? pattern s).map fun (before, after) => (c :: before, after)

/-- Puts `new` in the place of the first occurrence of `pattern`. -/
def replaceFirst (pattern new s : Text) : Text :=
  match cut? pattern s with
  | some (before, after) => before ++ new ++ after
  | none => s

end Text

end Renaming
