import Renaming.Proofs.Mappings.Gains
import Renaming.Proofs.Text.Columns

/-!
# Which lines name something

A line is a row of a kind if it starts with the tabs and the tag of that kind (`IsRow`). If
it has the cells of both columns (`IsLong`) and neither of them is empty, it gives a target to a name
(`Gives`). These are said of the columns of the line alone; `gain_eq_entry_iff` and
`gain_eq_skipped_iff` tell that the gain from a line is an entry, or one row more that was skipped,
exactly for such lines.
-/

namespace Renaming.Mappings
variable {layout : Layout} {kind : Kind} {line name target : Text} {number : Nat}

/-- How many tabs stand in front of a row. -/
def indent : Kind → Nat
  | .klass => 0
  | .field | .method => 1

/-- The first cell of a row. -/
def rowTag : Kind → Text
  | .klass => "c".toList
  | .field => "f".toList
  | .method => "m".toList

/-- The line is a row of the kind. Each tab in front of it makes one empty column. -/
def IsRow (kind : Kind) (line : Text) : Prop :=
  List.replicate (indent kind) [] ++ [rowTag kind] <+: line.columns

/-- The cells of a row of the kind, from its tag on. -/
def cells (kind : Kind) (line : Text) : List Text := line.columns.drop (indent kind)

def nameCount (kind : Kind) (line : Text) : Nat := (cells kind line).length - fixedCells kind

/-- The name in a column of a row. -/
def nameAt? (kind : Kind) (line : Text) (column : Nat) : Option Text :=
  (cells kind line)[fixedCells kind + column]?

/-- The row has the cells of the two columns, which are picked by how many names it has. -/
def IsLong (pick : Nat → Columns) (kind : Kind) (line : Text) : Prop :=
  let columns := pick (nameCount kind line)
  fixedCells kind + max columns.source columns.target + 1 ≤ (cells kind line).length

/-- The line is a row that is long enough and has these names in the two columns. -/
structure Gives (pick : Nat → Columns) (kind : Kind) (line name target : Text) : Prop where
  isRow : IsRow kind line
  isLong : IsLong pick kind line
  sourceCell : nameAt? kind line (pick (nameCount kind line)).source = some name
  targetCell : nameAt? kind line (pick (nameCount kind line)).target = some target
  name_ne_nil : name ≠ []
  target_ne_nil : target ≠ []

instance : Decidable (IsRow kind line) := inferInstanceAs (Decidable (_ <+: _))

instance (pick : Nat → Columns) : Decidable (IsLong pick kind line) :=
  inferInstanceAs (Decidable (_ ≤ _))

/-- A row that is long enough has two cells, and gives something if they are not empty. -/
theorem exists_gives_iff {pick : Nat → Columns} : (∃ name target, Gives pick kind line name target) ↔
    IsRow kind line ∧ IsLong pick kind line ∧
      nameAt? kind line (pick (nameCount kind line)).source ≠ some [] ∧
      nameAt? kind line (pick (nameCount kind line)).target ≠ some [] := by
  constructor
  · rintro ⟨name, target, h⟩
    refine ⟨h.isRow, h.isLong, ?_, ?_⟩
    · rw [h.sourceCell]
      exact fun hnil => h.name_ne_nil (Option.some.inj hnil)
    · rw [h.targetCell]
      exact fun hnil => h.target_ne_nil (Option.some.inj hnil)
  · rintro ⟨hrow, hlong, hname, htarget⟩
    have hcells := hlong
    unfold IsLong at hcells
    have hi : fixedCells kind + (pick (nameCount kind line)).source < (cells kind line).length := by
      omega
    have hj : fixedCells kind + (pick (nameCount kind line)).target < (cells kind line).length := by
      omega
    rw [nameAt?, List.getElem?_eq_getElem hi] at hname
    rw [nameAt?, List.getElem?_eq_getElem hj] at htarget
    exact ⟨_, _, hrow, hlong, List.getElem?_eq_getElem hi, List.getElem?_eq_getElem hj,
      fun hnil => hname (congrArg some hnil), fun hnil => htarget (congrArg some hnil)⟩

instance (pick : Nat → Columns) : Decidable (∃ name target, Gives pick kind line name target) :=
  decidable_of_iff _ exists_gives_iff.symm

instance {p : Kind → Prop} [DecidablePred p] : Decidable (∃ kind, p kind) :=
  decidable_of_iff (¬ ∀ kind, ¬ p kind) Classical.not_forall_not

/-! ### Tabs in front of a line -/

/-- The columns of a line are empty ones for the tabs in front of it, and then the cells. -/
theorem columns_eq_cells (number : Nat) (line : Text) : line.columns =
    List.replicate (Row.ofLine number line).depth [] ++ (Row.ofLine number line).cells := by
  show line.columns = List.replicate (line.takeWhile (· == '\t')).length [] ++
    Text.columns (line.dropWhile (· == '\t'))
  induction line with
  | nil => rfl
  | cons c line ih =>
    by_cases hc : c = '\t'
    · subst hc
      rw [Text.columns_cons_tab, ih]
      rfl
    · have hne : ¬ (c == '\t') = true := by simp [hc]
      rw [List.takeWhile_cons, List.dropWhile_cons, if_neg hne, if_neg hne]
      rfl

/-- If the first cell is empty, there is no other. -/
theorem cells_of_head?_nil (h : (Row.ofLine number line).cells.head? = some []) :
    (Row.ofLine number line).cells = [[]] := by
  change (Text.columns (line.dropWhile (· == '\t'))).head? = some [] at h
  show Text.columns (line.dropWhile (· == '\t')) = [[]]
  cases hrest : line.dropWhile (· == '\t') with
  | nil => rfl
  | cons c rest =>
    rw [hrest] at h
    have hc := List.head?_dropWhile_not (· == '\t') line
    rw [hrest] at hc
    exact absurd h (Text.head?_columns_cons_ne (by simpa using hc))

/-- Whether columns start with so many empty ones and a tag shows in how many of them are empty. -/
theorem replicate_append_prefix_iff {tag : Text} {cs : List Text} (htag : tag ≠ [])
    (hcs : cs.head? = some [] → cs = [[]]) (k n : Nat) :
    List.replicate k [] ++ [tag] <+: List.replicate n [] ++ cs ↔ n = k ∧ cs.head? = some tag := by
  induction k generalizing n with
  | zero =>
    cases n with
    | zero => cases cs <;> simp [eq_comm]
    | succ n => simp [List.replicate_succ, htag]
  | succ k ih =>
    cases n with
    | zero =>
      have hnot : ¬ List.replicate (k + 1) [] ++ [tag] <+: cs := by
        intro h
        cases cs with
        | nil => simp [List.replicate_succ] at h
        | cons first cs =>
          rw [List.replicate_succ, List.cons_append, List.cons_prefix_cons] at h
          obtain ⟨rfl, h⟩ := h
          obtain ⟨-, rfl⟩ := List.cons.inj (hcs rfl)
          simp at h
      simp [hnot]
    | succ n =>
      rw [List.replicate_succ, List.replicate_succ, List.cons_append, List.cons_append,
        List.cons_prefix_cons, ih]
      simp

theorem rowTag_ne_nil (kind : Kind) : rowTag kind ≠ [] := by cases kind <;> decide

theorem isRow_iff (number : Nat) : IsRow kind line ↔ (Row.ofLine number line).depth = indent kind ∧
    (Row.ofLine number line).cells.head? = some (rowTag kind) := by
  rw [IsRow, columns_eq_cells number line]
  exact replicate_append_prefix_iff (rowTag_ne_nil kind) cells_of_head?_nil _ _

theorem kind?_eq_some_iff {row : Row} : row.kind? = some kind ↔
    row.depth = indent kind ∧ row.cells.head? = some (rowTag kind) := by
  unfold Row.kind?
  split
  · rename_i hdepth hcells
    rw [hdepth, hcells]
    cases kind <;> simp [indent, rowTag]
  · rename_i hdepth hcells
    rw [hdepth, hcells]
    cases kind <;> simp [indent, rowTag]
  · rename_i hdepth hcells
    rw [hdepth, hcells]
    cases kind <;> simp [indent, rowTag]
  · rename_i hklass hfield hmethod
    simp only [reduceCtorEq, false_iff]
    rintro ⟨hdepth, hhead⟩
    obtain ⟨rest, hcells⟩ := List.head?_eq_some_iff.1 hhead
    cases kind with
    | klass => exact hklass rest hdepth hcells
    | field => exact hfield rest hdepth hcells
    | method => exact hmethod rest hdepth hcells

theorem kind?_ofLine_eq_some_iff : (Row.ofLine number line).kind? = some kind ↔ IsRow kind line :=
  kind?_eq_some_iff.trans (isRow_iff number).symm

theorem IsRow.cells_ofLine (h : IsRow kind line) : (Row.ofLine number line).cells = cells kind line := by
  obtain ⟨hdepth, -⟩ := (isRow_iff number).1 h
  rw [cells, columns_eq_cells number line, hdepth, List.drop_left' (List.length_replicate ..)]

/-! ### What a row comes to -/

theorem entry_eq_pair_iff {row : Row} : row.entry layout kind = .pair name target ↔
    let columns := layout.columns (row.cells.length - fixedCells kind)
    row.cells[fixedCells kind + columns.source]? = some name ∧
      row.cells[fixedCells kind + columns.target]? = some target ∧ name ≠ [] ∧ target ≠ [] := by
  unfold Row.entry
  simp only [List.length_drop, List.getElem?_drop]
  split
  · rename_i name' target' hname htarget
    rw [hname, htarget]
    split
    · rename_i hempty
      rw [Bool.or_eq_true, List.isEmpty_iff, List.isEmpty_iff] at hempty
      simp only [reduceCtorEq, false_iff]
      rintro ⟨hname', htarget', hne, hne'⟩
      cases hname'
      cases htarget'
      exact hempty.elim hne hne'
    · rename_i hempty
      rw [Bool.or_eq_true, not_or, List.isEmpty_iff, List.isEmpty_iff] at hempty
      constructor
      · intro h
        cases h
        exact ⟨rfl, rfl, hempty⟩
      · rintro ⟨hname', htarget', -⟩
        cases hname'
        cases htarget'
        rfl
  · rename_i hnone
    simp only [reduceCtorEq, false_iff]
    rintro ⟨hname, htarget, -⟩
    exact hnone name target hname htarget

/-- A row that is too short says how many cells it would need. -/
theorem entry_eq_short_iff {row : Row} {missing : ShortRow} :
    row.entry layout kind = .short missing ↔
      let columns := layout.columns (row.cells.length - fixedCells kind)
      let needed := fixedCells kind + max columns.source columns.target + 1
      row.cells.length < needed ∧ missing = row.tooShort (.entry kind) needed := by
  unfold Row.entry
  simp only [List.length_drop, List.getElem?_drop]
  split
  · rename_i name' target' hname htarget
    obtain ⟨hi, -⟩ := List.getElem?_eq_some_iff.1 hname
    obtain ⟨hj, -⟩ := List.getElem?_eq_some_iff.1 htarget
    have hlong : ¬ row.cells.length < fixedCells kind + max
        (layout.columns (row.cells.length - fixedCells kind)).source
        (layout.columns (row.cells.length - fixedCells kind)).target + 1 := by omega
    simp only [hlong, false_and, iff_false]
    split <;> simp
  · rename_i hnone
    have hshort : row.cells.length < fixedCells kind + max
        (layout.columns (row.cells.length - fixedCells kind)).source
        (layout.columns (row.cells.length - fixedCells kind)).target + 1 := by
      refine Nat.lt_of_not_le fun hlong => ?_
      exact hnone _ _ (List.getElem?_eq_getElem (by omega)) (List.getElem?_eq_getElem (by omega))
    simp only [Entry.short.injEq, hshort, true_and, eq_comm]

theorem exists_short_iff {row : Row} : (∃ missing, row.entry layout kind = .short missing) ↔
    let columns := layout.columns (row.cells.length - fixedCells kind)
    row.cells.length < fixedCells kind + max columns.source columns.target + 1 := by
  simp only [entry_eq_short_iff, exists_and_left, exists_eq, and_true]

theorem Entry.gain_eq_entry_iff {kind' : Kind} {entry : Entry} :
    entry.gain kind' = .entry kind name target ↔ kind' = kind ∧ entry = .pair name target := by
  cases entry <;> simp [gain]

theorem Entry.gain_eq_skipped_iff {entry : Entry} :
    entry.gain kind = .skipped ↔ ∃ missing, entry = .short missing := by
  cases entry <;> simp [gain]

theorem Row.gain_eq_iff {row : Row} {gain : Gain} (h : gain ≠ .nothing) : row.gain layout = gain ↔
    ∃ kind, row.kind? = some kind ∧ (row.entry layout kind).gain kind = gain := by
  rw [Row.gain]
  cases row.kind? with
  | none => simp [h.symm]
  | some kind => simp

theorem gain_eq_entry_iff : (Row.ofLine number line).gain layout = .entry kind name target ↔
    Gives layout.columns kind line name target := by
  rw [Row.gain_eq_iff (by simp)]
  simp only [kind?_ofLine_eq_some_iff, Entry.gain_eq_entry_iff]
  constructor
  · rintro ⟨kind', hrow, hkind, hentry⟩
    subst hkind
    have hlong : ¬ ∃ missing, (Row.ofLine number line).entry layout kind' = .short missing := by
      simp [hentry]
    rw [exists_short_iff, hrow.cells_ofLine] at hlong
    rw [entry_eq_pair_iff, hrow.cells_ofLine] at hentry
    obtain ⟨hname, htarget, hne, hne'⟩ := hentry
    exact ⟨hrow, Nat.le_of_not_lt hlong, hname, htarget, hne, hne'⟩
  · intro h
    refine ⟨kind, h.isRow, rfl, ?_⟩
    rw [entry_eq_pair_iff, h.isRow.cells_ofLine]
    exact ⟨h.sourceCell, h.targetCell, h.name_ne_nil, h.target_ne_nil⟩

theorem gain_eq_skipped_iff : (Row.ofLine number line).gain layout = .skipped ↔
    ∃ kind, IsRow kind line ∧ ¬ IsLong layout.columns kind line := by
  rw [Row.gain_eq_iff (by simp)]
  simp only [kind?_ofLine_eq_some_iff, Entry.gain_eq_skipped_iff]
  refine exists_congr fun kind => and_congr_right fun hrow => ?_
  rw [exists_short_iff, hrow.cells_ofLine]
  exact Nat.not_le.symm

theorem Gain.names_iff {gain : Gain} :
    gain.names kind = true ↔ ∃ name target, gain = .entry kind name target := by
  cases gain with
  | entry kind' name target => simp [names]
  | nothing => simp [names]
  | skipped => simp [names]

end Renaming.Mappings
