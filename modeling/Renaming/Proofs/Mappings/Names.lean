import Renaming.Mappings.Load
import Renaming.Proofs.Dictionary
import Renaming.Proofs.Text.Lines

/-!
# The names that loading stores

A name in a dictionary that was loaded is a cell of a row that is not empty. A cell lies between two
tabs of a line, so no name is empty or holds a tab or a line feed, whatever the bytes are
(`allNames_of_load`).
-/

namespace Renaming.Mappings
variable {settings : Settings} {layout : Layout} {row : Row} {kind : Kind} {source target : Text}
  {d : Dictionary} {tally : RowTally}

theorem mem_cells_of_entry (h : row.entry layout kind = .pair source target) :
    (source ∈ row.cells ∧ source ≠ []) ∧ target ∈ row.cells ∧ target ≠ [] := by
  unfold Row.entry at h
  dsimp only at h
  split at h
  · rename_i source' target' hsource htarget
    split at h
    · cases h
    · rename_i hempty
      cases h
      rw [Bool.or_eq_true, not_or, List.isEmpty_iff, List.isEmpty_iff] at hempty
      exact ⟨⟨List.mem_of_mem_drop (List.mem_of_getElem? hsource), hempty.1⟩,
        List.mem_of_mem_drop (List.mem_of_getElem? htarget), hempty.2⟩
  · cases h

/-- A row leaves the dictionary alone or adds its pair of names. -/
theorem Progress.read_dictionary (layout : Layout) (p : Progress) (row : Row) :
    (p.read layout row).dictionary = p.dictionary ∨
      ∃ kind source target, row.kind? = some kind ∧ row.entry layout kind = .pair source target ∧
        (p.read layout row).dictionary = p.dictionary.insert kind source target := by
  unfold Progress.read
  split
  · exact .inl rfl
  · rename_i kind hkind
    split
    · exact .inl rfl
    · exact .inl rfl
    · rename_i source target hentry
      exact .inr ⟨kind, source, target, hkind, hentry, rfl⟩

theorem Progress.allNames_read {P : Text → Prop} {p : Progress} (hp : p.dictionary.AllNames P)
    (hrow : ∀ cell ∈ row.cells, cell ≠ [] → P cell) : (p.read layout row).dictionary.AllNames P := by
  rcases p.read_dictionary layout row with h | ⟨kind, source, target, -, hentry, h⟩
  · rw [h]
    exact hp
  · obtain ⟨⟨hsource, hsource'⟩, htarget, htarget'⟩ := mem_cells_of_entry hentry
    rw [h]
    exact hp.insert (hrow source hsource hsource') (hrow target htarget htarget')

theorem Progress.allNames_foldl {P : Text → Prop} {p : Progress} {rows : List Row}
    (hp : p.dictionary.AllNames P) (hrows : ∀ row ∈ rows, ∀ cell ∈ row.cells, cell ≠ [] → P cell) :
    (rows.foldl (Progress.read layout) p).dictionary.AllNames P := by
  induction rows generalizing p with
  | nil => exact hp
  | cons row rows ih =>
    obtain ⟨hrow, hrest⟩ := List.forall_mem_cons.1 hrows
    exact ih (Progress.allNames_read hp hrow) hrest

theorem loadRows_eq_ok_iff {first : Nat} {lines : List Text} {fault : Option Fault} :
    (loadRows layout first lines fault).result = .ok (d, tally) ↔ fault = none ∧
      d = ((rows first lines).foldl (Progress.read layout) .start).dictionary ∧
      tally = ((rows first lines).foldl (Progress.read layout) .start).tally := by
  unfold loadRows
  cases fault with
  | none => simp [eq_comm]
  | some fault => simp

/-- Loading that succeeds has read all lines, or all behind the header, as rows. -/
theorem exists_loadRows_of_load {source : Source} (h : (load settings source).result = .ok (d, tally)) :
    ∃ layout first lines, lines <:+ source.lines ∧
      (loadRows layout first lines source.fault).result = .ok (d, tally) := by
  unfold load at h
  split at h
  · exact ⟨.implicit, 1, [], List.nil_suffix, h⟩
  · rename_i line rest hlines
    dsimp only at h
    split at h
    · obtain ⟨columns, -, h⟩ := Traced.bind_result_eq_ok_iff.1 h
      exact ⟨.declared columns, 2, rest, hlines ▸ List.suffix_cons line rest, h⟩
    · exact ⟨.implicit, 1, line :: rest, hlines ▸ List.suffix_refl _, h⟩

/-- A text that can be a column of a line and is not empty. -/
def IsCell (name : Text) : Prop := name ≠ [] ∧ '\t' ∉ name ∧ '\n' ∉ name

theorem isCell_of_mem_rows {first : Nat} {lines : List Text} (hlines : ∀ line ∈ lines, '\n' ∉ line) :
    ∀ row ∈ rows first lines, ∀ cell ∈ row.cells, cell ≠ [] → IsCell cell := by
  intro row hrow cell hcell hne
  obtain ⟨⟨line, number⟩, hmem, rfl⟩ := List.mem_map.1 hrow
  refine ⟨hne, Text.tab_not_mem_of_mem_columns hcell, fun hfeed => ?_⟩
  have hdrop := Text.mem_of_mem_columns hcell hfeed
  exact hlines line (List.fst_mem_of_mem_zipIdx hmem) (List.dropWhile_subset _ hdrop)

theorem allNames_of_load {bytes : Bytes}
    (h : (load settings (.ofBytes bytes)).result = .ok (d, tally)) :
    d.AllNames IsCell := by
  obtain ⟨layout, first, lines, hsuffix, h⟩ := exists_loadRows_of_load h
  obtain ⟨hfault, rfl, -⟩ := loadRows_eq_ok_iff.1 h
  refine Progress.allNames_foldl (Dictionary.allNames_empty _) (isCell_of_mem_rows fun line hline => ?_)
  exact Source.lineFeed_not_mem hfault (hsuffix.subset hline)

end Renaming.Mappings
