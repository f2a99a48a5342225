import Renaming.Proofs.Mappings.Names
import Renaming.Proofs.Mappings.Order
import Renaming.Proofs.Mappings.Rows

/-!
# When loading succeeds

The header has to name both namespaces, and its columns are the first ones with their names
(`columnsOfHeader_eq_ok_iff`). Loading succeeds exactly if there is a body of rows, with a header that
is good or with none, and nothing in the way of reading; the dictionary and the tally are then what
the gains from the body add up to (`load_eq_ok_iff`).
-/

namespace Renaming.Mappings
variable {settings : Settings} {layout : Layout} {body : List Text} {d : Dictionary} {tally : RowTally}

/-! ### The header -/

/-- The name stands at the place and not before it. -/
def FirstAt (names : List Text) (name : Text) (place : Nat) : Prop :=
  names[place]? = some name ∧ ∀ earlier < place, names[earlier]? ≠ some name

instance (names : List Text) (name : Text) (place : Nat) : Decidable (FirstAt names name place) :=
  inferInstanceAs (Decidable (_ ∧ ∀ earlier < place, _))

theorem position_eq_ok_iff {namespaces : List Text} {name : Text} {place : Nat} :
    position namespaces name = .ok place ↔ FirstAt namespaces name place := by
  have hposition : position namespaces name = .ok place ↔ namespaces.idxOf? name = some place := by
    unfold position
    cases namespaces.idxOf? name <;> simp
  rw [hposition, List.idxOf?_eq_some_iff, FirstAt, List.getElem?_eq_some_iff]
  constructor
  · rintro ⟨hplace, hname, hearlier⟩
    refine ⟨⟨hplace, hname⟩, fun earlier hlt heq => hearlier earlier hlt ?_⟩
    obtain ⟨_, hsame⟩ := List.getElem?_eq_some_iff.1 heq
    exact hsame
  · rintro ⟨⟨hplace, hname⟩, hearlier⟩
    refine ⟨hplace, hname, fun earlier hlt heq => hearlier earlier hlt ?_⟩
    exact List.getElem?_eq_some_iff.2 ⟨Nat.lt_trans hlt hplace, heq⟩

theorem chooseColumns_eq_ok_iff {namespaces : List Text} {columns : Columns} :
    chooseColumns settings namespaces = .ok columns ↔
      FirstAt namespaces settings.source columns.source ∧
        FirstAt namespaces settings.target columns.target := by
  rw [← position_eq_ok_iff, ← position_eq_ok_iff, chooseColumns]
  rcases columns with ⟨source, target⟩
  cases position namespaces settings.source with
  | error failure => simp [bind, Except.bind]
  | ok i =>
    cases position namespaces settings.target with
    | error failure => simp [bind, Except.bind]
    | ok j => simp [bind, Except.bind, pure, Except.pure]

/-- The version makes a warning, but no difference to the columns. -/
theorem columnsOfHeader_result {row : Row} {tag major minor : Text} {namespaces : List Text}
    (h : row.cells = tag :: major :: minor :: namespaces) :
    (columnsOfHeader settings row).result = chooseColumns settings namespaces := by
  unfold columnsOfHeader
  rw [h]
  dsimp only
  split
  · cases chooseColumns settings namespaces <;> rfl
  · cases chooseColumns settings namespaces <;> rfl

theorem columnsOfHeader_eq_ok_iff {row : Row} {columns : Columns} :
    (columnsOfHeader settings row).result = .ok columns ↔
      ∃ tag major minor namespaces, row.cells = tag :: major :: minor :: namespaces ∧
        FirstAt namespaces settings.source columns.source ∧
        FirstAt namespaces settings.target columns.target := by
  constructor
  · intro h
    match hcells : row.cells with
    | tag :: major :: minor :: namespaces =>
      rw [columnsOfHeader_result hcells] at h
      exact ⟨tag, major, minor, namespaces, rfl, chooseColumns_eq_ok_iff.1 h⟩
    | [] | [_] | [_, _] =>
      unfold columnsOfHeader at h
      rw [hcells] at h
      cases h
  · rintro ⟨tag, major, minor, namespaces, hcells, hsource, htarget⟩
    rw [columnsOfHeader_result hcells]
    exact chooseColumns_eq_ok_iff.2 ⟨hsource, htarget⟩

theorem isHeader_ofLine_iff {line : Text} :
    (Row.ofLine 1 line).isHeader = true ↔ line.columns.head? = some "tiny".toList := by
  have hnumber : (Row.ofLine 1 line).number = 1 := rfl
  rw [columns_eq_cells 1 line, Row.isHeader, hnumber]
  cases (Row.ofLine 1 line).depth with
  | zero => simp
  | succ n => simp [List.replicate_succ]

/-- A header has no tabs in front, so its columns are its cells. -/
theorem cells_of_isHeader {line : Text} (h : (Row.ofLine 1 line).isHeader = true) :
    (Row.ofLine 1 line).cells = line.columns := by
  have hdepth : (Row.ofLine 1 line).depth = 0 := by
    simp only [Row.isHeader, Bool.and_eq_true, beq_iff_eq] at h
    exact h.1.2
  rw [columns_eq_cells 1 line, hdepth]
  rfl

/-! ### What was loaded -/

/-- What gains come to: the target of a name is that of the last entry for it, and the tally counts
the gains. -/
structure AddsUp (gains : List Gain) (d : Dictionary) (tally : RowTally) : Prop where
  get? : ∀ kind name, d.get? kind name = (gains.filterMap (Gain.target? kind name)).getLast?
  named : ∀ kind, tally.named kind = gains.countP (Gain.names kind)
  skipped : tally.skipped = gains.count .skipped

theorem addsUp_foldl_read (layout : Layout) (first : Nat) (lines : List Text) :
    AddsUp (gains layout lines) ((rows first lines).foldl (Progress.read layout) .start).dictionary
      ((rows first lines).foldl (Progress.read layout) .start).tally where
  get? kind name := by
    rw [Progress.get?_foldl_read, map_gain_rows]
    show Option.or _ (Dictionary.empty.get? kind name) = _
    rw [Dictionary.get?_empty, Option.or_none]
  named kind := by
    rw [Progress.named_foldl_read, map_gain_rows]
    cases kind <;> exact Nat.zero_add _
  skipped := by
    rw [Progress.skipped_foldl_read, map_gain_rows]
    exact Nat.zero_add _

/-- There is only one dictionary and one tally that gains come to. -/
theorem AddsUp.unique {gains : List Gain} {d' : Dictionary} {tally' : RowTally}
    (h : AddsUp gains d tally) (h' : AddsUp gains d' tally') : d = d' ∧ tally = tally' := by
  constructor
  · exact Dictionary.ext_get? fun kind name => (h.get? kind name).trans (h'.get? kind name).symm
  · refine RowTally.ext_named (fun kind => ?_) (h.skipped.trans h'.skipped.symm)
    exact (h.named kind).trans (h'.named kind).symm

theorem loadRows_result_eq_ok_iff {first : Nat} {lines : List Text} {fault : Option Fault} :
    (loadRows layout first lines fault).result = .ok (d, tally) ↔
      fault = none ∧ AddsUp (gains layout lines) d tally := by
  rw [loadRows_eq_ok_iff]
  refine and_congr_right fun _ => ⟨?_, fun h => h.unique (addsUp_foldl_read layout first lines)⟩
  rintro ⟨rfl, rfl⟩
  exact addsUp_foldl_read layout first lines

/-- Either the header is bad, or the rows of the body are read. -/
theorem load_cases (settings : Settings) (source : Source) :
    (body? settings source.lines = none ∧ ∃ failure, (load settings source).result = .error failure) ∨
      ∃ layout body first, body? settings source.lines = some (layout, body) ∧
        (load settings source).result = (loadRows layout first body source.fault).result := by
  rcases source with ⟨_ | ⟨line, rest⟩, fault⟩
  · exact .inr ⟨.implicit, [], 1, rfl, rfl⟩
  · by_cases hheader : (Row.ofLine 1 line).isHeader = true
    · rw [load_headed hheader]
      cases hcolumns : (columnsOfHeader settings (Row.ofLine 1 line)).result with
      | error failure => exact .inl ⟨by simp [body?, hheader, hcolumns], _, rfl⟩
      | ok columns => exact .inr ⟨.declared columns, rest, 2, by simp [body?, hheader, hcolumns], rfl⟩
    · refine .inr ⟨.implicit, line :: rest, 1, by simp [body?, hheader], ?_⟩
      simp [load, hheader]

theorem load_eq_ok_iff {source : Source} : (load settings source).result = .ok (d, tally) ↔
    ∃ layout body, body? settings source.lines = some (layout, body) ∧ source.fault = none ∧
      AddsUp (gains layout body) d tally := by
  rcases load_cases settings source with ⟨hbody, failure, h⟩ | ⟨layout, body, first, hbody, h⟩
  · rw [h, hbody]
    simp
  · rw [h, hbody, loadRows_result_eq_ok_iff]
    constructor
    · exact fun hloads => ⟨layout, body, rfl, hloads⟩
    · rintro ⟨_, _, heq, hloads⟩
      cases heq
      exact hloads

end Renaming.Mappings
