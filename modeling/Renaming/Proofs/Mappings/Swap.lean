import Renaming.Proofs.Mappings.Last

/-!
# Loading in the other direction

Under a header that names both namespaces, the same rows are read, are too short or give nothing in
both directions, and what one of them gives is given the other way round (`gives_swap_iff`). So loading
succeeds in both directions with one tally or in neither. If besides the names in the rows are paired
one to one (`OneToOne`), no row is lost to a later one, and the two dictionaries are inverse to each
other (`load_swapped`).
-/

namespace Renaming

/-- The settings for the other direction. -/
def Settings.swap (settings : Settings) : Settings :=
  { settings with source := settings.target, target := settings.source }

namespace Mappings
variable {settings settings' : Settings} {columns : Columns} {pick : Nat → Columns} {kind : Kind}
  {line name target : Text} {lines body : List Text} {source : Source} {d d' : Dictionary}
  {tally tally' : RowTally}

def Columns.swap (columns : Columns) : Columns := ⟨columns.target, columns.source⟩

/-- Rows that give something in the same kind have the same name exactly if they have the same
target. -/
def OneToOne (pick : Nat → Columns) (body : List Text) : Prop :=
  ∀ kind, ∀ line ∈ body, ∀ line' ∈ body, ∀ name target name' target',
    Gives pick kind line name target → Gives pick kind line' name' target' →
      (name = name' ↔ target = target')

/-! ### The rows in both directions -/

theorem isLong_swap_iff :
    IsLong (fun _ => columns.swap) kind line ↔ IsLong (fun _ => columns) kind line := by
  show fixedCells kind + max columns.target columns.source + 1 ≤ _ ↔
    fixedCells kind + max columns.source columns.target + 1 ≤ _
  rw [Nat.max_comm]

theorem Gives.swap (h : Gives (fun _ => columns) kind line name target) :
    Gives (fun _ => columns.swap) kind line target name where
  isRow := h.isRow
  isLong := isLong_swap_iff.2 h.isLong
  sourceCell := h.targetCell
  targetCell := h.sourceCell
  name_ne_nil := h.target_ne_nil
  target_ne_nil := h.name_ne_nil

theorem gives_swap_iff : Gives (fun _ => columns.swap) kind line target name ↔
    Gives (fun _ => columns) kind line name target :=
  ⟨Gives.swap, Gives.swap⟩

theorem OneToOne.swap (h : OneToOne (fun _ => columns) body) : OneToOne (fun _ => columns.swap) body := by
  intro kind line hline line' hline' name target name' target' hgives hgives'
  exact (h kind line hline line' hline' _ _ _ _ hgives.swap hgives'.swap).symm

theorem StoresLast.tally_swap (h : StoresLast (fun _ => columns) body d tally)
    (h' : StoresLast (fun _ => columns.swap) body d' tally') : tally' = tally := by
  refine RowTally.ext_named (fun kind => ?_) ?_
  · rw [h.named, h'.named]
    refine List.countP_congr fun line _ => ?_
    rw [decide_eq_true_eq, decide_eq_true_eq, exists_comm]
    simp only [gives_swap_iff]
  · rw [h.skipped, h'.skipped]
    simp only [isLong_swap_iff]

/-- Where names are paired one to one, it does not matter which row is the last. -/
theorem StoresLast.get?_eq_some_iff (h : StoresLast pick body d tally) (hone : OneToOne pick body) :
    d.get? kind name = some target ↔ ∃ line ∈ body, Gives pick kind line name target := by
  constructor
  · intro hget
    obtain ⟨before, line, after, rfl, hgives, -⟩ := (h.get? kind name target).1 hget
    exact ⟨line, by simp, hgives⟩
  · rintro ⟨line, hline, hgives⟩
    cases hget : d.get? kind name with
    | none => exact absurd hgives ((h.get?_none kind name).1 hget line hline target)
    | some last =>
      obtain ⟨before, line', after, hbody, hgives', -⟩ := (h.get? kind name last).1 hget
      have hline' : line' ∈ body := by simp [hbody]
      rw [(hone kind line hline line' hline' _ _ _ _ hgives hgives').1 rfl]

theorem StoresLast.inverse (h : StoresLast (fun _ => columns) body d tally)
    (h' : StoresLast (fun _ => columns.swap) body d' tally') (hone : OneToOne (fun _ => columns) body) :
    d.Inverse d' := by
  intro kind name target
  rw [h.get?_eq_some_iff hone, h'.get?_eq_some_iff hone.swap]
  simp only [gives_swap_iff]

theorem entry_mem_gains_iff {layout : Layout} : .entry kind name target ∈ gains layout body ↔
    ∃ line ∈ body, Gives layout.columns kind line name target := by
  rw [gains, List.mem_map]
  simp only [gain_eq_entry_iff]

theorem agree_gains_iff {layout : Layout} : Agree (gains layout body) ↔
    ∀ kind, ∀ line ∈ body, ∀ line' ∈ body, ∀ name target target',
      Gives layout.columns kind line name target → Gives layout.columns kind line' name target' →
        target = target' := by
  constructor
  · intro h kind line hline line' hline' name target target' hgives hgives'
    exact h kind name target target' (entry_mem_gains_iff.2 ⟨line, hline, hgives⟩)
      (entry_mem_gains_iff.2 ⟨line', hline', hgives'⟩)
  · intro h kind name target target' hmem hmem'
    obtain ⟨line, hline, hgives⟩ := entry_mem_gains_iff.1 hmem
    obtain ⟨line', hline', hgives'⟩ := entry_mem_gains_iff.1 hmem'
    exact h kind line hline line' hline' name target target' hgives hgives'

theorem oneToOne_iff : OneToOne (fun _ => columns) body ↔
    Agree (gains (.declared columns) body) ∧ Agree (gains (.declared columns.swap) body) := by
  rw [agree_gains_iff, agree_gains_iff]
  constructor
  · intro h
    constructor
    · intro kind line hline line' hline' name target target' hgives hgives'
      exact (h kind line hline line' hline' _ _ _ _ hgives hgives').1 rfl
    · intro kind line hline line' hline' name target target' hgives hgives'
      exact (h.swap kind line hline line' hline' _ _ _ _ hgives hgives').1 rfl
  · rintro ⟨h, h'⟩ kind line hline line' hline' name target name' target' hgives hgives'
    constructor
    · rintro rfl
      exact h kind line hline line' hline' name target target' hgives hgives'
    · rintro rfl
      exact h' kind line hline line' hline' target name name' hgives.swap hgives'.swap

instance : Decidable (OneToOne (fun _ => columns) body) := decidable_of_iff _ oneToOne_iff.symm

/-! ### The file in both directions -/

theorem body?_headed {header major minor : Text} {namespaces : List Text}
    (hheader : header.columns = "tiny".toList :: major :: minor :: namespaces)
    (hsource : FirstAt namespaces settings.source columns.source)
    (htarget : FirstAt namespaces settings.target columns.target) :
    body? settings (header :: body) = some (.declared columns, body) := by
  have hisHeader : (Row.ofLine 1 header).isHeader = true := by
    rw [isHeader_ofLine_iff, hheader]
    rfl
  have hcells := (cells_of_isHeader hisHeader).trans hheader
  have hcolumns : (columnsOfHeader settings (Row.ofLine 1 header)).result = .ok columns :=
    columnsOfHeader_eq_ok_iff.2 ⟨_, _, _, _, hcells, hsource, htarget⟩
  simp [body?, hisHeader, hcolumns]

theorem storesLast_of_load (hbody : body? settings source.lines = some (.declared columns, body))
    (h : (load settings source).result = .ok (d, tally)) :
    StoresLast (fun _ => columns) body d tally := by
  obtain ⟨layout, body', hbody', -, hsum⟩ := load_eq_ok_iff.1 h
  cases hbody.symm.trans hbody'
  exact hsum.storesLast

theorem exists_load_swap (hbody : body? settings source.lines = some (.declared columns, body))
    (hbody' : body? settings' source.lines = some (.declared columns.swap, body))
    (h : (load settings source).result = .ok (d, tally)) :
    ∃ d', (load settings' source).result = .ok (d', tally) := by
  obtain ⟨-, -, -, hfault, -⟩ := load_eq_ok_iff.1 h
  have hback := load_eq_ok_iff.2
    ⟨_, _, hbody', hfault, addsUp_foldl_read (.declared columns.swap) 1 body⟩
  have htally := (storesLast_of_load hbody h).tally_swap (storesLast_of_load hbody' hback)
  rw [htally] at hback
  exact ⟨_, hback⟩

/-- Let the header name both namespaces. Then loading in one direction succeeds with some tally exactly
if loading in the other does with the same. If the names in the rows are paired one to one, the one
dictionary is the inverse of the other: it has the same pairs the other way round, its targets are the
names of the other, and there are as many of each kind. -/
theorem load_swapped {mappings : Bytes} {header major minor : Text} {namespaces : List Text} {i j : Nat}
    (hlines : (Source.ofBytes mappings).lines = header :: body)
    (hheader : header.columns = "tiny".toList :: major :: minor :: namespaces)
    (hsource : FirstAt namespaces settings.source i) (htarget : FirstAt namespaces settings.target j) :
    let there := (load settings (.ofBytes mappings)).result
    let back := (load settings.swap (.ofBytes mappings)).result
    (∀ tally, (∃ d, there = .ok (d, tally)) ↔ ∃ d', back = .ok (d', tally)) ∧
    ∀ d d' tally tally', there = .ok (d, tally) → back = .ok (d', tally') →
      OneToOne (fun _ => ⟨i, j⟩) body → ∀ kind,
        (∀ a b, d.get? kind a = some b ↔ d'.get? kind b = some a) ∧
        (∀ a, d'.hasTarget kind a = true ↔ ∃ b, d.get? kind a = some b) ∧
        d.size kind = d'.size kind := by
  have hbody : body? settings (Source.ofBytes mappings).lines = some (.declared ⟨i, j⟩, body) := by
    rw [hlines]
    exact body?_headed hheader hsource htarget
  have hbody' : body? settings.swap (Source.ofBytes mappings).lines =
      some (.declared ⟨j, i⟩, body) := by
    rw [hlines]
    exact body?_headed hheader htarget hsource
  refine ⟨fun tally => ⟨?_, ?_⟩, ?_⟩
  · rintro ⟨d, h⟩
    exact exists_load_swap hbody hbody' h
  · rintro ⟨d', h⟩
    exact exists_load_swap hbody' hbody h
  · intro d d' tally tally' h h' hone kind
    have hinverse : d.Inverse d' :=
      (storesLast_of_load hbody h).inverse (storesLast_of_load hbody' h') hone
    refine ⟨hinverse kind, fun a => ?_, hinverse.size_eq kind⟩
    rw [Dictionary.hasTarget_iff]
    exact exists_congr fun b => (hinverse kind a b).symm

/-- One pair comes twice, the field has the names of the class, the third class has no name in the
source namespace, and the row of the fourth is too short. -/
theorem load_swapped_repeated :
    let settings : Settings := ⟨"inter".toList, "named".toList, [], .positional⟩
    let header : Text := "tiny\t2\t0\tinter\tofficial\tnamed".toList
    let body : List Text := ["c\tp/A\ta\tq/A".toList, "\tf\tI\tp/A\tx\tq/A".toList,
      "c\tp/A\tb\tq/A".toList, "c\t\tc\tq/C".toList, "c\tp/D\td".toList]
    let mappings := Text.encodeLines (header :: body)
    let d := (Dictionary.empty.insert .klass "p/A".toList "q/A".toList).insert .field "p/A".toList
      "q/A".toList
    let d' := (Dictionary.empty.insert .klass "q/A".toList "p/A".toList).insert .field "q/A".toList
      "p/A".toList
    (load settings (.ofBytes mappings)).result = .ok (d, ⟨2, 1, 0, 1⟩) ∧
      (load settings.swap (.ofBytes mappings)).result = .ok (d', ⟨2, 1, 0, 1⟩) ∧
      OneToOne (fun _ => ⟨0, 2⟩) body ∧ ∀ kind,
        (∀ a b, d.get? kind a = some b ↔ d'.get? kind b = some a) ∧
        (∀ a, d'.hasTarget kind a = true ↔ ∃ b, d.get? kind a = some b) ∧ d.size kind = d'.size kind := by
  intro settings header body mappings d d'
  have hsource : Source.ofBytes mappings = ⟨header :: body, none⟩ := by decide +kernel
  have hthere : (load settings (.ofBytes mappings)).result = .ok (d, ⟨2, 1, 0, 1⟩) := by
    rw [hsource]
    rfl
  have hback : (load settings.swap (.ofBytes mappings)).result = .ok (d', ⟨2, 1, 0, 1⟩) := by
    rw [hsource]
    rfl
  have hone : OneToOne (fun _ => ⟨0, 2⟩) body := by decide +kernel
  have hlines : (Source.ofBytes mappings).lines = header :: body := by rw [hsource]
  have hheader : header.columns = "tiny".toList :: "2".toList :: "0".toList ::
      ["inter".toList, "official".toList, "named".toList] := by decide +kernel
  have hinter : FirstAt ["inter".toList, "official".toList, "named".toList] settings.source 0 := by
    decide
  have hnamed : FirstAt ["inter".toList, "official".toList, "named".toList] settings.target 2 := by
    decide
  have hswapped := (load_swapped hlines hheader hinter hnamed).2
  exact ⟨hthere, hback, hone, hswapped _ _ _ _ hthere hback hone⟩

end Mappings

end Renaming
