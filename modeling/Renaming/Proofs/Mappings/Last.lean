import Renaming.Proofs.Mappings.Load

/-!
# The last row of a name

The first line is a header or a row like the others, and that tells which two columns hold the names
(`LaidOut`). A dictionary that was loaded has for each name the target that the last row for it gives,
the tally counts the rows that give something and those that are too short, and there is nothing else
to either of them (`StoresLast`, `load_stores_last`).
-/

namespace Renaming.Mappings
variable {settings : Settings} {layout : Layout} {lines body : List Text} {d : Dictionary}
  {tally : RowTally}

/-- Which lines are the body of a file, and which columns hold the names in a row that has so many. -/
inductive LaidOut (settings : Settings) : List Text → List Text → (Nat → Columns) → Prop where
  | headed {header major minor : Text} {namespaces body : List Text} {i j : Nat}
    (hheader : header.columns = "tiny".toList :: major :: minor :: namespaces)
    (hsource : FirstAt namespaces settings.source i)
    (htarget : FirstAt namespaces settings.target j) :
    LaidOut settings (header :: body) body fun _ => ⟨i, j⟩
  | headless {body : List Text}
    (hfirst : ∀ line ∈ body.head?, line.columns.head? ≠ some "tiny".toList) :
    LaidOut settings body body fun names => if 3 ≤ names then ⟨1, 2⟩ else ⟨0, 1⟩

/-- The dictionary holds what the last rows give, and the tally counts the rows. -/
structure StoresLast (pick : Nat → Columns) (body : List Text) (d : Dictionary) (tally : RowTally) :
    Prop where
  get? : ∀ kind name target, d.get? kind name = some target ↔
    ∃ before line after, body = before ++ line :: after ∧ Gives pick kind line name target ∧
      ∀ later ∈ after, ∀ target', ¬ Gives pick kind later name target'
  get?_none : ∀ kind name, d.get? kind name = none ↔
    ∀ line ∈ body, ∀ target, ¬ Gives pick kind line name target
  named : ∀ kind, tally.named kind =
    body.countP fun line => ∃ name target, Gives pick kind line name target
  skipped : tally.skipped =
    body.countP fun line => ∃ kind, IsRow kind line ∧ ¬ IsLong pick kind line

theorem laidOut_of_body? (h : body? settings lines = some (layout, body)) :
    LaidOut settings lines body layout.columns := by
  cases lines with
  | nil =>
    cases h
    exact .headless (by simp)
  | cons line rest =>
    by_cases hheader : (Row.ofLine 1 line).isHeader = true
    · cases hcolumns : (columnsOfHeader settings (Row.ofLine 1 line)).result with
      | error failure => simp [body?, hheader, hcolumns] at h
      | ok columns =>
        simp only [body?, hheader, hcolumns, if_true, Option.some.injEq, Prod.mk.injEq] at h
        obtain ⟨rfl, rfl⟩ := h
        obtain ⟨tag, major, minor, namespaces, hcells, hsource, htarget⟩ :=
          columnsOfHeader_eq_ok_iff.1 hcolumns
        rw [cells_of_isHeader hheader] at hcells
        have htag : tag = "tiny".toList := by
          have hhead := isHeader_ofLine_iff.1 hheader
          rw [hcells] at hhead
          exact Option.some.inj hhead
        rw [htag] at hcells
        exact .headed hcells hsource htarget
    · simp only [body?, hheader, if_false, Option.some.injEq, Prod.mk.injEq, Bool.false_eq_true] at h
      obtain ⟨rfl, rfl⟩ := h
      refine .headless fun first hfirst => ?_
      cases hfirst
      exact mt isHeader_ofLine_iff.2 hheader

theorem getLast?_filterMap_eq_some_iff {α β : Type} {f : α → Option β} {l : List α} {b : β} :
    (l.filterMap f).getLast? = some b ↔
      ∃ before a after, l = before ++ a :: after ∧ f a = some b ∧ ∀ x ∈ after, f x = none := by
  rw [List.getLast?_filterMap, List.findSome?_eq_some_iff]
  constructor
  · rintro ⟨after, a, before, hl, ha, hafter⟩
    refine ⟨before.reverse, a, after.reverse, ?_, ha, by simpa using hafter⟩
    rw [← List.reverse_reverse l, hl]
    simp
  · rintro ⟨before, a, after, rfl, ha, hafter⟩
    exact ⟨after.reverse, a, before.reverse, by simp, ha, by simpa using hafter⟩

theorem AddsUp.storesLast (h : AddsUp (gains layout body) d tally) :
    StoresLast layout.columns body d tally := by
  have hgives : ∀ kind name line target,
      ((Row.ofLine 0 line).gain layout).target? kind name = some target ↔
        Gives layout.columns kind line name target :=
    fun _ _ _ _ => Gain.target?_eq_some_iff.trans gain_eq_entry_iff
  have hnone : ∀ kind name line, ((Row.ofLine 0 line).gain layout).target? kind name = none ↔
      ∀ target, ¬ Gives layout.columns kind line name target := fun kind name line => by
    rw [Option.eq_none_iff_forall_ne_some]
    exact forall_congr' fun target => not_congr (hgives kind name line target)
  constructor
  case get? =>
    intro kind name target
    rw [h.get?, gains, List.filterMap_map, getLast?_filterMap_eq_some_iff]
    simp only [Function.comp_apply, hgives, hnone]
  case get?_none =>
    intro kind name
    rw [h.get?, List.getLast?_eq_none_iff, gains, List.filterMap_map, List.filterMap_eq_nil_iff]
    simp only [Function.comp_apply, hnone]
  case named =>
    intro kind
    rw [h.named, gains, List.countP_map]
    refine List.countP_congr fun line _ => ?_
    rw [Function.comp_apply, Gain.names_iff, decide_eq_true_eq]
    simp only [gain_eq_entry_iff]
  case skipped =>
    rw [h.skipped, gains, List.count_eq_countP, List.countP_map]
    refine List.countP_congr fun line _ => ?_
    rw [Function.comp_apply, beq_iff_eq, decide_eq_true_eq, gain_eq_skipped_iff]

/-- What was loaded from any bytes holds the last row of each name: the body is what stands behind the
header, the columns are those of the namespaces in it, or else those for so many names. -/
theorem load_stores_last {mappings : Bytes}
    (h : (load settings (.ofBytes mappings)).result = .ok (d, tally)) :
    ∃ lines body pick, mappings.lines = lines.map Text.encode ∧ LaidOut settings lines body pick ∧
      StoresLast pick body d tally := by
  obtain ⟨layout, body, hbody, hfault, hsum⟩ := load_eq_ok_iff.1 h
  exact ⟨(Source.ofBytes mappings).lines, body, layout.columns,
    Source.lines_of_fault_eq_none hfault, laidOut_of_body? hbody, hsum.storesLast⟩

/-- The namespace `named` comes twice. The class `p/A` has three rows: the second wins, since there is
no target in the third. The next row is too short, and the last lies too deep. -/
theorem load_stores_last_three_rows :
    let settings : Settings := ⟨"inter".toList, "named".toList, [], .positional⟩
    let lines := ["tiny\t2\t0\tnamed\tinter\tnamed".toList, "c\tq/A\tp/A".toList,
      "\tf\tI\tg\tf".toList, "c\tq/B\tp/A\tr/B".toList, "c\t\tp/A".toList, "c\tq/C".toList,
      "\t\tf\tI\tg\th".toList]
    let mappings := Text.encodeLines lines
    let d := (Dictionary.empty.insert .klass "p/A".toList "q/B".toList).insert .field "f".toList
      "g".toList
    (load settings (.ofBytes mappings)).result = .ok (d, ⟨2, 1, 0, 1⟩) ∧
      ∃ lines body pick, mappings.lines = lines.map Text.encode ∧ LaidOut settings lines body pick ∧
        StoresLast pick body d ⟨2, 1, 0, 1⟩ := by
  intro settings lines mappings d
  have hsource : Source.ofBytes mappings = ⟨lines, none⟩ := by decide +kernel
  have hload : (load settings (.ofBytes mappings)).result = .ok (d, ⟨2, 1, 0, 1⟩) := by
    rw [hsource]
    rfl
  exact ⟨hload, load_stores_last hload⟩

end Renaming.Mappings
