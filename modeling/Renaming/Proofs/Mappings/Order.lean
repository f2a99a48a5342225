import Renaming.Access.Document
import Renaming.Proofs.Mappings.Gains
import Renaming.Proofs.Text.Lines

/-!
# The order of the rows

The rows behind the header may come in any order, and a field or a method may stand below any class,
as long as no two of them give different targets to one name (`Consistent`). The dictionary and the
tally are the same, and so is every run that uses the dictionary (`load_reordered`).
-/

namespace Renaming.Mappings
variable {settings : Settings} {layout : Layout} {lines lines' : List Text}

/-- The lines that hold the rows, and how these are laid out. With a bad header there are none. -/
def body? (settings : Settings) : List Text → Option (Layout × List Text)
  | [] => some (.implicit, [])
  | line :: rest =>
    if (Row.ofLine 1 line).isHeader then
      match (columnsOfHeader settings (Row.ofLine 1 line)).result with
      | .ok columns => some (.declared columns, rest)
      | .error _ => none
    else some (.implicit, line :: rest)

/-- No two entries among the gains have different targets for one name. -/
def Agree (gains : List Gain) : Prop :=
  ∀ kind source target target', .entry kind source target ∈ gains →
    .entry kind source target' ∈ gains → target = target'

/-- No two rows that are stored give different targets to one name of a kind. -/
def Consistent (settings : Settings) (lines : List Text) : Prop :=
  ∀ body ∈ body? settings lines, Agree (gains body.1 body.2)

/-- Whether the second gain gives no other target to the name of the first. -/
def Gain.agrees : Gain → Gain → Bool
  | .entry kind source target, gain => (gain.target? kind source).all (· = target)
  | .nothing, _ | .skipped, _ => true

theorem agree_iff {gains : List Gain} :
    Agree gains ↔ ∀ gain ∈ gains, ∀ gain' ∈ gains, gain.agrees gain' = true := by
  constructor
  · intro h gain hmem gain' hmem'
    cases gain with
    | entry kind source target =>
      rw [Gain.agrees, Option.all_eq_true]
      intro target' htarget'
      rw [Gain.target?_eq_some_iff.1 htarget'] at hmem'
      exact decide_eq_true (h kind source target' target hmem' hmem)
    | _ => rfl
  · intro h kind source target target' hmem hmem'
    have hagrees := h _ hmem _ hmem'
    rw [Gain.agrees, Gain.target?_eq_some_iff.2 rfl] at hagrees
    exact (of_decide_eq_true hagrees).symm

instance {gains : List Gain} : Decidable (Agree gains) := decidable_of_iff _ agree_iff.symm

instance {lines : List Text} : Decidable (Consistent settings lines) :=
  inferInstanceAs (Decidable (∀ body ∈ body? settings lines, Agree (gains body.1 body.2)))

/-! ### Rows in another order -/

theorem getLast?_eq_of_perm {α : Type} {l l' : List α} (h : l.Perm l')
    (hsame : ∀ a ∈ l, ∀ b ∈ l, a = b) : l.getLast? = l'.getLast? := by
  cases hl : l.getLast? with
  | none =>
    rw [List.getLast?_eq_none_iff] at hl
    subst hl
    rw [List.nil_perm.1 h]
    rfl
  | some a =>
    cases hl' : l'.getLast? with
    | none =>
      rw [List.getLast?_eq_none_iff] at hl'
      subst hl'
      rw [List.perm_nil.1 h] at hl
      cases hl
    | some b =>
      have hb : b ∈ l := h.mem_iff.2 (List.mem_of_getLast? hl')
      rw [hsame a (List.mem_of_getLast? hl) b hb]

theorem loadRows_perm {first : Nat} (h : lines.Perm lines') (hagree : Agree (gains layout lines)) :
    (loadRows layout first lines none).result = (loadRows layout first lines' none).result := by
  have hgains : (gains layout lines).Perm (gains layout lines') := h.map _
  have hdictionary : ((rows first lines).foldl (Progress.read layout) .start).dictionary =
      ((rows first lines').foldl (Progress.read layout) .start).dictionary := by
    refine Dictionary.ext_get? fun kind name => ?_
    rw [Progress.get?_foldl_read, Progress.get?_foldl_read, map_gain_rows, map_gain_rows]
    have hlast := getLast?_eq_of_perm (hgains.filterMap (Gain.target? kind name)) (by
      intro target htarget target' htarget'
      obtain ⟨gain, hmem, hgain⟩ := List.mem_filterMap.1 htarget
      obtain ⟨gain', hmem', hgain'⟩ := List.mem_filterMap.1 htarget'
      rw [Gain.target?_eq_some_iff.1 hgain] at hmem
      rw [Gain.target?_eq_some_iff.1 hgain'] at hmem'
      exact hagree kind name target target' hmem hmem')
    rw [hlast]
  have htally : ((rows first lines).foldl (Progress.read layout) .start).tally =
      ((rows first lines').foldl (Progress.read layout) .start).tally := by
    refine RowTally.ext_named (fun kind => ?_) ?_
    · rw [Progress.named_foldl_read, Progress.named_foldl_read, map_gain_rows, map_gain_rows,
        hgains.countP_eq]
    · rw [Progress.skipped_foldl_read, Progress.skipped_foldl_read, map_gain_rows, map_gain_rows,
        hgains.count_eq]
  show Except.ok (_, _) = Except.ok (_, _)
  rw [hdictionary, htally]

/-! ### Files in another order -/

theorem load_headed {line : Text} (h : (Row.ofLine 1 line).isHeader = true) (rest : List Text)
    (fault : Option Fault) : (load settings ⟨line :: rest, fault⟩).result =
      match (columnsOfHeader settings (Row.ofLine 1 line)).result with
      | .ok columns => (loadRows (.declared columns) 2 rest fault).result
      | .error failure => .error (failure.within .headerLine) := by
  simp only [load, h, if_true]
  rcases columnsOfHeader settings (Row.ofLine 1 line) with ⟨events, failure | columns⟩ <;> rfl

theorem load_headless (h : ∀ line ∈ lines, (Row.ofLine 1 line).isHeader = false)
    (fault : Option Fault) :
    (load settings ⟨lines, fault⟩).result = (loadRows .implicit 1 lines fault).result := by
  cases lines with
  | nil => rfl
  | cons line rest => simp [load, h line (List.mem_cons_self ..)]

/-- Two mappings files have the same header or none, and behind it the same rows in different orders.
If the rows are consistent, both are loaded to the same dictionary with the same tally, or both
fail because of the header, and files are renamed alike with what was loaded from them. -/
theorem load_reordered {mappings mappings' : Bytes} {head body body' : List Text}
    (hlines : mappings.lines = (head ++ body).map Text.encode)
    (hlines' : mappings'.lines = (head ++ body').map Text.encode)
    (hhead : (head = [] ∧ ∀ line ∈ body, (Row.ofLine 1 line).isHeader = false) ∨
      ∃ line, head = [line] ∧ (Row.ofLine 1 line).isHeader = true)
    (hperm : body.Perm body') (hcons : Consistent settings (head ++ body)) :
    (load settings (.ofBytes mappings)).result = (load settings (.ofBytes mappings')).result ∧
      ∀ d d' tally tally', (load settings (.ofBytes mappings)).result = .ok (d, tally) →
        (load settings (.ofBytes mappings')).result = .ok (d', tally') →
        ∀ settings' source room flush,
          Access.rename settings' d source room flush = Access.rename settings' d' source room flush := by
  have hload : (load settings (.ofBytes mappings)).result =
      (load settings (.ofBytes mappings')).result := by
    rw [Source.ofBytes_of_lines hlines, Source.ofBytes_of_lines hlines']
    rcases hhead with ⟨rfl, hbody⟩ | ⟨line, rfl, hline⟩
    · have hbody' : ∀ line ∈ body', (Row.ofLine 1 line).isHeader = false :=
        fun line hmem => hbody line (hperm.mem_iff.2 hmem)
      rw [List.nil_append, List.nil_append, load_headless hbody, load_headless hbody']
      refine loadRows_perm hperm (hcons (.implicit, body) ?_)
      cases body with
      | nil => rfl
      | cons line rest => simp [body?, hbody line (List.mem_cons_self ..)]
    · show (load settings ⟨line :: body, none⟩).result = (load settings ⟨line :: body', none⟩).result
      rw [load_headed hline, load_headed hline]
      cases hcolumns : (columnsOfHeader settings (Row.ofLine 1 line)).result with
      | error failure => rfl
      | ok columns =>
        exact loadRows_perm hperm (hcons (.declared columns, body) (by simp [body?, hline, hcolumns]))
  refine ⟨hload, fun d d' tally tally' hd hd' settings' source room flush => ?_⟩
  rw [hload, hd'] at hd
  cases hd
  rfl

/-- The method `m` stands below the other class, the row that comes twice is nowhere last, and the
short row comes first. -/
theorem load_reordered_below_other_class :
    let settings : Settings := ⟨"inter".toList, "named".toList, [], .positional⟩
    let head := ["tiny\t2\t0\tinter\tnamed".toList]
    let body := ["c\tp/A\tq/A".toList, "\tm\t()V\tm\tn".toList, "c\tp/B\tq/B".toList,
      "c\tp/A\tq/A".toList, "c\tp/C".toList]
    let body' := ["c\tp/C".toList, "c\tp/A\tq/A".toList, "c\tp/A\tq/A".toList,
      "c\tp/B\tq/B".toList, "\tm\t()V\tm\tn".toList]
    let d := ((Dictionary.empty.insert .klass "p/A".toList "q/A".toList).insert .klass "p/B".toList
      "q/B".toList).insert .method "m".toList "n".toList
    body.Perm body' ∧ Consistent settings (head ++ body) ∧
      (load settings (.ofBytes (Text.encodeLines (head ++ body)))).result = .ok (d, ⟨3, 0, 1, 1⟩) ∧
      (load settings (.ofBytes (Text.encodeLines (head ++ body')))).result = .ok (d, ⟨3, 0, 1, 1⟩) := by
  intro settings head body body' d
  have hperm : body.Perm body' := by decide
  have hcons : Consistent settings (head ++ body) := by decide +kernel
  have hlines : (Text.encodeLines (head ++ body)).lines = (head ++ body).map Text.encode := by
    decide +kernel
  have hlines' : (Text.encodeLines (head ++ body')).lines = (head ++ body').map Text.encode := by
    decide +kernel
  have hload := (load_reordered hlines hlines' (.inr ⟨_, rfl, by decide +kernel⟩) hperm hcons).1
  have hfirst : (load settings (.ofBytes (Text.encodeLines (head ++ body)))).result =
      .ok (d, ⟨3, 0, 1, 1⟩) := by
    rw [Source.ofBytes_of_lines hlines]
    rfl
  exact ⟨hperm, hcons, hfirst, hload ▸ hfirst⟩

end Renaming.Mappings
