import Renaming.Access.Rename
import Renaming.Proofs.Descriptor.Substitute

/-!
# What becomes of a line

`Renames settings d line new` says how a line and the one written for it belong together, without
the number that only failures mention; `renameLine_eq_ok_iff` is the inversion of `renameLine` for the
lines that can be renamed, `renameLine_eq_error_iff` for the others. The kind of a line shows in its
first two columns (`LineKind.ofLine_congr`), which renaming leaves alone.
-/

namespace Renaming

theorem isPrefixOf_append_tab {mark : Text} (h : '\t' ∉ mark) (cell rest : Text) :
    mark.isPrefixOf (cell ++ '\t' :: rest) = mark.isPrefixOf cell := by
  induction mark generalizing cell with
  | nil => rfl
  | cons m mark ih =>
    rw [List.mem_cons, not_or] at h
    obtain ⟨hm, hmark⟩ := h
    cases cell with
    | nil =>
      have hne : (m == '\t') = false := beq_false_of_ne (Ne.symm hm)
      simp [List.isPrefixOf, hne]
    | cons c cell => simp only [List.cons_append, List.isPrefixOf, ih hmark]

namespace LineKind
variable {line new access tag : Text} {rest rest' : List Text}

theorem isPrefixOf_headerMark (h : line.columns = access :: tag :: rest) :
    headerMark.isPrefixOf line = headerMark.isPrefixOf access := by
  rw [← Text.ofColumns_columns line, h, Text.ofColumns_cons_cons]
  exact isPrefixOf_append_tab (by decide) ..

theorem head?_eq_some_iff (h : line.columns = access :: tag :: rest) :
    line.head? = some '#' ↔ access.head? = some '#' := by
  rw [← Text.ofColumns_columns line, h, Text.ofColumns_cons_cons]
  cases access <;> simp

/-- The kind of a line depends on its first two columns only. -/
theorem ofLine_congr (h : line.columns = access :: tag :: rest)
    (h' : new.columns = access :: tag :: rest') :
    ofLine new = ofLine line := by
  unfold ofLine
  simp only [isPrefixOf_headerMark h, isPrefixOf_headerMark h', head?_eq_some_iff h,
    head?_eq_some_iff h', h, h']

theorem ofLine_eq_header_iff : ofLine line = .header ↔ headerMark <+: line := by
  rw [← List.isPrefixOf_iff_prefix, ofLine]
  split
  · rename_i hmark
    simp [hmark]
  · rename_i hmark
    refine ⟨fun h => ?_, fun h => absurd h hmark⟩
    split at h
    · cases h
    · split at h
      · split at h <;> cases h
      · cases h

end LineKind

namespace Access
variable {settings : Settings} {d : Dictionary} {number : Nat} {line new : Text} {kind : Kind}
  {failure : Failure}

/-- How a line and the line written for it belong together. -/
inductive Renames (settings : Settings) (d : Dictionary) : Text → Text → Prop where
  | header {line : Text} (h : LineKind.ofLine line = .header) :
    Renames settings d line (Text.replaceFirst settings.source settings.target line)
  | other {line : Text} (h : LineKind.ofLine line = .comment ∨ LineKind.ofLine line = .other) :
    Renames settings d line line
  | klass {line access tag name : Text} {extra : List Text}
    (h : LineKind.ofLine line = .declaration .klass)
    (hc : line.columns = access :: tag :: name :: extra) :
    Renames settings d line (Text.ofColumns (access :: tag :: d.rename .klass name :: extra))
  | member {line access tag owner name descriptor new : Text} {extra : List Text} {kind : Kind}
    (h : LineKind.ofLine line = .declaration kind) (hk : kind ≠ .klass)
    (hc : line.columns = access :: tag :: owner :: name :: descriptor :: extra)
    (hd : (Descriptor.rename settings d descriptor).result = .ok new) :
    Renames settings d line (Text.ofColumns
      (access :: tag :: d.rename .klass owner :: d.rename kind name :: new :: extra))

theorem renameHeader_result :
    (renameHeader settings line).result =
      .ok (Text.replaceFirst settings.source settings.target line) := by
  unfold renameHeader Text.replaceFirst
  cases Text.cut? settings.source line <;> rfl

theorem renameClass_eq_ok_iff : (renameClass d number line).result = .ok new ↔
    ∃ access tag name extra, line.columns = access :: tag :: name :: extra ∧
      new = Text.ofColumns (access :: tag :: d.rename .klass name :: extra) := by
  unfold renameClass
  split
  · rename_i access tag name extra hc
    simp only [Traced.pure, Except.ok.injEq, hc, List.cons.injEq]
    constructor
    · rintro rfl
      exact ⟨access, tag, name, extra, ⟨rfl, rfl, rfl, rfl⟩, rfl⟩
    · rintro ⟨_, _, _, _, ⟨rfl, rfl, rfl, rfl⟩, rfl⟩
      rfl
  · rename_i hc
    simp only [Traced.fail, reduceCtorEq, false_iff]
    rintro ⟨access, tag, name, extra, h, -⟩
    exact hc access tag name extra h

theorem renameMember_eq_ok_iff : (renameMember settings d kind number line).result = .ok new ↔
    ∃ access tag owner name descriptor extra descriptor',
      line.columns = access :: tag :: owner :: name :: descriptor :: extra ∧
      (Descriptor.rename settings d descriptor).result = .ok descriptor' ∧
      new = Text.ofColumns
        (access :: tag :: d.rename .klass owner :: d.rename kind name :: descriptor' :: extra) := by
  unfold renameMember
  split
  · rename_i access tag owner name descriptor extra hc
    rw [Traced.bind_result_eq_ok_iff]
    simp only [Traced.mapError_result_eq_ok_iff, Traced.pure, Except.ok.injEq, hc, List.cons.injEq]
    constructor
    · rintro ⟨descriptor', hd, rfl⟩
      exact ⟨access, tag, owner, name, descriptor, extra, descriptor',
        ⟨rfl, rfl, rfl, rfl, rfl, rfl⟩, hd, rfl⟩
    · rintro ⟨_, _, _, _, _, _, descriptor', ⟨rfl, rfl, rfl, rfl, rfl, rfl⟩, hd, rfl⟩
      exact ⟨descriptor', hd, rfl⟩
  · rename_i hc
    simp only [Traced.fail, reduceCtorEq, false_iff]
    rintro ⟨access, tag, owner, name, descriptor, extra, -, h, -⟩
    exact hc access tag owner name descriptor extra h

theorem renameLine_eq_ok_iff : (renameLine settings d number line).result = .ok new ↔
    Renames settings d line new := by
  unfold renameLine
  constructor
  · intro h
    split at h
    · rename_i hkind
      rw [renameHeader_result] at h
      cases h
      exact .header hkind
    · rename_i hkind
      obtain ⟨access, tag, name, extra, hc, rfl⟩ := renameClass_eq_ok_iff.1 h
      exact .klass hkind hc
    · rename_i kind hk hkind
      obtain ⟨access, tag, owner, name, descriptor, extra, descriptor', hc, hd, rfl⟩ :=
        renameMember_eq_ok_iff.1 h
      exact .member hkind hk hc hd
    · rename_i hkind
      cases h
      exact .other (.inl hkind)
    · rename_i hkind
      cases h
      exact .other (.inr hkind)
  · rintro (hkind | hkind | ⟨hkind, hc⟩ | ⟨hkind, hk, hc, hd⟩)
    · rw [hkind]
      exact renameHeader_result
    · rcases hkind with hkind | hkind <;> rw [hkind] <;> rfl
    · rw [hkind]
      exact renameClass_eq_ok_iff.2 ⟨_, _, _, _, hc, rfl⟩
    · rename_i kind
      rw [hkind]
      cases kind with
      | klass => exact absurd rfl hk
      | field => exact renameMember_eq_ok_iff.2 ⟨_, _, _, _, _, _, _, hc, hd, rfl⟩
      | method => exact renameMember_eq_ok_iff.2 ⟨_, _, _, _, _, _, _, hc, hd, rfl⟩

/-! ### The lines that cannot be renamed -/

theorem exists_three_iff {cells : List Text} :
    (∃ access tag name extra, cells = access :: tag :: name :: extra) ↔ 3 ≤ cells.length := by
  match cells with
  | [] | [_] | [_, _] => simp
  | _ :: _ :: _ :: _ => simp

theorem exists_five_iff {cells : List Text} :
    (∃ access tag owner name descriptor extra,
      cells = access :: tag :: owner :: name :: descriptor :: extra) ↔ 5 ≤ cells.length := by
  match cells with
  | [] | [_] | [_, _] | [_, _, _] | [_, _, _, _] => simp
  | _ :: _ :: _ :: _ :: _ :: _ => simp

theorem renameClass_eq_error_iff : (renameClass d number line).result = .error failure ↔
    line.columns.length < 3 ∧ failure = tooShort number .klass line := by
  rw [← Nat.not_le, ← exists_three_iff]
  unfold renameClass
  split
  · rename_i access tag name extra hc
    simp [Traced.pure, hc]
  · rename_i hc
    constructor
    · intro h
      refine ⟨?_, (Except.error.inj h).symm⟩
      rintro ⟨access, tag, name, extra, h⟩
      exact hc access tag name extra h
    · rintro ⟨-, rfl⟩
      rfl

theorem renameMember_eq_error_iff :
    (renameMember settings d kind number line).result = .error failure ↔
      (line.columns.length < 5 ∧ failure = tooShort number kind line) ∨
      ∃ access tag owner name descriptor extra missing,
        line.columns = access :: tag :: owner :: name :: descriptor :: extra ∧
        (Descriptor.rename settings d descriptor).result = .error missing ∧
        failure = missingIn number kind owner name missing := by
  rw [← Nat.not_le, ← exists_five_iff]
  unfold renameMember
  split
  · rename_i access tag owner name descriptor extra hc
    rw [Traced.bind_result_eq_error_iff]
    simp only [Traced.mapError_result_eq_error_iff, Traced.pure, hc, List.cons.injEq]
    constructor
    · rintro (⟨missing, hd, rfl⟩ | ⟨_, -, h⟩)
      · exact .inr ⟨access, tag, owner, name, descriptor, extra, missing,
          ⟨rfl, rfl, rfl, rfl, rfl, rfl⟩, hd, rfl⟩
      · cases h
    · rintro (⟨h, -⟩ | ⟨_, _, _, _, _, _, missing, ⟨rfl, rfl, rfl, rfl, rfl, rfl⟩, hd, rfl⟩)
      · exact absurd ⟨access, tag, owner, name, descriptor, extra, rfl, rfl, rfl, rfl, rfl, rfl⟩ h
      · exact .inl ⟨missing, hd, rfl⟩
  · rename_i hc
    constructor
    · intro h
      refine .inl ⟨?_, (Except.error.inj h).symm⟩
      rintro ⟨access, tag, owner, name, descriptor, extra, h⟩
      exact hc access tag owner name descriptor extra h
    · rintro (⟨-, rfl⟩ | ⟨access, tag, owner, name, descriptor, extra, -, h, -⟩)
      · rfl
      · exact absurd h (hc access tag owner name descriptor extra)

/-- A line that cannot be renamed is a declaration with too few columns, or with a descriptor that
cannot be renamed. -/
theorem renameLine_eq_error_iff : (renameLine settings d number line).result = .error failure ↔
    ∃ kind, LineKind.ofLine line = .declaration kind ∧
      ((line.columns.length < columnsNeeded kind ∧ failure = tooShort number kind line) ∨
        kind ≠ .klass ∧ ∃ access tag owner name descriptor extra missing,
          line.columns = access :: tag :: owner :: name :: descriptor :: extra ∧
          (Descriptor.rename settings d descriptor).result = .error missing ∧
          failure = missingIn number kind owner name missing) := by
  unfold renameLine
  split
  · rename_i h
    simp [renameHeader_result, h]
  · rename_i h
    simp [renameClass_eq_error_iff, h, columnsNeeded]
  · rename_i kind hk h
    have hneeded : columnsNeeded kind = 5 := by
      cases kind with
      | klass => exact absurd rfl hk
      | field => rfl
      | method => rfl
    have hmember : kind ≠ .klass := hk
    simp [renameMember_eq_error_iff, h, hneeded, hmember]
  · rename_i h
    simp [Traced.pure, h]
  · rename_i h
    simp [Traced.pure, h]

/-! ### Columns and characters of the new line -/

section Columns
variable {x : Char} {access tag owner name descriptor descriptor' : Text} {extra : List Text}

theorem not_mem_columns_of_class (hd : d.Targets .klass (x ∉ ·))
    (h : ∀ cell ∈ access :: tag :: name :: extra, x ∉ cell) :
    ∀ cell ∈ access :: tag :: d.rename .klass name :: extra, x ∉ cell := by
  simp only [List.forall_mem_cons] at h ⊢
  obtain ⟨haccess, htag, hname, hextra⟩ := h
  exact ⟨haccess, htag, hd.rename hname, hextra⟩

theorem not_mem_columns_of_member (hx : Descriptor.IsBreak x) (hd : ∀ kind, d.Targets kind (x ∉ ·))
    (hdesc : (Descriptor.rename settings d descriptor).result = .ok descriptor')
    (h : ∀ cell ∈ access :: tag :: owner :: name :: descriptor :: extra, x ∉ cell) :
    ∀ cell ∈ access :: tag :: d.rename .klass owner :: d.rename kind name :: descriptor' :: extra,
      x ∉ cell := by
  simp only [List.forall_mem_cons] at h ⊢
  obtain ⟨haccess, htag, howner, hname, hdescriptor, hextra⟩ := h
  have hdescriptor' := Descriptor.not_mem_of_rename hx (hd .klass) hdescriptor hdesc
  exact ⟨haccess, htag, (hd .klass).rename howner, (hd kind).rename hname, hdescriptor', hextra⟩

/-- Without a tab in a target, no column of a class moves. -/
theorem columns_of_class (htab : d.Targets .klass ('\t' ∉ ·))
    (hc : line.columns = access :: tag :: name :: extra) :
    (Text.ofColumns (access :: tag :: d.rename .klass name :: extra)).columns =
      access :: tag :: d.rename .klass name :: extra := by
  refine Text.columns_ofColumns (not_mem_columns_of_class htab ?_) (List.cons_ne_nil _ _)
  rw [← hc]
  exact fun _ => Text.tab_not_mem_of_mem_columns

/-- Without a tab in a target, no column of a field or a method moves. -/
theorem columns_of_member (kind : Kind) (htab : ∀ kind, d.Targets kind ('\t' ∉ ·))
    (hc : line.columns = access :: tag :: owner :: name :: descriptor :: extra)
    (hdesc : (Descriptor.rename settings d descriptor).result = .ok descriptor') :
    (Text.ofColumns
      (access :: tag :: d.rename .klass owner :: d.rename kind name :: descriptor' :: extra)).columns =
      access :: tag :: d.rename .klass owner :: d.rename kind name :: descriptor' :: extra := by
  refine Text.columns_ofColumns (not_mem_columns_of_member (.inl rfl) htab hdesc ?_)
    (List.cons_ne_nil _ _)
  rw [← hc]
  exact fun _ => Text.tab_not_mem_of_mem_columns

end Columns

theorem targets_not_mem {x : Char} (hx : Descriptor.IsBreak x)
    (hclass : d.Targets .klass Descriptor.IsClassName)
    (hmember : ∀ kind, kind ≠ .klass → d.Targets kind (x ∉ ·)) (kind : Kind) :
    d.Targets kind (x ∉ ·) := by
  by_cases hk : kind = .klass
  · subst hk
    exact hclass.mono fun _ => Descriptor.not_mem_of_isClassName hx
  · exact hmember kind hk

/-- What ends a line gets into a new line only from the old one, from the target namespace or from a
target name. -/
theorem Renames.not_mem {x : Char} (hx : Descriptor.IsBreak x) (htab : x ≠ '\t')
    (htarget : x ∉ settings.target) (hd : ∀ kind, d.Targets kind (x ∉ ·))
    (h : Renames settings d line new) (hline : x ∉ line) : x ∉ new := by
  have hcell : ∀ cell ∈ line.columns, x ∉ cell := fun cell hcell hmem =>
    hline (Text.mem_of_mem_columns hcell hmem)
  cases h with
  | header h =>
    intro hmem
    rcases Text.mem_replaceFirst hmem with hmem | hmem
    · exact htarget hmem
    · exact hline hmem
  | other h => exact hline
  | klass h hc =>
    rw [hc] at hcell
    exact Text.not_mem_ofColumns htab (not_mem_columns_of_class (hd .klass) hcell)
  | member h hk hc hdesc =>
    rw [hc] at hcell
    exact Text.not_mem_ofColumns htab (not_mem_columns_of_member hx hd hdesc hcell)

end Access

end Renaming
