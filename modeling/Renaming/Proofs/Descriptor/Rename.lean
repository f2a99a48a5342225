import Renaming.Proofs.Descriptor.Scan
import Renaming.Proofs.Dictionary

/-!
# The three outcomes of renaming a descriptor

A text with a reference outside the packages stays (`rename_of_outside`), one whose references are
all known is substituted (`rename_of_known`), and otherwise the first unknown one is reported
(`rename_of_unknown`). `rename_eq_ok_iff` is the inversion for the two that succeed and
`exists_rename_iff` says when they do, `rename_eq_error_iff` is the inversion for the one that fails.
-/

namespace Renaming.Descriptor
variable {settings : Settings} {d : Dictionary} {s t : Text}

/-- Some class that the text refers to lies outside the packages. -/
def Outside (settings : Settings) (s : Text) : Prop :=
  ∃ name ∈ references s, settings.covers name = false

theorem not_outside_iff :
    ¬ Outside settings s ↔ ∀ name ∈ references s, settings.covers name = true := by
  simp [Outside]

theorem rename_eq : rename settings d s =
    match (references s).find? fun name => !settings.covers name with
    | some outside => ⟨[.descriptorKept s outside], .ok s⟩
    | none =>
      match (references s).find? fun name => !d.knowsClass name with
      | some name => Traced.fail ⟨name, s⟩
      | none => Traced.pure (substitute d s settings.substitution) := rfl

theorem rename_of_outside (h : Outside settings s) : (rename settings d s).result = .ok s := by
  obtain ⟨name, hname, hcovers⟩ := h
  have hfind : ((references s).find? fun name => !settings.covers name).isSome :=
    List.find?_isSome.2 ⟨name, hname, by simp [hcovers]⟩
  obtain ⟨outside, hfind⟩ := Option.isSome_iff_exists.1 hfind
  rw [rename_eq, hfind]

theorem find?_covers_eq_none (h : ¬ Outside settings s) :
    ((references s).find? fun name => !settings.covers name) = none :=
  List.find?_eq_none.2 fun name hname => by simp [not_outside_iff.1 h name hname]

theorem find?_knowsClass_eq_none (h : ∀ name ∈ references s, d.Knows name) :
    ((references s).find? fun name => !d.knowsClass name) = none :=
  List.find?_eq_none.2 fun name hname => by simp [Dictionary.knowsClass_iff.2 (h name hname)]

theorem rename_of_known (h : ¬ Outside settings s) (hknown : ∀ name ∈ references s, d.Knows name) :
    (rename settings d s).result = .ok (substitute d s settings.substitution) := by
  rw [rename_eq, find?_covers_eq_none h, find?_knowsClass_eq_none hknown]
  rfl

theorem rename_of_unknown {before after : List Text} {name : Text} (h : ¬ Outside settings s)
    (hs : references s = before ++ name :: after) (hbefore : ∀ name ∈ before, d.Knows name)
    (hname : ¬ d.Knows name) : (rename settings d s).result = .error ⟨name, s⟩ := by
  have hfind : ((references s).find? fun name => !d.knowsClass name) = some name := by
    refine List.find?_eq_some_iff_append.2 ⟨?_, before, after, hs, fun name hmem => ?_⟩
    · simpa [← Dictionary.knowsClass_iff] using hname
    · simpa using Dictionary.knowsClass_iff.2 (hbefore name hmem)
  rw [rename_eq, find?_covers_eq_none h, hfind]
  rfl

/-- The names before the first unknown one, and that one. -/
theorem exists_first_unknown {names : List Text} (h : ¬ ∀ name ∈ names, d.Knows name) :
    ∃ before name after, names = before ++ name :: after ∧ (∀ name ∈ before, d.Knows name) ∧
      ¬ d.Knows name := by
  induction names with
  | nil => exact absurd (by simp) h
  | cons name names ih =>
    by_cases hname : d.Knows name
    · have hnames : ¬ ∀ name ∈ names, d.Knows name := fun hall =>
        h (List.forall_mem_cons.2 ⟨hname, hall⟩)
      obtain ⟨before, first, after, rfl, hbefore, hfirst⟩ := ih hnames
      exact ⟨name :: before, first, after, rfl, List.forall_mem_cons.2 ⟨hname, hbefore⟩, hfirst⟩
    · exact ⟨[], name, names, rfl, by simp, hname⟩

theorem rename_eq_ok_iff : (rename settings d s).result = .ok t ↔
    (Outside settings s ∧ t = s) ∨ (¬ Outside settings s ∧ (∀ name ∈ references s, d.Knows name) ∧
      t = substitute d s settings.substitution) := by
  constructor
  · intro h
    by_cases hout : Outside settings s
    · rw [rename_of_outside hout] at h
      exact .inl ⟨hout, (Except.ok.inj h).symm⟩
    · by_cases hknown : ∀ name ∈ references s, d.Knows name
      · rw [rename_of_known hout hknown] at h
        exact .inr ⟨hout, hknown, (Except.ok.inj h).symm⟩
      · obtain ⟨before, name, after, hs, hbefore, hname⟩ := exists_first_unknown hknown
        rw [rename_of_unknown hout hs hbefore hname] at h
        cases h
  · rintro (⟨hout, rfl⟩ | ⟨hout, hknown, rfl⟩)
    · exact rename_of_outside hout
    · exact rename_of_known hout hknown

theorem exists_rename_iff : (∃ t, (rename settings d s).result = .ok t) ↔
    Outside settings s ∨ ∀ name ∈ references s, d.Knows name := by
  constructor
  · rintro ⟨t, h⟩
    exact (rename_eq_ok_iff.1 h).imp And.left fun h => h.2.1
  · intro h
    by_cases hout : Outside settings s
    · exact ⟨s, rename_of_outside hout⟩
    · exact ⟨_, rename_of_known hout (h.resolve_left hout)⟩

/-- The inversion for the outcome that fails. -/
theorem rename_eq_error_iff {missing : MissingClass} :
    (rename settings d s).result = .error missing ↔
      ¬ Outside settings s ∧ ∃ before name after, references s = before ++ name :: after ∧
        (∀ name ∈ before, d.Knows name) ∧ ¬ d.Knows name ∧ missing = ⟨name, s⟩ := by
  constructor
  · intro h
    have hout : ¬ Outside settings s := by
      intro hout
      rw [rename_of_outside hout] at h
      cases h
    refine ⟨hout, ?_⟩
    by_cases hknown : ∀ name ∈ references s, d.Knows name
    · rw [rename_of_known hout hknown] at h
      cases h
    · obtain ⟨before, name, after, hs, hbefore, hname⟩ := exists_first_unknown hknown
      rw [rename_of_unknown hout hs hbefore hname] at h
      exact ⟨before, name, after, hs, hbefore, hname, (Except.error.inj h).symm⟩
  · rintro ⟨hout, before, name, after, hs, hbefore, hname, rfl⟩
    exact rename_of_unknown hout hs hbefore hname

theorem substitute_positional :
    substitute d s .positional = join ((pieces s).map (Piece.mapName (d.rename .klass))) := by
  rw [substitute, Piece.rename_eq_mapName]

end Renaming.Descriptor
