import Renaming.Proofs.Access.Document
import Renaming.Proofs.Access.Refuse

/-!
# A dictionary that changes no name

If every entry maps a name to itself, or there is none, renaming changes nothing but headers. It can
still fail: a class needs an entry to be known, even one that keeps its name (`Lacking`). A line that
is no header and lacks nothing stays as it is, so what a run writes is its input with other headers
(`rename_unchanged`).
-/

namespace Renaming
variable {settings : Settings} {d : Dictionary}

/-- A reference that is replaced by itself stays, wherever its text occurs first. -/
theorem Descriptor.substitute_of_keepsNames (h : d.KeepsNames) (s : Text) (mode : Substitution) :
    substitute d s mode = s := by
  cases mode with
  | positional =>
    rw [substitute_positional, map_mapName_of_fixed fun name _ => h.rename_eq, join_pieces]
  | firstOccurrence =>
    have hstep : ∀ names : List Text, names.foldl (replaceReference d) s = s := by
      intro names
      induction names with
      | nil => rfl
      | cons name names ih =>
        rw [List.foldl_cons, replaceReference, Piece.rename, h.rename_eq, Text.replaceFirst_self, ih]
    exact hstep (references s)

theorem Descriptor.eq_of_rename_of_keepsNames {s t : Text} (h : d.KeepsNames)
    (hok : (rename settings d s).result = .ok t) : t = s := by
  rcases rename_eq_ok_iff.1 hok with ⟨-, rfl⟩ | ⟨-, -, rfl⟩
  · rfl
  · exact substitute_of_keepsNames h s settings.substitution

namespace Access
variable {number : Nat} {line new : Text} {room : Room}

/-- The line is a declaration with too few columns, or of a member whose descriptor lies inside the
packages and refers to a class without an entry. -/
inductive Lacking (settings : Settings) (d : Dictionary) (line : Text) : Prop where
  | column {kind : Kind} (h : Declares kind line)
    (hlength : line.columns.length < columnsNeeded kind)
  | entry {kind : Kind} {access tag owner member descriptor name : Text} {extra : List Text}
    (h : Declares kind line) (hk : kind ≠ .klass)
    (hc : line.columns = access :: tag :: owner :: member :: descriptor :: extra)
    (hinside : ∀ name ∈ Descriptor.references descriptor,
      ∃ package ∈ settings.packages, package <+: name)
    (hname : name ∈ Descriptor.references descriptor) (hnone : d.get? .klass name = none)

theorem exists_refused_iff (h : d.KeepsNames) :
    (∃ failure, Refused settings d number line failure) ↔ Lacking settings d line := by
  constructor
  · rintro ⟨failure, hrefused⟩
    cases hrefused with
    | shortClass hdeclares hlength => exact .column hdeclares hlength
    | shortMember hdeclares hk hlength =>
      rename_i kind
      cases kind with
      | klass => exact absurd rfl hk
      | field => exact .column hdeclares hlength
      | method => exact .column hdeclares hlength
    | unknownClass hdeclares hk hc hinside hfirst hbefore hname =>
      rename_i kind access tag owner member descriptor name extra before after
      have hmem : name ∈ Descriptor.references descriptor := by simp [hfirst]
      exact .entry hdeclares hk hc hinside hmem (not_not.1 (mt h.knows_iff.2 hname))
  · intro hlacking
    cases hlacking with
    | column hdeclares hlength =>
      rename_i kind
      cases kind with
      | klass => exact ⟨_, .shortClass hdeclares hlength⟩
      | field => exact ⟨_, .shortMember hdeclares (by decide) hlength⟩
      | method => exact ⟨_, .shortMember hdeclares (by decide) hlength⟩
    | entry hdeclares hk hc hinside hname hnone =>
      rename_i kind access tag owner member descriptor name extra
      have hunknown : ¬ ∀ name ∈ Descriptor.references descriptor, d.Knows name :=
        fun hknown => h.knows_iff.1 (hknown name hname) hnone
      obtain ⟨before, first, after, hfirst, hbefore, hfirst'⟩ :=
        Descriptor.exists_first_unknown hunknown
      exact ⟨_, .unknownClass hdeclares hk hc hinside hfirst hbefore hfirst'⟩

/-- The line, with the target namespace in it if it is a header. -/
def withTarget (settings : Settings) (line : Text) : Text :=
  if "accessWidener".toList <+: line then
    Text.replaceFirst settings.source settings.target line
  else line

theorem withTarget_of_not_header (h : ¬ "accessWidener".toList <+: line) :
    withTarget settings line = line := if_neg h

theorem Renames.eq_withTarget (hd : d.KeepsNames) (h : Renames settings d line new) :
    new = withTarget settings line := by
  have hmark : LineKind.ofLine line = .header ↔ "accessWidener".toList <+: line :=
    LineKind.ofLine_eq_header_iff
  rw [withTarget, ← if_congr hmark rfl rfl]
  cases h with
  | header h => rw [if_pos h]
  | other h => rcases h with h | h <;> simp [h]
  | klass h hc => simp [h, hd.rename_eq, ← hc]
  | member h hk hc hdesc =>
    have hsame := Descriptor.eq_of_rename_of_keepsNames hd hdesc
    simp [h, hd.rename_eq, hsame, ← hc]

/-- Let every entry map a name to itself. A line that is no header either stays or is refused, and it is
refused exactly if it lacks a column or an entry. A run that succeeds writes the lines of the input,
with the target namespace in the headers. -/
theorem rename_unchanged (h : d.KeepsNames) (settings : Settings) :
    (∀ number line, ¬ "accessWidener".toList <+: line →
      (∀ new, (renameLine settings d number line).result = .ok new ↔
        new = line ∧ ¬ Lacking settings d line) ∧
      ((∃ failure, (renameLine settings d number line).result = .error failure) ↔
        Lacking settings d line)) ∧
    ∀ (input : Bytes) room flush tally,
      (rename settings d (.ofBytes input) room flush).result = .ok tally →
        ∃ lines : List Text, input.lines = lines.map Text.encode ∧
          (rename settings d (.ofBytes input) room flush).output =
            Text.encodeLines (lines.map (withTarget settings)) := by
  refine ⟨fun number line hline => ?_, fun input room flush tally hok => ?_⟩
  · have hsame : ∀ new, (renameLine settings d number line).result = .ok new → new = line := by
      intro new hok
      rw [(renameLine_eq_ok_iff.1 hok).eq_withTarget h, withTarget_of_not_header hline]
    have herror : (∃ failure, (renameLine settings d number line).result = .error failure) ↔
        Lacking settings d line := by
      simp only [refused_iff]
      exact exists_refused_iff h
    refine ⟨fun new => ?_, herror⟩
    rw [← herror]
    cases hresult : (renameLine settings d number line).result with
    | error failure => simp
    | ok new' =>
      rw [hsame new' hresult]
      simp [eq_comm]
  · obtain ⟨-, news, hwritten⟩ := rename_eq_ok_iff.1 ⟨rfl, hok⟩
    have hnews : List.Forall₂ (· = ·)
        ((Source.ofBytes input).lines.map (withTarget settings)) news :=
      List.forall₂_map_left_iff.2 (hwritten.lines.imp fun _ _ hnew => (hnew.eq_withTarget h).symm)
    rw [List.forall₂_eq_eq_eq] at hnews
    refine ⟨(Source.ofBytes input).lines, Source.lines_of_fault_eq_none hwritten.fault, ?_⟩
    rw [hwritten.output, hnews]

/-- The class `a/B` has no entry, which matters only in the descriptor of the field. In the other one
the first occurrence of `La/A;` is replaced by itself, twice. -/
theorem rename_unchanged_missing_entry :
    let d := (Dictionary.empty.insert .klass "a/A".toList "a/A".toList).insert .method "m".toList
      "m".toList
    let settings : Settings := ⟨"inter".toList, "named".toList, ["a/".toList], .firstOccurrence⟩
    let line : Text := "open\tfield\ta/B\tf\t[La/B;".toList
    let input := Text.encode
      "accessWidener\tv2\tinter\r\n# inter\nopen\tmethod\ta/B\tm\t(La/A;La/A;)V\tinter".toList
    let output := Text.encode
      "accessWidener\tv2\tnamed\n# inter\nopen\tmethod\ta/B\tm\t(La/A;La/A;)V\tinter\n".toList
    d.KeepsNames ∧ (∃ failure, (renameLine settings d 1 line).result = .error failure) ∧
      (rename settings d (.ofBytes input) none (.ok ())).output = output ∧
      ∃ lines : List Text, input.lines = lines.map Text.encode ∧
        output = Text.encodeLines (lines.map (withTarget settings)) := by
  intro d settings line input output
  have hkeeps : d.KeepsNames := by decide +kernel
  obtain ⟨hline, hrun⟩ := rename_unchanged hkeeps settings
  have hdeclares : Declares .field line := ⟨by decide, by decide, by decide⟩
  have hcolumns : line.columns = ["open".toList, "field".toList, "a/B".toList, "f".toList,
      "[La/B;".toList] := by decide
  have hreferences : Descriptor.references "[La/B;".toList = ["a/B".toList] := by decide +kernel
  have hinside : ∀ name ∈ Descriptor.references "[La/B;".toList,
      ∃ package ∈ settings.packages, package <+: name := by
    rw [hreferences]
    decide
  have hname : "a/B".toList ∈ Descriptor.references "[La/B;".toList := by
    rw [hreferences]
    decide
  have hnone : d.get? .klass "a/B".toList = none := by decide +kernel
  have hlacking : Lacking settings d line :=
    .entry hdeclares (by decide) hcolumns hinside hname hnone
  have hresult : (rename settings d (.ofBytes input) none (.ok ())).result =
      .ok ⟨3, 1, 1, 0, 1, 0, 0⟩ := by decide +kernel
  have houtput : (rename settings d (.ofBytes input) none (.ok ())).output = output := by
    decide +kernel
  refine ⟨hkeeps, (hline 1 line (by decide)).2.2 hlacking, houtput, ?_⟩
  have hlines := hrun input none (.ok ()) _ hresult
  rwa [houtput] at hlines

end Access

end Renaming
