import Renaming.Proofs.Access.Document

/-!
# Renaming a renamed file

If the dictionary is settled, a line that was written is renamed to itself and keeps its kind
(`Renames.again`), whether its names and descriptors were touched or not. Nothing that was written
holds a line end of its own, so a second run reads the very lines that the first one wrote and
writes them again (`rename_output_again`).
-/

namespace Renaming

namespace Access
variable {settings : Settings} {d : Dictionary} {line new : Text}

/-- A line that mentions the source namespace starts with the header mark once that is replaced, and
does not mention the source namespace any more. -/
def HeaderSettles (settings : Settings) (line : Text) : Prop :=
  settings.source <:+: line →
    LineKind.headerMark <+: Text.replaceFirst settings.source settings.target line ∧
      ¬ settings.source <:+: Text.replaceFirst settings.source settings.target line

instance (settings : Settings) (line : Text) : Decidable (HeaderSettles settings line) :=
  inferInstanceAs (Decidable (_ → _))

theorem Renames.again_of_header (hkind : LineKind.ofLine line = .header)
    (hsettles : HeaderSettles settings line) :
    Renames settings d (Text.replaceFirst settings.source settings.target line)
        (Text.replaceFirst settings.source settings.target line) ∧
      LineKind.ofLine (Text.replaceFirst settings.source settings.target line) = .header := by
  by_cases hin : settings.source <:+: line
  · obtain ⟨hmark, hgone⟩ := hsettles hin
    have hnew := LineKind.ofLine_eq_header_iff.2 hmark
    have hagain : Renames settings d _ _ := .header hnew
    rw [Text.replaceFirst_eq_self hgone] at hagain
    exact ⟨hagain, hnew⟩
  · have hagain : Renames settings d _ _ := .header hkind
    rw [Text.replaceFirst_eq_self hin] at hagain ⊢
    exact ⟨hagain, hkind⟩

/-- The line written for a line is renamed to itself, and is of the same kind. -/
theorem Renames.again (hmode : settings.substitution = .positional) (hsettled : d.Settled)
    (hclass : d.Targets .klass Descriptor.IsClassName) (htab : ∀ kind, d.Targets kind ('\t' ∉ ·))
    (hheader : LineKind.ofLine line = .header → HeaderSettles settings line)
    (h : Renames settings d line new) :
    Renames settings d new new ∧ LineKind.ofLine new = LineKind.ofLine line := by
  cases h with
  | header h =>
    rw [h]
    exact Renames.again_of_header h (hheader h)
  | other h => exact ⟨.other h, rfl⟩
  | klass h hc =>
    have hcols := columns_of_class (htab .klass) hc
    have hkind := LineKind.ofLine_congr hc hcols
    have hagain : Renames settings d _ _ := .klass (hkind.trans h) hcols
    rw [hsettled.rename_rename] at hagain
    exact ⟨hagain, hkind⟩
  | member h hk hc hdesc =>
    rename_i kind
    have hcols := columns_of_member kind htab hc hdesc
    have hkind := LineKind.ofLine_congr hc hcols
    have hagain := Renames.member (hkind.trans h) hk hcols
      (Descriptor.rename_again hmode hsettled hclass hdesc)
    rw [hsettled.rename_rename, hsettled.rename_rename] at hagain
    exact ⟨hagain, hkind⟩

theorem ofLines_congr {lines news : List Text}
    (h : List.Forall₂ (fun line new => LineKind.ofLine new = LineKind.ofLine line) lines news) :
    LineTally.ofLines news = LineTally.ofLines lines := by
  induction h with
  | nil => rfl
  | cons hline _ ih =>
    unfold LineTally.ofLines at ih ⊢
    rw [List.foldr_cons, List.foldr_cons, ih, hline]

/-- Let a target that is also a source be its own target, and let no target and no input hold what
ends a column or a line. Then a run over the output of a run that succeeded writes that output
again and comes to the same tally, provided that the headers that were rewritten stay headers and
lose the source namespace. -/
theorem rename_output_again {input : Bytes} {room : Room} {flush : Except Fault Unit}
    {tally : LineTally} (hmode : settings.substitution = .positional) (hsettled : d.Settled)
    (hclass : d.Targets .klass Descriptor.IsClassName)
    (hmember : ∀ kind, kind ≠ .klass →
      d.Targets kind fun target => '\t' ∉ target ∧ '\r' ∉ target ∧ '\n' ∉ target)
    (htarget : '\r' ∉ settings.target ∧ '\n' ∉ settings.target)
    (hinput : Bytes.carriageReturn ∉ input)
    (hheader : ∀ line ∈ (Source.ofBytes input).lines,
      LineKind.ofLine line = .header → HeaderSettles settings line)
    (hok : (rename settings d (.ofBytes input) room flush).result = .ok tally) :
    let output := (rename settings d (.ofBytes input) room flush).output
    (rename settings d (.ofBytes output) room flush).output = output ∧
      (rename settings d (.ofBytes output) room flush).result = .ok tally := by
  intro output
  obtain ⟨hflush, news, hwritten⟩ := rename_eq_ok_iff.1 ⟨rfl, hok⟩
  have hr : Descriptor.IsBreak '\r' := .inr (.inl rfl)
  have hn : Descriptor.IsBreak '\n' := .inr (.inr rfl)
  have htab := targets_not_mem (.inl rfl : Descriptor.IsBreak '\t') hclass fun kind hk =>
    (hmember kind hk).mono fun _ h => h.1
  have hreturn := targets_not_mem hr hclass fun kind hk =>
    (hmember kind hk).mono fun _ h => h.2.1
  have hfeed := targets_not_mem hn hclass fun kind hk =>
    (hmember kind hk).mono fun _ h => h.2.2
  have hkinds : List.Forall₂ (fun line new => LineKind.ofLine new = LineKind.ofLine line)
      (Source.ofBytes input).lines news :=
    ((List.forall₂_and_left _ _).2 ⟨fun _ hline => hline, hwritten.lines⟩).imp fun line new h =>
      (h.2.again hmode hsettled hclass htab (hheader line h.1)).2
  have hnew : ∀ new ∈ news, Renames settings d new new ∧ '\r' ∉ new ∧ '\n' ∉ new := by
    refine hwritten.forall_news fun line new hline h => ⟨?_, ?_, ?_⟩
    · exact (h.again hmode hsettled hclass htab (hheader line hline)).1
    · exact h.not_mem hr (by decide) htarget.1 hreturn
        (Source.carriageReturn_not_mem hinput hwritten.fault hline)
    · exact h.not_mem hn (by decide) htarget.2 hfeed (Source.lineFeed_not_mem hwritten.fault hline)
  have hsource : Source.ofBytes output = ⟨news, none⟩ := by
    rw [show output = Text.encodeLines news from hwritten.output]
    exact Source.ofBytes_encodeLines (fun new h => (hnew new h).2.2) fun new h => (hnew new h).2.1
  refine rename_eq_ok_iff.2 ⟨hflush, news, ?_⟩
  rw [hsource]
  refine ⟨rfl, List.forall₂_same.2 fun new h => (hnew new h).1, hwritten.output, hwritten.fits, ?_⟩
  rw [hwritten.tally, ofLines_congr hkinds]

/-- The class `n/C` lies outside the packages, so the second run leaves the descriptor untouched. -/
theorem rename_output_again_outside :
    let d := ((Dictionary.empty.insert .klass "a/B".toList "n/C".toList).insert .klass "n/C".toList
      "n/C".toList).insert .field "f".toList "g".toList
    let settings : Settings := ⟨"inter".toList, "named".toList, ["a/".toList], .positional⟩
    let input := Text.encode "accessWidener\tv2\tinter\nmutable\tfield\ta/B\tf\t[La/B;\n# é".toList
    let output := Text.encode "accessWidener\tv2\tnamed\nmutable\tfield\tn/C\tg\t[Ln/C;\n# é\n".toList
    (rename settings d (.ofBytes input) none (.ok ())).output = output ∧
    (rename settings d (.ofBytes output) none (.ok ())).output = output ∧
      (rename settings d (.ofBytes output) none (.ok ())).result = .ok ⟨3, 1, 1, 0, 0, 1, 0⟩ := by
  intro d settings input output
  have hmode : settings.substitution = .positional := rfl
  have hsettled : d.Settled := by decide
  have hclass : d.Targets .klass Descriptor.IsClassName := by decide +kernel
  have hmember : ∀ kind, kind ≠ .klass →
      d.Targets kind fun target => '\t' ∉ target ∧ '\r' ∉ target ∧ '\n' ∉ target := by decide
  have hfirst : (rename settings d (.ofBytes input) none (.ok ())).output = output := by
    decide +kernel
  have htally :
      (rename settings d (.ofBytes input) none (.ok ())).result = .ok ⟨3, 1, 1, 0, 0, 1, 0⟩ := by
    decide +kernel
  have h := rename_output_again hmode hsettled hclass hmember (by decide) (by decide +kernel)
    (by decide +kernel) htally
  rw [hfirst] at h
  exact ⟨hfirst, h⟩

end Access

end Renaming
