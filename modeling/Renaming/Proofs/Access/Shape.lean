import Mathlib.Control.Monad.Basic
import Renaming.Proofs.Access.Document
import Renaming.Proofs.Mappings.Names

/-!
# Renaming keeps the shape of a file

No name that was loaded holds a tab or a line feed, so none of them moves a column or breaks a line.
Every line becomes one line (`rename_keeps_shape`), and `KeepsShape` says what becomes of its
columns.
-/

namespace Renaming.Access
variable {settings : Settings} {d : Dictionary} {line new : Text}

/-- What a line and the line written for it have in common, column by column. -/
structure KeepsShape (settings : Settings) (d : Dictionary) (line new : Text) : Prop where
  /-- Only a header may become a line of another kind. -/
  kind : LineKind.ofLine line ≠ .header → LineKind.ofLine new = LineKind.ofLine line
  comment : LineKind.ofLine line = .comment → new = line
  other : LineKind.ofLine line = .other → new = line
  klass : LineKind.ofLine line = .declaration .klass → ∃ access tag name extra,
    line.columns = access :: tag :: name :: extra ∧
      new.columns = access :: tag :: d.rename .klass name :: extra
  member : ∀ kind, kind ≠ .klass → LineKind.ofLine line = .declaration kind →
    ∃ access tag owner name descriptor descriptor' extra,
      line.columns = access :: tag :: owner :: name :: descriptor :: extra ∧
      (Descriptor.rename settings d descriptor).result = .ok descriptor' ∧
      new.columns =
        access :: tag :: d.rename .klass owner :: d.rename kind name :: descriptor' :: extra

theorem Renames.keepsShape (htab : ∀ kind, d.Targets kind ('\t' ∉ ·))
    (h : Renames settings d line new) : KeepsShape settings d line new := by
  cases h with
  | header h => constructor <;> simp [h]
  | other h => rcases h with h | h <;> constructor <;> simp [h]
  | klass h hc =>
    rename_i access tag name extra
    have hcols := columns_of_class (htab .klass) hc
    constructor
    case kind => exact fun _ => LineKind.ofLine_congr hc hcols
    case klass => exact fun _ => ⟨access, tag, name, extra, hc, hcols⟩
    case member =>
      intro kind hk hkind
      rw [h] at hkind; cases hkind
      exact absurd rfl hk
    all_goals simp [h]
  | member h hk hc hdesc =>
    rename_i access tag owner name descriptor descriptor' extra kind
    have hcols := columns_of_member kind htab hc hdesc
    constructor
    case kind => exact fun _ => LineKind.ofLine_congr hc hcols
    case member =>
      intro kind' _ hkind'
      rw [h] at hkind'; cases hkind'
      exact ⟨access, tag, owner, name, descriptor, descriptor', extra, hc, hdesc, hcols⟩
    all_goals simp [h, hk]

/-- Let the dictionary come from any bytes that could be loaded. Then the output of a run that
succeeds has one line for each line of the input, in the same order and of the same shape. -/
theorem rename_keeps_shape {loading : Settings} {mappings input : Bytes} {rows : RowTally}
    {room : Room} {flush : Except Fault Unit} {tally : LineTally} (htarget : '\n' ∉ settings.target)
    (hload : (Mappings.load loading (.ofBytes mappings)).result = .ok (d, rows))
    (hok : (rename settings d (.ofBytes input) room flush).result = .ok tally) :
    ∃ lines news : List Text, input.lines = lines.map Text.encode ∧
      (rename settings d (.ofBytes input) room flush).output.splitOn Bytes.lineFeed =
        news.map Text.encode ++ [[]] ∧
      List.Forall₂ (KeepsShape settings d) lines news := by
  have hnames := Mappings.allNames_of_load hload
  have htab : ∀ kind, d.Targets kind ('\t' ∉ ·) := fun kind =>
    (hnames.targets kind).mono fun _ h => h.2.1
  have hfeed : ∀ kind, d.Targets kind ('\n' ∉ ·) := fun kind =>
    (hnames.targets kind).mono fun _ h => h.2.2
  obtain ⟨-, news, hwritten⟩ := rename_eq_ok_iff.1 ⟨rfl, hok⟩
  have hnews : ∀ new ∈ news, '\n' ∉ new := by
    refine hwritten.forall_news fun line new hline h => ?_
    exact h.not_mem (.inr (.inr rfl)) (by decide) htarget hfeed
      (Source.lineFeed_not_mem hwritten.fault hline)
  refine ⟨(Source.ofBytes input).lines, news, Source.lines_of_fault_eq_none hwritten.fault, ?_, ?_⟩
  · rw [hwritten.output]
    exact Text.splitOn_encodeLines hnews
  · exact hwritten.lines.imp fun line new h => h.keepsShape htab

/-- The first `LB;` is the end of another class, so the descriptor comes out wrong, but the
columns stay where they are. -/
theorem rename_keeps_shape_first_occurrence :
    let mappings := Text.encode "tiny\t2\t0\tinter\tnamed\nc\tALB\tALB\nc\tB\tn/C\n\tf\tI\tf\tg".toList
    let d := ((Dictionary.empty.insert .klass "ALB".toList "ALB".toList).insert .klass "B".toList
      "n/C".toList).insert .field "f".toList "g".toList
    let settings : Settings := ⟨"inter".toList, "named".toList, [[]], .firstOccurrence⟩
    let input := Text.encode "#\tclass\tB\n\nmutable\tfield\tB\tf\tLALB;LB;\tB".toList
    let output := Text.encode "#\tclass\tB\n\nmutable\tfield\tn/C\tg\tLALn/C;LB;\tB\n".toList
    (Mappings.load settings (.ofBytes mappings)).result = .ok (d, ⟨2, 1, 0, 0⟩) ∧
      (rename settings d (.ofBytes input) none (.ok ())).output = output ∧
      ∃ lines news : List Text, input.lines = lines.map Text.encode ∧
        output.splitOn Bytes.lineFeed = news.map Text.encode ++ [[]] ∧
        List.Forall₂ (KeepsShape settings d) lines news := by
  intro mappings d settings input output
  have hsource : Source.ofBytes mappings = ⟨["tiny\t2\t0\tinter\tnamed".toList, "c\tALB\tALB".toList,
      "c\tB\tn/C".toList, "\tf\tI\tf\tg".toList], none⟩ := by decide +kernel
  have hload : (Mappings.load settings (.ofBytes mappings)).result = .ok (d, ⟨2, 1, 0, 0⟩) := by
    rw [hsource]
    rfl
  have houtput : (rename settings d (.ofBytes input) none (.ok ())).output = output := by
    decide +kernel
  have htally :
      (rename settings d (.ofBytes input) none (.ok ())).result = .ok ⟨3, 0, 1, 0, 0, 1, 1⟩ := by
    decide +kernel
  have h := rename_keeps_shape (by decide) hload htally
  rw [houtput] at h
  exact ⟨hload, houtput, h⟩

end Renaming.Access
