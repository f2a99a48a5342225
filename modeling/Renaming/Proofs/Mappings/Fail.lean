import Renaming.Proofs.Mappings.Header
import Renaming.Proofs.Mappings.Last

/-!
# When loading fails

Loading fails for one of two reasons: the first line is a bad header, or some line is no text. The bad
header counts, whatever stands behind it (`Fails`). No row makes loading fail: one that is too short is
counted as skipped and leaves no trace in the dictionary (`load_fails`).
-/

namespace Renaming

/-- The first line of a source is the first of the bytes, if that one is a text. -/
theorem Source.mem_head?_lines {bytes : Bytes} {line : Text} :
    line ∈ (Source.ofBytes bytes).lines.head? ↔ ∃ rest, bytes.lines = line.encode :: rest := by
  have hhead : (Source.ofBytes bytes).lines.head? = bytes.lines.head?.bind Bytes.decode? := by
    cases hlines : bytes.lines with
    | nil => simp [Source.ofBytes, hlines]
    | cons first rest => cases hfirst : first.decode? <;> simp [Source.ofBytes, hlines, hfirst]
  rw [hhead, Option.mem_def, Option.bind_eq_some_iff]
  simp only [Bytes.decode?_eq_some_iff, exists_eq_right, List.head?_eq_some_iff]

namespace Mappings
variable {settings : Settings} {layout : Layout} {lines body : List Text} {fault : Option Fault}
  {failure : Failure} {d : Dictionary} {tally : RowTally} {gs gs' : List Gain}

/-- Why lines cannot be loaded, and the failure that tells it. -/
inductive Fails (settings : Settings) (lines : List Bytes) : Failure → Prop where
  | header {header : Text} {rest : List Bytes} {cause : Cause} (hlines : lines = header.encode :: rest)
    (hheader : IsHeader header) (hfault : HeaderFault settings header cause) :
    Fails settings lines ⟨[.headerLine], cause⟩
  | reading {before : List Text} {line : Bytes} {after : List Bytes}
    (hlines : lines = before.map Text.encode ++ line :: after) (hline : line.decode? = none)
    (hheader : ∀ header ∈ before.head?, IsHeader header → ∀ cause, ¬ HeaderFault settings header cause) :
    Fails settings lines ⟨[.readingLine (before.length + 1)], .io .invalidUtf8⟩

theorem loadRows_result_eq_error_iff {first : Nat} :
    (loadRows layout first lines fault).result = .error failure ↔
      ∃ cause, fault = some cause ∧ failure = ⟨[.readingLine (first + lines.length)], .io cause⟩ := by
  unfold loadRows
  cases fault <;> simp [eq_comm]

/-- The number of the line behind the last one. -/
theorem Opening.number_behind {pick : Nat → Columns} {opening : List Event}
    (h : Opening settings lines body pick opening) :
    lines.length - body.length + 1 + body.length = lines.length + 1 := by
  cases h with
  | headed =>
    rw [List.length_cons]
    omega
  | headless => omega

theorem load_eq_error_iff {source : Source} : (load settings source).result = .error failure ↔
    (∃ header ∈ source.lines.head?, IsHeader header ∧
      ∃ cause, HeaderFault settings header cause ∧ failure = ⟨[.headerLine], cause⟩) ∨
    (∀ header ∈ source.lines.head?, IsHeader header → ∀ cause, ¬ HeaderFault settings header cause) ∧
      ∃ fault, source.fault = some fault ∧
        failure = ⟨[.readingLine (source.lines.length + 1)], .io fault⟩ := by
  rcases source with ⟨lines, fault⟩
  rcases load_eq_rows settings lines fault with
    ⟨header, rest, cause, rfl, hheader, hfault, h⟩ | ⟨layout, body, opening, hopening, h⟩
  · rw [h]
    constructor
    · intro heq
      exact .inl ⟨header, rfl, hheader, cause, hfault, (Except.error.inj heq).symm⟩
    · rintro (⟨_, hmem, -, cause', hfault', rfl⟩ | ⟨hgood, -⟩)
      · cases hmem
        rw [hfault.unique hfault']
      · exact absurd hfault (hgood header rfl hheader cause)
  · rw [h, loadRows_result_eq_error_iff, hopening.number_behind]
    constructor
    · exact fun hfault => .inr ⟨hopening.not_headerFault, hfault⟩
    · rintro (⟨header, hmem, hheader, cause, hfault, -⟩ | ⟨-, hfault⟩)
      · exact absurd hfault (hopening.not_headerFault header hmem hheader cause)
      · exact hfault

theorem load_ofBytes_eq_error_iff {mappings : Bytes} :
    (load settings (.ofBytes mappings)).result = .error failure ↔
      Fails settings mappings.lines failure := by
  constructor
  · intro h
    rcases load_eq_error_iff.1 h with ⟨header, hmem, hheader, cause, hfault, rfl⟩ |
      ⟨hgood, cause, hcause, rfl⟩
    · obtain ⟨rest, hlines⟩ := Source.mem_head?_lines.1 hmem
      exact .header hlines hheader hfault
    · obtain ⟨texts, hlines | ⟨line, after, hlines, hline⟩⟩ := Bytes.exists_texts mappings.lines
      · rw [Source.ofBytes_of_lines hlines] at hcause
        cases hcause
      · rw [Source.ofBytes_of_invalid hlines hline] at hgood hcause ⊢
        cases hcause
        exact .reading hlines hline hgood
  · rintro (⟨hlines, hheader, hfault⟩ | ⟨hlines, hline, hgood⟩)
    · exact load_eq_error_iff.2
        (.inl ⟨_, Source.mem_head?_lines.2 ⟨_, hlines⟩, hheader, _, hfault, rfl⟩)
    · rw [Source.ofBytes_of_invalid hlines hline]
      exact load_eq_error_iff.2 (.inr ⟨hgood, _, rfl, rfl⟩)

/-- There is a failure exactly for a first line that is a bad header, or some line that is no text. -/
theorem exists_fails_iff {lines : List Bytes} : (∃ failure, Fails settings lines failure) ↔
    (∃ header rest, lines = Text.encode header :: rest ∧ IsHeader header ∧
      ∃ cause, HeaderFault settings header cause) ∨ ∃ line ∈ lines, line.decode? = none := by
  constructor
  · rintro ⟨failure, ⟨hlines, hheader, hfault⟩ | ⟨hlines, hline, -⟩⟩
    · exact .inl ⟨_, _, hlines, hheader, _, hfault⟩
    · exact .inr ⟨_, by simp [hlines], hline⟩
  · rintro (⟨header, rest, hlines, hheader, cause, hfault⟩ | ⟨line, hmem, hline⟩)
    · exact ⟨_, .header hlines hheader hfault⟩
    · obtain ⟨texts, hlines | ⟨first, after, hlines, hfirst⟩⟩ := Bytes.exists_texts lines
      · rw [hlines] at hmem
        obtain ⟨text, -, rfl⟩ := List.mem_map.1 hmem
        rw [Bytes.decode?_encode] at hline
        cases hline
      · by_cases hbad : ∃ header ∈ texts.head?, IsHeader header ∧
          ∃ cause, HeaderFault settings header cause
        · obtain ⟨header, hhead, hheader, cause, hfault⟩ := hbad
          obtain ⟨rest, rfl⟩ := List.head?_eq_some_iff.1 hhead
          exact ⟨_, .header hlines hheader hfault⟩
        · exact ⟨_, .reading hlines hfirst fun header hhead hheader cause hfault =>
            hbad ⟨header, hhead, hheader, cause, hfault⟩⟩

/-! ### Rows that are too short -/

/-- A row that was skipped could be left out, and the tally would count one less. -/
theorem AddsUp.of_skipped (h : AddsUp (gs ++ .skipped :: gs') d tally) :
    ∃ tally', tally = tally'.skip ∧ AddsUp (gs ++ gs') d tally' := by
  have hskipped : tally.skipped = (gs ++ gs').count .skipped + 1 := by
    rw [h.skipped, List.count_append, List.count_append, List.count_cons_self, Nat.add_assoc]
  refine ⟨{ tally with skipped := (gs ++ gs').count .skipped }, ?_, ?_, fun kind => ?_, rfl⟩
  · rw [RowTally.skip, ← hskipped]
  · intro kind name
    rw [h.get?]
    simp [Gain.target?]
  · have hnamed := h.named kind
    simp only [List.countP_append, List.countP_cons, Gain.names] at hnamed ⊢
    cases kind <;> exact hnamed

/-- The failures of loading are those of `Fails`. There is one exactly if the first line is a bad header
or some line is no text. Otherwise the dictionary holds what the rows of the body give, whatever these
are like, and it would be the same without a row that is too short, which the tally counts. -/
theorem load_fails (settings : Settings) (mappings : Bytes) :
    let result := (load settings (.ofBytes mappings)).result
    (∀ failure, result = .error failure ↔ Fails settings mappings.lines failure) ∧
    ((∃ failure, result = .error failure) ↔
      (∃ header rest, mappings.lines = Text.encode header :: rest ∧
        header.columns.head? = some "tiny".toList ∧ (header.columns.length < 3 ∨
          settings.source ∉ header.columns.drop 3 ∨ settings.target ∉ header.columns.drop 3)) ∨
      ∃ line ∈ mappings.lines, line.decode? = none) ∧
    ((∀ failure, ¬ Fails settings mappings.lines failure) → ∃ d tally lines body pick,
      result = .ok (d, tally) ∧ mappings.lines = lines.map Text.encode ∧
      LaidOut settings lines body pick ∧ StoresLast pick body d tally ∧
      ∀ before line after kind, body = before ++ line :: after → IsRow kind line →
        ¬ IsLong pick kind line →
          ∃ tally', tally = tally'.skip ∧ StoresLast pick (before ++ after) d tally') := by
  intro result
  refine ⟨fun failure => load_ofBytes_eq_error_iff, ?_, fun hnone => ?_⟩
  · simp only [result, load_ofBytes_eq_error_iff, exists_fails_iff, exists_headerFault_iff, IsHeader]
  · cases hresult : result with
    | error failure => exact absurd (load_ofBytes_eq_error_iff.1 hresult) (hnone failure)
    | ok loaded =>
      obtain ⟨d, tally⟩ := loaded
      obtain ⟨layout, body, hbody, hfault, hsum⟩ := load_eq_ok_iff.1 hresult
      refine ⟨d, tally, _, body, layout.columns, rfl, Source.lines_of_fault_eq_none hfault,
        laidOut_of_body? hbody, hsum.storesLast, ?_⟩
      rintro before line after kind rfl hrow hshort
      have hskipped : (Row.ofLine 0 line).gain layout = .skipped :=
        gain_eq_skipped_iff.2 ⟨kind, hrow, hshort⟩
      rw [gains, List.map_append, List.map_cons, hskipped] at hsum
      obtain ⟨tally', htally, hsum'⟩ := hsum.of_skipped
      refine ⟨tally', htally, ?_⟩
      rw [← List.map_append] at hsum'
      exact AddsUp.storesLast hsum'

end Mappings

end Renaming
