import Mathlib.Data.List.Induction
import Renaming.Mappings.Load
import Renaming.Proofs.Access.Append

/-!
# How lines end

Carriage returns in front of line feeds (`AddsReturns`) and a line feed behind the last line are no part
of any line. Loading and renaming see a file by its lines only (`SameResults.of_lines`), so neither of
them makes a difference to what is loaded, written, counted, told or refused
(`sameResults_of_line_endings`).
-/

namespace Renaming.Bytes
variable {bytes bytes' front : Bytes}

/-- The second bytes are the first with a carriage return in front of any of the line feeds. -/
inductive AddsReturns : Bytes → Bytes → Prop where
  | nil : AddsReturns [] []
  | byte (b : UInt8) {bytes bytes' : Bytes} (h : AddsReturns bytes bytes') :
    AddsReturns (b :: bytes) (b :: bytes')
  | feed {bytes bytes' : Bytes} (h : AddsReturns bytes bytes') :
    AddsReturns (lineFeed :: bytes) (carriageReturn :: lineFeed :: bytes')

/-- Mappings and access files are read in the same way from both. -/
def SameResults (bytes bytes' : Bytes) : Prop :=
  ∀ settings, Mappings.load settings (.ofBytes bytes') = Mappings.load settings (.ofBytes bytes) ∧
    ∀ d room flush, Access.rename settings d (.ofBytes bytes') room flush =
      Access.rename settings d (.ofBytes bytes) room flush

theorem SameResults.of_lines (h : bytes'.lines = bytes.lines) : SameResults bytes bytes' := by
  have hsource : Source.ofBytes bytes' = Source.ofBytes bytes := by
    simp only [Source.ofBytes, h]
  intro settings
  rw [hsource]
  exact ⟨rfl, fun _ _ _ => rfl⟩

namespace AddsReturns

theorem refl (bytes : Bytes) : AddsReturns bytes bytes := by
  induction bytes with
  | nil => exact .nil
  | cons b bytes ih => exact .byte b ih

theorem append {after after' : Bytes} (h : AddsReturns bytes bytes') (hafter : AddsReturns after after') :
    AddsReturns (bytes ++ after) (bytes' ++ after') := by
  induction h with
  | nil => exact hafter
  | byte b h ih => exact .byte b ih
  | feed h ih => exact .feed ih

end AddsReturns

/-! ### The lines -/

theorem lines_of_not_mem (h : lineFeed ∉ front) (hne : front ≠ []) : front.lines = [front] := by
  rw [lines, List.splitOn_eq_singleton h]
  simp [hne]

theorem lines_append_lineFeed (h : lineFeed ∉ front) (rest : Bytes) :
    (front ++ lineFeed :: rest).lines = front.chomp :: rest.lines := by
  have hfront : (front ++ [lineFeed]).lines = [front.chomp] := by
    rw [lines, List.splitOn_append_cons_self_of_not_mem h]
    rfl
  have hcomplete : (front ++ [lineFeed]).Complete := .inr List.getLast?_concat
  have happend := lines_append hcomplete rest
  rwa [hfront, List.append_assoc] at happend

theorem chomp_concat_carriageReturn (line : Bytes) : chomp (line ++ [carriageReturn]) = line := by
  rw [chomp, if_pos List.getLast?_concat, List.dropLast_concat]

/-- A line takes up neither the line feed at its end nor the carriage return before that. -/
theorem AddsReturns.lines_eq (h : AddsReturns bytes bytes') (hreturn : carriageReturn ∉ bytes) :
    bytes'.lines = bytes.lines := by
  -- `front` is what the current line has come to
  have hall : ∀ front, lineFeed ∉ front → carriageReturn ∉ front →
      (front ++ bytes').lines = (front ++ bytes).lines := by
    induction h with
    | nil => exact fun _ _ _ => rfl
    | @byte b bytes bytes' h ih =>
      intro front hfeed hfront
      rw [List.mem_cons, not_or] at hreturn
      obtain ⟨hb, hreturn⟩ := hreturn
      by_cases hline : b = lineFeed
      · rw [hline, lines_append_lineFeed hfeed, lines_append_lineFeed hfeed]
        exact congrArg _ (ih hreturn [] List.not_mem_nil List.not_mem_nil)
      · have hnext := ih hreturn (front ++ [b]) (by simp [hfeed, Ne.symm hline]) (by simp [hfront, hb])
        rwa [List.append_assoc, List.append_assoc] at hnext
    | @feed bytes bytes' h ih =>
      intro front hfeed hfront
      rw [List.mem_cons, not_or] at hreturn
      have hfeed' : lineFeed ∉ front ++ [carriageReturn] := by
        rw [List.mem_append, List.mem_singleton, not_or]
        exact ⟨hfeed, by decide⟩
      have hlines := lines_append_lineFeed hfeed' bytes'
      rw [List.append_assoc, chomp_concat_carriageReturn] at hlines
      rw [lines_append_lineFeed hfeed, chomp_eq_self hfront]
      exact hlines.trans (congrArg _ (ih hreturn.2 [] List.not_mem_nil List.not_mem_nil))
  exact hall [] List.not_mem_nil List.not_mem_nil

/-- Bytes are complete lines and then a line that does not end. -/
theorem exists_complete (bytes : Bytes) :
    ∃ front rest : Bytes, bytes = front ++ rest ∧ front.Complete ∧ lineFeed ∉ rest := by
  induction bytes using List.reverseRecOn with
  | nil => exact ⟨[], [], rfl, .inl rfl, List.not_mem_nil⟩
  | append_singleton bytes b ih =>
    by_cases hb : b = lineFeed
    · exact ⟨bytes ++ [b], [], (List.append_nil _).symm, .inr (hb ▸ List.getLast?_concat), List.not_mem_nil⟩
    · obtain ⟨front, rest, rfl, hfront, hrest⟩ := ih
      exact ⟨front, rest ++ [b], List.append_assoc .., hfront, by simp [hrest, Ne.symm hb]⟩

/-- The last line needs no line feed. -/
theorem lines_concat_lineFeed (hreturn : carriageReturn ∉ bytes) (hne : bytes ≠ [])
    (hlast : bytes.getLast? ≠ some lineFeed) : (bytes ++ [lineFeed]).lines = bytes.lines := by
  obtain ⟨front, rest, rfl, hfront, hrest⟩ := exists_complete bytes
  have hopen : rest ≠ [] := by
    rintro rfl
    rw [List.append_nil] at hne hlast
    exact hfront.elim hne hlast
  have hchomp : rest.chomp = rest := chomp_eq_self fun hmem => hreturn (List.mem_append_right _ hmem)
  rw [List.append_assoc, lines_append hfront, lines_append hfront, lines_append_lineFeed hrest, hchomp,
    lines_of_not_mem hrest hopen]
  rfl

/-- Let no carriage return stand in a file. Then it makes no difference to put one in front of some of
the line feeds, or to end the last line with a line feed if it has none. -/
theorem sameResults_of_line_endings (hreturn : carriageReturn ∉ bytes) :
    (∀ bytes', AddsReturns bytes bytes' → SameResults bytes bytes') ∧
    (bytes ≠ [] → bytes.getLast? ≠ some lineFeed → SameResults bytes (bytes ++ [lineFeed])) :=
  ⟨fun _ h => .of_lines (h.lines_eq hreturn),
    fun hne hlast => .of_lines (lines_concat_lineFeed hreturn hne hlast)⟩

/-- A carriage return behind the first line, or a line feed behind the last, gets into no name. -/
theorem sameResults_of_line_endings_two_rows :
    let settings : Settings := ⟨[], [], [], .positional⟩
    let first := Text.encode "c\tp/A\tq/B".toList
    let second := Text.encode "\tf\tI\tg\th".toList
    let bytes := first ++ lineFeed :: second
    let bytes' := first ++ carriageReturn :: lineFeed :: second
    let d := (Dictionary.empty.insert .klass "p/A".toList "q/B".toList).insert .field ['g'] ['h']
    carriageReturn ∉ bytes ∧ AddsReturns bytes bytes' ∧ bytes.getLast? ≠ some lineFeed ∧
      (Mappings.load settings (.ofBytes bytes')).result = .ok (d, ⟨1, 1, 0, 0⟩) ∧
      (Mappings.load settings (.ofBytes (bytes ++ [lineFeed]))).result = .ok (d, ⟨1, 1, 0, 0⟩) := by
  intro settings first second bytes bytes' d
  have hreturn : carriageReturn ∉ bytes := by decide +kernel
  have hadds : AddsReturns bytes bytes' := (AddsReturns.refl first).append (.feed (.refl second))
  have hlast : bytes.getLast? ≠ some lineFeed := by decide +kernel
  have hsource : Source.ofBytes bytes = ⟨["c\tp/A\tq/B".toList, "\tf\tI\tg\th".toList], none⟩ := by
    decide +kernel
  have hload : (Mappings.load settings (.ofBytes bytes)).result = .ok (d, ⟨1, 1, 0, 0⟩) := by
    rw [hsource]
    rfl
  obtain ⟨hreturns, hfeed⟩ := sameResults_of_line_endings hreturn
  refine ⟨hreturn, hadds, hlast, ?_, ?_⟩
  · rw [(hreturns bytes' hadds settings).1, hload]
  · rw [(hfeed (by decide +kernel) hlast settings).1, hload]

end Renaming.Bytes
