import Mathlib.Data.List.Forall2
import Renaming.Access.Document
import Renaming.Proofs.Access.Line
import Renaming.Proofs.Text.Lines

/-!
# What a run that succeeds wrote

A run succeeds exactly if nothing is in the way of reading, every line can be renamed, and the
writer has room for all of them (`rename_eq_ok_iff`). It has then written the new lines in the order
of the old ones, and its tally counts the kinds of the old ones.
-/

namespace Renaming

/-- How many lines there are of each kind. -/
def LineTally.ofLines (lines : List Text) : LineTally :=
  lines.foldr (fun line tally => tally.count (LineKind.ofLine line)) .zero

namespace Access
variable {settings : Settings} {d : Dictionary} {fault : Option Fault} {room : Room} {number : Nat}
  {line new : Text} {rest : List Text} {out : Bytes} {tally : LineTally}

theorem Room.fits_add (room : Room) (m n : Nat) :
    room.fits (m + n) = true ↔ room.fits m = true ∧ (room.after m).fits n = true := by
  cases room with
  | none => simp [Room.fits, Room.after]
  | some free =>
    simp only [Room.fits, Room.after, Option.map_some, Option.all_some, decide_eq_true_eq]
    omega

theorem renameLines_cons_of_error {failure : Failure}
    (h : (renameLine settings d number line).result = .error failure) :
    renameLines settings d fault room number (line :: rest) =
      Run.stop (renameLine settings d number line).events [] (failure.within (.inLine number)) := by
  rw [renameLines]
  split
  rename_i events renamed heq
  rw [heq] at h ⊢
  cases h
  rfl

theorem renameLines_cons_of_ok (h : (renameLine settings d number line).result = .ok new) :
    renameLines settings d fault room number (line :: rest) =
      if room.fits (Text.encode (new ++ ['\n'])).length then
        Run.cons (renameLine settings d number line).events (Text.encode (new ++ ['\n']))
          (LineKind.ofLine line)
          (renameLines settings d fault (room.after (Text.encode (new ++ ['\n'])).length)
            (number + 1) rest)
      else
        Run.stop (renameLine settings d number line).events (room.cut (Text.encode (new ++ ['\n'])))
          ⟨[.writingLine number], .io .writerFull⟩ := by
  rw [renameLines]
  split
  rename_i events renamed heq
  rw [heq] at h ⊢
  cases h
  rfl

/-- The step of a run whose writer has no limit. -/
theorem renameLines_none_cons_of_ok (h : (renameLine settings d number line).result = .ok new) :
    renameLines settings d fault none number (line :: rest) =
      Run.cons (renameLine settings d number line).events (Text.encode (new ++ ['\n']))
        (LineKind.ofLine line) (renameLines settings d fault none (number + 1) rest) := by
  rw [renameLines_cons_of_ok h, if_pos (by rfl)]
  rfl

theorem Run.cons_result_eq_ok_iff {events : List Event} {bytes : Bytes} {kind : LineKind}
    {run : Run} :
    (Run.cons events bytes kind run).result = .ok tally ↔
      ∃ before, run.result = .ok before ∧ tally = before.count kind := by
  rcases run with ⟨_, _, failure | before⟩ <;> simp [Run.cons, Except.map, eq_comm]

/-- What a run that succeeds has read and written. -/
structure Written (settings : Settings) (d : Dictionary) (source : Source) (room : Room)
    (news : List Text) (out : Bytes) (tally : LineTally) : Prop where
  fault : source.fault = none
  lines : List.Forall₂ (Renames settings d) source.lines news
  output : out = Text.encodeLines news
  fits : room.fits out.length = true
  tally : tally = .ofLines source.lines

/-- What follows for the new lines from what each of them was written for. -/
theorem Written.forall_news {source : Source} {news : List Text} {P : Text → Prop}
    (h : Written settings d source room news out tally)
    (hP : ∀ line new, line ∈ source.lines → Renames settings d line new → P new) :
    ∀ new ∈ news, P new := by
  have hflip : List.Forall₂ (fun new line => line ∈ source.lines ∧ Renames settings d line new)
      news source.lines :=
    List.Forall₂.flip ((List.forall₂_and_left _ _).2 ⟨fun _ hline => hline, h.lines⟩)
  have hnews : List.Forall₂ (fun new line => P new ∧ Renames settings d line new) news source.lines :=
    hflip.imp fun new line hline => ⟨hP line new hline.1 hline.2, hline.2⟩
  exact ((List.forall₂_and_left _ _).1 hnews).1

theorem renameLines_eq_ok_iff {lines : List Text} :
    (renameLines settings d fault room number lines).output = out ∧
      (renameLines settings d fault room number lines).result = .ok tally ↔
    ∃ news, Written settings d ⟨lines, fault⟩ room news out tally := by
  induction lines generalizing room number out tally with
  | nil =>
    cases fault with
    | none =>
      constructor
      · rintro ⟨rfl, h⟩
        cases h
        exact ⟨[], rfl, .nil, rfl, by cases room <;> simp [renameLines, Room.fits], rfl⟩
      · rintro ⟨news, -, hlines, rfl, -, rfl⟩
        cases hlines
        exact ⟨rfl, rfl⟩
    | some fault =>
      constructor
      · rintro ⟨-, h⟩
        cases h
      · rintro ⟨news, h, -⟩
        cases h
  | cons line rest ih =>
    constructor
    · rintro ⟨rfl, h⟩
      cases hline : (renameLine settings d number line).result with
      | error failure =>
        rw [renameLines_cons_of_error hline] at h
        cases h
      | ok new =>
        rw [renameLines_cons_of_ok hline] at h ⊢
        split at h
        · rename_i hfits
          rw [if_pos hfits]
          obtain ⟨before, hbefore, rfl⟩ := Run.cons_result_eq_ok_iff.1 h
          obtain ⟨news, hwritten⟩ := ih.1 ⟨rfl, hbefore⟩
          have hfirst := renameLine_eq_ok_iff.1 hline
          refine ⟨new :: news, hwritten.fault, .cons hfirst hwritten.lines, ?_, ?_, ?_⟩
          · rw [Text.encodeLines_cons, ← hwritten.output]
            rfl
          · show room.fits (_ ++ _ : Bytes).length = true
            rw [List.length_append]
            exact (room.fits_add _ _).2 ⟨hfits, hwritten.fits⟩
          · rw [hwritten.tally]
            rfl
        · cases h
    · rintro ⟨news, hfault, hlines, rfl, hfits, rfl⟩
      cases hlines with
      | cons hline hrest =>
        rename_i new news
        rw [Text.encodeLines_cons, List.length_append, room.fits_add] at hfits
        obtain ⟨hfirst, hlast⟩ := hfits
        obtain ⟨hout, htally⟩ := ih.2 ⟨news, hfault, hrest, rfl, hlast, rfl⟩
        rw [renameLines_cons_of_ok (renameLine_eq_ok_iff.2 hline), if_pos hfirst]
        refine ⟨?_, Run.cons_result_eq_ok_iff.2 ⟨_, htally, rfl⟩⟩
        show _ ++ _ = _
        rw [hout, Text.encodeLines_cons]

/-- A run with a writer that has so much room and flushes so succeeds exactly if `Written` tells
what it wrote and the flush works. -/
theorem rename_eq_ok_iff {source : Source} {flush : Except Fault Unit} :
    (rename settings d source room flush).output = out ∧
      (rename settings d source room flush).result = .ok tally ↔
    flush = .ok () ∧ ∃ news, Written settings d source room news out tally := by
  rw [← @renameLines_eq_ok_iff settings d source.fault room 1]
  show ((renameLines settings d source.fault room 1 source.lines).finish flush).output = out ∧
    ((renameLines settings d source.fault room 1 source.lines).finish flush).result = .ok tally ↔ _
  rcases renameLines settings d source.fault room 1 source.lines with ⟨events, output, failure | before⟩
  · simp [Run.finish]
  · rcases flush with fault | ⟨⟩ <;> simp [Run.finish]

end Access

end Renaming
