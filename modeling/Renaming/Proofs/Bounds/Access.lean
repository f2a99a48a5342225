import Renaming.Access.Document
import Renaming.Proofs.Bounds.Descriptor
import Renaming.Proofs.Bounds.Mappings

/-!
# Renaming an access file by place

The columns of a declaration are counted once, for its kind, and then read and replaced by index. What
is counted is enough (`renameDeclaration?_eq`), so the run that reads by place is the run
(`rename?_eq`). `every_read_in_bounds` puts together what is read by place in descriptors, in
declarations and in mappings.
-/

namespace Renaming

namespace Access

/-- The columns of the line are replaced where they stand, so further columns stay. -/
def renameDeclaration? (settings : Settings) (d : Dictionary) (kind : Kind) (number : Nat)
    (line : Text) : Option (Traced Failure Text) :=
  let columns := line.columns
  if columns.length < columnsNeeded kind then some (Traced.fail (tooShort number kind line))
  else do
    let owner ← columns[2]?
    let renamed ← set? columns 2 (d.rename .klass owner)
    if kind = .klass then return Traced.pure (Text.ofColumns renamed)
    let name ← columns[3]?
    let renamed ← set? renamed 3 (d.rename kind name)
    let descriptor ← Descriptor.rename? settings d (← columns[4]?)
    (descriptor.mapError (missingIn number kind owner name)).bind? fun descriptor => do
      let renamed ← set? renamed 4 descriptor
      return Traced.pure (Text.ofColumns renamed)

def renameLine? (settings : Settings) (d : Dictionary) (number : Nat) (line : Text) :
    Option (Traced Failure Text) :=
  match LineKind.ofLine line with
  | .header => some (renameHeader settings line)
  | .declaration kind => renameDeclaration? settings d kind number line
  | .comment | .other => some (Traced.pure line)

def renameLines? (settings : Settings) (d : Dictionary) (fault : Option Fault) :
    Room → Nat → List Text → Option Run
  | room, number, [] => some (renameLines settings d fault room number [])
  | room, number, line :: rest => do
    let ⟨events, renamed⟩ ← renameLine? settings d number line
    match renamed with
    | .error failure => return Run.stop events [] (failure.within (.inLine number))
    | .ok new =>
      let bytes := Text.encode (new ++ ['\n'])
      if room.fits bytes.length then
        let run ← renameLines? settings d fault (room.after bytes.length) (number + 1) rest
        return Run.cons events bytes (LineKind.ofLine line) run
      else return Run.stop events (room.cut bytes) ⟨[.writingLine number], .io .writerFull⟩

/-- Renames all lines of a source and flushes, reading by place wherever that is done. -/
def rename? (settings : Settings) (d : Dictionary) (source : Source) (room : Room)
    (flush : Except Fault Unit) : Option Run := do
  let run ← renameLines? settings d source.fault room 1 source.lines
  return run.finish flush

/-- Three columns are enough for a class. -/
theorem renameDeclaration?_klass (settings : Settings) (d : Dictionary) (number : Nat)
    (line : Text) :
    renameDeclaration? settings d .klass number line = some (renameClass d number line) := by
  rw [renameDeclaration?, renameClass]
  match line.columns with
  | [] | [_] | [_, _] => rfl
  | access :: tag :: owner :: extra =>
    rw [if_neg (by simp [columnsNeeded])]
    simp [set?]

/-- Five columns are enough for a member. -/
theorem renameDeclaration?_member {kind : Kind} (hkind : kind ≠ .klass) (settings : Settings)
    (d : Dictionary) (number : Nat) (line : Text) :
    renameDeclaration? settings d kind number line =
      some (renameMember settings d kind number line) := by
  have hneeded : columnsNeeded kind = 5 := by cases kind <;> trivial
  rw [renameDeclaration?, renameMember, hneeded]
  match line.columns with
  | [] | [_] | [_, _] | [_, _, _] | [_, _, _, _] => rfl
  | access :: tag :: owner :: name :: descriptor :: extra =>
    rw [if_neg (by simp)]
    simp [set?, hkind, Descriptor.rename?_eq, Traced.bind?_some]

theorem renameDeclaration?_eq (settings : Settings) (d : Dictionary) (kind : Kind) (number : Nat)
    (line : Text) :
    renameDeclaration? settings d kind number line = some (match kind with
      | .klass => renameClass d number line
      | kind => renameMember settings d kind number line) := by
  cases kind with
  | klass => exact renameDeclaration?_klass ..
  | field | method => exact renameDeclaration?_member (by decide) ..

theorem renameLine?_eq (settings : Settings) (d : Dictionary) (number : Nat) (line : Text) :
    renameLine? settings d number line = some (renameLine settings d number line) := by
  rw [renameLine?, renameLine]
  cases LineKind.ofLine line with
  | header | comment | other => rfl
  | declaration kind =>
    refine (renameDeclaration?_eq settings d kind number line).trans ?_
    cases kind <;> rfl

theorem renameLines?_eq (settings : Settings) (d : Dictionary) (fault : Option Fault) (room : Room)
    (number : Nat) (lines : List Text) :
    renameLines? settings d fault room number lines =
      some (renameLines settings d fault room number lines) := by
  induction lines generalizing room number with
  | nil => rfl
  | cons line rest ih =>
    rw [renameLines?, renameLines, renameLine?_eq]
    rcases renameLine settings d number line with ⟨events, failure | new⟩
    · rfl
    · simp only [Option.bind_eq_bind, Option.bind_some, ih]
      split <;> rfl

theorem rename?_eq (settings : Settings) (d : Dictionary) (source : Source) (room : Room)
    (flush : Except Fault Unit) :
    rename? settings d source room flush = some (rename settings d source room flush) := by
  rw [rename?, renameLines?_eq]
  rfl

end Access

/-- Whatever the settings, the dictionary and the source are, everything that is read by place is
there, and each function that reads by place gives what the one gives that does not. The places of
references lie between characters, and the cells and columns that were counted are enough for those
that are read. -/
theorem every_read_in_bounds (settings : Settings) :
    (∀ s : Text, Descriptor.scan? s.encode 0 =
      some ((Descriptor.spans s).map Descriptor.Span.place)) ∧
    (∀ s : Text, List.Forall₂ (fun span name => Descriptor.className? s span.place = some name)
      (Descriptor.spans s) (Descriptor.references s)) ∧
    (∀ (d : Dictionary) (s : Text),
      Descriptor.rename? settings d s = some (Descriptor.rename settings d s)) ∧
    (∀ (d : Dictionary) (kind : Kind) (number : Nat) (line : Text),
      Access.renameDeclaration? settings d kind number line = some (match kind with
        | .klass => Access.renameClass d number line
        | kind => Access.renameMember settings d kind number line)) ∧
    (∀ (number : Nat) (line : Text),
      Mappings.Row.ofLine? number line = some (Mappings.Row.ofLine number line)) ∧
    (∀ row : Mappings.Row,
      Mappings.columnsOfHeader? settings row = some (Mappings.columnsOfHeader settings row)) ∧
    (∀ (row : Mappings.Row) (layout : Mappings.Layout) (kind : Kind),
      row.entryAt? layout kind = some (row.entry layout kind)) ∧
    (∀ source : Source, Mappings.load? settings source = some (Mappings.load settings source)) ∧
    ∀ (d : Dictionary) (source : Source) (room : Access.Room) (flush : Except Fault Unit),
      Access.rename? settings d source room flush =
        some (Access.rename settings d source room flush) := by
  refine ⟨Descriptor.scan?_eq, fun s => ?_, Descriptor.rename?_eq settings,
    Access.renameDeclaration?_eq settings, Mappings.Row.ofLine?_eq,
    Mappings.columnsOfHeader?_eq settings, Mappings.Row.entryAt?_eq, Mappings.load?_eq settings,
    Access.rename?_eq settings⟩
  exact (List.forall₂_map_left_iff.1 (Descriptor.holdsAt_spans s)).imp fun _ _ h => h.className?

end Renaming
