import Renaming.Proofs.Files.Writer

/-!
# Loading and renaming files on machines

The loading of a file leaves nothing behind but the memory that it was opened (`LoadEnds`). The
renaming of a file either puts the new file at its place and changes nothing else, or fails at one of
its steps (`RenameEnds`, `RenameFails`). Then the tree is as it was, unless that step is the move: the
temporary file goes with the failure, and once the failure is dropped the tree is as it was
(`renameFile_atomic`).
-/

namespace Renaming

namespace Mappings
variable {settings : Settings} {layout : Layout} {first : Nat} {lines : List Text}
  {fault : Option Fault} {loaded : Dictionary × RowTally}

theorem fault_of_loadRows (h : (loadRows layout first lines fault).result = .ok loaded) :
    fault = none := by
  cases fault with
  | none => rfl
  | some fault => cases h

/-- Mappings can only be loaded from a source that can be read to its end. -/
theorem fault_of_load {source : Source} (h : (load settings source).result = .ok loaded) :
    source.fault = none := by
  rw [load] at h
  split at h
  · exact fault_of_loadRows h
  · dsimp only at h
    split at h
    · obtain ⟨columns, -, h⟩ := Traced.bind_result_eq_ok_iff.1 h
      exact fault_of_loadRows h
    · exact fault_of_loadRows h

end Mappings

namespace Files
variable {settings : Settings} {d : Dictionary} {path input output : Text} {machine : Machine}
  {old content : Bytes} {rows : RowTally} {target : Place} {tally : LineTally}

/-! ### Loading -/

/-- What it takes to load the dictionary from a file of this content. -/
structure CanLoad (settings : Settings) (path : Text) (machine : Machine) (content : Bytes)
    (d : Dictionary) (rows : RowTally) : Prop where
  shows : machine.Shows path content
  loads : (Mappings.load settings (.ofBytes content)).result = .ok (d, rows)

/-- How the loading of a file ends on a machine. -/
inductive LoadEnds (settings : Settings) (path : Text) (machine : Machine) :
    Traced Failure (Dictionary × RowTally) × Machine → Prop where
  | loaded {content : Bytes} {d : Dictionary} {rows : RowTally}
      (h : CanLoad settings path machine content d rows) :
      LoadEnds settings path machine
        (⟨(Mappings.load settings (.ofBytes content)).events, .ok (d, rows)⟩, machine.remember path)
  | failed (events : List Event) (failure : Failure)
      (h : ∀ content d rows, ¬CanLoad settings path machine content d rows) :
      LoadEnds settings path machine (⟨events, .error failure⟩, machine.remember path)

theorem loadFile_ends (settings : Settings) (path : Text) (machine : Machine) :
    LoadEnds settings path machine
      ((loadFile (m := StateM Machine) settings path).run machine) := by
  rw [loadFile]
  cases hsource : machine.source path with
  | error error =>
    rw [Machine.run_bind (Machine.run_source hsource)]
    refine .failed _ _ fun content d rows h => ?_
    cases hsource.symm.trans (Machine.source_of_shows h.shows)
  | ok source =>
    rw [Machine.run_bind (Machine.run_source hsource)]
    show LoadEnds settings path machine
      ((Mappings.load settings source).mapError (Failure.within (.readingMappings path)), _)
    cases hresult : (Mappings.load settings source).result with
    | error failure =>
      rw [Traced.mapError, hresult]
      refine .failed _ _ fun content d rows h => ?_
      cases Except.ok.inj (hsource.symm.trans (Machine.source_of_shows h.shows))
      cases hresult.symm.trans h.loads
    | ok loaded =>
      rw [Traced.mapError, hresult]
      have hfault := Mappings.fault_of_load hresult
      obtain ⟨content, hshows, rfl⟩ := Machine.shows_of_source hsource hfault
      exact .loaded ⟨hshows, hresult⟩

/-! ### Renaming -/

/-- What it takes to rename the file of this content to a file at this place. -/
structure CanRename (settings : Settings) (d : Dictionary) (input output : Text) (machine : Machine)
    (old : Bytes) (target : Place) (tally : LineTally) : Prop where
  shows : machine.Shows input old
  creates : ∃ place, machine.newPlace (Path.directory output) = .ok place
  fills : CanFill machine.refusals (Access.rename settings d (.ofBytes old) none (.ok ())) tally
  moves : machine.refusals.moving = none
  resolves : machine.tree.resolveFile output = .ok target

/-- The bytes that the renaming of a content puts out. -/
def renamed (settings : Settings) (d : Dictionary) (old : Bytes) : Bytes :=
  (Access.rename settings d (.ofBytes old) none (.ok ())).output

/-- A file is filled only from a source that can be read to its end. -/
theorem CanFill.fault {refusals : Refusals} {source : Source}
    (h : CanFill refusals (Access.rename settings d source none (.ok ())) tally) :
    source.fault = none := by
  obtain ⟨-, news, hwritten⟩ := Access.rename_eq_ok_iff.1 ⟨rfl, h.renames⟩
  exact hwritten.fault

/-- Why the renaming of a file fails, what the failure holds, and the machine that it leaves. -/
inductive RenameFails (settings : Settings) (d : Dictionary) (input output : Text)
    (machine : Machine) : FileFailure Place → Machine → Prop where
  | notOpened {error : SystemError} (h : machine.source input = .error error) :
      RenameFails settings d input output machine
        ⟨failure (.openingInput input) error, none⟩ (machine.remember input)
  | notCreated {error : SystemError} (h : machine.newPlace (Path.directory output) = .error error) :
      RenameFails settings d input output machine
        ⟨failure (.creatingTemporary (Path.directory output)) error, none⟩ (machine.remember input)
  | notFilled {source : Source} {place : Place} {failed : Failure}
      (hsource : machine.source input = .ok source)
      (hplace : machine.newPlace (Path.directory output) = .ok place)
      (h : FillFails input output (temporaryPath machine output place) machine.refusals
        (Access.rename settings d source none (.ok ())) failed) :
      RenameFails settings d input output machine ⟨failed, none⟩ (machine.remember input)
  | notMoved {old : Bytes} {place : Place} {error : SystemError} (hshows : machine.Shows input old)
      (hplace : machine.newPlace (Path.directory output) = .ok place)
      (h : machine.refusals.moving = none → ∀ target, machine.tree.resolveFile output ≠ .ok target) :
      RenameFails settings d input output machine
        ⟨(failure (.persisting error) error).within (.movingTo output), some place⟩
        ((machine.remember input).put place (.file (renamed settings d old)))

theorem RenameFails.not_canRename {failed : FileFailure Place} {after : Machine}
    (h : RenameFails settings d input output machine failed after) :
    ¬CanRename settings d input output machine old target tally := by
  intro hcan
  have hold := Machine.source_of_shows hcan.shows
  obtain ⟨place, hcreates⟩ := hcan.creates
  cases h with
  | notOpened h => cases h.symm.trans hold
  | notCreated h => cases h.symm.trans hcreates
  | notFilled hsource hplace h =>
    cases Except.ok.inj (hsource.symm.trans hold)
    exact h.not_canFill hcan.fills
  | notMoved hshows hplace h => exact h hcan.moves target hcan.resolves

/-- How the renaming of a file ends on a machine. -/
inductive RenameEnds (settings : Settings) (d : Dictionary) (input output : Text)
    (machine : Machine) : Traced (FileFailure Place) LineTally × Machine → Prop where
  | renamed {old : Bytes} {target : Place} {tally : LineTally}
      (h : CanRename settings d input output machine old target tally) :
      RenameEnds settings d input output machine
        (⟨(Access.rename settings d (.ofBytes old) none (.ok ())).events, .ok tally⟩,
          (machine.remember input).put target (.file (renamed settings d old)))
  | failed (events : List Event) {failed : FileFailure Place} {after : Machine}
      (h : RenameFails settings d input output machine failed after) :
      RenameEnds settings d input output machine (⟨events, .error failed⟩, after)

theorem renameFile_ends (settings : Settings) (d : Dictionary) (input output : Text)
    (machine : Machine) :
    RenameEnds settings d input output machine
      ((renameFile (m := StateM Machine) settings d input output).run machine) := by
  rw [renameFile]
  cases hsource : machine.source input with
  | error error =>
    rw [Machine.run_bind (Machine.run_source hsource)]
    exact .failed _ (.notOpened hsource)
  | ok source =>
    rw [Machine.run_bind (Machine.run_source hsource)]
    dsimp only
    cases hplace : (machine.remember input).newPlace (Path.directory output) with
    | error error =>
      rw [Machine.run_bind (Machine.run_createTemporary_of_error hplace)]
      exact .failed _ (.notCreated hplace)
    | ok place =>
      rw [Machine.run_bind (Machine.run_createTemporary hplace)]
      have hfree := Tree.node?_of_newPlace (Machine.newPlace_eq_ok_iff.1 hplace).2
      have hne := Tree.ne_nil_of_isDirectory (Tree.isDirectory_of_node? hfree)
      have hends := fill_ends settings d input output source (machine.remember input) hne
      generalize hfill : (fill (m := StateM Machine) settings d input output source place).run
        ((machine.remember input).put place (.file [])) = ending at hends
      dsimp only
      cases hends with
      | failed events content hfails =>
        rw [Machine.run_bind hfill]
        dsimp only
        rw [Machine.run_bind (Machine.run_remove_put hfree)]
        exact .failed _ (.notFilled hsource hplace hfails)
      | @filled tally hfills =>
        rw [Machine.run_bind hfill]
        obtain ⟨old, hshows, rfl⟩ := Machine.shows_of_source hsource hfills.fault
        rw [← renamed]
        dsimp only
        cases hmove : ((machine.remember input).put place
            (.file (renamed settings d old))).moveOver place output with
        | error error =>
          rw [Machine.run_bind (Machine.run_moveOver_of_error hmove)]
          refine .failed _ (.notMoved hshows hplace fun hmoves target hresolves => ?_)
          cases hmove.symm.trans ((Machine.moveOver_put_eq_ok_iff hfree).2
            ⟨hmoves, target, hresolves, rfl⟩)
        | ok tree =>
          rw [Machine.run_bind (Machine.run_moveOver hmove)]
          obtain ⟨hmoves, target, htarget, rfl⟩ := (Machine.moveOver_put_eq_ok_iff hfree).1 hmove
          exact .renamed ⟨hshows, ⟨place, hplace⟩, hfills, hmoves, htarget⟩

/-- A machine that is as it was but for the temporary file that a failure holds. -/
inductive Holds (machine : Machine) : FileFailure Place → Machine → Prop where
  | nothing (failed : Failure) : Holds machine ⟨failed, none⟩ machine
  | temporary (failed : Failure) {place : Place} (content : Bytes)
      (hfree : machine.tree.node? place = none) :
      Holds machine ⟨failed, some place⟩ (machine.put place (.file content))

theorem RenameFails.holds {failed : FileFailure Place} {after : Machine}
    (h : RenameFails settings d input output machine failed after) :
    Holds (machine.remember input) failed after := by
  cases h with
  | notOpened | notCreated | notFilled => exact .nothing _
  | notMoved hshows hplace =>
    exact .temporary _ _ (Tree.node?_of_newPlace (Machine.newPlace_eq_ok_iff.1 hplace).2)

theorem run_dropFailure {α : Type} {failed : FileFailure Place} {machine' : Machine}
    (events : List Event) (h : Holds machine failed machine') :
    (dropFailure (m := StateM Machine) (⟨events, .error failed⟩ : Traced _ α)).run machine' =
      (⟨events, .error failed.failure⟩, machine) := by
  cases h with
  | nothing failed => rfl
  | temporary failed content hfree => exact Machine.run_bind (Machine.run_remove_put hfree)

/-! ### On a machine and on its tree -/

theorem agrees_loadFile (path : Text) :
    Agrees (loadFile (m := StateM Tree) settings path)
      (loadFile (m := StateM Machine) settings path) := by
  refine (Agrees.source path).bind fun answer => ?_
  cases answer <;> exact .pure _

theorem agrees_renameFile :
    @Agrees (Traced (FileFailure Place) LineTally)
      (renameFile (m := StateM Tree) settings d input output)
      (renameFile (m := StateM Machine) settings d input output) := by
  refine (Agrees.source input).bind fun answer => ?_
  cases answer with
  | error error => exact .pure _
  | ok source =>
    refine (Agrees.createTemporary _).bind fun answer => ?_
    cases answer with
    | error error => exact .pure _
    | ok place =>
      refine (agrees_fill source place).bind fun run => ?_
      rcases run with ⟨events, failed | tally⟩
      · exact (Agrees.remove place).bind fun _ => .pure _
      · refine (Agrees.moveOver place output).bind fun answer => ?_
        cases answer <;> exact .pure _

theorem agrees_dropFailure {α : Type} (run : Traced (FileFailure Place) α) :
    Agrees (dropFailure (m := StateM Tree) run) (dropFailure (m := StateM Machine) run) := by
  rcases run with ⟨events, ⟨failed, _ | place⟩ | a⟩
  · exact .pure _
  · exact (Agrees.remove place).bind fun _ => .pure _
  · exact .pure _

/-! ### Atomicity -/

/-- A directory is in the way of the output. There is a third entry as long as the failure is held. -/
example :
    let tree := ((Tree.ofHome []).put ["in".toList] (.file (Text.encode "# c\n".toList))).put
      ["out".toList] .directory
    let renamed := (renameFile (m := StateM Tree) .standard .empty "in".toList "out".toList).run tree
    let dropped := (dropFailure (m := StateM Tree) renamed.1).run renamed.2
    (renamed.2.entries.size, dropped.2.entries.size) = (3, 2) := by decide +kernel

end Files

end Renaming
