import Renaming.Files.Rename
import Renaming.Proofs.Access.Stop
import Renaming.Proofs.Files.Machine

/-!
# Writing on machines

What a writer was given is in its file or pending, as long as the machine takes that many bytes
(`Writer.Ends`). So lines are renamed as in a run without a limit, and either their file has all that
the run puts out, or it would have become too long (`RunEnds`).
-/

namespace Renaming

namespace Writer
variable {machine : Machine} {place : Place} {content pending : Bytes}

/-- How writing ends that gives a writer the last of these bytes. -/
inductive Ends (machine : Machine) (place : Place) (bytes : Bytes) :
    Except SystemError (Writer Place) × Machine → Prop where
  | written {content pending : Bytes} (hbytes : content ++ pending = bytes)
      (htakes : machine.refusals.Takes content.length) :
      Ends machine place bytes (.ok ⟨place, pending⟩, machine.put place (.file content))
  | refused {error : SystemError} (content : Bytes) (h : machine.refusals.Stops bytes.length error) :
      Ends machine place bytes (.error error, machine.put place (.file content))

theorem flush_of_nil (place : Place) :
    flush (m := StateM Machine) ⟨place, []⟩ = pure (.ok ⟨place, []⟩) := rfl

theorem flush_cases (hne : place ≠ []) (htakes : machine.refusals.Takes content.length)
    (pending : Bytes) :
    machine.refusals.Takes (content ++ pending).length ∧
        (flush (m := StateM Machine) ⟨place, pending⟩).run (machine.put place (.file content)) =
          (.ok ⟨place, []⟩, machine.put place (.file (content ++ pending))) ∨
      ∃ error content', machine.refusals.Stops (content ++ pending).length error ∧
        (flush (m := StateM Machine) ⟨place, pending⟩).run (machine.put place (.file content)) =
          (.error error, machine.put place (.file content')) := by
  cases pending with
  | nil =>
    rw [List.append_nil]
    exact .inl ⟨htakes, rfl⟩
  | cons byte pending =>
    rcases Machine.append_put hne (byte :: pending) with ⟨htakes, happend⟩ |
      ⟨error, content', hstops, happend⟩
    · exact .inl ⟨htakes, Machine.run_bind (Machine.run_append happend)⟩
    · exact .inr ⟨error, content', hstops, Machine.run_bind (Machine.run_append happend)⟩

/-- A piece is kept behind what is pending, if there is room for both or nothing is pending. -/
theorem keep_ends (hne : place ≠ []) (htakes : machine.refusals.Takes content.length) (piece : Bytes)
    (hroom : pending = [] ∨ pending.length + piece.length ≤ capacity) :
    Ends machine place (content ++ pending ++ piece)
      ((keep (m := StateM Machine) ⟨place, pending⟩ piece).run
        (machine.put place (.file content))) := by
  unfold keep
  split
  · exact .written (List.append_assoc ..).symm htakes
  · -- the piece fills a buffer alone
    obtain rfl : pending = [] :=
      hroom.elim id fun hroom => List.eq_nil_of_length_eq_zero (by omega)
    rw [List.append_nil]
    rcases Machine.append_put hne piece with ⟨htakes, happend⟩ |
      ⟨error, content', hstops, happend⟩
    · rw [Machine.run_bind (Machine.run_append happend)]
      exact .written (List.append_nil _) htakes
    · rw [Machine.run_bind (Machine.run_append happend)]
      exact .refused content' hstops

theorem write_ends (hne : place ≠ []) (htakes : machine.refusals.Takes content.length)
    (pending piece : Bytes) :
    Ends machine place (content ++ pending ++ piece)
      ((write (m := StateM Machine) ⟨place, pending⟩ piece).run
        (machine.put place (.file content))) := by
  unfold write
  split
  · rename_i hroom
    exact keep_ends hne htakes piece (.inr hroom)
  · rcases flush_cases hne htakes pending with ⟨htakes, hflush⟩ |
      ⟨error, content', hstops, hflush⟩
    · have hends := keep_ends hne htakes piece (.inl rfl)
      rw [List.append_nil] at hends
      rw [Machine.run_bind hflush]
      exact hends
    · rw [Machine.run_bind hflush]
      exact .refused content' (hstops.append piece)

theorem writeLine_ends (hne : place ≠ []) (htakes : machine.refusals.Takes content.length)
    (pending : Bytes) (line : Text) :
    Ends machine place (content ++ pending ++ Text.encode (line ++ ['\n']))
      ((writeLine (m := StateM Machine) ⟨place, pending⟩ line).run
        (machine.put place (.file content))) := by
  rw [Text.encode_append, ← List.append_assoc, writeLine]
  have hends := write_ends hne htakes pending line.encode
  generalize hrun : (write (m := StateM Machine) ⟨place, pending⟩ line.encode).run
    (machine.put place (.file content)) = ending at hends
  cases hends with
  | written hbytes htakes =>
    rw [Machine.run_bind hrun, ← hbytes]
    exact write_ends hne htakes _ _
  | refused content' hstops =>
    rw [Machine.run_bind hrun]
    exact .refused content' (hstops.append _)

/-! ### On a machine and on its tree -/

variable {writer : Writer Place}

theorem agrees_flush :
    Agrees (flush (m := StateM Tree) writer) (flush (m := StateM Machine) writer) := by
  unfold flush
  split
  · exact .pure _
  · refine (Agrees.append _ _).bind fun answer => ?_
    cases answer <;> exact .pure _

theorem agrees_keep (piece : Bytes) : Agrees (keep (m := StateM Tree) writer piece)
    (keep (m := StateM Machine) writer piece) := by
  unfold keep
  split
  · exact .pure _
  · refine (Agrees.append _ _).bind fun answer => ?_
    cases answer <;> exact .pure _

theorem agrees_write (piece : Bytes) : Agrees (write (m := StateM Tree) writer piece)
    (write (m := StateM Machine) writer piece) := by
  unfold write
  split
  · exact agrees_keep piece
  · refine agrees_flush.bind fun answer => ?_
    cases answer with
    | error error => exact .pure _
    | ok writer => exact agrees_keep piece

end Writer

namespace Files
variable {machine : Machine} {place : Place} {content pending : Bytes}

/-- How it ends that lines are renamed to a writer as in a run without a limit, where these bytes were
written before. -/
inductive RunEnds (machine : Machine) (place : Place) (bytes : Bytes) (run : Access.Run) :
    Traced Failure (LineTally × Writer Place) × Machine → Prop where
  | complete {tally : LineTally} {content pending : Bytes} (hresult : run.result = .ok tally)
      (hbytes : content ++ pending = bytes ++ run.output)
      (htakes : machine.refusals.Takes content.length) :
      RunEnds machine place bytes run
        (⟨run.events, .ok (tally, ⟨place, pending⟩)⟩, machine.put place (.file content))
  | stopped {failed : Failure} (content : Bytes) (hresult : run.result = .error failed) :
      RunEnds machine place bytes run
        (⟨run.events, .error failed⟩, machine.put place (.file content))
  | refused (events : List Event) (number : Nat) {error : SystemError} (content : Bytes)
      (h : machine.refusals.Stops (bytes ++ run.output).length error) :
      RunEnds machine place bytes run
        (⟨events, .error (failure (.writingLine number) error)⟩, machine.put place (.file content))

/-- A line was written before the others. -/
theorem RunEnds.cons {bytes written : Bytes} {run : Access.Run} {machine' : Machine}
    {answer : Traced Failure (LineTally × Writer Place)} (events : List Event) (kind : LineKind)
    (h : RunEnds machine place (bytes ++ written) run (answer, machine')) :
    RunEnds machine place bytes (Access.Run.cons events written kind run)
      (⟨events ++ answer.events, answer.result.map fun (tally, writer) => (tally.count kind, writer)⟩,
        machine') := by
  rcases run with ⟨events', output, result⟩
  cases h with
  | complete hresult hbytes htakes =>
    cases hresult
    exact .complete rfl (hbytes.trans (List.append_assoc ..)) htakes
  | stopped content hresult =>
    cases hresult
    exact .stopped content rfl
  | @refused events' number error content hstops =>
    refine .refused _ number content ?_
    show machine.refusals.Stops (bytes ++ (written ++ output)).length error
    rw [← List.append_assoc]
    exact hstops

theorem renameLines_ends (settings : Settings) (d : Dictionary) (hne : place ≠ [])
    (htakes : machine.refusals.Takes content.length) (pending : Bytes) (fault : Option Fault)
    (number : Nat) (lines : List Text) :
    RunEnds machine place (content ++ pending)
      (Access.renameLines settings d fault none number lines)
      ((renameLines (m := StateM Machine) settings d fault ⟨place, pending⟩ number lines).run
        (machine.put place (.file content))) := by
  induction lines generalizing content pending number with
  | nil =>
    cases fault with
    | none => exact .complete rfl (List.append_nil _).symm htakes
    | some fault => exact .stopped content rfl
  | cons line rest ih =>
    rcases hline : Access.renameLine settings d number line with ⟨events, failed | new⟩
    · rw [Access.renameLines_cons_of_error (congrArg Traced.result hline), renameLines, hline]
      exact .stopped content rfl
    · rw [Access.renameLines_none_cons_of_ok (congrArg Traced.result hline), renameLines, hline]
      dsimp only
      have hends := Writer.writeLine_ends hne htakes pending new
      generalize hwrite : (Writer.writeLine (m := StateM Machine) ⟨place, pending⟩ new).run
        (machine.put place (.file content)) = ending at hends
      cases hends with
      | @refused error content' hstops =>
        rw [Machine.run_bind hwrite]
        refine .refused events number content' ?_
        show machine.refusals.Stops (content ++ pending ++ (Text.encode (new ++ ['\n']) ++ _)).length
          error
        rw [← List.append_assoc]
        exact hstops.append _
      | @written _ pending' hbytes htakes =>
        rw [Machine.run_bind hwrite]
        have hrest := ih htakes pending' (number + 1)
        rw [hbytes] at hrest
        exact hrest.cons events (LineKind.ofLine line)

theorem finish_of_result {run : Access.Run} {tally : LineTally} (h : run.result = .ok tally) :
    run.finish (.ok ()) = ⟨run.events ++ [.linesRenamed tally], run.output, .ok tally⟩ := by
  rcases run with ⟨events, output, result⟩
  cases h
  rfl

/-- Why it fails that all lines are renamed to a file as in a run without a limit. -/
inductive RunFails (refusals : Refusals) (run : Access.Run) : Failure → Prop where
  | stopped {failed : Failure} (h : run.result = .error failed) : RunFails refusals run failed
  | notWritten (number : Nat) {error : SystemError}
      (h : refusals.Stops run.output.length error) :
      RunFails refusals run (failure (.writingLine number) error)
  | notFlushed {error : SystemError} (h : refusals.Stops run.output.length error) :
      RunFails refusals run (failure .flushing error)

/-- How it ends that all lines are renamed to a file. -/
inductive FlushEnds (machine : Machine) (place : Place) (run : Access.Run) :
    Traced Failure (LineTally × Writer Place) × Machine → Prop where
  | flushed {tally : LineTally} (hresult : run.result = .ok tally)
      (htakes : machine.refusals.Takes run.output.length) :
      FlushEnds machine place run
        (⟨run.events, .ok (tally, ⟨place, []⟩)⟩, machine.put place (.file run.output))
  | failed (events : List Event) {failed : Failure} (content : Bytes)
      (h : RunFails machine.refusals run failed) :
      FlushEnds machine place run (⟨events, .error failed⟩, machine.put place (.file content))

theorem renameAll_ends (settings : Settings) (d : Dictionary) (source : Source)
    (machine : Machine) (hne : place ≠ []) :
    FlushEnds machine place (Access.rename settings d source none (.ok ()))
      ((renameAll (m := StateM Machine) settings d source ⟨place, []⟩).run
        (machine.put place (.file []))) := by
  have htakes : machine.refusals.Takes ([] : Bytes).length := machine.refusals.takes_zero
  have hends := renameLines_ends settings d hne htakes [] source.fault 1 source.lines
  generalize hlines : (renameLines (m := StateM Machine) settings d source.fault ⟨place, []⟩ 1
    source.lines).run (machine.put place (.file [])) = lines at hends
  rw [renameAll, Machine.run_bind hlines, Access.rename, Access.renameAll]
  generalize Access.renameLines settings d source.fault none 1 source.lines = run at hends ⊢
  cases hends with
  | @complete tally content pending hresult hbytes htakes =>
    have hall : content ++ pending = run.output := hbytes
    rw [finish_of_result hresult]
    rcases Writer.flush_cases hne htakes pending with ⟨htakes, hflush⟩ |
      ⟨error, content', hstops, hflush⟩
    · rw [hall] at htakes hflush
      dsimp only
      rw [Machine.run_bind hflush]
      exact .flushed rfl htakes
    · rw [hall] at hstops
      dsimp only
      rw [Machine.run_bind hflush]
      exact .failed _ content' (.notFlushed hstops)
  | stopped content hresult =>
    exact .failed _ content (.stopped ((Access.Run.finish_result run).trans hresult))
  | refused events number content hstops =>
    refine .failed _ content (.notWritten number ?_)
    rw [Access.Run.finish_output]
    exact hstops

/-- What it takes to fill a file with what a run puts out. -/
structure CanFill (refusals : Refusals) (run : Access.Run) (tally : LineTally) : Prop where
  renames : run.result = .ok tally
  takes : refusals.Takes run.output.length
  syncs : refusals.syncing = none

/-- Why it fails that the temporary file under a path is filled with what a run puts out. -/
inductive FillFails (input output temporary : Text) (refusals : Refusals) (run : Access.Run) :
    Failure → Prop where
  | notRenamed {failed : Failure} (h : RunFails refusals run failed) :
      FillFails input output temporary refusals run (failed.within (.renamingFile input output))
  | notSynced {error : SystemError} (h : refusals.syncing = some error) :
      FillFails input output temporary refusals run (failure (.syncing temporary) error)

theorem FillFails.not_canFill {input output temporary : Text} {refusals : Refusals}
    {run : Access.Run} {failed : Failure} {tally : LineTally}
    (h : FillFails input output temporary refusals run failed) : ¬CanFill refusals run tally := by
  intro hcan
  cases h with
  | notRenamed h =>
    cases h with
    | stopped h => cases h.symm.trans hcan.renames
    | notWritten number h => exact h.not_takes hcan.takes
    | notFlushed h => exact h.not_takes hcan.takes
  | notSynced h => cases h.symm.trans hcan.syncs

/-- The path of a temporary file beside the output. -/
def temporaryPath (machine : Machine) (output : Text) (place : Place) : Text :=
  machine.tree.absolute (Path.directory output) (place.getLastD [])

/-- How the filling of a temporary file ends. -/
inductive FillEnds (input output : Text) (machine : Machine) (place : Place) (run : Access.Run) :
    Traced Failure LineTally × Machine → Prop where
  | filled {tally : LineTally} (h : CanFill machine.refusals run tally) :
      FillEnds input output machine place run
        (⟨run.events, .ok tally⟩, machine.put place (.file run.output))
  | failed (events : List Event) {failed : Failure} (content : Bytes)
      (h : FillFails input output (temporaryPath machine output place) machine.refusals run failed) :
      FillEnds input output machine place run
        (⟨events, .error failed⟩, machine.put place (.file content))

theorem fill_ends (settings : Settings) (d : Dictionary) (input output : Text) (source : Source)
    (machine : Machine) (hne : place ≠ []) :
    FillEnds input output machine place (Access.rename settings d source none (.ok ()))
      ((fill (m := StateM Machine) settings d input output source place).run
        (machine.put place (.file []))) := by
  have hends := renameAll_ends settings d source machine hne
  generalize hall : (renameAll (m := StateM Machine) settings d source ⟨place, []⟩).run
    (machine.put place (.file [])) = all at hends
  generalize Access.rename settings d source none (.ok ()) = run at hends ⊢
  rw [fill, Machine.run_bind hall]
  cases hends with
  | failed events content h => exact .failed _ content (.notRenamed h)
  | flushed hresult htakes =>
    dsimp only
    rw [Writer.flush_of_nil, pure_bind]
    cases hsync : (machine.put place (.file run.output)).sync with
    | error error =>
      rw [Machine.run_bind (Machine.run_sync hsync)]
      exact .failed _ _ (.notSynced (Machine.sync_eq_error_iff.1 hsync))
    | ok =>
      rw [Machine.run_bind (Machine.run_sync hsync)]
      exact .filled ⟨hresult, htakes, Machine.sync_eq_ok_iff.1 hsync⟩

/-! ### On a machine and on its tree -/

variable {settings : Settings} {d : Dictionary} {input output : Text}

theorem agrees_renameLines {writer : Writer Place} (fault : Option Fault) (number : Nat)
    (lines : List Text) :
    Agrees (renameLines (m := StateM Tree) settings d fault writer number lines)
      (renameLines (m := StateM Machine) settings d fault writer number lines) := by
  induction lines generalizing writer number with
  | nil => cases fault <;> exact .pure _
  | cons line rest ih =>
    unfold renameLines
    rcases Access.renameLine settings d number line with ⟨events, failed | new⟩
    · exact .pure _
    · refine Agrees.bind ?_ fun answer => ?_
      · refine (Writer.agrees_write _).bind fun answer => ?_
        cases answer with
        | error error => exact .pure _
        | ok writer => exact Writer.agrees_write _
      · cases answer with
        | error error => exact .pure _
        | ok writer => exact (ih _).bind fun _ => .pure _

theorem agrees_fill (source : Source) (place : Place) :
    Agrees (fill (m := StateM Tree) settings d input output source place)
      (fill (m := StateM Machine) settings d input output source place) := by
  refine Agrees.bind ?_ fun run => ?_
  · refine (agrees_renameLines _ _ _).bind fun run => ?_
    rcases run with ⟨events, failed | ⟨tally, writer⟩⟩
    · exact .pure _
    · refine Writer.agrees_flush.bind fun answer => ?_
      cases answer <;> exact .pure _
  · rcases run with ⟨events, failed | ⟨tally, writer⟩⟩
    · exact .pure _
    · refine Writer.agrees_flush.bind fun answer => ?_
      cases answer with
      | error error => exact .pure _
      | ok writer =>
        refine (Agrees.sync _).bind fun answer => ?_
        cases answer with
        | error error => exact (Agrees.pathIn _ _).bind fun _ => .pure _
        | ok => exact .pure _

end Files

end Renaming
