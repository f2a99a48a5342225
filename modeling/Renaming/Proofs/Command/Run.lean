import Renaming.Command.Run
import Renaming.Proofs.Command.Arguments
import Renaming.Proofs.Files.Rename

/-!
# Whole runs

A run loads the mappings and then renames the input; it ends with the exit code 0 exactly if both
can be done, and otherwise leaves the tree as it was (`ExecuteEnds`). The level of the log has no part
in that and only chooses among the lines of one and the same log (`run_at_every_level`). Where nothing
is refused, a run on a machine is the run on its tree (`agrees_run`).
-/

namespace Renaming.Command

variable {options : Options} {machine : Machine}

/-! ### The log -/

/-- The events that a log of a level has are those at this level or before it. -/
theorem logText_eq (level : Level) (events : List Event) :
    let order := [Level.error, .warn, .info, .debug, .trace]
    logText level events = String.join ((events.filter fun event =>
      order.idxOf event.level ≤ order.idxOf level).map fun event => event.logLine ++ "\n") := by
  intro order
  have hadmits : ∀ event : Event,
      level.admits event.level = decide (order.idxOf event.level ≤ order.idxOf level) := fun event => by
    cases level <;> cases event.level <;> rfl
  simp only [logText, hadmits]

/-- The report of a failure has its outermost text and, if there are any, the causes below it. -/
theorem exists_errorReport (failure : Failure) : ∃ text causes, failure.chain = text :: causes ∧
    errorReport failure =
      if causes = [] then "Error: " ++ text ++ "\n"
      else "Error: " ++ text ++ "\n\nCaused by:\n" ++ "\n".intercalate (causeLines causes) ++
        "\n" := by
  obtain ⟨text, causes, hchain⟩ : ∃ text causes, failure.chain = text :: causes :=
    List.exists_cons_of_ne_nil (List.append_ne_nil_of_right_ne_nil _ (List.cons_ne_nil _ _))
  refine ⟨text, causes, hchain, ?_⟩
  rw [errorReport, hchain]
  cases causes <;> rfl

/-! ### Both stages -/

/-- How the execution of a run ends on a machine. -/
inductive ExecuteEnds (options : Options) (machine : Machine) :
    Traced (Files.FileFailure Place) Unit × Machine → Prop where
  | renamed {mappings old : Bytes} {d : Dictionary} {rows : RowTally} {target : Place}
      {tally : LineTally}
      (hload : Files.CanLoad options.settings options.mappings machine mappings d rows)
      (hrename : Files.CanRename options.settings d options.input options.output
        (machine.remember options.mappings) old target tally) :
      ExecuteEnds options machine
        (⟨(Mappings.load options.settings (.ofBytes mappings)).events ++ note options d ++
            (Access.rename options.settings d (.ofBytes old) none (.ok ())).events ++
            [.fileWritten tally.lines options.output], .ok ()⟩,
          ((machine.remember options.mappings).remember options.input).put target
            (.file (Files.renamed options.settings d old)))
  | notLoaded {events : List Event} {failure : Failure}
      (hloaded : (Files.loadFile (m := StateM Machine) options.settings options.mappings).run
        machine = (⟨events, .error failure⟩, machine.remember options.mappings))
      (h : ∀ mappings d rows,
        ¬Files.CanLoad options.settings options.mappings machine mappings d rows) :
      ExecuteEnds options machine
        (⟨events, .error ⟨failure, none⟩⟩, machine.remember options.mappings)
  | notRenamed {events : List Event} {failed : Files.FileFailure Place} {after : Machine}
      {mappings : Bytes} {d : Dictionary} {rows : RowTally}
      (hload : Files.CanLoad options.settings options.mappings machine mappings d rows)
      (hrenamed : (Files.renameFile (m := StateM Machine) options.settings d options.input
        options.output).run (machine.remember options.mappings) = (⟨events, .error failed⟩, after))
      (h : Files.RenameFails options.settings d options.input options.output
        (machine.remember options.mappings) failed after) :
      ExecuteEnds options machine
        (⟨(Mappings.load options.settings (.ofBytes mappings)).events ++ note options d ++ events,
          .error failed⟩, after)

theorem execute_ends (options : Options) (machine : Machine) :
    ExecuteEnds options machine ((execute (m := StateM Machine) options).run machine) := by
  rw [execute]
  have hload := Files.loadFile_ends options.settings options.mappings machine
  generalize hloaded : (Files.loadFile (m := StateM Machine) options.settings options.mappings).run
    machine = loaded at hload
  cases hload with
  | failed events failure h =>
    rw [Machine.run_bind hloaded]
    exact .notLoaded hloaded h
  | @loaded mappings d rows hcan =>
    rw [Machine.run_bind hloaded]
    have hrename := Files.renameFile_ends options.settings d options.input options.output
      (machine.remember options.mappings)
    generalize hrenamed : (Files.renameFile (m := StateM Machine) options.settings d options.input
      options.output).run (machine.remember options.mappings) = renamed at hrename
    dsimp only
    cases hrename with
    | renamed h =>
      rw [Machine.run_bind hrenamed]
      exact .renamed hcan h
    | failed events h =>
      rw [Machine.run_bind hrenamed]
      exact .notRenamed hcan hrenamed h

theorem run_of_parse {arguments : List Text} {result : Traced (Files.FileFailure Place) Unit}
    {answer : Traced Failure Unit} {middle after : Machine} (h : parse arguments = .ok options)
    (hexecute : (execute (m := StateM Machine) options).run machine = (result, middle))
    (hdrop : (Files.dropFailure (m := StateM Machine) result).run middle = (answer, after)) :
    (run (m := StateM Machine) arguments).run machine =
      (Answer.ofRun options.level answer, after) := by
  rw [run, h]
  exact (Machine.run_bind hexecute).trans (Machine.run_bind hdrop)

theorem agrees_execute (options : Options) :
    @Agrees (Traced (Files.FileFailure Place) Unit) (execute (m := StateM Tree) options)
      (execute (m := StateM Machine) options) := by
  refine (Files.agrees_loadFile options.mappings).bind fun loaded => ?_
  rcases loaded with ⟨events, failure | ⟨d, rows⟩⟩
  · exact .pure _
  · refine Files.agrees_renameFile.bind fun renamed => ?_
    rcases renamed with ⟨events', failed | tally⟩ <;> exact .pure _

/-- On a machine that refuses nothing, a run prints and does what it does on the tree alone. -/
theorem agrees_run (arguments : List Text) :
    Agrees (run (m := StateM Tree) arguments) (run (m := StateM Machine) arguments) := by
  unfold run
  cases parse arguments with
  | error refusal => exact .pure _
  | ok options =>
    exact (agrees_execute options).bind fun result =>
      (Files.agrees_dropFailure result).bind fun _ => .pure _

/-- A run with arguments that are in order. At each level it prints a line for every event of the run
at this level or before it, in their order, and then the report of the failure; at the last level these
are all events. The events, the exit code, the report and the machine after the run are the same at
every level, and so with `-q` and with any number of `-v` in front of arguments that have no such flag.
The exit code is 0 exactly if the mappings can be loaded and the input can be renamed with what they
hold, and then nothing but the file under the path of the output has changed. Otherwise the exit code
is 1 and nothing has changed, and nothing but the mappings was opened if they are at fault. The events
and the failure are those of the two stages. -/
theorem run_at_every_level {arguments : List Text} (h : parse arguments = .ok options)
    (machine : Machine) :
    let ended := ((execute (m := StateM Machine) options).run machine).1
    let order := [Level.error, .warn, .info, .debug, .trace]
    let log := fun level => (ended.events.filter fun event =>
      order.idxOf event.level ≤ order.idxOf level).map fun event => event.logLine ++ "\n"
    ∃ exitCode report after,
      (∀ arguments' level, parse arguments' = .ok { options with level := level } →
        (run (m := StateM Machine) arguments').run machine =
          (⟨exitCode, "", String.join (log level) ++ report⟩, after)) ∧
      log .trace = (ended.events.map fun event => event.logLine ++ "\n") ∧
      (options.level = .warn →
        parse (['-', 'q'] :: arguments) = .ok { options with level := .error } ∧
        ∀ n, parse (List.replicate n ['-', 'v'] ++ arguments) =
          .ok { options with level := [Level.warn, .info, .debug].getD n .trace }) ∧
      ((exitCode = 0 ∧ report = "" ∧ ∃ mappings d rows old target tally,
          Files.CanLoad options.settings options.mappings machine mappings d rows ∧
          Files.CanRename options.settings d options.input options.output
            (machine.remember options.mappings) old target tally ∧
          after.tree = machine.tree.put target (.file (Files.renamed options.settings d old)) ∧
          after.tree.file? options.output = some (Files.renamed options.settings d old) ∧
          ended.events = (Mappings.load options.settings (.ofBytes mappings)).events ++
            note options d ++
            (Access.rename options.settings d (.ofBytes old) none (.ok ())).events ++
            [.fileWritten tally.lines options.output]) ∨
        (exitCode = 1 ∧ after.tree = machine.tree ∧ ∃ failed, ended.result = .error failed ∧
          (∃ text causes, failed.failure.chain = text :: causes ∧ report =
            if causes = [] then "Error: " ++ text ++ "\n"
            else "Error: " ++ text ++ "\n\nCaused by:\n" ++
              "\n".intercalate (causeLines causes) ++ "\n") ∧
          ((after.opened = machine.opened ++ [options.mappings] ∧
              (∀ mappings d rows,
                ¬Files.CanLoad options.settings options.mappings machine mappings d rows) ∧
              ((Files.loadFile (m := StateM Machine) options.settings options.mappings).run
                machine).1 = ⟨ended.events, .error failed.failure⟩) ∨
            ∃ mappings d rows,
              Files.CanLoad options.settings options.mappings machine mappings d rows ∧
              (∀ old target tally, ¬Files.CanRename options.settings d options.input
                options.output (machine.remember options.mappings) old target tally) ∧
              ∃ events, ((Files.renameFile (m := StateM Machine) options.settings d options.input
                  options.output).run (machine.remember options.mappings)).1 =
                    ⟨events, .error failed⟩ ∧
                ended.events = (Mappings.load options.settings (.ofBytes mappings)).events ++
                  note options d ++ events))) := by
  have hends := execute_ends options machine
  generalize hexecute : (execute (m := StateM Machine) options).run machine = ending at hends ⊢
  intro ended order log
  -- the level is not among what a run reads of its options
  have hrun : ∀ answer after,
      (Files.dropFailure (m := StateM Machine) ending.1).run ending.2 = (answer, after) →
      ∀ arguments' level, parse arguments' = .ok { options with level := level } →
        (run (m := StateM Machine) arguments').run machine = (Answer.ofRun level answer, after) :=
    fun answer after hdrop arguments' level hparse => run_of_parse hparse hexecute hdrop
  have hlog : ∀ level, logText level ended.events = String.join (log level) := fun level =>
    logText_eq level ended.events
  have hall : log .trace = ended.events.map fun event => event.logLine ++ "\n" :=
    congrArg (List.map _) (List.filter_eq_self.2 fun event _ => by cases event.level <;> rfl)
  have hflags := fun hlevel => And.intro (parse_quiet h hlevel) fun n => parse_verbose n h hlevel
  cases hends with
  | @renamed mappings old d rows target tally hload hrename =>
    refine ⟨0, "", ((machine.remember options.mappings).remember options.input).put target
      (.file (Files.renamed options.settings d old)), fun arguments' level hparse => ?_, hall, hflags,
      .inl ⟨rfl, rfl, mappings, d, rows, old, target, tally, hload, hrename, rfl,
        Tree.file?_put_file hrename.resolves, rfl⟩⟩
    rw [hrun ⟨_, .ok ()⟩ _ rfl arguments' level hparse, String.append_empty, ← hlog]
    rfl
  | @notLoaded events failure hloaded hload =>
    obtain ⟨text, causes, hchain, hreport⟩ := exists_errorReport failure
    refine ⟨1, errorReport failure, machine.remember options.mappings,
      fun arguments' level hparse => ?_, hall, hflags,
      .inr ⟨rfl, rfl, _, rfl, ⟨text, causes, hchain, hreport⟩,
        .inl ⟨rfl, hload, congrArg Prod.fst hloaded⟩⟩⟩
    rw [hrun ⟨events, .error failure⟩ _ rfl arguments' level hparse, ← hlog]
    rfl
  | @notRenamed events failed after mappings d rows hload hrenamed hfails =>
    obtain ⟨text, causes, hchain, hreport⟩ := exists_errorReport failed.failure
    refine ⟨1, errorReport failed.failure, (machine.remember options.mappings).remember options.input,
      fun arguments' level hparse => ?_, hall, hflags,
      .inr ⟨rfl, rfl, failed, rfl, ⟨text, causes, hchain, hreport⟩,
        .inr ⟨mappings, d, rows, hload, fun old target tally => hfails.not_canRename, events,
          congrArg Prod.fst hrenamed, rfl⟩⟩⟩
    rw [hrun _ _ (Files.run_dropFailure _ hfails.holds) arguments' level hparse, ← hlog]
    rfl

/-- A run whose output takes the place of its input, without a log and with one. -/
theorem run_at_every_level_in_place :
    let settings := Settings.standard
    let mappings := Text.encode "tiny\t2\t0\tintermediary\tnamed\nc\tp/A\tq/A\n".toList
    let old := Text.encode "accessible\tclass\tp/A\n".toList
    let new := Text.encode "accessible\tclass\tq/A\n".toList
    let tree := ((Tree.ofHome []).put ["m".toList] (.file mappings)).put ["a".toList] (.file old)
    let arguments := ["m".toList, "a".toList, "a".toList]
    let loud :=
      "[DEBUG widener::tiny_v2] mapping namespace \"intermediary\" (column 0) to \"named\" " ++
      "(column 1)\n[INFO widener::tiny_v2] read 1 class, 0 field and 0 method mappings, " ++
      "skipped 0 rows\n[INFO widener::access_widener] remapped 1 lines: 1 classes, 0 methods, " ++
      "0 fields, 0 other\n[INFO widener_remap] wrote 1 lines to \"a\"\n"
    parse arguments = .ok ⟨"m".toList, "a".toList, "a".toList, settings, .warn⟩ ∧
      ∃ after,
        (run (m := StateM Machine) ("-q".toList :: arguments)).run ⟨tree, .nothing, []⟩ =
          (⟨0, "", ""⟩, after) ∧
        (run (m := StateM Machine) ("-v".toList :: "-v".toList :: arguments)).run
          ⟨tree, .nothing, []⟩ = (⟨0, "", loud⟩, after) ∧
        after.tree.file? "a".toList = some new := by
  intro settings mappings old new tree arguments loud
  let d := Dictionary.empty.insert .klass "p/A".toList "q/A".toList
  have hparse : parse arguments = .ok ⟨"m".toList, "a".toList, "a".toList, settings, .warn⟩ := by
    decide +kernel
  have hmappings : tree.file? "m".toList = some mappings := by decide +kernel
  have hold : tree.file? "a".toList = some old := by decide +kernel
  have hload : (Mappings.load settings (.ofBytes mappings)).result = .ok (d, ⟨1, 0, 0, 0⟩) := by rfl
  have hnew : Files.renamed settings d old = new := by rfl
  have hcanLoad : Files.CanLoad settings "m".toList ⟨tree, .nothing, []⟩ mappings d ⟨1, 0, 0, 0⟩ :=
    ⟨⟨hmappings, rfl, rfl⟩, hload⟩
  have hcanRename : Files.CanRename settings d "a".toList "a".toList
      ⟨tree, .nothing, ["m".toList]⟩ old ["a".toList] ⟨1, 0, 0, 1, 0, 0, 0⟩ :=
    { shows := ⟨hold, rfl, rfl⟩
      creates := ⟨[".tmp000000".toList], by decide +kernel⟩
      fills := ⟨by decide +kernel, fun _ _ h => (nomatch h), rfl⟩
      moves := rfl
      resolves := by decide +kernel }
  let events : List Event := [.columnsChosen "intermediary".toList 0 "named".toList 1,
    .mappingsRead ⟨1, 0, 0, 0⟩, .linesRenamed ⟨1, 0, 0, 1, 0, 0, 0⟩, .fileWritten 1 "a".toList]
  have hevents : ((execute (m := StateM Machine) ⟨"m".toList, "a".toList, "a".toList, settings,
      .warn⟩).run ⟨tree, .nothing, []⟩).1.events = events := by decide +kernel
  have herrors : logText .error events ++ "" = "" := by decide +kernel
  have hdebug : logText .debug events ++ "" = loud := by decide +kernel
  obtain ⟨exitCode, report, after, hrun, -, hflags, hend⟩ :=
    run_at_every_level hparse ⟨tree, .nothing, []⟩
  obtain ⟨hquiet, hloud⟩ := hflags rfl
  simp only [hevents, ← logText_eq] at hrun
  refine ⟨hparse, ?_⟩
  rcases hend with ⟨rfl, rfl, mappings', d', rows, old', target, tally, h, h', -, hfile, -⟩ | hend
  · cases hmappings.symm.trans h.shows.file
    cases hload.symm.trans h.loads
    cases hold.symm.trans h'.shows.file
    have hquiet := hrun _ _ hquiet
    have hloud := hrun _ _ (hloud 2)
    rw [herrors] at hquiet
    rw [show [Level.warn, .info, .debug].getD 2 .trace = .debug from rfl, hdebug] at hloud
    exact ⟨after, hquiet, hloud, hnew ▸ hfile⟩
  · rcases hend with ⟨-, -, failed, -, -, ⟨-, h, -⟩ | ⟨mappings', d', rows, h, h', -⟩⟩
    · exact absurd hcanLoad (h _ _ _)
    · cases hmappings.symm.trans h.shows.file
      cases hload.symm.trans h.loads
      exact absurd hcanRename (h' _ _ _)

end Renaming.Command
