import Renaming.Proofs.Access.Stop

/-!
# One input behind another

If the first of two inputs ends where a line ends, the lines of both together are those of the first
and then those of the second. A run over them is the run over the first and then, unless that failed,
the run over the second (`renameAll_append`), in whose failures each line number is larger by the
number of lines that come before (`Failure.shift`). So what is written for a part of a file does not
depend on the rest of the file (`rename_append`).
-/

namespace Renaming

/-! ### Lines and sources -/

namespace Bytes

/-- There is no line without its line feed at the end. -/
def Complete (bytes : Bytes) : Prop := bytes = [] ∨ bytes.getLast? = some lineFeed

instance (bytes : Bytes) : Decidable bytes.Complete := inferInstanceAs (Decidable (_ ∨ _))

theorem lines_append {a : Bytes} (ha : a.Complete) (b : Bytes) :
    (a ++ b).lines = a.lines ++ b.lines := by
  rcases ha with rfl | hlast
  · rfl
  · obtain ⟨front, rfl⟩ := List.getLast?_eq_some_iff.1 hlast
    have hsplit (rest : Bytes) : (front ++ [lineFeed] ++ rest).splitOn lineFeed =
        front.splitOn lineFeed ++ rest.splitOn lineFeed := by
      rw [List.append_assoc]
      exact List.splitOn_append_cons_self front rest
    have hfront := hsplit []
    rw [List.append_nil] at hfront
    have hne : b.splitOn lineFeed ≠ [] := List.splitOn_ne_nil lineFeed b
    have hlines : lines (front ++ [lineFeed]) = (front.splitOn lineFeed).map chomp := by
      rw [lines, hfront]
      simp
    rw [hlines, lines, lines, hsplit, List.dropLast_append_of_ne_nil hne, List.map_append,
      List.getLast?_append_of_ne_nil _ hne, List.append_assoc]

end Bytes

namespace Source

/-- The lines of one source and then, if nothing is in the way of reading it, those of another. -/
def append (first second : Source) : Source :=
  match first.fault with
  | some _ => first
  | none => ⟨first.lines ++ second.lines, second.fault⟩

theorem ofBytes_append {a : Bytes} (ha : a.Complete) (b : Bytes) :
    ofBytes (a ++ b) = (ofBytes a).append (ofBytes b) := by
  have hlines := Bytes.lines_append ha b
  obtain ⟨texts, ha | ⟨bad, after, ha, hbad⟩⟩ := Bytes.exists_texts a.lines
  · rw [ofBytes_of_lines ha]
    obtain ⟨texts', hb | ⟨bad, after, hb, hbad⟩⟩ := Bytes.exists_texts b.lines
    · rw [ha, hb, ← List.map_append] at hlines
      rw [ofBytes_of_lines hb, ofBytes_of_lines hlines]
      rfl
    · rw [ha, hb, ← List.append_assoc, ← List.map_append] at hlines
      rw [ofBytes_of_invalid hb hbad, ofBytes_of_invalid hlines hbad]
      rfl
  · rw [ha, List.append_assoc] at hlines
    rw [ofBytes_of_invalid ha hbad, ofBytes_of_invalid hlines hbad]
    rfl

end Source

/-! ### Shifted line numbers -/

def Context.shift (n : Nat) : Context → Context
  | .readingLine line => .readingLine (line + n)
  | .inLine line => .inLine (line + n)
  | .writingLine line => .writingLine (line + n)
  | context => context

def Cause.shift (n : Nat) : Cause → Cause
  | .shortRow row => .shortRow { row with line := row.line + n }
  | .missingClass line missing => .missingClass (line.map (· + n)) missing
  | cause => cause

/-- The failure with every line number larger by `n`. -/
def Failure.shift (n : Nat) (failure : Failure) : Failure :=
  ⟨failure.contexts.map (Context.shift n), failure.cause.shift n⟩

def LineTally.add (tally tally' : LineTally) : LineTally where
  lines := tally.lines + tally'.lines
  headers := tally.headers + tally'.headers
  comments := tally.comments + tally'.comments
  classes := tally.classes + tally'.classes
  methods := tally.methods + tally'.methods
  fields := tally.fields + tally'.fields
  other := tally.other + tally'.other

theorem LineTally.zero_add (tally : LineTally) : LineTally.zero.add tally = tally := by
  simp [zero, add]

theorem LineTally.count_add (tally tally' : LineTally) (kind : LineKind) :
    (tally.count kind).add tally' = (tally.add tally').count kind := by
  rcases kind with _ | _ | (_ | _ | _) | _ <;> simp only [count, add, Nat.add_right_comm]

namespace Access
variable {settings : Settings} {d : Dictionary} {fault : Option Fault} {room : Room} {number : Nat}
  {line : Text} {lines : List Text}

namespace Run

def shift (n : Nat) (run : Run) : Run := { run with result := run.result.mapError (Failure.shift n) }

theorem shift_cons (n : Nat) (events : List Event) (bytes : Bytes) (kind : LineKind) (run : Run) :
    (cons events bytes kind run).shift n = cons events bytes kind (run.shift n) := by
  rcases run with ⟨events', output, failure | tally⟩ <;> rfl

/-- The run that goes on where the first one ended, if it ended well. -/
def andThen (first second : Run) : Run :=
  match first.result with
  | .error _ => first
  | .ok tally => ⟨first.events ++ second.events, first.output ++ second.output,
      second.result.map tally.add⟩

theorem andThen_of_error {first : Run} {failure : Failure} (h : first.result = .error failure)
    (second : Run) : first.andThen second = first := by
  rw [andThen, h]

theorem andThen_of_ok {first : Run} {tally : LineTally} (h : first.result = .ok tally)
    (second : Run) : first.andThen second = ⟨first.events ++ second.events,
      first.output ++ second.output, second.result.map tally.add⟩ := by
  rw [andThen, h]

theorem zero_andThen (second : Run) : (Run.mk [] [] (.ok .zero)).andThen second = second := by
  rcases second with ⟨events, output, failure | tally⟩
  · rfl
  · simp [andThen, Except.map, LineTally.zero_add]

theorem cons_andThen (events : List Event) (bytes : Bytes) (kind : LineKind) (first second : Run) :
    (cons events bytes kind first).andThen second = cons events bytes kind (first.andThen second) := by
  rcases first with ⟨events', output, failure | tally⟩
  · rfl
  · rcases second with ⟨events'', output', failure | tally'⟩
    · simp [cons, andThen, Except.map]
    · simp [cons, andThen, Except.map, LineTally.count_add]

end Run

theorem renameLine_add (settings : Settings) (d : Dictionary) (number n : Nat) (line : Text) :
    renameLine settings d (number + n) line =
      (renameLine settings d number line).mapError (Failure.shift n) := by
  unfold renameLine
  split
  · unfold renameHeader
    split <;> rfl
  · unfold renameClass
    split <;> rfl
  · unfold renameMember
    split
    · rcases Descriptor.rename settings d _ with ⟨events, missing | new⟩ <;> rfl
    · rfl
  · rfl
  · rfl

/-- The number of the first line only shifts the numbers in a failure. -/
theorem renameLines_add (settings : Settings) (d : Dictionary) (fault : Option Fault) (room : Room)
    (number n : Nat) (lines : List Text) :
    renameLines settings d fault room (number + n) lines =
      (renameLines settings d fault room number lines).shift n := by
  induction lines generalizing room number with
  | nil => cases fault <;> rfl
  | cons line lines ih =>
    have hadd := renameLine_add settings d number n line
    cases hline : (renameLine settings d number line).result with
    | error failure =>
      have hshift : (renameLine settings d (number + n) line).result = .error (failure.shift n) := by
        rw [hadd, Traced.mapError, hline]
        rfl
      rw [renameLines_cons_of_error hline, renameLines_cons_of_error hshift, hadd]
      rfl
    | ok new =>
      have hshift : (renameLine settings d (number + n) line).result = .ok new := by
        rw [hadd, Traced.mapError, hline]
        rfl
      rw [renameLines_cons_of_ok hline, renameLines_cons_of_ok hshift, hadd, Nat.add_right_comm, ih]
      split
      · exact (Run.shift_cons ..).symm
      · rfl

/-- A run over lines and more lines. -/
theorem renameLines_append (settings : Settings) (d : Dictionary) (fault : Option Fault)
    (number : Nat) (lines lines' : List Text) :
    renameLines settings d fault none number (lines ++ lines') =
      (renameLines settings d none none number lines).andThen
        (renameLines settings d fault none (number + lines.length) lines') := by
  induction lines generalizing number with
  | nil => exact (Run.zero_andThen _).symm
  | cons line lines ih =>
    rw [List.cons_append]
    cases hline : (renameLine settings d number line).result with
    | error failure =>
      rw [renameLines_cons_of_error hline, renameLines_cons_of_error hline]
      rfl
    | ok new =>
      rw [renameLines_none_cons_of_ok hline, renameLines_none_cons_of_ok hline, ih, Run.cons_andThen,
        List.length_cons, Nat.add_assoc, Nat.add_comm 1]

/-- In front of other lines, lines that can be renamed are written in full. -/
theorem output_renameLines_append {before news : List Text}
    (h : List.Forall₂ (Renames settings d) before news) (fault : Option Fault) (number : Nat)
    (after : List Text) :
    (renameLines settings d fault none number (before ++ after)).output = Text.encodeLines news ++
      (renameLines settings d fault none (number + before.length) after).output := by
  have hwritten : Written settings d ⟨before, none⟩ none news (Text.encodeLines news)
      (.ofLines before) := ⟨rfl, h, rfl, rfl, rfl⟩
  obtain ⟨houtput, hresult⟩ :=
    (@renameLines_eq_ok_iff settings d none none number _ _ before).2 ⟨news, hwritten⟩
  rw [renameLines_append, Run.andThen_of_ok hresult, houtput]

/-- A run over one source and then another. -/
theorem renameAll_append (settings : Settings) (d : Dictionary) (first second : Source) :
    renameAll settings d (first.append second) none =
      (renameAll settings d first none).andThen
        ((renameAll settings d second none).shift first.lines.length) := by
  rcases first with ⟨lines, _ | fault⟩
  · show renameLines settings d second.fault none 1 (lines ++ second.lines) = _
    rw [renameLines_append, renameLines_add]
    rfl
  · -- what cannot be read makes the first run fail, and nothing is read behind it
    show renameAll settings d ⟨lines, some fault⟩ none = _
    cases hresult : (renameAll settings d ⟨lines, some fault⟩ none).result with
    | error failure => rw [Run.andThen_of_error hresult]
    | ok tally =>
      obtain ⟨news, hwritten⟩ := renameLines_eq_ok_iff.1 ⟨rfl, hresult⟩
      cases hwritten.fault

/-- The run over an input whose writer neither is full nor refuses to flush. -/
def renameBytes (settings : Settings) (d : Dictionary) (bytes : Bytes) : Run :=
  rename settings d (.ofBytes bytes) none (.ok ())

section Bytes
variable {a b : Bytes} {tally tally' : LineTally} {failure : Failure}

theorem output_renameBytes (settings : Settings) (d : Dictionary) (bytes : Bytes) :
    (renameBytes settings d bytes).output = (renameAll settings d (.ofBytes bytes) none).output :=
  Run.finish_output ..

theorem result_renameBytes (settings : Settings) (d : Dictionary) (bytes : Bytes) :
    (renameBytes settings d bytes).result = (renameAll settings d (.ofBytes bytes) none).result :=
  Run.finish_result _

theorem renameBytes_append_of_error (ha : a.Complete)
    (h : (renameBytes settings d a).result = .error failure) (b : Bytes) :
    (renameBytes settings d (a ++ b)).output = (renameBytes settings d a).output ∧
      (renameBytes settings d (a ++ b)).result = .error failure := by
  simp only [output_renameBytes, result_renameBytes] at h ⊢
  rw [Source.ofBytes_append ha, renameAll_append, Run.andThen_of_error h]
  exact ⟨rfl, h⟩

theorem renameBytes_append_of_ok (ha : a.Complete)
    (h : (renameBytes settings d a).result = .ok tally) (b : Bytes) :
    (renameBytes settings d (a ++ b)).output =
        (renameBytes settings d a).output ++ (renameBytes settings d b).output ∧
      (renameBytes settings d (a ++ b)).result =
        ((renameBytes settings d b).result.mapError (Failure.shift a.lines.length)).map tally.add := by
  simp only [output_renameBytes, result_renameBytes] at h ⊢
  obtain ⟨news, hwritten⟩ := renameLines_eq_ok_iff.1 ⟨rfl, h⟩
  have hlength : (Source.ofBytes a).lines.length = a.lines.length := by
    rw [Source.lines_of_fault_eq_none hwritten.fault, List.length_map]
  rw [Source.ofBytes_append ha, renameAll_append, Run.andThen_of_ok h, hlength]
  exact ⟨rfl, rfl⟩

end Bytes

/-- Let the first of two inputs end where a line ends. If the run over it fails, so does the run over
both, in the same way. If not, the run over both writes what the two runs write, one behind the other;
it fails as the second does, with larger line numbers, or adds up what the two have counted. Hence of a
file in parts, each part is written as if it were alone. -/
theorem rename_append (settings : Settings) (d : Dictionary) (a b : Bytes) (ha : a.Complete) :
    let run := renameBytes settings d
    (∀ failure, (run a).result = .error failure →
      (run (a ++ b)).output = (run a).output ∧ (run (a ++ b)).result = .error failure) ∧
    (∀ tally, (run a).result = .ok tally →
      (run (a ++ b)).output = (run a).output ++ (run b).output ∧
      (∀ failure, (run b).result = .error failure →
        (run (a ++ b)).result = .error (failure.shift a.lines.length)) ∧
      ∀ tally', (run b).result = .ok tally' → (run (a ++ b)).result = .ok (tally.add tally')) ∧
    ∀ parts : List Bytes, (∀ part ∈ parts, part.Complete ∧ ∃ tally, (run part).result = .ok tally) →
      (run (parts.flatten ++ b)).output = parts.flatMap (fun part => (run part).output) ++
        (run b).output := by
  intro run
  refine ⟨fun failure h => renameBytes_append_of_error ha h b, fun tally h => ?_, fun parts => ?_⟩
  · obtain ⟨houtput, hresult⟩ := renameBytes_append_of_ok ha h b
    refine ⟨houtput, fun failure hb => ?_, fun tally' hb => ?_⟩
    · rw [hresult, hb]
      rfl
    · rw [hresult, hb]
      rfl
  · induction parts with
    | nil => exact fun _ => rfl
    | cons part parts ih =>
      intro hparts
      obtain ⟨⟨hpart, tally, h⟩, hparts⟩ := List.forall_mem_cons.1 hparts
      have hfirst := (renameBytes_append_of_ok hpart h (parts.flatten ++ b)).1
      rw [List.flatten_cons, List.append_assoc, List.flatMap_cons, List.append_assoc, ← ih hparts]
      exact hfirst

/-- The second input fails in its second line, which is the fourth of both. -/
theorem rename_append_missing :
    let d := Dictionary.empty.insert .klass "a/B".toList "a/C".toList
    let settings : Settings := ⟨[], [], ["a/".toList], .positional⟩
    let run := renameBytes settings d
    let comment := Text.encode "# é\r\n".toList
    let klass := Text.encode "open\tclass\ta/B\n".toList
    let rest := Text.encode "\nopen\tfield\ta/B\tf\tLa/Q;".toList
    (run (comment ++ klass ++ rest)).output = (run comment).output ++ (run klass).output ++ [10] ∧
      (run (comment ++ klass ++ rest)).result =
        .error ⟨[.inLine 4, .descriptorOf .field "a/B".toList "f".toList],
          .missingClass (some 4) ⟨"a/Q".toList, "La/Q;".toList⟩⟩ := by
  intro d settings run comment klass rest
  have hok : (run (comment ++ klass)).result = .ok ⟨2, 0, 1, 1, 0, 0, 0⟩ := by decide +kernel
  have hrest : (run rest).output = [10] ∧ (run rest).result =
      .error ⟨[.inLine 2, .descriptorOf .field "a/B".toList "f".toList],
        .missingClass (some 2) ⟨"a/Q".toList, "La/Q;".toList⟩⟩ := by decide +kernel
  have hcomment : (run comment).result = .ok ⟨1, 0, 1, 0, 0, 0, 0⟩ := by decide +kernel
  have hklass : (run klass).result = .ok ⟨1, 0, 0, 1, 0, 0, 0⟩ := by decide +kernel
  have hparts : ∀ part ∈ [comment, klass], part.Complete ∧ ∃ tally, (run part).result = .ok tally :=
    List.forall_mem_cons.2 ⟨⟨by decide +kernel, _, hcomment⟩,
      List.forall_mem_singleton.2 ⟨by decide +kernel, _, hklass⟩⟩
  obtain ⟨-, hboth, hall⟩ := rename_append settings d (comment ++ klass) rest (by decide +kernel)
  refine ⟨?_, ?_⟩
  · have houtput := hall [comment, klass] hparts
    rw [hrest.1] at houtput
    simpa using houtput
  · exact ((hboth _ hok).2.1 _ hrest.2)

end Access

end Renaming
