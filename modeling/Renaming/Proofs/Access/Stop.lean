import Renaming.Proofs.Access.Document

/-!
# Where a run stops

A run writes the new lines one after the other and stops at the first line that is no text or cannot
be renamed. Its failure then tells the number of that line (`StopsAt`), and without such a line its
tally tells how many lines there are of each kind (`rename_line_by_line`).
-/

namespace Renaming

/-! ### Tallies -/

namespace LineTally
variable (tally : LineTally) (lines : List Text) (kind : LineKind)

/-- How many lines of a kind were counted. -/
def counted (tally : LineTally) : LineKind → Nat
  | .header => tally.headers
  | .comment => tally.comments
  | .declaration .klass => tally.classes
  | .declaration .method => tally.methods
  | .declaration .field => tally.fields
  | .other => tally.other

/-- All counters of kinds together. -/
def total (tally : LineTally) : Nat :=
  tally.headers + tally.comments + tally.classes + tally.methods + tally.fields + tally.other

@[simp] theorem lines_count : (tally.count kind).lines = tally.lines + 1 := by
  rcases kind with _ | _ | (_ | _ | _) | _ <;> rfl

theorem counted_count (kind' : LineKind) :
    (tally.count kind).counted kind' = tally.counted kind' + if kind = kind' then 1 else 0 := by
  rcases kind with _ | _ | (_ | _ | _) | _ <;> rcases kind' with _ | _ | (_ | _ | _) | _ <;> rfl

theorem total_count : (tally.count kind).total = tally.total + 1 := by
  rcases kind with _ | _ | (_ | _ | _) | _ <;> simp only [total, count] <;> omega

theorem lines_ofLines : (ofLines lines).lines = lines.length := by
  induction lines with
  | nil => rfl
  | cons line lines ih =>
    rw [ofLines, List.foldr_cons, lines_count, List.length_cons, ← ih, ofLines]

theorem counted_ofLines :
    (ofLines lines).counted kind = lines.countP fun line => LineKind.ofLine line = kind := by
  induction lines with
  | nil => cases kind with
    | declaration kind => cases kind <;> rfl
    | _ => rfl
  | cons line lines ih =>
    rw [ofLines, List.foldr_cons, counted_count, List.countP_cons, ← ih, ofLines]
    simp only [decide_eq_true_eq]

theorem lines_ofLines_eq_total : (ofLines lines).lines = (ofLines lines).total := by
  induction lines with
  | nil => rfl
  | cons line lines ih => rw [ofLines, List.foldr_cons, lines_count, total_count, ← ofLines, ih]

end LineTally

/-- The number of the line that a cause is about. -/
def Cause.line? : Cause → Option Nat
  | .shortRow row => some row.line
  | .missingClass line _ => line
  | .unknownNamespace .. | .io _ => none

namespace Access
variable {settings : Settings} {d : Dictionary} {fault : Option Fault} {number : Nat}
  {line : Text} {lines : List Text}

theorem line?_of_renameLine {failure : Failure}
    (h : (renameLine settings d number line).result = .error failure) :
    failure.cause.line? = some number := by
  obtain ⟨kind, -, ⟨-, rfl⟩ | ⟨-, _, _, _, _, _, _, missing, -, -, rfl⟩⟩ :=
    renameLine_eq_error_iff.1 h
  · rfl
  · rfl

theorem Run.finish_output (run : Run) (flush : Except Fault Unit) :
    (run.finish flush).output = run.output := by
  rcases run with ⟨events, output, failure | tally⟩
  · rfl
  · rcases flush with fault | ⟨⟩ <;> rfl

theorem Run.finish_result (run : Run) : (run.finish (.ok ())).result = run.result := by
  rcases run with ⟨events, output, failure | tally⟩ <;> rfl

/-- Without a limit, a run over lines writes what they are renamed to, all of them or those before
the first that cannot be renamed. -/
theorem renameLines_outcome (settings : Settings) (d : Dictionary) (fault : Option Fault)
    (number : Nat) (lines : List Text) :
    let run := renameLines settings d fault none number lines
    ∃ before news, List.Forall₂ (Renames settings d) before news ∧
      run.output = Text.encodeLines news ∧
      ((lines = before ∧ run.result = match fault with
          | none => .ok (.ofLines lines)
          | some fault => .error ⟨[.readingLine (number + lines.length)], .io fault⟩) ∨
        ∃ line after failure, lines = before ++ line :: after ∧
          (renameLine settings d (number + before.length) line).result = .error failure ∧
          run.result = .error (failure.within (.inLine (number + before.length)))) := by
  induction lines generalizing number with
  | nil =>
    refine ⟨[], [], .nil, ?_, .inl ⟨rfl, ?_⟩⟩
    · cases fault <;> rfl
    · cases fault <;> rfl
  | cons line lines ih =>
    dsimp only
    cases hline : (renameLine settings d number line).result with
    | error failure =>
      rw [renameLines_cons_of_error hline]
      exact ⟨[], [], .nil, rfl, .inr ⟨line, lines, failure, rfl, hline, rfl⟩⟩
    | ok new =>
      rw [renameLines_none_cons_of_ok hline]
      obtain ⟨before, news, hnews, hout, hrest⟩ := ih (number + 1)
      have hnumber : ∀ n : Nat, number + 1 + n = number + (n + 1) := fun n => by omega
      refine ⟨line :: before, new :: news, .cons (renameLine_eq_ok_iff.1 hline) hnews, ?_, ?_⟩
      · rw [Text.encodeLines_cons, ← hout]
        rfl
      · simp only [List.length_cons, hnumber] at hrest ⊢
        rcases hrest with ⟨rfl, hresult⟩ | ⟨bad, after, failure, rfl, hbad, hresult⟩
        · refine .inl ⟨rfl, ?_⟩
          show Except.map _ (renameLines settings d fault none (number + 1) lines).result = _
          rw [hresult]
          cases fault <;> rfl
        · refine .inr ⟨bad, after, failure, rfl, hbad, ?_⟩
          show Except.map _ (renameLines settings d fault none (number + 1) _).result = _
          rw [hresult]
          rfl

/-- What the failure of a run tells about the line that stopped it: the line is no text or cannot be
renamed, and either way the failure names its number. -/
def StopsAt (settings : Settings) (d : Dictionary) (number : Nat) (line : Bytes)
    (failure : Failure) : Prop :=
  (line.decode? = none ∧ failure = ⟨[.readingLine number], .io .invalidUtf8⟩ ∧
    failure.chain.head? = some s!"failed to read line {number}") ∨
  ∃ text refusal, line.decode? = some text ∧
    (renameLine settings d number text).result = .error refusal ∧
    failure = refusal.within (.inLine number) ∧ failure.cause.line? = some number ∧
    failure.chain.head? = some s!"in line {number}"

theorem stopsAt_of_renameLine {refusal : Failure}
    (h : (renameLine settings d number line).result = .error refusal) :
    StopsAt settings d number line.encode (refusal.within (.inLine number)) :=
  have hnumber : refusal.cause.line? = some number := line?_of_renameLine h
  .inr ⟨line, refusal, Bytes.decode?_encode line, h, rfl, hnumber, rfl⟩

/-- A run with a writer that does not fail renames line after line. Either all lines are texts that
can be renamed, and the run succeeds, or there is a first one that is not, and it stops the run. The
output is what the lines are renamed to, in the second case those before the line that stops it. -/
theorem rename_line_by_line (settings : Settings) (d : Dictionary) (bytes : Bytes) :
    let run := rename settings d (.ofBytes bytes) none (.ok ())
    ∃ lines news : List Text,
      List.Forall₂ (fun line new => ∀ number, (renameLine settings d number line).result = .ok new)
        lines news ∧
      run.output = news.flatMap (fun new => Text.encode (new ++ ['\n'])) ∧
      ((bytes.lines = lines.map Text.encode ∧ ∃ tally, run.result = .ok tally ∧
          tally.lines = lines.length ∧ tally.lines = tally.total ∧
          ∀ kind, tally.counted kind = lines.countP fun line => LineKind.ofLine line = kind) ∨
        ∃ line after failure, bytes.lines = lines.map Text.encode ++ line :: after ∧
          run.result = .error failure ∧ StopsAt settings d (lines.length + 1) line failure) := by
  have hall : ∀ lines news, List.Forall₂ (Renames settings d) lines news →
      List.Forall₂ (fun line new => ∀ number, (renameLine settings d number line).result = .ok new)
        lines news :=
    fun _ _ h => h.imp fun _ _ hline _ => renameLine_eq_ok_iff.2 hline
  obtain ⟨texts, hlines | ⟨line, after, hlines, hline⟩⟩ := Bytes.exists_texts bytes.lines
  · obtain ⟨before, news, hnews, hout, hend⟩ := renameLines_outcome settings d none 1 texts
    dsimp only
    rw [Source.ofBytes_of_lines hlines, rename, Run.finish_output, Run.finish_result]
    refine ⟨before, news, hall before news hnews, hout, ?_⟩
    rcases hend with ⟨rfl, hresult⟩ | ⟨bad, rest, failure, rfl, hbad, hresult⟩
    · refine .inl ⟨hlines, _, hresult, LineTally.lines_ofLines _, ?_, fun kind => ?_⟩
      · exact LineTally.lines_ofLines_eq_total _
      · exact LineTally.counted_ofLines _ kind
    · rw [List.map_append] at hlines
      rw [Nat.add_comm 1] at hbad hresult
      exact .inr ⟨_, _, _, hlines, hresult, stopsAt_of_renameLine hbad⟩
  · obtain ⟨before, news, hnews, hout, hend⟩ :=
      renameLines_outcome settings d (some .invalidUtf8) 1 texts
    dsimp only
    rw [Source.ofBytes_of_invalid hlines hline, rename, Run.finish_output, Run.finish_result]
    refine ⟨before, news, hall before news hnews, hout, .inr ?_⟩
    rcases hend with ⟨rfl, hresult⟩ | ⟨bad, rest, failure, rfl, hbad, hresult⟩
    · rw [Nat.add_comm 1] at hresult
      exact ⟨line, after, _, hlines, hresult, .inl ⟨hline, rfl, rfl⟩⟩
    · rw [List.map_append, List.append_assoc] at hlines
      rw [Nat.add_comm 1] at hbad hresult
      exact ⟨_, _, _, hlines, hresult, stopsAt_of_renameLine hbad⟩

end Access

end Renaming
