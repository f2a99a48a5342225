import Renaming.Proofs.Access.Append

/-!
# A writer with a limit

A writer that takes `n` bytes gets the first `n` bytes of what it would get without the limit. If
that is all, the run is the same; if not, it stops at the line whose rendering holds byte `n`
(`HoldsByte`), whatever would have come behind it (`rename_limited`). A flush that fails takes effect
only where the run would have succeeded.
-/

namespace Renaming

/-- No line of a source holds a line feed, whether or not all of them could be read. -/
theorem Source.lineFeed_not_mem_of_mem {bytes : Bytes} {line : Text}
    (h : line ∈ (ofBytes bytes).lines) : '\n' ∉ line := by
  have hencode : line.encode ∈ bytes.lines := by
    obtain ⟨texts, hlines | ⟨bad, after, hlines, hbad⟩⟩ := Bytes.exists_texts bytes.lines
    · rw [ofBytes_of_lines hlines] at h
      rw [hlines]
      exact List.mem_map_of_mem h
    · rw [ofBytes_of_invalid hlines hbad] at h
      rw [hlines]
      exact List.mem_append_left _ (List.mem_map_of_mem h)
  exact mt Text.lineFeed_mem_encode.2 (Bytes.lineFeed_not_mem_of_mem_lines hencode)

namespace Access
variable {settings : Settings} {d : Dictionary} {fault : Option Fault} {room : Room} {number n : Nat}
  {line new : Text} {lines : List Text} {run : Run}

/-! ### The line of a byte -/

/-- Of the bytes written for the lines, byte `n` is written for the line with the number. -/
def HoldsByte (settings : Settings) (d : Dictionary) (lines : List Text) (n number : Nat) : Prop :=
  ∃ before line after news new, lines = before ++ line :: after ∧ number = before.length + 1 ∧
    List.Forall₂ (Renames settings d) before news ∧ Renames settings d line new ∧
    (Text.encodeLines news).length ≤ n ∧ n < (Text.encodeLines (news ++ [new])).length

theorem HoldsByte.head (h : Renames settings d line new)
    (hn : n < (Text.encode (new ++ ['\n'])).length) : HoldsByte settings d (line :: lines) n 1 := by
  refine ⟨[], line, lines, [], new, rfl, rfl, .nil, h, Nat.zero_le n, ?_⟩
  rwa [List.nil_append, Text.encodeLines_cons, Text.encodeLines_nil, List.append_nil]

theorem HoldsByte.cons (hline : Renames settings d line new)
    (hle : (Text.encode (new ++ ['\n'])).length ≤ n)
    (h : HoldsByte settings d lines (n - (Text.encode (new ++ ['\n'])).length) number) :
    HoldsByte settings d (line :: lines) n (number + 1) := by
  obtain ⟨before, bad, after, news, last, rfl, rfl, hnews, hlast, hstart, hstop⟩ := h
  refine ⟨line :: before, bad, after, new :: news, last, rfl, rfl, .cons hline hnews, hlast, ?_, ?_⟩
  · rw [Text.encodeLines_cons, List.length_append]
    omega
  · rw [List.cons_append, Text.encodeLines_cons, List.length_append]
    omega

/-- If the new lines hold no line feeds, the number of the line can be counted in the bytes. -/
theorem HoldsByte.eq_count (h : HoldsByte settings d lines n number)
    (hfeed : ∀ line new, line ∈ lines → Renames settings d line new → '\n' ∉ new)
    (fault : Option Fault) (first : Nat) :
    number =
      ((renameLines settings d fault none first lines).output.take n).count Bytes.lineFeed + 1 := by
  obtain ⟨before, line, after, news, new, rfl, rfl, hnews, hnew, hstart, hstop⟩ := h
  have hall : List.Forall₂ (Renames settings d) (before ++ [line]) (news ++ [new]) :=
    List.rel_append hnews (.cons hnew .nil)
  have houtput := output_renameLines_append hall fault first after
  rw [List.append_assoc, List.singleton_append, Text.encodeLines_append, Text.encodeLines_cons,
    Text.encodeLines_nil, List.append_nil, List.append_assoc] at houtput
  -- byte `n` is at most the line feed of its line
  obtain ⟨m, rfl⟩ := Nat.exists_eq_add_of_le hstart
  have hm : m ≤ new.encode.length := by
    rw [Text.encodeLines_append, Text.encodeLines_cons, Text.encodeLines_nil, List.append_nil,
      Text.encode_append, List.length_append, List.length_append] at hstop
    have hfeed : (Text.encode ['\n']).length = 1 := rfl
    omega
  have hnewsFeed : ∀ new ∈ news, '\n' ∉ new := by
    have hwritten : Written settings d ⟨before, none⟩ none news _ _ := ⟨rfl, hnews, rfl, rfl, rfl⟩
    exact hwritten.forall_news fun line new hline => hfeed line new (List.mem_append_left _ hline)
  have hnewFeed : Bytes.lineFeed ∉ new.encode.take m := fun hmem =>
    hfeed line new (by simp) hnew (Text.lineFeed_mem_encode.1 (List.mem_of_mem_take hmem))
  rw [houtput, List.take_length_add_append, Text.encode_append, List.append_assoc,
    List.take_append_of_le_length hm, List.count_append, Text.count_encodeLines hnewsFeed,
    List.count_eq_zero.2 hnewFeed, hnews.length_eq, Nat.add_zero]

/-! ### Runs with a limit -/

/-- With enough room, the limit does not show. -/
theorem renameLines_of_fits
    (h : (renameLines settings d fault none number lines).output.length ≤ n) :
    renameLines settings d fault (some n) number lines =
      renameLines settings d fault none number lines := by
  induction lines generalizing number n with
  | nil => rfl
  | cons line lines ih =>
    cases hline : (renameLine settings d number line).result with
    | error failure => rw [renameLines_cons_of_error hline, renameLines_cons_of_error hline]
    | ok new =>
      rw [renameLines_none_cons_of_ok hline] at h ⊢
      change (_ ++ (renameLines settings d fault none (number + 1) lines).output).length ≤ n at h
      rw [List.length_append] at h
      have hfits : Room.fits (some n) (Text.encode (new ++ ['\n'])).length = true :=
        decide_eq_true (by omega)
      have hrest : (renameLines settings d fault none (number + 1) lines).output.length ≤
          n - (Text.encode (new ++ ['\n'])).length := by omega
      rw [renameLines_cons_of_ok hline, if_pos hfits]
      exact congrArg _ (ih hrest)

/-- Without enough room, the run stops in the line that holds the first byte too many. -/
theorem renameLines_of_not_fits
    (h : n < (renameLines settings d fault none number lines).output.length) :
    let limited := renameLines settings d fault (some n) number lines
    limited.output = (renameLines settings d fault none number lines).output.take n ∧
      ∃ index, limited.result = .error ⟨[.writingLine (number + index)], .io .writerFull⟩ ∧
        HoldsByte settings d lines n (index + 1) := by
  dsimp only
  induction lines generalizing number n with
  | nil => cases fault <;> exact absurd h (Nat.not_lt_zero n)
  | cons line lines ih =>
    cases hline : (renameLine settings d number line).result with
    | error failure =>
      rw [renameLines_cons_of_error hline] at h
      exact absurd h (Nat.not_lt_zero n)
    | ok new =>
      have hrenames := renameLine_eq_ok_iff.1 hline
      rw [renameLines_none_cons_of_ok hline] at h ⊢
      rw [renameLines_cons_of_ok hline]
      change n < (_ ++ (renameLines settings d fault none (number + 1) lines).output).length at h
      rw [List.length_append] at h
      split
      · rename_i hfits
        have hle : (Text.encode (new ++ ['\n'])).length ≤ n := of_decide_eq_true hfits
        have hrest : n - (Text.encode (new ++ ['\n'])).length <
            (renameLines settings d fault none (number + 1) lines).output.length := by omega
        obtain ⟨hout, index, hresult, hholds⟩ := ih hrest
        refine ⟨?_, index + 1, ?_, hholds.cons hrenames hle⟩
        · show _ ++ (renameLines settings d fault (some _) (number + 1) lines).output =
            List.take n (_ ++ _)
          rw [List.take_append, List.take_of_length_le hle, ← hout]
        · show Except.map _ (renameLines settings d fault (some _) (number + 1) lines).result = _
          rw [hresult, Nat.add_assoc, Nat.add_comm 1]
          rfl
      · rename_i hfits
        have hlt : n < (Text.encode (new ++ ['\n'])).length :=
          Nat.lt_of_not_le fun hle => hfits (decide_eq_true hle)
        refine ⟨?_, 0, rfl, .head hrenames hlt⟩
        show List.take n _ = List.take n (_ ++ _)
        rw [List.take_append_of_le_length (Nat.le_of_lt hlt)]

/-- A run that succeeds had enough room. -/
theorem renameLines_of_ok {tally : LineTally}
    (h : (renameLines settings d fault room number lines).result = .ok tally) :
    renameLines settings d fault room number lines =
      renameLines settings d fault none number lines := by
  cases room with
  | none => rfl
  | some n =>
    by_cases hn : (renameLines settings d fault none number lines).output.length ≤ n
    · exact renameLines_of_fits hn
    · obtain ⟨-, index, hresult, -⟩ := renameLines_of_not_fits (Nat.lt_of_not_le hn)
      rw [hresult] at h
      cases h

/-! ### The end of a run -/

theorem linesRenamed_not_mem_renameLine (tally : LineTally) :
    Event.linesRenamed tally ∉ (renameLine settings d number line).events := by
  unfold renameLine
  split
  · unfold renameHeader
    split <;> simp
  · unfold renameClass
    split <;> simp [Traced.pure, Traced.fail]
  · unfold renameMember
    split
    · rw [Descriptor.rename_eq]
      split
      · simp [Traced.mapError, Traced.pure, Except.mapError]
      · split <;> simp [Traced.mapError, Traced.pure, Traced.fail, Except.mapError]
    · simp [Traced.fail]
  · simp [Traced.pure]
  · simp [Traced.pure]

/-- Only the end of a run reports its tally. -/
theorem linesRenamed_not_mem_renameLines (tally : LineTally) :
    Event.linesRenamed tally ∉ (renameLines settings d fault room number lines).events := by
  induction lines generalizing room number with
  | nil => cases fault <;> exact List.not_mem_nil
  | cons line lines ih =>
    cases hline : (renameLine settings d number line).result with
    | error failure =>
      rw [renameLines_cons_of_error hline]
      exact linesRenamed_not_mem_renameLine tally
    | ok new =>
      rw [renameLines_cons_of_ok hline]
      split
      · exact List.not_mem_append (linesRenamed_not_mem_renameLine tally) ih
      · exact linesRenamed_not_mem_renameLine tally

theorem Run.finish_of_error {failure : Failure} (h : run.result = .error failure)
    (flush : Except Fault Unit) : run.finish flush = run := by
  simp only [Run.finish, h]

theorem Run.finish_of_refused {tally : LineTally} (h : run.result = .ok tally) (fault : Fault) :
    run.finish (.error fault) = ⟨run.events, run.output, .error ⟨[.flushing], .io fault⟩⟩ := by
  simp only [Run.finish, h]

/-- Let neither the target namespace nor a target hold a line feed. A writer with room for the whole
output changes nothing. One with less room gets just the beginning of the output, and the run fails at
the line whose rendering holds the first byte that is missing, without a report. A flush that fails
makes a run fail that would have succeeded, once all is written, and leaves the other runs as they
are. -/
theorem rename_limited (settings : Settings) (d : Dictionary) (input : Bytes)
    (htarget : '\n' ∉ settings.target) (hd : ∀ kind, d.Targets kind ('\n' ∉ ·)) :
    let run (room : Room) (flush : Except Fault Unit) := rename settings d (.ofBytes input) room flush
    let full := run none (.ok ())
    (∀ n, full.output.length ≤ n → run (some n) (.ok ()) = full) ∧
    (∀ n, n < full.output.length →
      (run (some n) (.ok ())).output = full.output.take n ∧
      (∀ tally, .linesRenamed tally ∉ (run (some n) (.ok ())).events) ∧
      ∃ k failure, (run (some n) (.ok ())).result = .error failure ∧
        failure = ⟨[.writingLine k], .io .writerFull⟩ ∧
        failure.chain.head? = some s!"failed to write line {k}" ∧
        HoldsByte settings d (Source.ofBytes input).lines n k ∧
        k = (full.output.take n).count Bytes.lineFeed + 1) ∧
    ∀ room fault,
      (∀ failure, (run room (.ok ())).result = .error failure →
        run room (.error fault) = run room (.ok ())) ∧
      ∀ tally, (run room (.ok ())).result = .ok tally →
        (run room (.error fault)).output = full.output ∧
        (run room (.error fault)).result = .error ⟨[.flushing], .io fault⟩ ∧
        ∀ tally, .linesRenamed tally ∉ (run room (.error fault)).events := by
  intro run full
  have houtput : full.output = (renameAll settings d (.ofBytes input) none).output :=
    Run.finish_output ..
  refine ⟨fun n hn => ?_, fun n hn => ?_, fun room fault => ⟨fun failure h => ?_, fun tally h => ?_⟩⟩
  · rw [houtput] at hn
    exact congrArg (Run.finish · (.ok ())) (renameLines_of_fits hn)
  · rw [houtput] at hn ⊢
    obtain ⟨hcut, index, hresult, hholds⟩ := renameLines_of_not_fits hn
    have hsame : run (some n) (.ok ()) = renameAll settings d (.ofBytes input) (some n) :=
      Run.finish_of_error hresult _
    have hfeed : ∀ line new, line ∈ (Source.ofBytes input).lines → Renames settings d line new →
        '\n' ∉ new := fun line new hline h =>
      h.not_mem (.inr (.inr rfl)) (by decide) htarget hd (Source.lineFeed_not_mem_of_mem hline)
    rw [Nat.add_comm] at hresult
    rw [hsame]
    exact ⟨hcut, linesRenamed_not_mem_renameLines, index + 1, _, hresult, rfl, rfl, hholds,
      hholds.eq_count hfeed _ 1⟩
  · have hresult : (renameAll settings d (.ofBytes input) room).result = .error failure :=
      (Run.finish_result _).symm.trans h
    exact (Run.finish_of_error hresult _).trans (Run.finish_of_error hresult _).symm
  · have hresult : (renameAll settings d (.ofBytes input) room).result = .ok tally :=
      (Run.finish_result _).symm.trans h
    have hall : renameAll settings d (.ofBytes input) room =
        renameAll settings d (.ofBytes input) none := renameLines_of_ok hresult
    have hrun : run room (.error fault) = ⟨_, _, _⟩ := Run.finish_of_refused hresult fault
    rw [hrun, houtput, ← hall]
    exact ⟨rfl, rfl, linesRenamed_not_mem_renameLines⟩

/-- The limit falls between the two bytes of the `é` in the second line. The third line cannot be
renamed, which is only seen if the first two can be written. -/
theorem rename_limited_inside_character :
    let d := Dictionary.empty.insert .klass "a".toList "é".toList
    let settings : Settings := ⟨[], [], [], .positional⟩
    let input := Text.encode "#\nopen\tclass\ta\nopen\tclass".toList
    let output := Text.encode "#\nopen\tclass\té\n".toList
    let run (room : Room) (flush : Except Fault Unit) := rename settings d (.ofBytes input) room flush
    let failure : Failure := ⟨[.inLine 3],
      .shortRow ⟨3, .entry .klass, 3, 2, "open\tclass".toList⟩⟩
    ((run none (.ok ())).output = output ∧ (run none (.ok ())).result = .error failure) ∧
      ((run (some 16) (.ok ())).output = output ∧ (run (some 16) (.ok ())).result = .error failure) ∧
      ((run (some 14) (.ok ())).output = output.take 14 ∧
        (run (some 14) (.ok ())).result = .error ⟨[.writingLine 2], .io .writerFull⟩) ∧
      (run none (.error .flushRefused)).result = .error failure := by
  intro d settings input output run failure
  have houtput : (run none (.ok ())).output = output := by decide +kernel
  have hresult : (run none (.ok ())).result = .error failure := by decide +kernel
  obtain ⟨hfits, hcut, hflush⟩ := rename_limited settings d input (by decide) (by decide)
  have hsame : run (some 16) (.ok ()) = run none (.ok ()) := hfits 16 (by decide +kernel)
  obtain ⟨hfront, -, k, _, hwriting, rfl, -, -, hk⟩ := hcut 14 (by decide +kernel)
  have hk : k = 2 := by
    rw [hk]
    decide +kernel
  rw [hk] at hwriting
  have hunflushed : run none (.error .flushRefused) = run none (.ok ()) :=
    (hflush none .flushRefused).1 failure hresult
  rw [hsame, hunflushed]
  refine ⟨⟨houtput, hresult⟩, ⟨houtput, hresult⟩, ⟨?_, hwriting⟩, hresult⟩
  rw [← houtput]
  exact hfront

end Access

end Renaming
