import Renaming.Command.Arguments

/-!
# Flags for the level of the log

Reading the arguments does not depend on the flags for the level of the log that were raised before,
except that `-q` cannot be raised twice (`SameStep`). So in front of arguments that have no such
flag, `-q` and any number of `-v` change the level and nothing else (`parse_quiet`,
`parse_verbose`).
-/

namespace Renaming.Command

namespace Draft
variable {quiet : Bool} {more : Nat} {draft : Draft} {x y : Except Refusal Draft}

/-- The draft for which more flags for the level of the log have been raised. -/
def turn (quiet : Bool) (more : Nat) (draft : Draft) : Draft :=
  { draft with quiet := draft.quiet || quiet, verbosity := draft.verbosity + more }

/-- If the draft becomes `x`, the draft with the flags raised becomes `y`, and that is `x` with the
flags raised. Nothing is said about failures and about drafts that have come to be quiet. -/
def SameStep (quiet : Bool) (more : Nat) (draft : Draft) (x y : Except Refusal Draft) : Prop :=
  ∀ after, x = .ok after → after.quiet = false →
    draft.quiet = false ∧ y = .ok (after.turn quiet more)

namespace SameStep

theorem ok {after : Draft} (h : after.quiet = draft.quiet) :
    SameStep quiet more draft (.ok after) (.ok (after.turn quiet more)) := by
  rintro _ ⟨⟩ hquiet
  exact ⟨h.symm.trans hquiet, rfl⟩

theorem error (refusal refusal' : Refusal) :
    SameStep quiet more draft (.error refusal) (.error refusal') := by
  rintro _ ⟨⟩

theorem bind {f : Draft → Except Refusal Draft} (h : SameStep quiet more draft x y)
    (hf : ∀ middle, SameStep quiet more middle (f middle) (f (middle.turn quiet more))) :
    SameStep quiet more draft (x >>= f) (y >>= f) := by
  rcases x with refusal | middle
  · rintro _ ⟨⟩
  · intro after hafter hquiet
    obtain ⟨hmiddle, hafter'⟩ := hf middle after hafter hquiet
    obtain ⟨hdraft, rfl⟩ := h middle rfl hmiddle
    exact ⟨hdraft, hafter'⟩

theorem refuse (c : Prop) [Decidable c] (refusal : Refusal) {after : Draft}
    (h : after.quiet = draft.quiet) : SameStep quiet more draft
      (if c then .error refusal else .ok after)
      (if c then .error refusal else .ok (after.turn quiet more)) := by
  split
  · exact error _ _
  · exact ok h

theorem assign (setting : Setting) (value : Text) : SameStep quiet more draft
    (draft.assign setting value) ((draft.turn quiet more).assign setting value) := by
  cases setting with
  | source => exact refuse (draft.source.isSome = true) _ rfl
  | target => exact refuse (draft.target.isSome = true) _ rfl
  | package => exact ok rfl

theorem settle : SameStep quiet more draft draft.settle (draft.turn quiet more).settle := by
  rcases draft with ⟨source, target, packages, first, quiet', verbosity, paths, pending⟩
  rcases pending with _ | ⟨setting, _ | value⟩ | path
  · exact ok rfl
  · exact error _ _
  · exact assign setting value
  · exact refuse (path.isEmpty = true) _ rfl

theorem raise (flag : Flag) :
    SameStep quiet more draft (draft.raise flag) ((draft.turn quiet more).raise flag) := by
  refine settle.bind fun draft => ?_
  cases flag with
  | firstOccurrence => exact refuse (draft.firstOccurrence = true) _ rfl
  | quiet =>
    intro after hafter hquiet
    change (if draft.quiet then Except.error _ else Except.ok { draft with quiet := true }) =
      Except.ok after at hafter
    split at hafter
    · cases hafter
    · cases hafter
      cases hquiet
  | verbose =>
    show SameStep quiet more draft _ (.ok { draft with
      quiet := draft.quiet || quiet, verbosity := draft.verbosity + more + 1 })
    rw [Nat.add_right_comm]
    exact .ok rfl
  | help => exact .error _ _
  | version => exact .error _ _

theorem raiseAll (argument text : Text) : SameStep quiet more draft
    (draft.raiseAll argument text) ((draft.turn quiet more).raiseAll argument text) := by
  induction text generalizing draft with
  | nil => exact .ok rfl
  | cons c text ih =>
    unfold Draft.raiseAll
    cases shortNames.lookup c with
    | none => exact .error _ _
    | some flag => exact (raise flag).bind fun _ => ih

theorem long (text : Text) :
    SameStep quiet more draft (draft.long text) ((draft.turn quiet more).long text) := by
  unfold Draft.long
  dsimp only
  split
  · exact .error _ _
  · exact settle.bind fun _ => assign _ _
  · exact settle.bind fun _ => .ok rfl
  · exact .error _ _
  · exact raise _

theorem path (argument : Text) :
    SameStep quiet more draft (draft.path argument) ((draft.turn quiet more).path argument) := by
  unfold Draft.path
  show SameStep quiet more draft (if 3 ≤ draft.pathCount then _ else _)
    (if 3 ≤ draft.pathCount then _ else _)
  split
  · exact .error _ _
  · exact settle.bind fun _ => .ok rfl

theorem plain (argument : Text) :
    SameStep quiet more draft (draft.plain argument) ((draft.turn quiet more).plain argument) := by
  rcases hpending : draft.pending with _ | ⟨setting, _ | value⟩ | path
  all_goals unfold Draft.plain
  all_goals rw [show (draft.turn quiet more).pending = draft.pending from rfl, hpending]
  case setting.none => exact .ok rfl
  all_goals exact SameStep.path argument

theorem paths (arguments : List Text) : SameStep quiet more draft
    (arguments.foldlM Draft.path draft) (arguments.foldlM Draft.path (draft.turn quiet more)) := by
  induction arguments generalizing draft with
  | nil => exact .ok rfl
  | cons argument arguments ih =>
    rw [List.foldlM_cons, List.foldlM_cons]
    exact (path argument).bind fun _ => ih

theorem read (arguments : List Text) :
    SameStep quiet more draft (draft.read arguments) ((draft.turn quiet more).read arguments) := by
  induction arguments generalizing draft with
  | nil => exact settle
  | cons argument arguments ih =>
    unfold Draft.read
    split
    · exact (paths arguments).bind fun _ => settle
    · exact (long _).bind fun _ => ih
    · exact (raiseAll _ _).bind fun _ => ih
    · exact (plain _).bind fun _ => ih

end SameStep

variable {arguments : List Text} {options : Options}

theorem options_eq_ok_iff : draft.options = .ok options ↔
    (draft.quiet && draft.verbosity != 0) = false ∧
      draft.paths = [options.mappings, options.input, options.output] ∧
      options.settings = draft.settings ∧ options.level = draft.level := by
  rcases options with ⟨mappings, input, output, settings, level⟩
  unfold Draft.options
  cases draft.quiet && draft.verbosity != 0 with
  | true => simp
  | false =>
    rw [if_neg Bool.false_ne_true]
    split
    · rename_i mappings' input' output' hpaths
      simp [hpaths, eq_comm, and_assoc]
    · rename_i hpaths
      simpa using fun h => absurd h (hpaths mappings input output)

theorem level_eq_warn_iff : draft.level = .warn ↔ draft.quiet = false ∧ draft.verbosity = 0 := by
  unfold Draft.level
  rcases draft.quiet with _ | _
  · rcases draft.verbosity with _ | _ | _ | n <;> simp
  · simp

/-- The log of a draft has the usual level if no flag for it was raised. -/
theorem unflagged_of_options (h : draft.options = .ok options) (hlevel : options.level = .warn) :
    draft.quiet = false ∧ draft.verbosity = 0 :=
  level_eq_warn_iff.1 ((options_eq_ok_iff.1 h).2.2.2.symm.trans hlevel)

/-- The options after flags were raised that do not exclude each other. -/
theorem options_turn (h : draft.options = .ok options) (hlevel : options.level = .warn)
    (hflags : quiet = false ∨ more = 0) :
    (draft.turn quiet more).options =
      .ok { options with level := (blank.turn quiet more).level } := by
  obtain ⟨-, hpaths, hsettings, -⟩ := options_eq_ok_iff.1 h
  obtain ⟨hquiet, hverbosity⟩ := unflagged_of_options h hlevel
  have hturn : (draft.turn quiet more).level = (blank.turn quiet more).level := by
    rw [level, level, turn, hquiet, hverbosity]
    rfl
  refine options_eq_ok_iff.2 ⟨?_, hpaths, hsettings, hturn.symm⟩
  rcases hflags with rfl | rfl <;> simp [turn, hquiet, hverbosity]

theorem turn_turn (n n' : Nat) :
    (draft.turn false n).turn false n' = draft.turn false (n + n') := by
  simp only [turn, Bool.or_false, Nat.add_assoc]

theorem raiseAll_verbose (hpending : draft.pending = .nothing) :
    draft.raiseAll ['-', 'v'] ['v'] = .ok (draft.turn false 1) := by
  rcases draft with ⟨source, target, packages, first, quiet, verbosity, paths, pending⟩
  cases hpending
  cases quiet <;> rfl

theorem read_verbose (n : Nat) (hpending : draft.pending = .nothing) :
    draft.read (List.replicate n ['-', 'v'] ++ arguments) =
      (draft.turn false n).read arguments := by
  induction n generalizing draft with
  | zero => rw [turn, Bool.or_false]; rfl
  | succ n ih =>
    show (draft.raiseAll ['-', 'v'] ['v'] >>= fun draft => draft.read _) = _
    rw [raiseAll_verbose hpending, Nat.add_comm n 1, ← turn_turn]
    exact ih hpending

end Draft

variable {arguments : List Text} {options : Options}

theorem parse_turn (quiet : Bool) (more : Nat) (h : parse arguments = .ok options)
    (hlevel : options.level = .warn) (hflags : quiet = false ∨ more = 0) :
    ((Draft.blank.turn quiet more).read arguments >>= Draft.options) =
      .ok { options with level := (Draft.blank.turn quiet more).level } := by
  cases hread : Draft.blank.read arguments with
  | error refusal =>
    rw [parse, hread] at h
    cases h
  | ok draft =>
    rw [parse, hread] at h
    have hquiet := (Draft.unflagged_of_options h hlevel).1
    rw [(Draft.SameStep.read arguments draft hread hquiet).2]
    exact Draft.options_turn h hlevel hflags

theorem parse_quiet (h : parse arguments = .ok options) (hlevel : options.level = .warn) :
    parse (['-', 'q'] :: arguments) = .ok { options with level := .error } :=
  parse_turn true 0 h hlevel (.inr rfl)

theorem level_verbose (n : Nat) :
    (Draft.blank.turn false n).level = [Level.warn, .info, .debug].getD n .trace := by
  rcases n with _ | _ | _ | n <;> simp [Draft.level, Draft.turn, Draft.blank]

theorem parse_verbose (n : Nat) (h : parse arguments = .ok options)
    (hlevel : options.level = .warn) : parse (List.replicate n ['-', 'v'] ++ arguments) =
      .ok { options with level := [Level.warn, .info, .debug].getD n .trace } := by
  rw [parse, Draft.read_verbose n rfl, ← level_verbose]
  exact parse_turn false n h hlevel (.inl rfl)

end Renaming.Command
