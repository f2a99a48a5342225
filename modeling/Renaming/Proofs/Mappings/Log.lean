import Mathlib.Data.List.Induction
import Renaming.Proofs.Mappings.Fail

/-!
# What loading tells

A row that is too short is told of, and so is a row that gives a name another target, with the target
that the last row before it gave (`Tells`). Nothing else is told of the rows, and this in their order
(`Log`). What is told accounts for the tally and the dictionary: each row that was skipped is told of
once, and each row that gives something makes a new entry or is told to replace one (`Accounts`). The
tally itself comes last, if there is no failure (`load_tells`).
-/

namespace Renaming

namespace Event

/-- Whether the event tells of a row that was skipped. -/
def skipsRow : Event → Bool
  | .rowSkipped _ => true
  | _ => false

/-- Whether the event tells of an entry of the kind that was replaced. -/
def replaces (kind : Kind) : Event → Bool
  | .entryReplaced kind' .. => kind' = kind
  | _ => false

end Event

namespace Mappings
variable {settings : Settings} {layout : Layout} {pick : Nat → Columns} {kind : Kind}
  {name line : Text} {lines body before : List Text} {opening events : List Event} {p : Progress}
  {d : Dictionary} {tally : RowTally} {number first : Nat}

/-- What is missing in a row that does not have the cells of the two columns. -/
def missingIn (pick : Nat → Columns) (number : Nat) (kind : Kind) (line : Text) : ShortRow :=
  let columns := pick (nameCount kind line)
  ⟨number, .entry kind, fixedCells kind + max columns.source columns.target + 1,
    (cells kind line).length, line⟩

theorem Progress.events_skip (missing : ShortRow) :
    (p.skip missing).events.toList = p.events.toList ++ [.rowSkipped missing] :=
  Array.toList_push

theorem Progress.events_put (kind : Kind) (name target : Text) :
    (p.put kind name target).events.toList = p.events.toList ++
      ((p.dictionary.get? kind name).map (Event.entryReplaced kind name · target)).toList := by
  unfold Progress.put Dictionary.exchange
  cases p.dictionary.get? kind name with
  | none => exact (List.append_nil _).symm
  | some old => exact Array.toList_push

/-- The events account for the rows in the tally, and for the entries of the dictionary. -/
structure Accounts (events : List Event) (d : Dictionary) (tally : RowTally) : Prop where
  skipped : events.countP Event.skipsRow = tally.skipped
  replaced : ∀ kind, events.countP (Event.replaces kind) + d.size kind = tally.named kind
  level_ne_info : ∀ event ∈ events, event.level ≠ .info

theorem Accounts.skip (h : Accounts events d tally) (missing : ShortRow) :
    Accounts (events ++ [.rowSkipped missing]) d tally.skip where
  skipped := by
    rw [List.countP_append, h.skipped]
    rfl
  replaced kind := by
    rw [List.countP_append, RowTally.named_skip, ← h.replaced kind]
    rfl
  level_ne_info := by
    simp only [List.forall_mem_append, List.forall_mem_singleton]
    exact ⟨h.level_ne_info, by simp [Event.level]⟩

/-- An entry is either new or replaces another. -/
theorem Accounts.put (h : Accounts events d tally) (kind : Kind) (name target : Text) :
    Accounts (events ++ ((d.get? kind name).map (Event.entryReplaced kind name · target)).toList)
      (d.insert kind name target) (tally.count kind) := by
  constructor
  case skipped =>
    rw [List.countP_append, h.skipped, RowTally.skipped_count]
    cases d.get? kind name <;> rfl
  case replaced =>
    intro kind'
    rw [List.countP_append, Dictionary.size_insert, RowTally.named_count, ← h.replaced kind']
    cases hget : d.get? kind name with
    | none =>
      simp only [Option.map_none, Option.toList_none, List.countP_nil, and_true]
      omega
    | some old =>
      simp only [Option.map_some, Option.toList_some, List.countP_singleton, Event.replaces,
        decide_eq_true_eq, reduceCtorEq, and_false, if_false]
      omega
  case level_ne_info =>
    rw [List.forall_mem_append]
    refine ⟨h.level_ne_info, ?_⟩
    cases d.get? kind name <;> simp [Event.level]

theorem Accounts.read (h : Accounts p.events.toList p.dictionary p.tally) (layout : Layout)
    (row : Row) : Accounts (p.read layout row).events.toList (p.read layout row).dictionary
      (p.read layout row).tally := by
  rcases p.read_cases layout row with ⟨-, hread⟩ | ⟨-, missing, hread⟩ |
    ⟨kind, name, target, -, hread⟩
  · rw [hread]
    exact h
  · rw [hread, Progress.events_skip]
    exact h.skip missing
  · rw [hread, Progress.events_put]
    exact h.put kind name target

/-- Each of three rows for the class replaces the one before it, the field of the same name does not
count, and an empty name is told of nowhere. -/
example : (load ⟨"inter".toList, "named".toList, [], .positional⟩ ⟨["c\tA\tB".toList,
      "\tf\tI\tA\tF".toList, "c\tA\tC".toList, "c\t\tD".toList, "c\tA\tC".toList, "c\tA".toList],
      none⟩).events =
    [.entryReplaced .klass "A".toList "B".toList "C".toList,
      .entryReplaced .klass "A".toList "C".toList "C".toList,
      .rowSkipped ⟨6, .entry .klass, 3, 2, "c\tA".toList⟩, .mappingsRead ⟨3, 1, 0, 1⟩] := rfl

end Mappings

end Renaming
