import Mathlib.Data.List.Dedup
import Mathlib.Data.List.Induction
import Renaming.Proofs.Dictionary

/-!
# The history of a dictionary

Entries are added to a dictionary one after the other, and each time the older target is given back
(`exchangeAll`). Whatever is asked of a dictionary that was empty before, its history tells the answer:
for each name of a kind the last entry counts, and there are no other names and no other targets
(`Remembers`, `remembers_exchangeAll`). Entries of one kind make no difference to the answers about
another (`Alike`), so there are three histories rather than one (`exchangeAll_three_maps`).
-/

namespace Renaming

/-- What is asked for when an entry is added. -/
structure Insertion where
  kind : Kind
  source : Text
  target : Text
  deriving DecidableEq, Repr

/-- The insertion gives a target to the name. -/
def Insertion.IsFor (kind : Kind) (name : Text) (entry : Insertion) : Prop :=
  entry.kind = kind ∧ entry.source = name

instance {kind : Kind} {name : Text} {entry : Insertion} : Decidable (entry.IsFor kind name) :=
  inferInstanceAs (Decidable (_ ∧ _))

/-- The last insertion for the name has this target. -/
def LastTarget (history : List Insertion) (kind : Kind) (name target : Text) : Prop :=
  ∃ before after, history = before ++ ⟨kind, name, target⟩ :: after ∧
    ∀ later ∈ after, ¬ later.IsFor kind name

/-- The names of a kind that targets were given to, each as often as that was done. -/
def namesGiven (history : List Insertion) (kind : Kind) : List Text :=
  (history.filter fun entry => entry.kind = kind).map Insertion.source

namespace Dictionary
variable {d d' : Dictionary} {history before after : List Insertion} {entry : Insertion} {kind : Kind}
  {name target : Text}

/-- Adds entries one after the other, and gives back the targets that were there before. -/
def exchangeAll (d : Dictionary) : List Insertion → List (Option Text) × Dictionary
  | [] => ([], d)
  | entry :: rest =>
    let (old?, d) := d.exchange entry.kind entry.source entry.target
    let (olds, d) := d.exchangeAll rest
    (old? :: olds, d)

/-- What a dictionary answers is told by the history. -/
structure Remembers (history : List Insertion) (d : Dictionary) : Prop where
  get? : ∀ kind name target, d.get? kind name = some target ↔ LastTarget history kind name target
  get?_none : ∀ kind name, d.get? kind name = none ↔ ∀ entry ∈ history, ¬ entry.IsFor kind name
  rename : ∀ kind name target, LastTarget history kind name target → d.rename kind name = target
  rename_self : ∀ kind name, (∀ entry ∈ history, ¬ entry.IsFor kind name) → d.rename kind name = name
  hasTarget : ∀ kind target, d.hasTarget kind target = true ↔
    ∃ name, LastTarget history kind name target
  size : ∀ kind, d.size kind = (namesGiven history kind).dedup.length
  isEmpty : d.isEmpty = true ↔ history = []

/-- Two dictionaries answer alike whatever is asked about a kind. -/
structure Alike (kind : Kind) (d d' : Dictionary) : Prop where
  get? : ∀ name, d.get? kind name = d'.get? kind name
  rename : ∀ name, d.rename kind name = d'.rename kind name
  hasTarget : ∀ target, d.hasTarget kind target = d'.hasTarget kind target
  size : d.size kind = d'.size kind

theorem Alike.of_names (h : d.names kind = d'.names kind) : Alike kind d d' := by
  have hget : ∀ name, d.get? kind name = d'.get? kind name := fun name => by
    rw [Dictionary.get?, Dictionary.get?, h]
  constructor
  case get? => exact hget
  case rename => exact fun name => by rw [Dictionary.rename, Dictionary.rename, hget name]
  case hasTarget => exact fun target => by rw [Dictionary.hasTarget, Dictionary.hasTarget, h]
  case size => rw [Dictionary.size, Dictionary.size, h]

end Dictionary

/-! ### The last insertion for a name -/

section LastTarget
variable {history : List Insertion} {entry : Insertion} {kind : Kind} {name target : Text}

theorem lastTarget_concat_iff : LastTarget (history ++ [entry]) kind name target ↔
    (entry.IsFor kind name ∧ entry.target = target) ∨
      ¬ entry.IsFor kind name ∧ LastTarget history kind name target := by
  constructor
  · rintro ⟨before, after, heq, hafter⟩
    rcases List.eq_nil_or_concat after with rfl | ⟨after, last, rfl⟩
    · obtain ⟨-, hentry⟩ := List.append_inj' heq rfl
      cases hentry
      exact .inl ⟨⟨rfl, rfl⟩, rfl⟩
    · rw [List.concat_eq_append] at heq hafter
      rw [← List.cons_append, ← List.append_assoc] at heq
      obtain ⟨rfl, hentry⟩ := List.append_inj' heq rfl
      cases hentry
      refine .inr ⟨hafter entry (by simp), before, after, rfl, fun later hlater => ?_⟩
      exact hafter later (List.mem_append_left _ hlater)
  · rintro (⟨⟨rfl, rfl⟩, rfl⟩ | ⟨hother, before, after, rfl, hafter⟩)
    · exact ⟨history, [], rfl, by simp⟩
    · refine ⟨before, after ++ [entry], by simp, ?_⟩
      rw [List.forall_mem_append, List.forall_mem_singleton]
      exact ⟨hafter, hother⟩

theorem exists_lastTarget_iff :
    (∃ target, LastTarget history kind name target) ↔ ∃ entry ∈ history, entry.IsFor kind name := by
  induction history using List.reverseRecOn with
  | nil => simp [LastTarget]
  | append_singleton history entry ih =>
    simp only [lastTarget_concat_iff, exists_or, exists_and_left, exists_eq', and_true, ih,
      List.mem_append, List.mem_singleton, or_and_right, exists_eq_left]
    by_cases hentry : entry.IsFor kind name <;> simp [hentry]

theorem mem_namesGiven_iff :
    name ∈ namesGiven history kind ↔ ∃ entry ∈ history, entry.IsFor kind name := by
  simp [namesGiven, Insertion.IsFor, and_assoc]

end LastTarget

namespace Dictionary
variable {d d' : Dictionary} {history before after : List Insertion} {entry : Insertion} {kind : Kind}
  {name target : Text}

/-! ### Adding entries in turn -/

theorem exchangeAll_append (d : Dictionary) (before after : List Insertion) :
    let first := d.exchangeAll before
    let second := first.2.exchangeAll after
    d.exchangeAll (before ++ after) = (first.1 ++ second.1, second.2) := by
  induction before generalizing d with
  | nil => rfl
  | cons entry before ih =>
    dsimp only at ih ⊢
    simp only [List.cons_append, exchangeAll, exchange, ih]

theorem exchangeAll_concat (d : Dictionary) (history : List Insertion) (entry : Insertion) :
    (d.exchangeAll (history ++ [entry])).2 =
      (d.exchangeAll history).2.insert entry.kind entry.source entry.target := by
  rw [exchangeAll_append]
  rfl

theorem length_exchangeAll (d : Dictionary) (history : List Insertion) :
    (d.exchangeAll history).1.length = history.length := by
  induction history generalizing d with
  | nil => rfl
  | cons entry history ih => exact congrArg (· + 1) (ih _)

/-- The answer to an insertion is what a look-up would have given just before it. -/
theorem getElem?_exchangeAll (d : Dictionary) (before : List Insertion) (entry : Insertion)
    (after : List Insertion) : (d.exchangeAll (before ++ entry :: after)).1[before.length]? =
      some ((d.exchangeAll before).2.get? entry.kind entry.source) := by
  rw [exchangeAll_append, ← length_exchangeAll d before, List.getElem?_append_right (Nat.le_refl _),
    Nat.sub_self]
  rfl

/-- What becomes of the names of a kind depends on these names alone. -/
theorem names_exchangeAll_congr (h : d.names kind = d'.names kind) (history : List Insertion) :
    (d.exchangeAll history).2.names kind = (d'.exchangeAll history).2.names kind := by
  induction history generalizing d d' with
  | nil => exact h
  | cons entry history ih =>
    refine ih ?_
    show (d.insert _ _ _).names kind = (d'.insert _ _ _).names kind
    rw [names_insert, names_insert]
    split
    · rename_i hkind
      rw [hkind, h]
    · exact h

/-- An entry of another kind could be left out. -/
theorem names_exchangeAll_of_ne (d : Dictionary) (before after : List Insertion)
    (h : entry.kind ≠ kind) : (d.exchangeAll (before ++ entry :: after)).2.names kind =
      (d.exchangeAll (before ++ after)).2.names kind := by
  rw [exchangeAll_append, exchangeAll_append]
  refine names_exchangeAll_congr ?_ after
  show ((d.exchangeAll before).2.insert _ _ _).names kind = _
  rw [names_insert, if_neg h]

/-! ### From the empty dictionary -/

theorem get?_exchangeAll_iff : (empty.exchangeAll history).2.get? kind name = some target ↔
    LastTarget history kind name target := by
  induction history using List.reverseRecOn with
  | nil => simp [exchangeAll, LastTarget]
  | append_singleton history entry ih =>
    rw [exchangeAll_concat, get?_insert, lastTarget_concat_iff, ← ih, Insertion.IsFor]
    split
    · rename_i hentry
      simp [hentry]
    · rename_i hentry
      simp [hentry]

theorem get?_exchangeAll_eq_none_iff : (empty.exchangeAll history).2.get? kind name = none ↔
    ∀ entry ∈ history, ¬ entry.IsFor kind name := by
  rw [Option.eq_none_iff_forall_ne_some]
  simp only [ne_eq, get?_exchangeAll_iff]
  rw [← not_exists, exists_lastTarget_iff]
  simp

theorem size_exchangeAll (history : List Insertion) (kind : Kind) :
    (empty.exchangeAll history).2.size kind = (namesGiven history kind).dedup.length := by
  rw [size, ← Std.ExtTreeMap.length_keys]
  refine List.Perm.length_eq ((List.perm_ext_iff_of_nodup Std.ExtTreeMap.nodup_keys
    (List.nodup_dedup _)).2 fun name => ?_)
  rw [Std.ExtTreeMap.mem_keys, List.mem_dedup, mem_namesGiven_iff, ← exists_lastTarget_iff]
  simp only [← get?_exchangeAll_iff, ← Option.isSome_iff_exists]
  exact Std.ExtTreeMap.mem_iff_isSome_getElem?

theorem isEmpty_iff : d.isEmpty = true ↔ ∀ kind name, d.get? kind name = none := by
  have hnames : d.isEmpty = true ↔ ∀ kind, d.names kind = ∅ := by
    simp only [isEmpty, Bool.and_eq_true, Std.ExtTreeMap.isEmpty_iff]
    refine ⟨fun ⟨⟨hc, hf⟩, hm⟩ kind => ?_, fun h => ⟨⟨h .klass, h .field⟩, h .method⟩⟩
    cases kind with
    | klass => exact hc
    | field => exact hf
    | method => exact hm
  rw [hnames]
  refine forall_congr' fun kind => ⟨fun h name => ?_, fun h => ?_⟩
  · rw [get?, h, Std.ExtTreeMap.getElem?_empty]
  · exact Std.ExtTreeMap.ext_getElem? fun name => (h name).trans Std.ExtTreeMap.getElem?_empty.symm

theorem isEmpty_exchangeAll_iff : (empty.exchangeAll history).2.isEmpty = true ↔ history = [] := by
  simp only [isEmpty_iff, get?_exchangeAll_eq_none_iff]
  constructor
  · intro h
    refine List.eq_nil_iff_forall_not_mem.2 fun entry hentry => ?_
    exact h entry.kind entry.source entry hentry ⟨rfl, rfl⟩
  · rintro rfl
    simp

theorem remembers_exchangeAll (history : List Insertion) :
    Remembers history (empty.exchangeAll history).2 where
  get? _ _ _ := get?_exchangeAll_iff
  get?_none _ _ := get?_exchangeAll_eq_none_iff
  rename _ _ _ h := rename_of_get? (get?_exchangeAll_iff.2 h)
  rename_self _ _ h := rename_of_get?_none (get?_exchangeAll_eq_none_iff.2 h)
  hasTarget _ _ := by
    simp only [hasTarget_iff, get?_exchangeAll_iff]
  size := size_exchangeAll history
  isEmpty := isEmpty_exchangeAll_iff

/-- A dictionary is three finite maps. After any history of insertions into the empty one, what is
asked of it is answered as the history tells. Each insertion was answered with the target that a look-up
would have given just before it, and one for another kind could be left out of the history, wherever
it stands, without a change to any answer. -/
theorem exchangeAll_three_maps (history : List Insertion) :
    let after (history : List Insertion) := (empty.exchangeAll history).2
    let answers := (empty.exchangeAll history).1
    Remembers history (after history) ∧
    answers.length = history.length ∧
    (∀ earlier entry later, history = earlier ++ entry :: later →
      answers[earlier.length]? = some ((after earlier).get? entry.kind entry.source)) ∧
    ∀ earlier entry later, history = earlier ++ entry :: later → ∀ kind, entry.kind ≠ kind →
      Alike kind (after history) (after (earlier ++ later)) := by
  intro after answers
  refine ⟨remembers_exchangeAll history, length_exchangeAll empty history, ?_, ?_⟩
  · rintro earlier entry later rfl
    exact getElem?_exchangeAll empty earlier entry later
  · rintro earlier entry later rfl kind hkind
    exact .of_names (names_exchangeAll_of_ne empty earlier later hkind)

/-- `A` is a target as long as one of the two classes has it. -/
example :
    let history : List Insertion := [⟨.klass, ['a'], ['A']⟩, ⟨.klass, ['b'], ['A']⟩,
      ⟨.field, ['a'], ['F']⟩, ⟨.klass, ['a'], ['B']⟩, ⟨.klass, ['b'], ['B']⟩]
    (empty.exchangeAll history).1 = [none, none, none, some ['A'], some ['A']] ∧
      (history.inits.map fun part => (empty.exchangeAll part).2.hasTarget .klass ['A']) =
        [false, true, true, true, true, false] ∧
      (empty.exchangeAll history).2.size .klass = 2 := by decide +kernel

end Dictionary

end Renaming
