import Renaming.Mappings.Load

/-!
# What rows add up to

What a row does to the dictionary and to the tally is its `Gain`: nothing, one row more that was
skipped, or an entry. After any rows the target of a name is that of the last entry for it
(`get?_foldl_read`), and the tally counts the gains (`named_foldl_read`, `skipped_foldl_read`). The
number of a row matters for none of them (`map_gain_rows`).
-/

namespace Renaming

namespace RowTally
variable (tally : RowTally) (kind kind' : Kind)

/-- How many rows named something of a kind. -/
def named (tally : RowTally) : Kind → Nat
  | .klass => tally.classes
  | .field => tally.fields
  | .method => tally.methods

theorem named_count :
    (tally.count kind).named kind' = tally.named kind' + if kind = kind' then 1 else 0 := by
  cases kind <;> cases kind' <;> rfl

@[simp] theorem named_skip : tally.skip.named kind = tally.named kind := by cases kind <;> rfl

@[simp] theorem skipped_count : (tally.count kind).skipped = tally.skipped := by cases kind <;> rfl

theorem ext_named {tally tally' : RowTally} (h : ∀ kind, tally.named kind = tally'.named kind)
    (hskipped : tally.skipped = tally'.skipped) : tally = tally' := by
  cases tally
  cases tally'
  have hclasses := h .klass
  have hfields := h .field
  have hmethods := h .method
  simp only [named] at hclasses hfields hmethods hskipped
  subst hclasses hfields hmethods hskipped
  rfl

end RowTally

namespace Mappings

/-- What the dictionary and the tally gain from a row. -/
inductive Gain where
  | nothing
  | skipped
  | entry (kind : Kind) (source target : Text)
  deriving DecidableEq, Repr

namespace Gain

/-- The target that the gain gives to a name. -/
def target? (kind : Kind) (name : Text) : Gain → Option Text
  | .entry kind' source target => if kind' = kind ∧ source = name then some target else none
  | .nothing | .skipped => none

theorem target?_eq_some_iff {kind : Kind} {name target : Text} {gain : Gain} :
    gain.target? kind name = some target ↔ gain = .entry kind name target := by
  cases gain with
  | entry kind' source target' =>
    simp only [target?, Option.ite_none_right_eq_some, Option.some.injEq, entry.injEq, and_assoc]
  | _ => simp [target?]

/-- Whether the gain is an entry of the kind. -/
def names (kind : Kind) : Gain → Bool
  | .entry kind' _ _ => kind' = kind
  | .nothing | .skipped => false

end Gain

def Entry.gain (kind : Kind) : Entry → Gain
  | .short _ => .skipped
  | .unnamed => .nothing
  | .pair source target => .entry kind source target

def Row.gain (layout : Layout) (row : Row) : Gain :=
  match row.kind? with
  | none => .nothing
  | some kind => (row.entry layout kind).gain kind

/-- The gains from lines of mappings, behind the header. -/
def gains (layout : Layout) (lines : List Text) : List Gain :=
  lines.map fun line => (Row.ofLine 0 line).gain layout

variable {layout : Layout} {row : Row} {p : Progress} {kind : Kind} {name : Text}
  {first number : Nat}
  {line : Text}

/-- Only a row that is too short tells its number, and its gain is the same for all numbers. -/
theorem Row.gain_ofLine :
    (Row.ofLine number line).gain layout = (Row.ofLine 0 line).gain layout := by
  have hkind : (Row.ofLine number line).kind? = (Row.ofLine 0 line).kind? := rfl
  rw [Row.gain, Row.gain, hkind]
  cases (Row.ofLine 0 line).kind? with
  | none => rfl
  | some kind =>
    simp only [Row.entry, Row.ofLine]
    generalize List.drop (fixedCells kind) _ = names
    cases names[(layout.columns names.length).source]? <;>
      cases names[(layout.columns names.length).target]? <;> rfl

theorem map_gain_rows (lines : List Text) :
    (rows first lines).map (Row.gain layout) = gains layout lines := by
  rw [rows, List.map_map]
  induction lines generalizing first with
  | nil => rfl
  | cons line lines ih =>
    rw [List.zipIdx_cons, List.map_cons, ih]
    exact congrArg (· :: _) Row.gain_ofLine

/-! ### One row -/

/-- What reading a row does is said by its gain. -/
theorem Progress.read_cases (layout : Layout) (p : Progress) (row : Row) :
    (row.gain layout = .nothing ∧ p.read layout row = p) ∨
      (row.gain layout = .skipped ∧ ∃ missing, p.read layout row = p.skip missing) ∨
      ∃ kind source target, row.gain layout = .entry kind source target ∧
        p.read layout row = p.put kind source target := by
  unfold Progress.read Row.gain
  cases row.kind? with
  | none => exact .inl ⟨rfl, rfl⟩
  | some kind =>
    dsimp only
    cases row.entry layout kind with
    | short missing => exact .inr (.inl ⟨rfl, missing, rfl⟩)
    | unnamed => exact .inl ⟨rfl, rfl⟩
    | pair source target => exact .inr (.inr ⟨kind, source, target, rfl, rfl⟩)

theorem Progress.get?_read : (p.read layout row).dictionary.get? kind name =
    ((row.gain layout).target? kind name).or (p.dictionary.get? kind name) := by
  rcases p.read_cases layout row with ⟨hgain, h⟩ | ⟨hgain, missing, h⟩ |
    ⟨kind', source, target, hgain, h⟩
  · rw [h, hgain]; rfl
  · rw [h, hgain]; rfl
  · rw [h, hgain]
    show (p.dictionary.insert kind' source target).get? kind name = _
    rw [Dictionary.get?_insert]
    show _ = Option.or (if _ then _ else _) _
    split <;> rfl

theorem Progress.named_read : (p.read layout row).tally.named kind =
    p.tally.named kind + if (row.gain layout).names kind then 1 else 0 := by
  rcases p.read_cases layout row with ⟨hgain, h⟩ | ⟨hgain, missing, h⟩ |
    ⟨kind', source, target, hgain, h⟩
  · rw [h, hgain]; rfl
  · rw [h, hgain]; exact RowTally.named_skip ..
  · rw [h, hgain]
    show (p.tally.count kind').named kind = _
    rw [RowTally.named_count]
    simp only [Gain.names, decide_eq_true_eq]

theorem Progress.skipped_read : (p.read layout row).tally.skipped =
    p.tally.skipped + if row.gain layout = .skipped then 1 else 0 := by
  rcases p.read_cases layout row with ⟨hgain, h⟩ | ⟨hgain, missing, h⟩ |
    ⟨kind', source, target, hgain, h⟩
  · rw [h, hgain]; rfl
  · rw [h, hgain]; rfl
  · rw [h, hgain]; exact RowTally.skipped_count ..

/-! ### Any rows -/

theorem Progress.get?_foldl_read (rows : List Row) (p : Progress) :
    (rows.foldl (Progress.read layout) p).dictionary.get? kind name =
      ((rows.map (Row.gain layout)).filterMap (Gain.target? kind name)).getLast?.or
        (p.dictionary.get? kind name) := by
  induction rows generalizing p with
  | nil => rfl
  | cons row rows ih =>
    rw [List.foldl_cons, ih, Progress.get?_read, List.map_cons, List.filterMap_cons]
    cases (row.gain layout).target? kind name with
    | none => rfl
    | some target => rw [List.getLast?_cons]; cases List.getLast? _ <;> rfl

theorem Progress.named_foldl_read (rows : List Row) (p : Progress) :
    (rows.foldl (Progress.read layout) p).tally.named kind =
      p.tally.named kind + (rows.map (Row.gain layout)).countP (Gain.names kind) := by
  induction rows generalizing p with
  | nil => rfl
  | cons row rows ih =>
    rw [List.foldl_cons, ih, Progress.named_read, List.map_cons, List.countP_cons]
    omega

theorem Progress.skipped_foldl_read (rows : List Row) (p : Progress) :
    (rows.foldl (Progress.read layout) p).tally.skipped =
      p.tally.skipped + (rows.map (Row.gain layout)).count .skipped := by
  induction rows generalizing p with
  | nil => rfl
  | cons row rows ih =>
    rw [List.foldl_cons, ih, Progress.skipped_read, List.map_cons, List.count_cons]
    simp only [beq_iff_eq]
    omega

end Mappings

end Renaming
