import Renaming.Descriptor.Rename

/-!
# What a dictionary holds

`Targets kind P`: every target name of the kind satisfies `P`. `AllNames P`: every source and every
target does. `Knows name`: the class is a source or a target. `Settled`: renaming a target again
changes nothing. `KeepsNames`: every source is its own target. `Inverse d d'`: the entries of `d'` are
those of `d` read from the target to the source; there are as many of them then (`Inverse.size_eq`).
`Unmixed kind name`: the name is not a target without being a source.
-/

namespace Renaming.Dictionary
variable {d d' : Dictionary} {kind : Kind} {name target : Text}

/-- Every target of the kind satisfies `P`. -/
def Targets (d : Dictionary) (kind : Kind) (P : Text → Prop) : Prop :=
  ∀ source target, d.get? kind source = some target → P target

theorem Targets.mono {P Q : Text → Prop} (h : d.Targets kind P) (hPQ : ∀ target, P target → Q target) :
    d.Targets kind Q :=
  fun source target hget => hPQ target (h source target hget)

theorem rename_of_get? (h : d.get? kind name = some target) : d.rename kind name = target := by
  rw [rename, h]; rfl

theorem rename_of_get?_none (h : d.get? kind name = none) : d.rename kind name = name := by
  rw [rename, h]; rfl

/-- What holds of the name and of every target holds of the new name. -/
theorem Targets.rename {P : Text → Prop} (h : d.Targets kind P) (hname : P name) :
    P (d.rename kind name) := by
  cases hget : d.get? kind name with
  | none => rw [rename_of_get?_none hget]; exact hname
  | some target => rw [rename_of_get? hget]; exact h name target hget

/-- Every source and every target satisfies `P`. -/
def AllNames (d : Dictionary) (P : Text → Prop) : Prop :=
  ∀ kind source target, d.get? kind source = some target → P source ∧ P target

theorem allNames_empty (P : Text → Prop) : empty.AllNames P := by
  intro kind source target h
  rw [get?_empty] at h
  cases h

theorem AllNames.insert {P : Text → Prop} (h : d.AllNames P) (hname : P name) (htarget : P target) :
    (d.insert kind name target).AllNames P := by
  intro kind' source target' hget
  rw [get?_insert] at hget
  split at hget
  · rename_i heq
    cases hget
    exact ⟨heq.2 ▸ hname, htarget⟩
  · exact h kind' source target' hget

theorem AllNames.targets {P : Text → Prop} (h : d.AllNames P) (kind : Kind) : d.Targets kind P :=
  fun source target hget => (h kind source target hget).2

/-- The class is the source or the target of an entry. -/
def Knows (d : Dictionary) (name : Text) : Prop :=
  (∃ target, d.get? .klass name = some target) ∨ ∃ source, d.get? .klass source = some name

theorem knowsClass_iff : d.knowsClass name = true ↔ d.Knows name := by
  rw [knowsClass, Bool.or_eq_true, Option.isSome_iff_exists, hasTarget_iff, Knows]

/-- The new name of a known class is a target. -/
theorem Knows.exists_rename (h : d.Knows name) :
    ∃ source, d.get? .klass source = some (d.rename .klass name) := by
  rcases h with ⟨target, h⟩ | ⟨source, h⟩
  · exact ⟨name, by rw [rename_of_get? h, h]⟩
  · cases hget : d.get? .klass name with
    | none => exact ⟨source, by rw [rename_of_get?_none hget, h]⟩
    | some target => exact ⟨name, by rw [rename_of_get? hget, hget]⟩

theorem Knows.rename (h : d.Knows name) : d.Knows (d.rename .klass name) := .inr h.exists_rename

/-- A target that is also a source of its kind is its own target. -/
def Settled (d : Dictionary) : Prop :=
  ∀ kind source target final,
    d.get? kind source = some target → d.get? kind target = some final → final = target

theorem Settled.rename_target {source : Text} (h : d.Settled)
    (hget : d.get? kind source = some target) : d.rename kind target = target := by
  cases hnext : d.get? kind target with
  | none => exact rename_of_get?_none hnext
  | some final => rw [rename_of_get? hnext]; exact h kind source target final hget hnext

theorem Settled.rename_rename (h : d.Settled) :
    d.rename kind (d.rename kind name) = d.rename kind name := by
  cases hget : d.get? kind name with
  | none => rw [rename_of_get?_none hget, rename_of_get?_none hget]
  | some target => rw [rename_of_get? hget, h.rename_target hget]

/-- Every entry maps a name to itself. -/
def KeepsNames (d : Dictionary) : Prop :=
  ∀ kind source target, d.get? kind source = some target → target = source

theorem KeepsNames.rename_eq (h : d.KeepsNames) : d.rename kind name = name := by
  cases hget : d.get? kind name with
  | none => exact rename_of_get?_none hget
  | some target => rw [rename_of_get? hget, h kind name target hget]

theorem KeepsNames.knows_iff (h : d.KeepsNames) : d.Knows name ↔ d.get? .klass name ≠ none := by
  rw [Option.ne_none_iff_exists']
  constructor
  · rintro (hsource | ⟨source, hget⟩)
    · exact hsource
    · have hsame := h .klass source name hget
      subst hsame
      exact ⟨name, hget⟩
  · exact .inl

/-- The entries of `d'` are those of `d` the other way round. -/
def Inverse (d d' : Dictionary) : Prop :=
  ∀ kind source target, d.get? kind source = some target ↔ d'.get? kind target = some source

/-- A name that is no source of the kind is no target of it either. -/
def Unmixed (d : Dictionary) (kind : Kind) (name : Text) : Prop :=
  d.get? kind name = none → ∀ source, d.get? kind source ≠ some name

theorem Inverse.rename_rename (h : d.Inverse d') (hname : d.Unmixed kind name) :
    d'.rename kind (d.rename kind name) = name := by
  cases hget : d.get? kind name with
  | some target => rw [rename_of_get? hget, rename_of_get? ((h kind name target).1 hget)]
  | none =>
    have hnone : d'.get? kind name = none := by
      cases hback : d'.get? kind name with
      | none => rfl
      | some source => exact absurd ((h kind source name).2 hback) (hname hget source)
    rw [rename_of_get?_none hget, rename_of_get?_none hnone]

/-- A known class that is not only a target is a source. -/
theorem Knows.isSource (h : d.Knows name) (hname : d.Unmixed .klass name) :
    ∃ target, d.get? .klass name = some target := by
  rcases h with h | ⟨source, h⟩
  · exact h
  · cases hget : d.get? .klass name with
    | some target => exact ⟨target, rfl⟩
    | none => exact absurd h (hname hget source)

/-- Every entry of `d` is an entry of `d'`. -/
def Extends (d' d : Dictionary) : Prop :=
  ∀ kind source target, d.get? kind source = some target → d'.get? kind source = some target

/-- The name is a source of `d'` and not of `d`. -/
def Adds (d' d : Dictionary) (kind : Kind) (name : Text) : Prop :=
  d.get? kind name = none ∧ d'.get? kind name ≠ none

instance : Decidable (d'.Adds d kind name) := inferInstanceAs (Decidable (_ ∧ _))

theorem Extends.get?_eq (h : d'.Extends d) (hname : ¬ d'.Adds d kind name) :
    d'.get? kind name = d.get? kind name := by
  cases hget : d.get? kind name with
  | some target => exact h kind name target hget
  | none => exact Decidable.byContradiction fun hne => hname ⟨hget, hne⟩

theorem Extends.rename_eq (h : d'.Extends d) (hname : ¬ d'.Adds d kind name) :
    d'.rename kind name = d.rename kind name := by
  rw [rename, rename, h.get?_eq hname]

theorem Extends.knows (h : d'.Extends d) (hname : d.Knows name) : d'.Knows name := by
  rcases hname with ⟨target, hget⟩ | ⟨source, hget⟩
  · exact .inl ⟨target, h .klass name target hget⟩
  · exact .inr ⟨source, h .klass source name hget⟩

/-! ### The entries as a list -/

theorem mem_toList_iff {entry : Text × Text} :
    entry ∈ (d.names kind).toList ↔ d.get? kind entry.1 = some entry.2 :=
  Std.ExtTreeMap.mem_toList_iff_getElem?_eq_some

theorem nodup_toList (names : Names) : names.toList.Nodup := by
  refine names.distinct_keys_toList.imp fun hkeys heq => hkeys ?_
  rw [heq]
  exact Std.ReflCmp.compare_self

theorem size_insert (d : Dictionary) (kind kind' : Kind) (source target : Text) :
    (d.insert kind source target).size kind' =
      d.size kind' + if kind = kind' ∧ d.get? kind source = none then 1 else 0 := by
  rw [size, names_insert]
  by_cases hkind : kind = kind'
  · subst hkind
    have hcontains : (d.names kind).contains source = (d.get? kind source).isSome :=
      Std.ExtTreeMap.contains_eq_isSome_getElem?
    rw [if_pos rfl, Std.ExtTreeMap.size_insert, hcontains]
    cases d.get? kind source <;> simp [size]
  · rw [if_neg hkind, if_neg fun h => hkind h.1]
    rfl

/-- Reading the entries the other way round makes neither more nor fewer of them. -/
theorem Inverse.size_eq (h : d.Inverse d') (kind : Kind) : d.size kind = d'.size kind := by
  have hnodup : ((d.names kind).toList.map Prod.swap).Nodup := by
    refine List.pairwise_map.2 ((nodup_toList _).imp fun {a b} hne heq => hne ?_)
    rw [← Prod.swap_swap a, heq, Prod.swap_swap]
  have hperm : ((d.names kind).toList.map Prod.swap).Perm (d'.names kind).toList := by
    refine (List.perm_ext_iff_of_nodup hnodup (nodup_toList _)).2 fun entry => ?_
    rw [mem_toList_iff, ← h kind entry.2 entry.1]
    constructor
    · intro hmem
      obtain ⟨entry, hentry, rfl⟩ := List.mem_map.1 hmem
      exact mem_toList_iff.1 hentry
    · intro hget
      exact List.mem_map.2 ⟨entry.swap, mem_toList_iff.2 hget, Prod.swap_swap entry⟩
  have hlength := hperm.length_eq
  rwa [List.length_map, Std.ExtTreeMap.length_toList, Std.ExtTreeMap.length_toList] at hlength

/-! ### Deciding

The entries of a dictionary can be listed, so each of the properties can be decided. -/

theorem targets_iff {P : Text → Prop} :
    d.Targets kind P ↔ ∀ entry ∈ (d.names kind).toList, P entry.2 :=
  ⟨fun h entry hentry => h entry.1 entry.2 (mem_toList_iff.1 hentry),
    fun h source target hget => h (source, target) (mem_toList_iff.2 hget)⟩

theorem settled_iff :
    d.Settled ↔ ∀ kind, d.Targets kind fun target => d.rename kind target = target := by
  refine ⟨fun h kind source target hget => h.rename_target hget, ?_⟩
  intro h kind source target final hget hnext
  rw [← h kind source target hget, rename_of_get? hnext]

theorem inverse_iff : d.Inverse d' ↔ ∀ kind,
    (∀ entry ∈ (d.names kind).toList, d'.get? kind entry.2 = some entry.1) ∧
      ∀ entry ∈ (d'.names kind).toList, d.get? kind entry.2 = some entry.1 := by
  constructor
  · intro h kind
    exact ⟨fun entry hentry => (h kind ..).1 (mem_toList_iff.1 hentry),
      fun entry hentry => (h kind ..).2 (mem_toList_iff.1 hentry)⟩
  · intro h kind source target
    exact ⟨fun hget => (h kind).1 (source, target) (mem_toList_iff.2 hget),
      fun hget => (h kind).2 (target, source) (mem_toList_iff.2 hget)⟩

theorem keepsNames_iff :
    d.KeepsNames ↔ ∀ kind, ∀ entry ∈ (d.names kind).toList, entry.2 = entry.1 :=
  ⟨fun h kind entry hentry => h kind entry.1 entry.2 (mem_toList_iff.1 hentry),
    fun h kind source target hget => h kind (source, target) (mem_toList_iff.2 hget)⟩

theorem extends_iff : d'.Extends d ↔
    ∀ kind, ∀ entry ∈ (d.names kind).toList, d'.get? kind entry.1 = some entry.2 :=
  ⟨fun h kind entry hentry => h kind entry.1 entry.2 (mem_toList_iff.1 hentry),
    fun h kind source target hget => h kind (source, target) (mem_toList_iff.2 hget)⟩

instance {P : Text → Prop} [DecidablePred P] : Decidable (d.Targets kind P) :=
  decidable_of_iff _ targets_iff.symm

instance : Decidable d.Settled := decidable_of_iff _ settled_iff.symm

instance : Decidable d.KeepsNames := decidable_of_iff _ keepsNames_iff.symm

instance : Decidable (d.Inverse d') := decidable_of_iff _ inverse_iff.symm

instance : Decidable (d'.Extends d) := decidable_of_iff _ extends_iff.symm

instance : Decidable (d.Knows name) := decidable_of_iff _ knowsClass_iff

instance : Decidable (d.Unmixed kind name) :=
  decidable_of_iff (d.get? kind name = none → d.hasTarget kind name = false)
    (imp_congr_right fun _ => by rw [← Bool.not_eq_true, hasTarget_iff, not_exists])

end Renaming.Dictionary
