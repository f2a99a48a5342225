import Renaming.Files.Disk

/-!
# Trees with one more file

A file that is put where no directory is changes no walk to another place (`walk_put_file_iff`). So
the path of a new file leads to the same place with or without another file
(`resolveFile_put_file`), and once the file is there, the path leads to it (`resolve_put_file`). A
file that was put at an unused place and removed again leaves no trace (`erase_put`).
-/

namespace Renaming

theorem bind_eq_ok_iff {ε α β : Type} {x : Except ε α} {f : α → Except ε β} {b : β} :
    x >>= f = .ok b ↔ ∃ a, x = .ok a ∧ f a = .ok b := by
  cases x with
  | error e => exact ⟨fun h => (nomatch h), fun ⟨_, h, _⟩ => (nomatch h)⟩
  | ok a => exact ⟨fun h => ⟨a, rfl, h⟩, fun ⟨_, ha, h⟩ => Except.ok.inj ha ▸ h⟩

theorem refuse_eq_ok_iff {ε α : Type} {c : Prop} [Decidable c] {e : ε} {rest : Except ε α} {a : α} :
    (if c then throw e >>= fun _ : PUnit => rest else rest) = .ok a ↔ ¬c ∧ rest = .ok a := by
  by_cases hc : c
  · rw [if_pos hc]
    exact ⟨fun h => (nomatch h), fun h => absurd hc h.1⟩
  · rw [if_neg hc]
    exact ⟨fun h => ⟨hc, h⟩, fun h => h.2⟩

namespace Tree
variable {tree : Tree} {place other target start middle : Place} {path name segment : Text}
  {segments rest : List Text} {node node' : Node} {content : Bytes}

/-! ### Nodes -/

theorem ext_entries {tree tree' : Tree} (hhome : tree.home = tree'.home)
    (h : ∀ place : Place, tree.entries[place]? = tree'.entries[place]?) : tree = tree' := by
  rcases tree with ⟨entries, home⟩
  rcases tree' with ⟨entries', home'⟩
  cases hhome
  rw [show entries = entries' from Std.ExtTreeMap.ext_getElem? fun {place} => h place]

theorem ne_nil_of_isDirectory (h : tree.isDirectory place = false) : place ≠ [] := by
  rintro rfl
  cases h

theorem isDirectory_of_node? (h : tree.node? place = none) : tree.isDirectory place = false := by
  rw [isDirectory, h]
  rfl

theorem node?_put_self (h : place ≠ []) : (tree.put place node).node? place = some node := by
  simp [node?, put, h]

theorem node?_put_of_ne (h : other ≠ place) :
    (tree.put place node).node? other = tree.node? other := by
  simp [node?, put, Std.ExtTreeMap.getElem?_insert, Ne.symm h]

theorem put_put : (tree.put place node).put place node' = tree.put place node' := by
  refine ext_entries rfl fun other => ?_
  simp only [put, Std.ExtTreeMap.getElem?_insert]
  split <;> rfl

theorem erase_put (h : tree.node? place = none) : (tree.put place node).erase place = tree := by
  have hunused : tree.entries[place]? = none := by
    unfold node? at h
    split at h
    · cases h
    · exact h
  refine ext_entries rfl fun other => ?_
  simp only [put, erase, Std.ExtTreeMap.getElem?_erase, Std.ExtTreeMap.getElem?_insert,
    Std.LawfulEqCmp.compare_eq_iff_eq]
  split
  · rename_i heq
    rw [← heq, hunused]
  · rfl

/-- A file is no directory, whether it is there or not. -/
theorem isDirectory_put_file (h : tree.isDirectory place = false) (other : Place) :
    (tree.put place (.file content)).isDirectory other = tree.isDirectory other := by
  by_cases hother : other = place
  · subst hother
    rw [isDirectory, node?_put_self (ne_nil_of_isDirectory h), h]
    rfl
  · rw [isDirectory, isDirectory, node?_put_of_ne hother]

/-! ### Steps -/

/-- Follows one segment from a place. -/
def step (tree : Tree) (place : Place) (segment : Text) : Except SystemError Place :=
  if !tree.isDirectory place then .error .notADirectory
  else if Path.isIdle segment then .ok place
  else if Path.isUp segment then .ok place.dropLast
  else if Path.isLongName segment then .error .nameTooLong
  else if (tree.node? (place ++ [segment])).isSome then .ok (place ++ [segment])
  else .error .notFound

theorem walk_cons : tree.walk start (segment :: rest) =
    tree.step start segment >>= fun middle => tree.walk middle rest := by
  rw [walk, step]
  repeat' split
  all_goals rfl

theorem walk_append : tree.walk start (segments ++ rest) =
    tree.walk start segments >>= fun middle => tree.walk middle rest := by
  induction segments generalizing start with
  | nil => rfl
  | cons segment segments ih =>
    rw [List.cons_append, walk_cons, walk_cons]
    cases tree.step start segment with
    | error error => rfl
    | ok middle => exact ih

theorem step_eq_ok_iff : tree.step start segment = .ok middle ↔ tree.isDirectory start = true ∧
    ((Path.isIdle segment = true ∧ middle = start) ∨
      (Path.isIdle segment = false ∧ Path.isUp segment = true ∧ middle = start.dropLast) ∨
      (Path.isIdle segment = false ∧ Path.isUp segment = false ∧ Path.isLongName segment = false ∧
        (tree.node? (start ++ [segment])).isSome = true ∧ middle = start ++ [segment])) := by
  rw [step]
  cases tree.isDirectory start <;> cases Path.isIdle segment <;> cases Path.isUp segment <;>
    cases Path.isLongName segment <;> cases (tree.node? (start ++ [segment])).isSome <;>
    simp [eq_comm]

/-- A step to another place does not see the file. -/
theorem step_put_file_iff (h : tree.isDirectory place = false) (hne : middle ≠ place) :
    (tree.put place (.file content)).step start segment = .ok middle ↔
      tree.step start segment = .ok middle := by
  simp only [step_eq_ok_iff, isDirectory_put_file h]
  -- only a step down to a name looks at what is there
  refine and_congr_right fun _ => or_congr_right (or_congr_right ?_)
  refine and_congr_right fun _ => and_congr_right fun _ => and_congr_right fun _ => ?_
  refine and_congr_left ?_
  rintro rfl
  rw [node?_put_of_ne hne]

/-! ### Walks -/

theorem walk_cons_eq_ok_iff : tree.walk start (segment :: rest) = .ok target ↔
    ∃ middle, tree.step start segment = .ok middle ∧ tree.walk middle rest = .ok target := by
  rw [walk_cons, bind_eq_ok_iff]

/-- A walk that passes something that is no directory ends there. -/
theorem eq_of_walk (h : tree.isDirectory start = false)
    (hwalk : tree.walk start rest = .ok target) : target = start := by
  cases rest with
  | nil =>
    cases hwalk
    rfl
  | cons segment rest =>
    obtain ⟨middle, hstep, -⟩ := walk_cons_eq_ok_iff.1 hwalk
    rw [(step_eq_ok_iff.1 hstep).1] at h
    cases h

/-- A walk to another place does not see the file. -/
theorem walk_put_file_iff (h : tree.isDirectory place = false) (hne : target ≠ place) :
    (tree.put place (.file content)).walk start segments = .ok target ↔
      tree.walk start segments = .ok target := by
  induction segments generalizing start with
  | nil => rfl
  | cons segment segments ih =>
    simp only [walk_cons_eq_ok_iff]
    constructor
    · rintro ⟨middle, hstep, hwalk⟩
      have hmiddle : middle ≠ place := by
        rintro rfl
        exact hne (eq_of_walk ((isDirectory_put_file h middle).trans h) hwalk)
      exact ⟨middle, (step_put_file_iff h hmiddle).1 hstep, ih.1 hwalk⟩
    · rintro ⟨middle, hstep, hwalk⟩
      have hmiddle : middle ≠ place := by
        rintro rfl
        exact hne (eq_of_walk h hwalk)
      exact ⟨middle, (step_put_file_iff h hmiddle).2 hstep, ih.2 hwalk⟩

/-! ### Paths of files -/

/-- A file under the path gets `name` in the directory to which the segments before it lead. -/
structure NewFile (tree : Tree) (path : Text) (directory : Place) (name : Text) (start : Place)
    (before : List Text) : Prop where
  starts : tree.start path = .ok start
  splits : (Path.segments path).reverse.dropWhile List.isEmpty = name :: before
  leads : tree.walk start before.reverse = .ok directory
  inside : tree.isDirectory directory = true
  proper : (name == ['.'] || Path.isUp name) = false
  fits : Path.isLongName name = false
  ends : (path.getLast? == some '/') = false
  free : tree.isDirectory (directory ++ [name]) = false

theorem resolveFile_eq_ok_iff : tree.resolveFile path = .ok target ↔
    ∃ directory name, (∃ start before, tree.NewFile path directory name start before) ∧
      target = directory ++ [name] := by
  constructor
  · intro h
    rw [resolveFile, bind_eq_ok_iff] at h
    obtain ⟨start, starts, h⟩ := h
    cases splits : (Path.segments path).reverse.dropWhile List.isEmpty with
    | nil =>
      rw [splits] at h
      cases h
    | cons name before =>
      simp only [splits, bind_eq_ok_iff, refuse_eq_ok_iff, Bool.not_eq_true,
        Bool.not_eq_false'] at h
      obtain ⟨directory, leads, inside, proper, fits, ends, free, h⟩ := h
      cases h
      exact ⟨directory, name,
        ⟨start, before, ⟨starts, splits, leads, inside, proper, fits, ends, free⟩⟩, rfl⟩
  · rintro ⟨directory, name, ⟨start, before, h⟩, rfl⟩
    rw [resolveFile, bind_eq_ok_iff]
    refine ⟨start, h.starts, ?_⟩
    simp only [h.splits, bind_eq_ok_iff, refuse_eq_ok_iff, Bool.not_eq_true, Bool.not_eq_false']
    exact ⟨directory, h.leads, h.inside, h.proper, h.fits, h.ends, h.free, rfl⟩

/-- The segment behind the last slash is a name unless the path ends with the slash. -/
theorem getLast?_segments (hne : path ≠ []) (h : path.getLast? ≠ some '/') :
    (Path.segments path).getLast? ≠ some [] := by
  rw [Path.segments]
  induction path with
  | nil => exact absurd rfl hne
  | cons c path ih =>
    rw [List.splitOn_cons_eq_if_modifyHead]
    cases path with
    | nil =>
      have hc : (c == '/') = false := by simpa using h
      simp [hc]
    | cons c' path =>
      have hlast := ih (List.cons_ne_nil c' path) (by rwa [List.getLast?_cons_cons] at h)
      obtain ⟨first, rest, hsplit⟩ := List.exists_cons_of_ne_nil
        (List.splitOn_ne_nil '/' (c' :: path))
      rw [hsplit] at hlast ⊢
      split
      · rwa [List.getLast?_cons_cons]
      · cases rest with
        | nil => simp
        | cons second rest => rwa [List.modifyHead_cons, List.getLast?_cons_cons] at *

/-- The segments of the path of a new file are those before the name, and the name. -/
theorem NewFile.segments_eq {directory : Place} {before : List Text}
    (h : tree.NewFile path directory name start before) :
    Path.segments path = before.reverse ++ [name] ∧ name ≠ [] := by
  have hne : path ≠ [] := by
    rintro rfl
    exact nomatch h.starts
  have hlast := getLast?_segments hne (by simpa using h.ends)
  have hsplits := h.splits
  rcases List.eq_nil_or_concat (Path.segments path) with hnil | ⟨init, last, hconcat⟩
  · exact absurd hnil (List.splitOn_ne_nil _ _)
  · rw [hconcat, List.concat_eq_append] at hsplits hlast ⊢
    have hname : last ≠ [] := by simpa using hlast
    rw [List.reverse_append, List.reverse_singleton, List.singleton_append,
      List.dropWhile_cons_of_neg (by simpa using hname)] at hsplits
    cases hsplits
    exact ⟨by rw [List.reverse_reverse], hname⟩

theorem ne_of_isDirectory {directory : Place} (h : tree.isDirectory place = false)
    (hdirectory : tree.isDirectory directory = true) : directory ≠ place := by
  rintro rfl
  cases h.symm.trans hdirectory

theorem NewFile.put_file {directory : Place} {before : List Text}
    (hplace : tree.isDirectory place = false) :
    (tree.put place (.file content)).NewFile path directory name start before ↔
      tree.NewFile path directory name start before := by
  constructor
  · intro h
    have hinside : tree.isDirectory directory = true := isDirectory_put_file hplace _ ▸ h.inside
    exact { h with
      leads := (walk_put_file_iff hplace (ne_of_isDirectory hplace hinside)).1 h.leads
      inside := hinside
      free := isDirectory_put_file hplace _ ▸ h.free }
  · intro h
    exact { h with
      leads := (walk_put_file_iff hplace (ne_of_isDirectory hplace h.inside)).2 h.leads
      inside := (isDirectory_put_file hplace _).trans h.inside
      free := (isDirectory_put_file hplace _).trans h.free }

/-- Another file, or the file itself, does not change where a new file is put. -/
theorem resolveFile_put_file (h : tree.isDirectory place = false) :
    (tree.put place (.file content)).resolveFile path = .ok target ↔
      tree.resolveFile path = .ok target := by
  simp only [resolveFile_eq_ok_iff, NewFile.put_file h]

/-- The path of a new file leads to it. -/
theorem resolve_put_file (h : tree.resolveFile path = .ok target) :
    (tree.put target (.file content)).resolve path = .ok target := by
  obtain ⟨directory, name, ⟨start, before, hnew⟩, rfl⟩ := resolveFile_eq_ok_iff.1 h
  have hput : (tree.put (directory ++ [name]) (.file content)).NewFile path directory name start
      before := (NewFile.put_file hnew.free).2 hnew
  rw [resolve, bind_eq_ok_iff]
  refine ⟨start, hput.starts, ?_⟩
  obtain ⟨hsegments, hname⟩ := hput.segments_eq
  obtain ⟨hdot, hup⟩ := Bool.or_eq_false_iff.1 hput.proper
  have hidle : Path.isIdle name = false := Bool.or_eq_false_iff.2 ⟨by simpa using hname, hdot⟩
  have hnode : (tree.put (directory ++ [name]) (.file content)).node? (directory ++ [name]) =
      some (.file content) :=
    node?_put_self (List.append_ne_nil_of_right_ne_nil directory (List.cons_ne_nil name []))
  rw [hsegments, walk_append, bind_eq_ok_iff]
  refine ⟨directory, hput.leads, walk_cons_eq_ok_iff.2 ⟨_, step_eq_ok_iff.2 ⟨hput.inside, ?_⟩, rfl⟩⟩
  exact .inr (.inr ⟨hidle, hup, hput.fits, by rw [hnode]; rfl, rfl⟩)

end Tree

end Renaming
