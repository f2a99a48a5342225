import Renaming.Files.Machine
import Renaming.Proofs.Files.Walk

/-!
# Steps of programs on machines

`Tree.file?` is the content of the file under a path, and `Machine.Shows` says that the machine lets
a program read it; `Refusals.Takes` says how long a file may become that is written. Each step of a
program has a lemma that says what it answers and which machine it leaves (`Machine.run_source` and so
on). On a machine that refuses nothing, a program does what it does on the tree alone (`Agrees`).
-/

namespace Renaming

/-! ### Files under paths -/

namespace Tree
variable {tree : Tree} {place target : Place} {path : Text} {content : Bytes} {source : Source}

/-- The content of the file that a path leads to. -/
def file? (tree : Tree) (path : Text) : Option Bytes :=
  match tree.resolve path with
  | .ok place =>
    match tree.node? place with
    | some (.file content) => some content
    | _ => none
  | .error _ => none

theorem source_of_file? (h : tree.file? path = some content) :
    tree.source path = .ok (.ofBytes content) := by
  unfold file? at h
  split at h
  · split at h
    · rename_i place hplace _ content' hnode
      cases h
      rw [source, bind_eq_ok_iff]
      exact ⟨place, hplace, by rw [hnode]; rfl⟩
    · cases h
  · cases h

/-- What can be read to its end is a file. -/
theorem exists_file?_of_source (h : tree.source path = .ok source) (hfault : source.fault = none) :
    ∃ content, tree.file? path = some content := by
  rw [Tree.source, bind_eq_ok_iff] at h
  obtain ⟨place, hplace, h⟩ := h
  cases hnode : tree.node? place with
  | none =>
    rw [hnode] at h
    cases h
  | some node =>
    cases node with
    | directory =>
      rw [hnode] at h
      cases h
      cases hfault
    | file content => exact ⟨content, by simp only [file?, hplace, hnode]⟩

theorem file?_put_file (h : tree.resolveFile path = .ok target) :
    (tree.put target (.file content)).file? path = some content := by
  have hne : target ≠ [] := by
    obtain ⟨directory, name, -, rfl⟩ := resolveFile_eq_ok_iff.1 h
    exact List.append_ne_nil_of_right_ne_nil directory (List.cons_ne_nil name [])
  simp only [file?, resolve_put_file h, node?_put_self hne]

theorem content_put_file (h : place ≠ []) :
    (tree.put place (.file content)).content place = content := by
  simp only [Tree.content, node?_put_self h]

/-- A new file gets a place that nothing has. -/
theorem node?_of_newPlace {directory : Text} (h : tree.newPlace directory = .ok place) :
    tree.node? place = none := by
  simp only [newPlace, bind_eq_ok_iff] at h
  obtain ⟨_, _, above, _, h⟩ := h
  cases h
  exact node?_unusedName tree above

theorem nul_not_mem_of_resolveFile (h : tree.resolveFile path = .ok target) :
    ¬path.contains '\x00' = true := by
  obtain ⟨_, _, ⟨start, _, hnew⟩, _⟩ := resolveFile_eq_ok_iff.1 h
  have hstart := hnew.starts
  rw [Tree.start] at hstart
  split at hstart
  · cases hstart
  · assumption

/-- A file that was put at an unused place leaves nothing there when it is moved. -/
theorem moveOver_put_eq_ok_iff {tree' : Tree} (h : tree.node? place = none) :
    (tree.put place (.file content)).moveOver place path = .ok tree' ↔
      ∃ target, tree.resolveFile path = .ok target ∧ tree' = tree.put target (.file content) := by
  have hdirectory := isDirectory_of_node? h
  simp only [moveOver, bind_eq_ok_iff, refuse_eq_ok_iff, resolveFile_put_file hdirectory,
    node?_put_self (ne_nil_of_isDirectory hdirectory), erase_put h]
  constructor
  · rintro ⟨-, target, htarget, h⟩
    cases h
    exact ⟨target, htarget, rfl⟩
  · rintro ⟨target, htarget, rfl⟩
    exact ⟨nul_not_mem_of_resolveFile htarget, target, htarget, rfl⟩

end Tree

/-! ### What the system refuses -/

namespace Refusals
variable {refusals : Refusals} {size : Nat} {error : SystemError}

/-- A file may become this long. -/
def Takes (refusals : Refusals) (size : Nat) : Prop :=
  ∀ count error, refusals.writing = some (count, error) → size ≤ count

/-- The error with which the writing of a file breaks off that is to become this long. -/
def Stops (refusals : Refusals) (size : Nat) (error : SystemError) : Prop :=
  ∃ count, refusals.writing = some (count, error) ∧ count < size

theorem takes_zero (refusals : Refusals) : refusals.Takes 0 := fun count _ _ => Nat.zero_le count

/-- What is written behind the bytes does not help. -/
theorem Stops.append {content : Bytes} (h : refusals.Stops content.length error) (bytes : Bytes) :
    refusals.Stops (content ++ bytes).length error := by
  obtain ⟨count, hlimit, hlt⟩ := h
  exact ⟨count, hlimit, by rw [List.length_append]; omega⟩

theorem Stops.not_takes (h : refusals.Stops size error) : ¬refusals.Takes size := by
  obtain ⟨count, hlimit, hlt⟩ := h
  exact fun htakes => Nat.not_le_of_lt hlt (htakes count error hlimit)

end Refusals

/-! ### Machines -/

theorem Source.breakOff_fault {source : Source} {limit : Option (Nat × SystemError)}
    (h : (source.breakOff limit).fault = none) : limit = none := by
  rcases limit with _ | ⟨count, error⟩
  · rfl
  · cases h

namespace Machine
variable {machine : Machine} {path : Text} {content : Bytes} {read : Source}

/-- The next file that is opened is a file of this content and can be read to its end. -/
structure Shows (machine : Machine) (path : Text) (content : Bytes) : Prop where
  file : machine.tree.file? path = some content
  opening : machine.refusals.opening machine.opened.length = none
  reading : machine.refusals.reading machine.opened.length = none

theorem source_of_shows (h : machine.Shows path content) :
    machine.source path = .ok (.ofBytes content) := by
  rw [source, h.opening, h.reading, Tree.source_of_file? h.file]
  rfl

theorem shows_of_source (h : machine.source path = .ok read) (hfault : read.fault = none) :
    ∃ content, machine.Shows path content ∧ read = .ofBytes content := by
  rw [source] at h
  cases hopening : machine.refusals.opening machine.opened.length with
  | some error =>
    rw [hopening] at h
    cases h
  | none =>
    rw [hopening] at h
    cases hsource : machine.tree.source path with
    | error error =>
      rw [hsource] at h
      cases h
    | ok whole =>
      rw [hsource] at h
      cases h
      have hreading := Source.breakOff_fault hfault
      rw [hreading] at hfault ⊢
      obtain ⟨content, hfile⟩ := Tree.exists_file?_of_source hsource hfault
      refine ⟨content, ⟨hfile, hopening, hreading⟩, ?_⟩
      exact Except.ok.inj (hsource.symm.trans (Tree.source_of_file? hfile))

theorem newPlace_eq_ok_iff {directory : Text} {place : Place} :
    machine.newPlace directory = .ok place ↔
      machine.refusals.creating = none ∧ machine.tree.newPlace directory = .ok place := by
  rw [newPlace]
  cases machine.refusals.creating <;> simp

theorem moveOver_put_eq_ok_iff {place : Place} {tree : Tree} (h : machine.tree.node? place = none) :
    (machine.put place (.file content)).moveOver place path = .ok tree ↔
      machine.refusals.moving = none ∧ ∃ target, machine.tree.resolveFile path = .ok target ∧
        tree = machine.tree.put target (.file content) := by
  rw [moveOver, show (machine.put place (.file content)).refusals = machine.refusals from rfl,
    ← Tree.moveOver_put_eq_ok_iff h]
  cases machine.refusals.moving with
  | none => exact ⟨fun h => ⟨rfl, h⟩, fun h => h.2⟩
  | some error => exact ⟨fun h => (nomatch h), fun h => (nomatch h.1)⟩

variable {place : Place} {node node' : Node}

@[simp] theorem put_put :
    (machine.put place node).put place node' = machine.put place node' := by
  show { machine with tree := (machine.tree.put place node).put place node' } = _
  rw [Tree.put_put]
  rfl

theorem erase_put (h : machine.tree.node? place = none) :
    (machine.put place node).erase place = machine := by
  show { machine with tree := (machine.tree.put place node).erase place } = machine
  rw [Tree.erase_put h]

/-- Bytes are written behind those of the file, all of them if the machine takes that many. -/
theorem append_put (hne : place ≠ []) (bytes : Bytes) :
    machine.refusals.Takes (content ++ bytes).length ∧
        (machine.put place (.file content)).append place bytes =
          (.ok (), machine.put place (.file (content ++ bytes))) ∨
      ∃ error content', machine.refusals.Stops (content ++ bytes).length error ∧
        (machine.put place (.file content)).append place bytes =
          (.error error, machine.put place (.file content')) := by
  have hcontent : (machine.put place (.file content)).tree.content place = content :=
    Tree.content_put_file hne
  rw [append, hcontent, show (machine.put place (.file content)).refusals = machine.refusals from rfl]
  rcases hlimit : machine.refusals.writing with _ | ⟨count, error⟩
  · exact .inl ⟨fun count error h => (nomatch hlimit.symm.trans h), by rw [put_put]⟩
  · by_cases hle : (content ++ bytes).length ≤ count
    · refine .inl ⟨fun count' error' h => ?_, by simp only [if_pos hle, put_put]⟩
      cases hlimit.symm.trans h
      exact hle
    · refine .inr ⟨error, (content ++ bytes).take count, ⟨count, hlimit, Nat.lt_of_not_le hle⟩, ?_⟩
      simp only [if_neg hle, put_put]

theorem sync_eq_error_iff {error : SystemError} :
    machine.sync = .error error ↔ machine.refusals.syncing = some error := by
  rw [sync]
  cases machine.refusals.syncing <;> simp

theorem sync_eq_ok_iff : machine.sync = .ok () ↔ machine.refusals.syncing = none := by
  rw [sync]
  cases machine.refusals.syncing <;> simp

/-! ### Steps of a program -/

theorem run_bind {σ α β : Type} {x : StateM σ α} {f : α → StateM σ β} {s s' : σ} {a : α}
    (h : x.run s = (a, s')) : (x >>= f).run s = (f a).run s' := by
  rw [StateT.run_bind, h]
  rfl

theorem run_source {answer : Except SystemError Source} (h : machine.source path = answer) :
    (Disk.source (m := StateM Machine) path).run machine = (answer, machine.remember path) := by
  rw [← h]
  rfl

theorem run_createTemporary {directory : Text} (h : machine.newPlace directory = .ok place) :
    (Disk.createTemporary (m := StateM Machine) directory).run machine =
      (.ok place, machine.put place (.file [])) := by
  show (match machine.newPlace directory with | .ok _ => _ | .error _ => _) = _
  rw [h]

theorem run_createTemporary_of_error {directory : Text} {error : SystemError}
    (h : machine.newPlace directory = .error error) :
    (Disk.createTemporary (m := StateM Machine) directory).run machine =
      (.error error, machine) := by
  show (match machine.newPlace directory with | .ok _ => _ | .error _ => _) = _
  rw [h]

theorem run_append {machine' : Machine} {bytes : Bytes} {answer : Except SystemError Unit}
    (h : machine.append place bytes = (answer, machine')) :
    (Disk.append (m := StateM Machine) place bytes).run machine = (answer, machine') := h

theorem run_sync {answer : Except SystemError Unit} (h : machine.sync = answer) :
    (Disk.sync (m := StateM Machine) place).run machine = (answer, machine) := by
  rw [← h]
  rfl

theorem run_moveOver {tree : Tree} (h : machine.moveOver place path = .ok tree) :
    (Disk.moveOver (m := StateM Machine) place path).run machine =
      (.ok (), { machine with tree := tree }) := by
  simp only [Disk.moveOver, StateT.run, h]

theorem run_moveOver_of_error {error : SystemError}
    (h : machine.moveOver place path = .error error) :
    (Disk.moveOver (m := StateM Machine) place path).run machine = (.error error, machine) := by
  simp only [Disk.moveOver, StateT.run, h]

theorem run_remove_put (h : machine.tree.node? place = none) :
    (Disk.remove (m := StateM Machine) place).run (machine.put place node) = ((), machine) := by
  show ((), (machine.put place node).erase place) = _
  rw [erase_put h]

end Machine

/-! ### Machines that refuse nothing -/

/-- On machines that refuse nothing, a program answers and does what another one does on trees. -/
def Agrees {α : Type} (onTree : StateM Tree α) (onMachine : StateM Machine α) : Prop :=
  ∀ tree opened, ∃ opened', onMachine.run ⟨tree, .nothing, opened⟩ =
    ((onTree.run tree).1, ⟨(onTree.run tree).2, .nothing, opened'⟩)

namespace Agrees
variable {α β : Type} {onTree : StateM Tree α} {onMachine : StateM Machine α}

theorem pure (a : α) : Agrees (Pure.pure a) (Pure.pure a) := fun _ opened => ⟨opened, rfl⟩

theorem bind {f : α → StateM Tree β} {f' : α → StateM Machine β} (h : Agrees onTree onMachine)
    (hf : ∀ a, Agrees (f a) (f' a)) : Agrees (onTree >>= f) (onMachine >>= f') := by
  intro tree opened
  obtain ⟨opened', hrun⟩ := h tree opened
  rw [Machine.run_bind hrun, StateT.run_bind]
  exact hf _ _ _

theorem source (path : Text) : Agrees (Disk.source path) (Disk.source path) := by
  intro tree opened
  refine ⟨opened ++ [path], Machine.run_source ?_⟩
  show (tree.source path).map id = tree.source path
  cases tree.source path <;> rfl

theorem createTemporary (directory : Text) :
    @Agrees (Except SystemError Place) (Disk.createTemporary (m := StateM Tree) directory)
      (Disk.createTemporary (m := StateM Machine) directory) := by
  intro tree opened
  refine ⟨opened, ?_⟩
  cases h : tree.newPlace directory <;>
    simp only [Disk.createTemporary, StateT.run, Machine.newPlace, Refusals.nothing, h, Machine.put]

theorem append (place : Place) (bytes : Bytes) :
    Agrees (Disk.append (m := StateM Tree) place bytes)
      (Disk.append (m := StateM Machine) place bytes) :=
  fun _ opened => ⟨opened, rfl⟩

theorem sync (place : Place) :
    Agrees (Disk.sync (m := StateM Tree) place) (Disk.sync (m := StateM Machine) place) :=
  fun _ opened => ⟨opened, rfl⟩

theorem pathIn (directory : Text) (place : Place) :
    Agrees (Disk.pathIn (m := StateM Tree) directory place)
      (Disk.pathIn (m := StateM Machine) directory place) :=
  fun _ opened => ⟨opened, rfl⟩

theorem moveOver (place : Place) (path : Text) :
    Agrees (Disk.moveOver (m := StateM Tree) place path)
      (Disk.moveOver (m := StateM Machine) place path) := by
  intro tree opened
  refine ⟨opened, ?_⟩
  cases h : tree.moveOver place path <;>
    simp only [Disk.moveOver, StateT.run, Tree.change, Machine.moveOver, Refusals.nothing, h]

theorem remove (place : Place) :
    Agrees (Disk.remove (m := StateM Tree) place) (Disk.remove (m := StateM Machine) place) :=
  fun _ opened => ⟨opened, rfl⟩

end Agrees

end Renaming
