import Mathlib.Data.List.Basic
import Renaming.Proofs.Access.Back
import Renaming.Proofs.Access.Document

/-!
# More entries than the file needs

Entries can be added to a dictionary without any effect on a run that succeeds, unless one of their
sources is a name that the file mentions (`rename_extended`). The targets that come with them make
more classes known, but those of the file were known already.
-/

namespace Renaming
variable {settings : Settings} {d d' : Dictionary}

namespace Descriptor
variable {s t : Text}

theorem substitute_congr (h : ∀ name ∈ references s, d'.rename .klass name = d.rename .klass name)
    (mode : Substitution) : substitute d' s mode = substitute d s mode := by
  cases mode with
  | positional => rw [substitute_positional, substitute_positional, map_mapName_congr h]
  | firstOccurrence =>
    refine List.foldl_ext _ _ s fun text name hname => ?_
    rw [replaceReference, replaceReference, Piece.rename, Piece.rename, h name hname]

/-- A descriptor that could be renamed is renamed in the same way. -/
theorem rename_of_extends (h : d'.Extends d) (hadds : ∀ name ∈ references s, ¬ d'.Adds d .klass name)
    (hok : (rename settings d s).result = .ok t) : rename settings d' s = rename settings d s := by
  rw [rename_eq, rename_eq]
  cases hfind : (references s).find? fun name => !settings.covers name with
  | some outside => rfl
  | none =>
    have hknown : ∀ name ∈ references s, d.Knows name := by
      rcases rename_eq_ok_iff.1 hok with ⟨⟨name, hname, hcovers⟩, -⟩ | ⟨-, hknown, -⟩
      · exact absurd hcovers (by simpa using List.find?_eq_none.1 hfind name hname)
      · exact hknown
    have hsame := substitute_congr (fun name hname => h.rename_eq (hadds name hname))
      settings.substitution
    rw [find?_knowsClass_eq_none hknown,
      find?_knowsClass_eq_none fun name hname => h.knows (hknown name hname), hsame]

end Descriptor

namespace Access
variable {fault : Option Fault} {room : Room} {number : Nat} {line new : Text} {lines : List Text}
  {tally : LineTally}

/-- The line mentions no name of a kind that is a source of the kind in `d'` only. -/
def AddsNothingTo (d' d : Dictionary) (line : Text) : Prop :=
  ∀ kind, LineKind.ofLine line = .declaration kind →
    ∀ entry ∈ mentioned kind line, ¬ d'.Adds d entry.1 entry.2

instance (line : Text) : Decidable (AddsNothingTo d' d line) :=
  inferInstanceAs (Decidable (∀ _, _ → _))

theorem renameLine_of_extends (h : d'.Extends d) (hline : AddsNothingTo d' d line)
    (hok : (renameLine settings d number line).result = .ok new) :
    renameLine settings d' number line = renameLine settings d number line := by
  cases renameLine_eq_ok_iff.1 hok with
  | header hkind => simp only [renameLine, hkind]
  | other hkind => rcases hkind with hkind | hkind <;> simp only [renameLine, hkind]
  | klass hkind hc =>
    rename_i access tag name extra
    have hname := hline _ hkind
    rw [mentioned_class hc, List.forall_mem_singleton] at hname
    simp only [renameLine, hkind, renameClass, hc, h.rename_eq hname]
  | member hkind hk hc hdesc =>
    rename_i access tag owner name descriptor descriptor' extra kind
    have hmentioned := hline _ hkind
    rw [mentioned_member hk hc] at hmentioned
    simp only [List.forall_mem_cons, List.forall_mem_map] at hmentioned
    obtain ⟨howner, hname, hreferences⟩ := hmentioned
    have hsame := Descriptor.rename_of_extends h hreferences hdesc
    have hmember :
        renameMember settings d' kind number line = renameMember settings d kind number line := by
      simp only [renameMember, hc, hsame, h.rename_eq howner, h.rename_eq hname]
    simp only [renameLine, hkind]
    cases kind with
    | klass => exact absurd rfl hk
    | field => exact hmember
    | method => exact hmember

theorem renameLines_of_extends (h : d'.Extends d) (hlines : ∀ line ∈ lines, AddsNothingTo d' d line)
    (hok : (renameLines settings d fault room number lines).result = .ok tally) :
    renameLines settings d' fault room number lines =
      renameLines settings d fault room number lines := by
  induction lines generalizing room number tally with
  | nil => rfl
  | cons line lines ih =>
    obtain ⟨hline, hlines⟩ := List.forall_mem_cons.1 hlines
    cases hresult : (renameLine settings d number line).result with
    | error failure =>
      rw [renameLines_cons_of_error hresult] at hok
      cases hok
    | ok new =>
      have hsame := renameLine_of_extends h hline hresult
      rw [renameLines_cons_of_ok hresult] at hok
      rw [renameLines_cons_of_ok hresult, renameLines_cons_of_ok (hsame ▸ hresult), hsame]
      split at hok
      · rename_i hfits
        obtain ⟨before, hbefore, -⟩ := Run.cons_result_eq_ok_iff.1 hok
        rw [if_pos hfits, if_pos hfits, ih hlines hbefore]
      · cases hok

/-- Let every entry of `d` be an entry of `d'`, and let the input mention no source that only `d'` has.
If the run with `d` succeeds, the run with `d'` is the same: it writes the same output, comes to the
same tally and reports the same events. -/
theorem rename_extended {input : Bytes} {flush : Except Fault Unit} (h : d'.Extends d)
    (hlines : ∀ line ∈ (Source.ofBytes input).lines, AddsNothingTo d' d line)
    (hok : (rename settings d (.ofBytes input) room flush).result = .ok tally) :
    rename settings d' (.ofBytes input) room flush = rename settings d (.ofBytes input) room flush := by
  obtain ⟨-, hwritten⟩ := rename_eq_ok_iff.1 ⟨rfl, hok⟩
  have hall : (renameAll settings d (.ofBytes input) room).result = .ok tally :=
    (renameLines_eq_ok_iff.2 hwritten).2
  exact congrArg (Run.finish · flush) (renameLines_of_extends h hlines hall)

/-- The class `a/B` is only a target, and the first occurrence of `La/X;` is found in the text that was
put there before. The name `f` is added for classes and methods, which the input does not have. -/
theorem rename_extended_other_kinds :
    let d := (Dictionary.empty.insert .klass "a/X".toList "a/B".toList).insert .klass "a/L".toList
      "a/X".toList
    let d' := ((d.insert .klass "f".toList "a/Y".toList).insert .method "f".toList "g".toList).insert
      .klass "a/Q".toList "a/R".toList
    let settings : Settings := ⟨"inter".toList, "named".toList, ["a/".toList], .firstOccurrence⟩
    let input := Text.encode
      "accessWidener\tv2\tinter\n# a/Q\nopen\tfield\ta/Q2\tf\tLa/L;La/X;La/B;".toList
    let output := Text.encode
      "accessWidener\tv2\tnamed\n# a/Q\nopen\tfield\ta/Q2\tf\tLa/B;La/X;La/B;\n".toList
    (rename settings d' (.ofBytes input) none (.ok ())).output = output ∧
      (rename settings d' (.ofBytes input) none (.ok ())).result = .ok ⟨3, 1, 1, 0, 0, 1, 0⟩ := by
  intro d d' settings input output
  have hextends : d'.Extends d := by decide +kernel
  have hlines : ∀ line ∈ (Source.ofBytes input).lines, AddsNothingTo d' d line := by decide +kernel
  have hrun : (rename settings d (.ofBytes input) none (.ok ())).output = output ∧
      (rename settings d (.ofBytes input) none (.ok ())).result = .ok ⟨3, 1, 1, 0, 0, 1, 0⟩ := by
    decide +kernel
  rw [rename_extended hextends hlines hrun.2]
  exact hrun

end Access

end Renaming
