import Renaming.Proofs.Bounds.Place
import Renaming.Proofs.Descriptor.Gaps

/-!
# Looking for references by place

`scan?` goes over the bytes of a text and hands on where the references start and stop. A reference
starts at a place or the scan goes on behind it (`scan?_of_isReference`,
`scan?_of_not_isReference`), so what it finds are the places of the spans (`scan?_eq`): the bytes of
another character are no `L`.
-/

namespace Renaming

theorem findIdx?_not_elim {α : Type} (p : α → Bool) (l : List α) (n : Nat) :
    (l.findIdx? fun a => !p a).elim (n + l.length) (n + ·) = n + (l.takeWhile p).length := by
  induction l generalizing n with
  | nil => rfl
  | cons a l ih =>
    rw [List.findIdx?_cons, List.takeWhile_cons]
    cases p a with
    | false => rfl
    | true =>
      have hnext := ih (n + 1)
      simp only [Nat.add_assoc, Nat.add_comm 1] at hnext
      simpa [Option.elim_map, Function.comp_def] using hnext

namespace Descriptor

def Span.place (span : Span) : Nat × Nat := (span.start, span.stop)

variable {s : Text} {left right : Bytes} {b : UInt8}

/-- The first place from `start` on whose byte cannot stand in a name, or else the end. -/
def nameEnd? (bytes : Bytes) (start : Nat) : Option Nat := do
  let rest ← drop? bytes start
  return (rest.findIdx? fun b => !isNameByte b).elim bytes.length (start + ·)

/-- Where the references start and stop from a byte on. -/
def scan? (bytes : Bytes) (start : Nat) : Option (List (Nat × Nat)) :=
  if start < bytes.length then do
    let byte ← bytes[start]?
    if byte = 76 then do
      let stop ← nameEnd? bytes (start + 1)
      if start + 1 < stop ∧ bytes[stop]? = some 59 then
        (scan? bytes (stop + 1)).map ((start, stop + 1) :: ·)
      else scan? bytes (start + 1)
    else scan? bytes (start + 1)
  else some []
termination_by bytes.length - start

theorem scan?_length (bytes : Bytes) : scan? bytes bytes.length = some [] := by
  rw [scan?, if_neg (Nat.lt_irrefl _)]

theorem nameEnd?_append (left right : Bytes) : nameEnd? (left ++ right) left.length =
    some (left.length + (right.takeWhile isNameByte).length) := by
  have hend := findIdx?_not_elim isNameByte right left.length
  rw [← List.length_append] at hend
  rw [nameEnd?, drop?_append]
  exact congrArg some hend

/-- Where a name ends that would start behind the byte `b`. -/
theorem nameEnd?_cons (left : Bytes) (b : UInt8) (right : Bytes) :
    nameEnd? (left ++ b :: right) (left.length + 1) =
      some (left.length + 1 + (right.takeWhile isNameByte).length) := by
  have h := nameEnd?_append (left ++ [b]) right
  rwa [List.append_assoc, List.length_append] at h

/-- One round of the scan. -/
theorem scan?_cons {name : Bytes} (left : Bytes) (b : UInt8)
    (hname : right.takeWhile isNameByte = name) : scan? (left ++ b :: right) left.length =
      if b = 76 ∧ name ≠ [] ∧ right[name.length]? = some 59 then
        (scan? (left ++ b :: right) (left.length + 1 + name.length + 1)).map
          ((left.length, left.length + 1 + name.length + 1) :: ·)
      else scan? (left ++ b :: right) (left.length + 1) := by
  have hbyte : (left ++ b :: right)[left.length]? = some b := by simp
  have hend := nameEnd?_cons left b right
  rw [hname] at hend
  have hstop : (left ++ b :: right)[left.length + 1 + name.length]? = right[name.length]? := by
    rw [List.append_cons, List.getElem?_append_right (by simp)]
    simp
  have hpos : left.length + 1 < left.length + 1 + name.length ↔ name ≠ [] := by
    rw [← List.length_pos_iff]
    omega
  rw [scan?, if_pos (by simp)]
  simp only [hbyte, hend, hstop, hpos, Option.bind_eq_bind, Option.bind_some]
  by_cases hb : b = 76
  · simp only [hb, true_and, if_true]
  · rw [if_neg hb, if_neg fun h => hb h.1]

theorem scan?_of_isReference {bytes : Bytes} (h : IsReference bytes) (left right : Bytes) :
    scan? (left ++ bytes ++ right) left.length =
      (scan? (left ++ bytes ++ right) (left ++ bytes).length).map
        ((left.length, (left ++ bytes).length) :: ·) := by
  obtain ⟨name, hne, hname, rfl⟩ := h
  have hbytes : left ++ (76 :: name ++ [59]) ++ right = left ++ 76 :: (name ++ 59 :: right) := by
    simp
  have hlength : (left ++ (76 :: name ++ [59])).length = left.length + 1 + name.length + 1 := by
    simp only [List.length_append, List.length_cons, List.length_nil]
    omega
  have htake : (name ++ 59 :: right).takeWhile isNameByte = name := by
    rw [List.takeWhile_append_of_pos hname, List.takeWhile_cons_of_neg (by decide), List.append_nil]
  rw [hbytes, hlength, scan?_cons left 76 htake, if_pos ⟨rfl, hne, by simp⟩]

theorem scan?_of_not_isReference
    (h : ∀ bytes, bytes <+: b :: right → ¬ IsReference bytes) :
    scan? (left ++ b :: right) left.length = scan? (left ++ b :: right) (left.length + 1) := by
  refine (scan?_cons left b rfl).trans (if_neg ?_)
  rintro ⟨rfl, hne, hstop⟩
  have hpre : right.takeWhile isNameByte ++ [59] <+: right := by
    obtain ⟨rest, hright⟩ := List.takeWhile_prefix isNameByte (l := right)
    generalize right.takeWhile isNameByte = name at hright hstop
    subst hright
    rw [List.getElem?_append_right (Nat.le_refl _), Nat.sub_self] at hstop
    cases rest with
    | nil => cases hstop
    | cons c rest =>
      cases hstop
      exact (List.prefix_append_right_inj name).2 ⟨rest, rfl⟩
  have hname := List.all_eq_true.1 (List.all_takeWhile (p := isNameByte) (l := right))
  exact h _ (List.cons_prefix_cons.2 ⟨rfl, hpre⟩) ⟨_, hne, hname, rfl⟩

theorem scan?_skip {skipped : Bytes} (h : 76 ∉ skipped) (left right : Bytes) :
    scan? (left ++ skipped ++ right) left.length =
      scan? (left ++ skipped ++ right) (left ++ skipped).length := by
  induction skipped generalizing left with
  | nil => simp
  | cons b skipped ih =>
    rw [List.mem_cons, not_or] at h
    have hround : scan? (left ++ b :: (skipped ++ right)) left.length =
        scan? (left ++ b :: (skipped ++ right)) (left.length + 1) := by
      refine scan?_of_not_isReference ?_
      rintro _ hpre ⟨name, -, -, rfl⟩
      exact h.1 (List.cons_prefix_cons.1 hpre).1
    have hrest := ih h.2 (left ++ [b])
    rw [List.append_assoc left, List.length_append] at hrest
    rw [List.append_assoc, List.cons_append, hround]
    simpa using hrest

theorem not_isReference_of_reference?_eq_none (h : reference? s = none) {bytes : Bytes}
    (hpre : bytes <+: s.encode) : ¬ IsReference bytes := by
  intro href
  obtain ⟨name, hname, hrender, hascii⟩ := href.exists_name
  obtain ⟨right, hright⟩ := hpre
  have hne : bytes ≠ [] := by
    rintro rfl
    cases hrender
  have hrun : s.encode = [] ++ bytes ++ right := hright.symm
  obtain ⟨before, after, rfl, hbefore, -⟩ := Text.exists_of_encode_eq_run hascii hne hrun
  rw [Text.eq_nil_of_encode hbefore, hrender, List.nil_append, reference?_render hname] at h
  cases h

/-- The scan leaves a character behind where no reference starts, all its bytes at once. -/
theorem scan?_of_plain {c : Char} (h : reference? (c :: s) = none) (lead : Text) :
    scan? (lead ++ c :: s).encode lead.encode.length =
      scan? (lead ++ c :: s).encode (lead ++ [c]).encode.length := by
  obtain ⟨b, more, hc⟩ := List.exists_cons_of_ne_nil (Text.utf8EncodeChar_ne_nil c)
  -- only `L` has this byte, and `L` has no other
  have hmore : 76 ∉ more := by
    intro hmem
    have hL : c = 'L' := Text.eq_ofUInt8_of_mem (by decide) (hc ▸ List.mem_cons_of_mem b hmem)
    rw [hL] at hc
    cases (List.cons.inj hc).2
    cases hmem
  have hsplit : (lead ++ c :: s).encode = lead.encode ++ b :: (more ++ s.encode) := by
    rw [Text.encode_append]
    show lead.encode ++ (String.utf8EncodeChar c ++ s.encode) = _
    rw [hc, List.cons_append]
  have hlead : (lead ++ [c]).encode = lead.encode ++ [b] ++ more := by
    rw [Text.encode_append]
    show lead.encode ++ (String.utf8EncodeChar c ++ []) = _
    rw [hc, List.append_nil, List.append_assoc, List.singleton_append]
  have hfirst : ∀ bytes, bytes <+: b :: (more ++ s.encode) → ¬ IsReference bytes := by
    intro bytes hpre
    refine not_isReference_of_reference?_eq_none h ?_
    show bytes <+: String.utf8EncodeChar c ++ s.encode
    rwa [hc, List.cons_append]
  have hrest := scan?_skip hmore (lead.encode ++ [b]) s.encode
  rw [hsplit, hlead, scan?_of_not_isReference hfirst]
  simpa using hrest

theorem scan?_append (lead s : Text) : scan? (lead ++ s).encode lead.encode.length =
    some ((spansFrom lead.encode.length (pieces s)).map Span.place) := by
  -- the piece that has been read goes over to `lead`
  fun_induction pieces s generalizing lead with
  | case1 =>
    rw [List.append_nil, scan?_length]
    rfl
  | case2 c s name rest h hlt ih =>
    have hbytes := isReference_encode (isClassName_of_reference? h)
    have hnext := ih (lead ++ (Piece.reference name).render)
    have hround := scan?_of_isReference hbytes lead.encode rest.encode
    simp only [← Text.encode_append] at hround
    rw [eq_of_reference? h, ← List.append_assoc, hround, hnext]
    simp [spansFrom, Span.place]
  | case3 c s h ih =>
    have hnext := ih (lead ++ [c])
    rw [List.append_assoc] at hnext
    rw [scan?_of_plain h]
    refine hnext.trans ?_
    simp [spansFrom, Piece.render]

/-- The scan finds the references where they stand. -/
theorem scan?_eq (s : Text) : scan? s.encode 0 = some ((spans s).map Span.place) :=
  scan?_append [] s

example : scan? (Text.encode "é(LLa/b;L".toList) 0 = some [(3, 9)] := by decide +kernel

end Descriptor
end Renaming
