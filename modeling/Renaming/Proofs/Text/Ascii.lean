import Mathlib.Data.List.Basic
import Renaming.Proofs.Text.Lines

/-!
# ASCII inside an encoding

An ASCII character is encoded as one byte, and the bytes of all other characters are no ASCII. So
where a run of ASCII bytes stands in an encoding, the text is cut at both ends of the run
(`exists_of_encode_eq_run`).
-/

namespace Renaming.Text
variable {s : Text} {c : Char} {b : UInt8} {left run right : Bytes}

theorem utf8EncodeChar_of_ascii (hc : c.toNat < 128) : String.utf8EncodeChar c = [c.toUInt8] := by
  have hv : c.val.toNat ≤ 127 := Nat.le_of_lt_succ hc
  rw [String.utf8EncodeChar.eq_def]
  exact if_pos hv

theorem encode_of_ascii (h : ∀ c ∈ s, c.toNat < 128) : s.encode = s.map Char.toUInt8 := by
  induction s with
  | nil => rfl
  | cons c s ih =>
    obtain ⟨hc, hs⟩ := List.forall_mem_cons.1 h
    rw [List.map_cons, ← ih hs]
    show String.utf8EncodeChar c ++ encode s = _
    rw [utf8EncodeChar_of_ascii hc]
    rfl

theorem utf8EncodeChar_ne_nil (c : Char) : String.utf8EncodeChar c ≠ [] := by
  fun_cases String.utf8EncodeChar c <;> exact List.cons_ne_nil _ _

theorem eq_nil_of_encode (h : s.encode = []) : s = [] := by
  cases s with
  | nil => rfl
  | cons c s => exact absurd (List.append_eq_nil_iff.1 h).1 (utf8EncodeChar_ne_nil c)

theorem ofUInt8_toUInt8 (hc : c.toNat < 128) : Char.ofUInt8 c.toUInt8 = c := by
  rw [← Char.toNat_inj]
  show c.toNat % 256 = c.toNat
  exact Nat.mod_eq_of_lt (by omega)

theorem eq_ofUInt8_of_mem (hb : b.toNat < 128) (h : b ∈ String.utf8EncodeChar c) :
    c = Char.ofUInt8 b := by
  have hascii : (Char.ofUInt8 b).toNat < 128 := hb
  have hbyte : UInt8.ofNat (Char.ofUInt8 b).toNat = b := UInt8.ofNat_toNat
  rw [← hbyte, mem_utf8EncodeChar_iff hascii] at h
  exact h.symm

/-- An ASCII byte of an encoding is a character. -/
theorem exists_of_encode_eq_append (hb : b.toNat < 128) (h : s.encode = left ++ b :: right) :
    ∃ before after : Text, s = before ++ Char.ofUInt8 b :: after ∧ before.encode = left ∧
      after.encode = right := by
  induction s generalizing left with
  | nil => simp at h
  | cons c s ih =>
    change String.utf8EncodeChar c ++ encode s = left ++ b :: right at h
    -- either the bytes of the first character all lie before the byte, or it is one of them
    rcases List.append_eq_append_iff.1 h with ⟨left', rfl, hs⟩ | ⟨inner, hc, hright⟩
    · obtain ⟨before, after, rfl, rfl, hafter⟩ := ih hs
      exact ⟨c :: before, after, rfl, rfl, hafter⟩
    · cases inner with
      | nil =>
        have hs : encode s = [] ++ b :: right := hright.symm
        obtain ⟨before, after, rfl, hbefore, hafter⟩ := ih hs
        refine ⟨c :: before, after, rfl, ?_, hafter⟩
        show String.utf8EncodeChar c ++ before.encode = left
        rw [hbefore, hc, List.append_nil, List.append_nil]
      | cons b' inner =>
        obtain ⟨rfl, hs⟩ := List.cons.inj hright
        have hchar : c = Char.ofUInt8 b := eq_ofUInt8_of_mem hb (by rw [hc]; simp)
        have hascii : c.toNat < 128 := hchar ▸ hb
        rw [utf8EncodeChar_of_ascii hascii, List.singleton_eq_append_iff] at hc
        rcases hc with ⟨rfl, hinner⟩ | ⟨-, hinner⟩
        · obtain ⟨-, rfl⟩ := List.cons.inj hinner
          exact ⟨[], s, by rw [hchar]; rfl, rfl, hs.symm⟩
        · cases hinner

theorem exists_of_encode_eq_run (hrun : ∀ b ∈ run, b.toNat < 128) (hne : run ≠ [])
    (h : s.encode = left ++ run ++ right) :
    ∃ before after : Text, s = before ++ run.map Char.ofUInt8 ++ after ∧ before.encode = left ∧
      after.encode = right := by
  induction run generalizing s left with
  | nil => exact absurd rfl hne
  | cons b run ih =>
    obtain ⟨hb, hrun⟩ := List.forall_mem_cons.1 hrun
    rw [List.append_assoc] at h
    obtain ⟨before, rest, rfl, hbefore, hrest⟩ := exists_of_encode_eq_append hb h
    by_cases hlast : run = []
    · rw [hlast] at hrest
      exact ⟨before, rest, by simp [hlast], hbefore, hrest⟩
    · have hrun' : rest.encode = [] ++ run ++ right := hrest
      obtain ⟨none, after, rfl, hnone, hafter⟩ := ih hrun hlast hrun'
      rw [eq_nil_of_encode hnone]
      exact ⟨before, after, by simp, hbefore, hafter⟩

end Renaming.Text
