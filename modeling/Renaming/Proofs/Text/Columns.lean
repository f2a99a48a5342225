import Renaming.Proofs.Text.Replace

/-!
# Characters of columns

The characters of the columns are those of the line, without the tabs, and the characters of a text
after a replacement are those of the text and of the replacement.
-/

namespace Renaming

theorem not_mem_of_mem_splitOn {α : Type} [BEq α] [LawfulBEq α] {a : α} {s piece : List α}
    (h : piece ∈ s.splitOn a) : a ∉ piece := by
  induction s generalizing piece with
  | nil => simp_all
  | cons c s ih =>
    rw [List.splitOn_cons_eq_if_modifyHead] at h
    split at h
    · rcases List.mem_cons.1 h with rfl | h
      · simp
      · exact ih h
    · rename_i hc
      obtain ⟨first, rest, hsplit⟩ := List.exists_cons_of_ne_nil (List.splitOn_ne_nil a s)
      rw [hsplit, List.modifyHead_cons] at h
      rcases List.mem_cons.1 h with rfl | h
      · have hfirst : a ∉ first := ih (by rw [hsplit]; exact List.mem_cons_self ..)
        have hne : a ≠ c := fun heq => hc (by rw [heq]; exact beq_self_eq_true c)
        simp [hfirst, hne]
      · exact ih (by rw [hsplit]; exact List.mem_cons_of_mem _ h)

theorem mem_of_mem_splitOn {α : Type} [BEq α] [LawfulBEq α] {a x : α} {s piece : List α}
    (h : piece ∈ s.splitOn a) (hx : x ∈ piece) : x ∈ s := by
  induction s generalizing piece with
  | nil => simp_all
  | cons c s ih =>
    rw [List.splitOn_cons_eq_if_modifyHead] at h
    split at h
    · rcases List.mem_cons.1 h with rfl | h
      · simp at hx
      · exact List.mem_cons_of_mem _ (ih h hx)
    · obtain ⟨first, rest, hsplit⟩ := List.exists_cons_of_ne_nil (List.splitOn_ne_nil a s)
      rw [hsplit, List.modifyHead_cons] at h
      rcases List.mem_cons.1 h with rfl | h
      · rcases List.mem_cons.1 hx with rfl | hx
        · exact List.mem_cons_self ..
        · exact List.mem_cons_of_mem _ (ih (by rw [hsplit]; exact List.mem_cons_self ..) hx)
      · exact List.mem_cons_of_mem _ (ih (by rw [hsplit]; exact List.mem_cons_of_mem _ h) hx)

namespace Text
variable {line cell : Text} {c : Char}

theorem tab_not_mem_of_mem_columns (h : cell ∈ line.columns) : '\t' ∉ cell := not_mem_of_mem_splitOn h

theorem mem_of_mem_columns (h : cell ∈ line.columns) (hc : c ∈ cell) : c ∈ line :=
  mem_of_mem_splitOn h hc

theorem columns_cons_tab (s : Text) : columns ('\t' :: s) = [] :: columns s := by
  rw [columns, List.splitOn_cons_eq_if_modifyHead, if_pos (by decide)]
  rfl

/-- Only a text that starts with a tab or is empty has an empty first column. -/
theorem head?_columns_cons_ne {s : Text} (hc : c ≠ '\t') : (columns (c :: s)).head? ≠ some [] := by
  have hne : ¬ (c == '\t') = true := by simp [hc]
  rw [columns, List.splitOn_cons_eq_if_modifyHead, if_neg hne]
  obtain ⟨first, rest, hsplit⟩ := List.exists_cons_of_ne_nil (List.splitOn_ne_nil '\t' s)
  simp [hsplit]

theorem ofColumns_cons_cons (first second : Text) (rest : List Text) :
    ofColumns (first :: second :: rest) = first ++ '\t' :: ofColumns (second :: rest) := by
  simp [ofColumns, List.intercalate_cons_cons]

theorem not_mem_ofColumns {cells : List Text} (hc : c ≠ '\t') (h : ∀ cell ∈ cells, c ∉ cell) :
    c ∉ ofColumns cells := by
  induction cells with
  | nil => simp [ofColumns]
  | cons first rest ih =>
    obtain ⟨hfirst, hrest⟩ := List.forall_mem_cons.1 h
    cases rest with
    | nil => simpa [ofColumns] using hfirst
    | cons second rest =>
      rw [ofColumns_cons_cons, List.mem_append, List.mem_cons]
      rintro (hmem | hmem | hmem)
      · exact hfirst hmem
      · exact hc hmem
      · exact ih hrest hmem

theorem cut?_eq_none {pattern s : Text} (h : ¬ pattern <:+: s) : cut? pattern s = none := by
  cases hcut : cut? pattern s with
  | none => rfl
  | some parts =>
    obtain ⟨before, after⟩ := parts
    exact absurd ⟨before, after, (eq_of_cut? hcut).symm⟩ h

theorem replaceFirst_eq_self {pattern new s : Text} (h : ¬ pattern <:+: s) :
    replaceFirst pattern new s = s := by
  rw [replaceFirst, cut?_eq_none h]

theorem replaceFirst_self (pattern s : Text) : replaceFirst pattern pattern s = s := by
  cases hcut : cut? pattern s with
  | none => rw [replaceFirst, hcut]
  | some parts =>
    obtain ⟨before, after⟩ := parts
    rw [replaceFirst, hcut]
    exact (eq_of_cut? hcut).symm

theorem mem_replaceFirst {pattern new s : Text} (h : c ∈ replaceFirst pattern new s) :
    c ∈ new ∨ c ∈ s := by
  cases hcut : cut? pattern s with
  | none =>
    rw [replaceFirst, hcut] at h
    exact .inr h
  | some parts =>
    obtain ⟨before, after⟩ := parts
    rw [replaceFirst, hcut] at h
    rw [eq_of_cut? hcut]
    simp only [List.mem_append] at h ⊢
    rcases h with (h | h) | h
    · exact .inr (.inl (.inl h))
    · exact .inl h
    · exact .inr (.inr h)

end Text

end Renaming
