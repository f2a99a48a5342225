import Mathlib.Data.List.Infix
import Renaming.Text.Basic

/-!
# Replacing the first occurrence

`cut?` finds an occurrence of a pattern (`eq_of_cut?`), and there is none that starts before it
(`exists_cut?`). A beginning of the text in which no occurrence starts does not matter to the
replacement (`replaceFirst_append`).
-/

namespace Renaming.Text
variable {pattern s : Text} {c : Char}

theorem eq_of_cut? {before after : Text} (h : cut? pattern s = some (before, after)) :
    s = before ++ pattern ++ after := by
  fun_induction cut? pattern s generalizing before after with
  | case1 s after' hp =>
    rw [hp] at h
    cases h
    exact (List.isPrefixOf?_eq_some_iff_append_eq.1 hp).symm
  | case2 hp =>
    rw [hp] at h
    cases h
  | case3 c s hp ih =>
    rw [hp] at h
    obtain ⟨⟨b, a⟩, hcut, heq⟩ := Option.map_eq_some_iff.mp h
    cases heq
    rw [ih hcut]
    rfl

theorem cut?_of_startsWith (h : pattern <+: s) : ∃ right, cut? pattern s = some ([], right) := by
  obtain ⟨right, rfl⟩ := h
  have hstarts : pattern.isPrefixOf? (pattern ++ right) = some right :=
    List.isPrefixOf?_eq_some_iff_append_eq.2 rfl
  exact ⟨right, by rw [cut?.eq_def, hstarts]⟩

theorem cut?_cons_of_not_startsWith (h : ¬ pattern <+: c :: s) :
    cut? pattern (c :: s) = (cut? pattern s).map fun (left, right) => (c :: left, right) := by
  have hstarts : pattern.isPrefixOf? (c :: s) = none := by
    rw [Option.eq_none_iff_forall_ne_some]
    intro right hright
    exact h ⟨right, List.isPrefixOf?_eq_some_iff_append_eq.1 hright⟩
  rw [cut?.eq_def, hstarts]

/-- The first occurrence is no later than any other one. -/
theorem exists_cut? (pattern before after : Text) :
    ∃ left right, cut? pattern (before ++ pattern ++ after) = some (left, right) ∧
      left <+: before := by
  induction before with
  | nil =>
    obtain ⟨right, hcut⟩ := cut?_of_startsWith (List.prefix_append pattern after)
    exact ⟨[], right, hcut, List.nil_prefix⟩
  | cons c before ih =>
    by_cases hstarts : pattern <+: c :: (before ++ pattern ++ after)
    · obtain ⟨right, hcut⟩ := cut?_of_startsWith hstarts
      exact ⟨[], right, hcut, List.nil_prefix⟩
    · obtain ⟨left, right, hcut, hleft⟩ := ih
      refine ⟨c :: left, right, ?_, (List.prefix_cons_inj c).2 hleft⟩
      show cut? pattern (c :: (before ++ pattern ++ after)) = _
      rw [cut?_cons_of_not_startsWith hstarts, hcut]
      rfl

/-- A beginning in which the pattern does not start is left alone. -/
theorem replaceFirst_append {lead : Text} (new : Text)
    (h : ∀ after, after <:+ lead → after ≠ [] → ¬ pattern <+: after ++ s) :
    replaceFirst pattern new (lead ++ s) = lead ++ replaceFirst pattern new s := by
  have hcut : cut? pattern (lead ++ s) =
      (cut? pattern s).map fun (left, right) => (lead ++ left, right) := by
    induction lead with
    | nil => exact Option.map_id'.symm
    | cons c lead ih =>
      have hstart : ¬ pattern <+: c :: (lead ++ s) :=
        h (c :: lead) (List.suffix_refl _) (List.cons_ne_nil c lead)
      have htail := ih fun after hafter => h after (hafter.trans (List.suffix_cons c lead))
      rw [List.cons_append, cut?_cons_of_not_startsWith hstart, htail, Option.map_map]
      rfl
  rw [replaceFirst, replaceFirst, hcut]
  cases cut? pattern s <;> simp

end Renaming.Text
