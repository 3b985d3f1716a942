import Mathlib.Data.List.Basic

/-!
# Delimited fields

Splitting a text at a delimiter and joining fields by it are inverse to each
other on lists of fields without the delimiter. A list of fields is therefore
the split of exactly one text.
-/

namespace Fields

variable {α : Type*} [DecidableEq α] {d : α} {s : List α}

/-- No field contains the delimiter. -/
theorem not_mem_of_mem_splitOn {field : List α} (h : field ∈ s.splitOn d) : d ∉ field := by
  induction s generalizing field with
  | nil =>
      obtain rfl : field = [] := by simpa using h
      exact List.not_mem_nil
  | cons a s ih =>
      rw [List.splitOn_cons_eq_if_modifyHead] at h
      by_cases ha : a = d
      · rw [if_pos (beq_iff_eq.mpr ha), List.mem_cons] at h
        cases h with
        | inl hnil => exact hnil ▸ List.not_mem_nil
        | inr hmem => exact ih hmem
      · rw [if_neg (by simpa using ha)] at h
        obtain ⟨first, rest, heq⟩ := List.exists_cons_of_ne_nil (List.splitOn_ne_nil d s)
        rw [heq, List.modifyHead_cons, List.mem_cons] at h
        cases h with
        | inl hfirst =>
            have hfree : d ∉ first := ih (heq ▸ List.mem_cons_self)
            rw [hfirst, List.mem_cons, not_or]
            exact ⟨fun hd => ha hd.symm, hfree⟩
        | inr hmem => exact ih (heq ▸ List.mem_cons_of_mem first hmem)

/-- A text splits into given fields exactly when it is their join and they are free of the
delimiter. -/
theorem splitOn_eq_iff {fields : List (List α)} :
    s.splitOn d = fields ↔
      fields ≠ [] ∧ (∀ field ∈ fields, d ∉ field) ∧ [d].intercalate fields = s := by
  constructor
  · rintro rfl
    exact ⟨List.splitOn_ne_nil d s, fun _ => not_mem_of_mem_splitOn, List.intercalate_splitOn d⟩
  · rintro ⟨hne, hfree, rfl⟩
    exact List.splitOn_intercalate d hfree hne

theorem splitOn_eq_singleton_iff {field : List α} :
    s.splitOn d = [field] ↔ s = field ∧ d ∉ s := by
  rw [splitOn_eq_iff]
  constructor
  · rintro ⟨-, hfree, rfl⟩
    exact ⟨by simp, by simpa using hfree⟩
  · rintro ⟨rfl, hfree⟩
    exact ⟨by simp, by simpa using hfree, by simp⟩

theorem splitOn_eq_pair_iff {x y : List α} :
    s.splitOn d = [x, y] ↔ s = x ++ d :: y ∧ d ∉ x ∧ d ∉ y := by
  rw [splitOn_eq_iff]
  constructor
  · rintro ⟨-, hfree, rfl⟩
    exact ⟨by simp, by simpa using hfree⟩
  · rintro ⟨rfl, hx, hy⟩
    exact ⟨by simp, by simp [hx, hy], by simp⟩

theorem splitOn_eq_triple_iff {x y z : List α} :
    s.splitOn d = [x, y, z] ↔ s = x ++ d :: (y ++ d :: z) ∧ d ∉ x ∧ d ∉ y ∧ d ∉ z := by
  rw [splitOn_eq_iff]
  constructor
  · rintro ⟨-, hfree, rfl⟩
    exact ⟨by simp, by simpa using hfree⟩
  · rintro ⟨rfl, hx, hy, hz⟩
    exact ⟨by simp, by simp [hx, hy, hz], by simp⟩

/-- There is one field more than there are delimiters. -/
theorem length_splitOn : (s.splitOn d).length = s.count d + 1 := by
  induction s with
  | nil => simp
  | cons a s ih =>
      rw [List.splitOn_cons_eq_if_modifyHead]
      by_cases ha : a = d
      · simp [ha, ih]
      · simp [ha, ih]

end Fields
