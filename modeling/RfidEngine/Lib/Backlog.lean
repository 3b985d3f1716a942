import Mathlib

/-!
# Backlogs

Items arrive one at a time at the end of a queue, and with each some are taken
from the head, as far as there are any. The queue holds the last arrivals, as
many as the greatest excess of arrivals over takings in a last stretch of time.
-/

namespace Backlog

variable {α : Type*}

/-- An item arrives and a number of them is taken. -/
def serve (queue : List α) (arrival : α × Nat) : List α :=
  (queue ++ [arrival.1]).drop arrival.2

def served (arrivals : List (α × Nat)) : List α := arrivals.foldl serve []

/-- The arrivals in excess of what was to be taken. -/
def excess (arrivals : List (α × Nat)) : Int :=
  arrivals.length - ((arrivals.map Prod.snd).sum : Nat)

@[simp] theorem served_nil : served ([] : List (α × Nat)) = [] := rfl

theorem served_snoc (arrivals : List (α × Nat)) (a : α × Nat) :
    served (arrivals ++ [a]) = serve (served arrivals) a := by
  simp [served]

@[simp] theorem excess_nil : excess ([] : List (α × Nat)) = 0 := rfl

theorem excess_snoc (arrivals : List (α × Nat)) (a : α × Nat) :
    excess (arrivals ++ [a]) = excess arrivals + (1 - a.2) := by
  simp only [excess, List.length_append, List.length_singleton, List.map_append, List.map_singleton,
    List.sum_append, List.sum_singleton]
  push_cast
  omega

theorem length_served_snoc (arrivals : List (α × Nat)) (a : α × Nat) :
    (served (arrivals ++ [a])).length = (served arrivals).length + 1 - a.2 := by
  rw [served_snoc, serve, List.length_drop, List.length_append, List.length_singleton]

/-- What is left are the last arrivals. -/
theorem served_suffix (arrivals : List (α × Nat)) : served arrivals <:+ arrivals.map Prod.fst := by
  induction arrivals using List.reverseRecOn with
  | nil => exact List.nil_suffix
  | append_singleton arrivals a ih =>
      obtain ⟨gone, hgone⟩ := ih
      rw [served_snoc, serve, List.map_append, List.map_singleton]
      apply (List.drop_suffix _ _).trans
      exact ⟨gone, by rw [← List.append_assoc, hgone]⟩

/-- A last stretch of a longer time is empty or goes to its end. -/
theorem suffix_snoc_iff {s arrivals : List (α × Nat)} {a : α × Nat} :
    s <:+ arrivals ++ [a] ↔ s = [] ∨ ∃ r, r <:+ arrivals ∧ s = r ++ [a] := by
  rw [List.suffix_concat_iff]
  constructor
  · rintro (rfl | ⟨r, rfl, hr⟩)
    · exact Or.inl rfl
    · exact Or.inr ⟨r, hr, rfl⟩
  · rintro (rfl | ⟨r, hr, rfl⟩)
    · exact Or.inl rfl
    · exact Or.inr ⟨r, rfl, hr⟩

/-- The queue is as long as the greatest excess of a last stretch of time. -/
theorem isGreatest_length (arrivals : List (α × Nat)) :
    IsGreatest {e | ∃ s, s <:+ arrivals ∧ e = excess s} (served arrivals).length := by
  induction arrivals using List.reverseRecOn with
  | nil =>
      refine ⟨⟨[], List.nil_suffix, rfl⟩, ?_⟩
      rintro e ⟨s, hs, rfl⟩
      obtain rfl := List.suffix_nil.mp hs
      exact le_rfl
  | append_singleton arrivals a ih =>
      obtain ⟨⟨longest, hlongest, hlength⟩, hbound⟩ := ih
      have hsnoc := length_served_snoc arrivals a
      constructor
      · by_cases hleft : a.2 ≤ (served arrivals).length + 1
        · refine ⟨longest ++ [a], suffix_snoc_iff.mpr (Or.inr ⟨longest, hlongest, rfl⟩), ?_⟩
          rw [excess_snoc]
          omega
        · refine ⟨[], List.nil_suffix, ?_⟩
          rw [excess_nil]
          omega
      · rintro e ⟨s, hs, rfl⟩
        obtain rfl | ⟨r, hr, rfl⟩ := suffix_snoc_iff.mp hs
        · rw [excess_nil]
          omega
        · have hle : excess r ≤ (served arrivals).length := hbound ⟨r, hr, rfl⟩
          rw [excess_snoc]
          omega

/-- Where at most one item is taken at a time, those stay with which none was. -/
theorem length_served_of_le_one {arrivals : List (α × Nat)} (h : ∀ a ∈ arrivals, a.2 ≤ 1) :
    (served arrivals).length = arrivals.countP fun a => a.2 == 0 := by
  induction arrivals using List.reverseRecOn with
  | nil => rfl
  | append_singleton arrivals a ih =>
      have ha : a.2 ≤ 1 := h a (by simp)
      have hrest := ih fun b hb => h b (List.mem_append_left _ hb)
      rw [length_served_snoc, hrest, List.countP_append, List.countP_singleton]
      obtain hnone | hone : a.2 = 0 ∨ a.2 = 1 := by omega
      · simp [hnone]
      · simp [hone]

end Backlog
