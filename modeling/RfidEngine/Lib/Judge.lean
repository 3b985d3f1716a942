import Mathlib.Data.List.Basic
import Mathlib.Data.List.Infix

/-!
# Windows of a stateful judge

A judge reads a sequence one element at a time, keeps a state and says of each
element whether it finishes the sequence. The window of a sequence ends with
the first element that does.
-/

namespace Judge

variable {ρ α : Type*} (judge : ρ → α → ρ × Bool)

/-- The judge's state after a sequence. -/
def final (x : ρ) : List α → ρ
  | [] => x
  | a :: l => final (judge x a).1 l

/-- Some element of the sequence finished it. -/
def finished (x : ρ) : List α → Bool
  | [] => false
  | a :: l => (judge x a).2 || finished (judge x a).1 l

/-- The sequence up to and including the first element that finishes it. -/
def window (x : ρ) : List α → List α
  | [] => []
  | a :: l => if (judge x a).2 then [a] else a :: window (judge x a).1 l

theorem final_append (x : ρ) (l m : List α) :
    final judge x (l ++ m) = final judge (final judge x l) m := by
  induction l generalizing x with
  | nil => rfl
  | cons a l ih => exact ih _

theorem finished_append (x : ρ) (l m : List α) :
    finished judge x (l ++ m) = (finished judge x l || finished judge (final judge x l) m) := by
  induction l generalizing x with
  | nil => rfl
  | cons a l ih => simp only [List.cons_append, finished, final, ih, Bool.or_assoc]

@[simp] theorem final_snoc (x : ρ) (l : List α) (a : α) :
    final judge x (l ++ [a]) = (judge (final judge x l) a).1 := by
  rw [final_append]
  rfl

@[simp] theorem finished_snoc (x : ρ) (l : List α) (a : α) :
    finished judge x (l ++ [a]) = (finished judge x l || (judge (final judge x l) a).2) := by
  rw [finished_append]
  simp [finished]

theorem window_prefix (x : ρ) (l : List α) : window judge x l <+: l := by
  induction l generalizing x with
  | nil => exact List.nil_prefix
  | cons a l ih =>
      simp only [window]
      split
      · exact (List.prefix_cons_inj a).mpr List.nil_prefix
      · exact (List.prefix_cons_inj a).mpr (ih _)

/-- Before the end of the window every further element extends it. -/
theorem window_snoc {x : ρ} {l : List α} (h : finished judge x l = false) (a : α) :
    window judge x (l ++ [a]) = l ++ [a] := by
  induction l generalizing x with
  | nil => simp [window]
  | cons b l ih =>
      simp only [finished, Bool.or_eq_false_iff] at h
      simp [window, h.1, ih h.2]

/-- After the end of the window nothing extends it. -/
theorem window_append {x : ρ} {l : List α} (h : finished judge x l = true) (m : List α) :
    window judge x (l ++ m) = window judge x l := by
  induction l generalizing x with
  | nil => simp [finished] at h
  | cons b l ih =>
      by_cases hb : (judge x b).2 = true
      · simp [window, hb]
      · have hl : finished judge (judge x b).1 l = true := by simpa [finished, hb] using h
        simp [window, hb, ih hl]

/-- Before the end of the window every element read belongs to it. -/
theorem length_lt_window {x : ρ} {l : List α} (h : finished judge x l = false) (a : α)
    (m : List α) : l.length < (window judge x (l ++ a :: m)).length := by
  induction l generalizing x with
  | nil =>
      simp only [List.nil_append, window]
      split <;> simp
  | cons b l ih =>
      simp only [finished, Bool.or_eq_false_iff] at h
      simpa [window, h.1] using ih h.2

end Judge
