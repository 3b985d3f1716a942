import Mathlib.Data.List.Basic
import Mathlib.Data.List.TakeWhile

/-!
# Terminated texts in arrays of fixed size

A text kept in memory ends at the first terminator found from its start on,
wherever that is. Copying a fixed number of symbols from a terminated text
into an array keeps the terminator only if the text is shorter than the array.
-/

namespace CharArray

variable {α : Type*} [DecidableEq α] (nul : α)

/-- The text that starts at the head of the memory. -/
def text (memory : List α) : List α := memory.takeWhile fun a => decide (a ≠ nul)

theorem not_mem_text (memory : List α) : nul ∉ text nul memory := by
  intro h
  simpa using List.mem_takeWhile_imp h

variable {nul}

/-- A text whose terminator is inside a first part does not look beyond it. -/
theorem text_append_of_mem {front : List α} (h : nul ∈ front) (back : List α) :
    text nul (front ++ back) = text nul front := by
  induction front with
  | nil => simp at h
  | cons a front ih =>
      obtain rfl | hne := eq_or_ne a nul
      · simp [text]
      · have hfront : nul ∈ front := (List.mem_cons.mp h).resolve_left hne.symm
        simpa [text, hne] using ih hfront

/-- A first part without a terminator belongs to the text. -/
theorem text_append_of_not_mem {front : List α} (h : nul ∉ front) (back : List α) :
    text nul (front ++ back) = front ++ text nul back := by
  induction front with
  | nil => rfl
  | cons a front ih =>
      simp only [List.mem_cons, not_or] at h
      simpa [text, Ne.symm h.1] using ih h.2

@[simp] theorem text_cons_nul (back : List α) : text nul (nul :: back) = [] := by
  simp [text]

@[simp] theorem text_eq_nil_iff {a : α} {back : List α} : text nul (a :: back) = [] ↔ a = nul := by
  simp [text, List.takeWhile_cons]

end CharArray

/-- An array of `n` symbols. -/
structure CharArray (α : Type*) (n : Nat) where
  cells : List α
  length_eq : cells.length = n
  deriving DecidableEq

namespace CharArray

variable {α : Type*} [DecidableEq α] {nul : α} {n : Nat}

/-- Copying `n` symbols from a terminated text, with what lies behind its terminator. -/
def memcpy (nul : α) (source : List α) (behind : CharArray α n) : CharArray α n where
  cells := (source ++ nul :: behind.cells).take n
  length_eq := by
    have h := behind.length_eq
    simp only [List.length_take, List.length_append, List.length_cons]
    omega

omit [DecidableEq α] in
/-- A text shorter than the array is copied with its terminator. -/
theorem memcpy_of_lt (nul : α) {source : List α} (h : source.length < n) (behind : CharArray α n) :
    ∃ junk, (memcpy nul source behind).cells = source ++ nul :: junk := by
  obtain ⟨k, hk⟩ := Nat.exists_eq_add_of_lt h
  refine ⟨behind.cells.take k, ?_⟩
  have hn : n - source.length = k + 1 := by omega
  simp [memcpy, List.take_append, List.take_of_length_le h.le, hn]

omit [DecidableEq α] in
/-- Of a text as long as the array or longer the terminator is lost. -/
theorem memcpy_of_le {source : List α} (h : n ≤ source.length) (behind : CharArray α n) :
    (memcpy nul source behind).cells = source.take n := by
  simp [memcpy, List.take_append_of_le_length h]

omit [DecidableEq α] in
theorem nul_mem_memcpy {source : List α} (h : source.length < n) (behind : CharArray α n) :
    nul ∈ (memcpy nul source behind).cells := by
  obtain ⟨junk, hcells⟩ := memcpy_of_lt nul h behind
  simp [hcells]

/-- The copy of a short text reads as the text, whatever follows the array. -/
theorem text_memcpy_of_lt {source : List α} (hnul : nul ∉ source) (h : source.length < n)
    (behind : CharArray α n) (back : List α) :
    text nul ((memcpy nul source behind).cells ++ back) = source := by
  obtain ⟨junk, hcells⟩ := memcpy_of_lt nul h behind
  rw [hcells, List.append_assoc, text_append_of_not_mem hnul, List.cons_append, text_cons_nul,
    List.append_nil]

/-- The copy of a long text reads on into what follows the array. -/
theorem text_memcpy_of_le {source : List α} (hnul : nul ∉ source) (h : n ≤ source.length)
    (behind : CharArray α n) (back : List α) :
    text nul ((memcpy nul source behind).cells ++ back) = source.take n ++ text nul back := by
  rw [memcpy_of_le h, text_append_of_not_mem]
  exact fun hmem => hnul (List.mem_of_mem_take hmem)

end CharArray
