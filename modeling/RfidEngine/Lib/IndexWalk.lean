import Mathlib.Data.List.Basic
import Mathlib.Data.List.Nodup

/-!
# Walking a list by index while it changes

A walk visits the item at its index and moves the index on. Between two visits
items are appended and erased; erasing an item that the index has passed moves
the following items towards the front. The items that were there when the walk
started and have stayed are kept beside it.
-/

namespace IndexWalk

variable {α : Type*}

structure Walk (α : Type*) where
  items : List α
  index : Nat
  kept : List α
  visited : List α

namespace Walk

def start (items : List α) : Walk α := ⟨items, 0, items, []⟩

def visit (w : Walk α) (a : α) : Walk α :=
  { w with index := w.index + 1, visited := w.visited ++ [a] }

def append (w : Walk α) (a : α) : Walk α := { w with items := w.items ++ [a] }

def erase [DecidableEq α] (w : Walk α) (a : α) : Walk α :=
  { w with items := w.items.erase a, kept := w.kept.erase a }

/-- No item is there twice, and the items that stayed are there. -/
structure WellFormed (w : Walk α) : Prop where
  nodup : w.items.Nodup
  kept : w.kept.Sublist w.items

/-- Of the items that stayed, those that the index has passed were visited once, and the
others not yet. -/
def Exact [DecidableEq α] (w : Walk α) : Prop :=
  ∀ x ∈ w.kept, w.visited.count x = if x ∈ w.items.take w.index then 1 else 0

/-- The next item to be visited has been there from the start and would be passed over. -/
def Shifts (w : Walk α) (a : α) : Prop :=
  a ∈ w.items.take w.index ∧ ∃ x ∈ w.kept, w.items[w.index]? = some x

instance [DecidableEq α] (w : Walk α) (a : α) : Decidable (w.Shifts a) :=
  inferInstanceAs (Decidable (_ ∧ ∃ x ∈ w.kept, w.items[w.index]? = some x))

variable {w : Walk α} {a x : α}

theorem WellFormed.start {items : List α} (h : items.Nodup) : (start items).WellFormed :=
  ⟨h, List.Sublist.refl items⟩

theorem WellFormed.visit (h : w.WellFormed) : (w.visit a).WellFormed := ⟨h.nodup, h.kept⟩

theorem WellFormed.append (h : w.WellFormed) (hnew : a ∉ w.items) : (w.append a).WellFormed where
  nodup := by
    rw [Walk.append, List.nodup_append]
    refine ⟨h.nodup, List.nodup_singleton a, fun x hx y hy => ?_⟩
    obtain rfl := List.mem_singleton.mp hy
    rintro rfl
    exact hnew hx
  kept := h.kept.trans (List.sublist_append_left _ _)

/-- The item at the index is none of those that the index has passed. -/
theorem WellFormed.not_mem_take (h : w.WellFormed) (hx : w.items[w.index]? = some x) :
    x ∉ w.items.take w.index := by
  have hnodup := h.nodup.sublist (List.take_sublist (w.index + 1) w.items)
  rw [List.take_add_one, hx, Option.toList_some, List.nodup_append] at hnodup
  intro hmem
  exact hnodup.2.2 x hmem x List.mem_cons_self rfl

variable [DecidableEq α]

theorem WellFormed.erase (h : w.WellFormed) : (w.erase a).WellFormed :=
  ⟨h.nodup.erase a, h.kept.erase a⟩

/-- Erasing an item lets the index pass the item it points to, if the erased one was passed. -/
theorem mem_take_erase_iff {items : List α} {i : Nat} (hne : x ≠ a) :
    x ∈ (items.erase a).take i ↔
      x ∈ items.take i ∨ (a ∈ items.take i ∧ items[i]? = some x) := by
  induction items generalizing i with
  | nil => simp
  | cons b items ih =>
      cases i with
      | zero => simp
      | succ n =>
          by_cases hb : b = a
          · subst hb
            simp only [List.erase_cons_head, List.take_succ_cons, List.getElem?_cons_succ,
              List.mem_cons, hne, false_or, true_or, true_and]
            rw [List.take_add_one, List.mem_append, Option.mem_toList]
          · have hb' : ¬ a = b := fun heq => hb heq.symm
            simp [List.erase_cons_tail, hb, hb', ih, or_assoc]

theorem exact_start {items : List α} : (start items).Exact := by
  intro x _
  simp [start]

/-- A visit to the item at the index. -/
theorem Exact.visit (h : w.Exact) (hw : w.WellFormed) (ha : w.items[w.index]? = some a) :
    (w.visit a).Exact := by
  intro x hx
  have hx' := h x hx
  have htake : w.items.take (w.index + 1) = w.items.take w.index ++ [a] := by
    rw [List.take_add_one, ha, Option.toList_some]
  have hnew : a ∉ w.items.take w.index := hw.not_mem_take ha
  change (w.visited ++ [a]).count x = if x ∈ w.items.take (w.index + 1) then 1 else 0
  rw [htake, List.count_append, hx']
  by_cases hxa : x = a
  · subst hxa
    simp [hnew]
  · have hax : ¬ a = x := fun heq => hxa heq.symm
    simp [hxa, hax]

/-- A new item is none of those that stayed. -/
theorem Exact.append (h : w.Exact) (hw : w.WellFormed) (hnew : a ∉ w.items) :
    (w.append a).Exact := by
  intro x hx
  have hxa : x ≠ a := by
    rintro rfl
    exact hnew (hw.kept.subset hx)
  have hsingle : x ∉ [a].take (w.index - w.items.length) := by
    intro hmem
    exact hxa (List.mem_singleton.mp (List.mem_of_mem_take hmem))
  calc
    w.visited.count x = if x ∈ w.items.take w.index then 1 else 0 := h x hx
    _ = if x ∈ (w.items ++ [a]).take w.index then 1 else 0 := by
      simp only [List.take_append, List.mem_append, hsingle, or_false]

/-- An erasure keeps the walk exact unless it moves an item that stayed in front of the index. -/
theorem Exact.erase_iff (h : w.Exact) (hw : w.WellFormed) :
    (w.erase a).Exact ↔ ¬ w.Shifts a := by
  have hkept : ∀ x, x ∈ w.kept.erase a ↔ x ≠ a ∧ x ∈ w.kept :=
    fun x => (hw.nodup.sublist hw.kept).mem_erase_iff
  constructor
  · rintro herase ⟨ha, x, hx, hindex⟩
    have hahead : x ∉ w.items.take w.index := hw.not_mem_take hindex
    have hxa : x ≠ a := by
      rintro rfl
      exact hahead ha
    have hpassed := (mem_take_erase_iff hxa).mpr (Or.inr ⟨ha, hindex⟩)
    have hcount : w.visited.count x = 1 := by
      have hx' := herase x ((hkept x).mpr ⟨hxa, hx⟩)
      rwa [Walk.erase, if_pos hpassed] at hx'
    have hzero := h x hx
    rw [if_neg hahead, hcount] at hzero
    exact absurd hzero (by simp)
  · intro hshift x hx
    obtain ⟨hxa, hx'⟩ := (hkept x).mp hx
    have hsame : x ∈ (w.items.erase a).take w.index ↔ x ∈ w.items.take w.index := by
      rw [mem_take_erase_iff hxa]
      constructor
      · rintro (hmem | ⟨ha, hindex⟩)
        · exact hmem
        · exact absurd ⟨ha, x, hx', hindex⟩ hshift
      · exact Or.inl
    calc
      w.visited.count x = if x ∈ w.items.take w.index then 1 else 0 := h x hx'
      _ = if x ∈ (w.items.erase a).take w.index then 1 else 0 := by simp only [hsame]

/-- At the end of an exact walk every item that stayed was visited once. -/
theorem Exact.count_eq_one (h : w.Exact) (hw : w.WellFormed) (hend : w.items.length ≤ w.index)
    (hx : x ∈ w.kept) : w.visited.count x = 1 := by
  rw [h x hx, List.take_of_length_le hend, if_pos (hw.kept.subset hx)]

end Walk

end IndexWalk
