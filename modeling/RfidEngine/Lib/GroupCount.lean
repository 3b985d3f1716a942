import Mathlib

/-!
# Counting by first-match groups

Items arrive one at a time. An item with a key is counted in the first group
of that key, or opens one at the end; an item without a key always opens a
group that no later item is counted in. The groups then hold the multiset
count of the keys, and two items share a group exactly when they share a key.
-/

namespace GroupCount

variable {κ : Type*} [DecidableEq κ]

/-- Groups with their counts, in the order in which they were opened. -/
abbrev Groups (κ : Type*) := List (Option κ × Int)

/-- The place of the group that an item is counted in, or that it opens. -/
def slot (groups : Groups κ) : Option κ → Nat
  | some k => (groups.map Prod.fst).idxOf (some k)
  | none => groups.length

/-- The groups after an item. -/
def add (groups : Groups κ) (item : Option κ) : Groups κ :=
  if slot groups item < groups.length then
    groups.modify (slot groups item) fun g => (g.1, g.2 + 1)
  else groups ++ [(item, 1)]

def tally (items : List (Option κ)) : Groups κ := items.foldl add []

/-- What is counted under a key. -/
def total (groups : Groups κ) (k : κ) : Int :=
  (groups.map fun g => if g.1 = some k then g.2 else 0).sum

theorem tally_snoc (items : List (Option κ)) (item : Option κ) :
    tally (items ++ [item]) = add (tally items) item := by
  simp [tally]

theorem slot_lt_iff {groups : Groups κ} {k : κ} :
    slot groups (some k) < groups.length ↔ some k ∈ groups.map Prod.fst := by
  rw [slot, ← List.idxOf_lt_length_iff, List.length_map]

/-- Adding an item keeps the keys and opens at most one group at the end. -/
theorem keys_add (groups : Groups κ) (item : Option κ) :
    (add groups item).map Prod.fst =
      if slot groups item < groups.length then groups.map Prod.fst
      else groups.map Prod.fst ++ [item] := by
  unfold add
  split
  · apply List.ext_getElem
    · simp
    · intro i h₁ h₂
      simp only [List.getElem_map, List.getElem_modify]
      split <;> rfl
  · simp

theorem keys_prefix_tally (items more : List (Option κ)) :
    (tally items).map Prod.fst <+: (tally (items ++ more)).map Prod.fst := by
  induction more using List.reverseRecOn with
  | nil => simp
  | append_singleton more item ih =>
      rw [← List.append_assoc, tally_snoc, keys_add]
      split
      · exact ih
      · exact ih.trans (List.prefix_append _ _)

theorem mem_keys_add (groups : Groups κ) (k : κ) :
    some k ∈ (add groups (some k)).map Prod.fst := by
  rw [keys_add]
  split
  · exact slot_lt_iff.mp ‹_›
  · simp

/-- An item is counted in the place that later items of its key are counted in. -/
theorem slot_add_self (groups : Groups κ) (k : κ) :
    slot (add groups (some k)) (some k) = slot groups (some k) := by
  have hkeys := keys_add groups (some k)
  by_cases h : slot groups (some k) < groups.length
  · rw [if_pos h] at hkeys
    simp only [slot, hkeys]
  · have hnew : some k ∉ groups.map Prod.fst := fun hmem => h (slot_lt_iff.mpr hmem)
    rw [if_neg h] at hkeys
    simp only [slot, hkeys, List.idxOf_append_of_notMem hnew, List.idxOf_cons_self,
      Nat.add_zero, List.idxOf_eq_length hnew]

theorem slot_tally_append {items : List (Option κ)} {k : κ}
    (h : some k ∈ (tally items).map Prod.fst) (more : List (Option κ)) :
    slot (tally (items ++ more)) (some k) = slot (tally items) (some k) := by
  obtain ⟨rest, hrest⟩ := keys_prefix_tally items more
  rw [slot, slot, ← hrest, List.idxOf_append_of_mem h]

/-- Two items with keys are counted in the same group exactly when their keys are equal. -/
theorem slot_eq_iff (before between : List (Option κ)) (k k' : κ) :
    slot (tally before) (some k) = slot (tally (before ++ some k :: between)) (some k') ↔
      k = k' := by
  have hmem : some k ∈ (tally (before ++ [some k])).map Prod.fst := by
    rw [tally_snoc]
    exact mem_keys_add _ k
  have hfirst : slot (tally (before ++ [some k] ++ between)) (some k) =
      slot (tally before) (some k) := by
    rw [slot_tally_append hmem, tally_snoc, slot_add_self]
  have hlater : some k ∈ (tally (before ++ [some k] ++ between)).map Prod.fst :=
    (keys_prefix_tally _ between).subset hmem
  rw [List.append_cons, ← hfirst, slot, slot, List.idxOf_inj hlater, Option.some.injEq]

/-- The sum over a list in which one element changes. -/
theorem sum_map_modify {α : Type*} {l : List α} {i : Nat} (hi : i < l.length) (f : α → Int)
    (change : α → α) {d : Int} (h : f (change l[i]) = f l[i] + d) :
    ((l.modify i change).map f).sum = (l.map f).sum + d := by
  have hsplit : l.map f = (l.take i).map f ++ f l[i] :: (l.drop (i + 1)).map f := by
    rw [← List.map_cons, ← List.drop_eq_getElem_cons hi, ← List.map_append,
      List.take_append_drop]
  calc ((l.modify i change).map f).sum
      = ((l.take i).map f).sum + (f (change l[i]) + ((l.drop (i + 1)).map f).sum) := by
        rw [List.modify_eq_take_cons_drop hi]
        simp
    _ = ((l.take i).map f).sum + (f l[i] + ((l.drop (i + 1)).map f).sum) + d := by
        rw [h]
        omega
    _ = (l.map f).sum + d := by
        rw [hsplit, List.sum_append, List.sum_cons]

theorem total_add (groups : Groups κ) (item : Option κ) (k : κ) :
    total (add groups item) k = total groups k + if item = some k then 1 else 0 := by
  unfold add
  split
  · rename_i h
    refine sum_map_modify h _ _ ?_
    cases item with
    | none => exact absurd h (Nat.lt_irrefl _)
    | some k' =>
        have hkey : groups[slot groups (some k')].1 = some k' := by
          have hlt : (groups.map Prod.fst).idxOf (some k') < (groups.map Prod.fst).length := by
            simpa [slot] using h
          have hfound := List.getElem_idxOf hlt
          rwa [List.getElem_map] at hfound
        simp only [hkey]
        split <;> simp
  · simp [total]

/-- A key's total is the number of its items. -/
theorem total_tally (items : List (Option κ)) (k : κ) :
    total (tally items) k = items.count (some k) := by
  induction items using List.reverseRecOn with
  | nil => rfl
  | append_singleton items item ih =>
      rw [tally_snoc, total_add, ih, List.count_append, List.count_singleton]
      by_cases h : item = some k
      · simp [h]
      · simp [h]

end GroupCount
