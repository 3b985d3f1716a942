import Mathlib.Data.List.Basic
import Mathlib.Data.List.Nodup

/-!
# Tables of entries searched by a key

A table is a list of entries. A search walks it from the front to the first
entry of a key, and ends at the end of the list where there is none; removing
and changing an entry is done at the place found. Where no two entries have one
key, the table is a partial function of the key.
-/

namespace KeyedTable

variable {ε κ : Type*} [DecidableEq κ] (key : ε → κ)

/-- The place of the first entry of a key, or the end. -/
def place (k : κ) (table : List ε) : Nat := table.findIdx fun e => key e == k

/-- The first entry of a key. -/
def lookup (k : κ) (table : List ε) : Option ε := table[place key k table]?

/-- Removes the first entry of a key. -/
def remove (k : κ) (table : List ε) : List ε := table.eraseIdx (place key k table)

/-- Changes the first entry of a key. -/
def change (k : κ) (f : ε → ε) (table : List ε) : List ε := table.modify (place key k table) f

/-- Puts an entry at the place of the first one of its key, or at the end. -/
def put (e : ε) (table : List ε) : List ε :=
  if place key (key e) table < table.length then table.set (place key (key e) table) e
  else table ++ [e]

/-- No two entries have one key. -/
def Unique (table : List ε) : Prop := (table.map key).Nodup

variable {key} {k : κ} {e a : ε} {table : List ε}

@[simp] theorem lookup_nil : lookup key k [] = none := rfl

theorem place_cons :
    place key k (a :: table) = if key a = k then 0 else place key k table + 1 := by
  by_cases h : key a = k
  · simp [place, List.findIdx_cons, h]
  · simp [place, List.findIdx_cons, h, beq_false_of_ne h]

theorem lookup_cons :
    lookup key k (a :: table) = if key a = k then some a else lookup key k table := by
  rw [lookup, place_cons]
  split <;> rfl

theorem remove_cons :
    remove key k (a :: table) = if key a = k then table else a :: remove key k table := by
  rw [remove, place_cons]
  split <;> rfl

theorem change_cons {f : ε → ε} : change key k f (a :: table) =
    if key a = k then f a :: table else a :: change key k f table := by
  rw [change, place_cons]
  split <;> rfl

theorem lookup_eq_none_iff : lookup key k table = none ↔ k ∉ table.map key := by
  induction table with
  | nil => simp
  | cons a table ih =>
      rw [lookup_cons]
      split
      · rename_i h
        simp [h]
      · rename_i h
        have hne : ¬ k = key a := fun heq => h heq.symm
        simpa [hne] using ih

theorem lookup_isSome_iff : (lookup key k table).isSome = true ↔ k ∈ table.map key := by
  rw [← Option.ne_none_iff_isSome, Ne, lookup_eq_none_iff, not_not]

theorem place_lt_iff : place key k table < table.length ↔ k ∈ table.map key := by
  rw [← lookup_isSome_iff, lookup]
  simp

/-- An entry that is found is one of the table's, and has the key. -/
theorem mem_of_lookup (h : lookup key k table = some e) : e ∈ table ∧ key e = k := by
  induction table with
  | nil => exact absurd h (by simp)
  | cons a table ih =>
      rw [lookup_cons] at h
      split at h
      · rename_i hkey
        obtain rfl := Option.some.inj h
        exact ⟨List.mem_cons_self, hkey⟩
      · obtain ⟨hmem, hkey⟩ := ih h
        exact ⟨List.mem_cons_of_mem a hmem, hkey⟩

/-- Under unique keys every entry is the one found under its key. -/
theorem lookup_of_mem (hunique : Unique key table) (h : e ∈ table) :
    lookup key (key e) table = some e := by
  induction table with
  | nil => exact absurd h (by simp)
  | cons a table ih =>
      obtain ⟨hnew, hrest⟩ := List.nodup_cons.mp hunique
      rw [lookup_cons]
      obtain rfl | hmem := List.mem_cons.mp h
      · simp
      · have hne : key a ≠ key e := fun heq => hnew (heq ▸ List.mem_map_of_mem hmem)
        rw [if_neg hne]
        exact ih hrest hmem

theorem lookup_append :
    lookup key k (table ++ [e]) =
      (lookup key k table).or (if key e = k then some e else none) := by
  induction table with
  | nil => simp [lookup_cons]
  | cons a table ih =>
      rw [List.cons_append, lookup_cons, lookup_cons]
      split
      · rfl
      · exact ih

/-- Changing entries of the table, but not their keys, changes what is found under one key. -/
theorem lookup_change {f : ε → ε} (hkey : ∀ x, key (f x) = key x) (k' : κ) :
    lookup key k' (change key k f table) =
      if k' = k then (lookup key k table).map f else lookup key k' table := by
  induction table with
  | nil => simp [change]
  | cons a table ih =>
      simp only [change_cons, lookup_cons]
      by_cases hk : key a = k
      · by_cases hk' : k' = k
        · simp [lookup_cons, hkey, hk, hk']
        · have hne : ¬ k = k' := fun heq => hk' heq.symm
          simp [lookup_cons, hkey, hk, hk', hne]
      · rw [if_neg hk, lookup_cons, ih]
        by_cases hk' : k' = k
        · simp [hk', hk]
        · simp [hk']

theorem map_change {β : Type*} {f : ε → ε} {g : ε → β} (h : ∀ x, g (f x) = g x) :
    (change key k f table).map g = table.map g := by
  induction table with
  | nil => rfl
  | cons a table ih =>
      rw [change_cons]
      split
      · simp [h]
      · simp [ih]

/-- A key that no entry has removes nothing. -/
theorem remove_of_not_mem (h : k ∉ table.map key) : remove key k table = table := by
  have hend : ¬ place key k table < table.length := fun hlt => h (place_lt_iff.mp hlt)
  exact List.eraseIdx_of_length_le (Nat.not_lt.mp hend)

theorem remove_sublist : (remove key k table).Sublist table := List.eraseIdx_sublist _ _

theorem Unique.remove {κ' : Type*} {key' : ε → κ'} (h : Unique key' table) :
    Unique key' (remove key k table) := h.sublist (remove_sublist.map key')

theorem Unique.append {κ' : Type*} {key' : ε → κ'} (h : Unique key' table)
    (hnew : key' e ∉ table.map key') : Unique key' (table ++ [e]) := by
  unfold Unique at h ⊢
  rw [List.map_append, List.nodup_append]
  refine ⟨h, by simp, fun x hx y hy => ?_⟩
  obtain rfl : y = key' e := by simpa using hy
  rintro rfl
  exact hnew hx

/-- Removing the first entry of a key leaves what is found under the other keys. -/
theorem lookup_remove_of_ne {k' : κ} (hne : k' ≠ k) :
    lookup key k' (remove key k table) = lookup key k' table := by
  induction table with
  | nil => rfl
  | cons a table ih =>
      rw [remove_cons, lookup_cons]
      by_cases hk : key a = k
      · have hne' : ¬ key a = k' := fun heq => hne (heq.symm.trans hk)
        rw [if_pos hk, if_neg hne']
      · rw [if_neg hk, lookup_cons, ih]

/-- Under unique keys a removed key is no longer found. -/
theorem lookup_remove_self (hunique : Unique key table) :
    lookup key k (remove key k table) = none := by
  induction table with
  | nil => rfl
  | cons a table ih =>
      obtain ⟨hnew, hrest⟩ := List.nodup_cons.mp hunique
      rw [remove_cons]
      by_cases hk : key a = k
      · rw [if_pos hk, lookup_eq_none_iff, ← hk]
        exact hnew
      · rw [if_neg hk, lookup_cons, if_neg hk]
        exact ih hrest

theorem lookup_remove (hunique : Unique key table) (k' : κ) :
    lookup key k' (remove key k table) = if k' = k then none else lookup key k' table := by
  by_cases hk' : k' = k
  · rw [if_pos hk', hk', lookup_remove_self hunique]
  · rw [if_neg hk', lookup_remove_of_ne hk']

theorem put_cons : put key e (a :: table) =
    if key a = key e then e :: table else a :: put key e table := by
  rw [put, put, place_cons]
  by_cases hk : key a = key e
  · simp [hk]
  · simp only [if_neg hk, List.length_cons, Nat.add_lt_add_iff_right, List.set_cons_succ,
      List.cons_append]
    split <;> rfl

theorem lookup_put (k : κ) :
    lookup key k (put key e table) = if k = key e then some e else lookup key k table := by
  induction table with
  | nil =>
      have hput : put key e [] = [e] := rfl
      rw [hput, lookup_cons, lookup_nil]
      by_cases hk : key e = k
      · rw [if_pos hk, if_pos hk.symm]
      · rw [if_neg hk, if_neg fun heq => hk heq.symm]
  | cons a table ih =>
      rw [put_cons]
      by_cases ha : key a = key e
      · rw [if_pos ha, lookup_cons, lookup_cons, ha]
        by_cases hk : key e = k
        · rw [if_pos hk, if_pos hk.symm]
        · rw [if_neg hk, if_neg hk, if_neg fun heq => hk heq.symm]
      · rw [if_neg ha, lookup_cons, lookup_cons, ih]
        by_cases hk : key a = k
        · rw [if_pos hk, if_pos hk, if_neg fun heq => ha (hk.trans heq)]
        · rw [if_neg hk, if_neg hk]

theorem mem_keys_put : k ∈ (put key e table).map key ↔ k = key e ∨ k ∈ table.map key := by
  rw [← lookup_isSome_iff, lookup_put, ← lookup_isSome_iff]
  by_cases hk : k = key e
  · simp [hk]
  · simp [hk]

/-- An entry put in place of the one of its key is the only one of the key. -/
theorem Unique.put (h : Unique key table) : Unique key (put key e table) := by
  induction table with
  | nil => simp [KeyedTable.put, Unique]
  | cons a table ih =>
      obtain ⟨hnew, hrest⟩ := List.nodup_cons.mp h
      rw [put_cons]
      by_cases ha : key a = key e
      · rw [if_pos ha]
        exact List.nodup_cons.mpr ⟨ha ▸ hnew, hrest⟩
      · rw [if_neg ha]
        refine List.nodup_cons.mpr ⟨fun hmem => ?_, ih hrest⟩
        obtain heq | hmem := mem_keys_put.mp hmem
        · exact ha heq
        · exact hnew hmem

/-- A change that keeps the key is seen through a map that keeps it. -/
theorem lookup_map {β : Type*} {key' : β → κ} {f : ε → β} (hkey : ∀ x, key' (f x) = key x) :
    lookup key' k (table.map f) = (lookup key k table).map f := by
  induction table with
  | nil => rfl
  | cons a table ih =>
      rw [List.map_cons, lookup_cons, lookup_cons, hkey, ih]
      split <;> rfl

/-- Under unique keys the first entry of a key is its only one. -/
theorem change_eq_map (hunique : Unique key table) (f : ε → ε) :
    change key k f table = table.map fun x => if key x = k then f x else x := by
  induction table with
  | nil => rfl
  | cons a table ih =>
      obtain ⟨hnew, hrest⟩ := List.nodup_cons.mp hunique
      rw [change_cons, List.map_cons]
      by_cases hk : key a = k
      · rw [if_pos hk, if_pos hk]
        have hother : ∀ x ∈ table, (if key x = k then f x else x) = x := by
          intro x hx
          refine if_neg fun heq => ?_
          rw [hk, ← heq] at hnew
          exact hnew (List.mem_map_of_mem hx)
        rw [List.map_congr_left hother, List.map_id']
      · rw [if_neg hk, if_neg hk, ih hrest]

theorem remove_eq_filter (hunique : Unique key table) :
    remove key k table = table.filter fun x => key x ≠ k := by
  induction table with
  | nil => rfl
  | cons a table ih =>
      obtain ⟨hnew, hrest⟩ := List.nodup_cons.mp hunique
      rw [remove_cons]
      by_cases hk : key a = k
      · rw [if_pos hk, List.filter_cons_of_neg (by simp [hk])]
        symm
        apply List.filter_eq_self.mpr
        intro x hx
        have hne : key x ≠ k := by
          intro heq
          rw [hk, ← heq] at hnew
          exact hnew (List.mem_map_of_mem hx)
        simp [hne]
      · rw [if_neg hk, List.filter_cons_of_pos (by simp [hk]), ih hrest]

/-- An entry that is removed counts for one. -/
theorem countP_remove (h : lookup key k table = some e) (q : ε → Bool) :
    table.countP q = (remove key k table).countP q + if q e = true then 1 else 0 := by
  induction table with
  | nil => exact absurd h (by simp)
  | cons a table ih =>
      rw [lookup_cons] at h
      rw [remove_cons]
      by_cases hk : key a = k
      · rw [if_pos hk] at h ⊢
        rw [Option.some.inj h, List.countP_cons]
      · rw [if_neg hk] at h ⊢
        rw [List.countP_cons, List.countP_cons, ih h]
        omega

end KeyedTable
