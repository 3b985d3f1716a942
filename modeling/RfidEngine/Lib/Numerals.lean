import Mathlib.Data.List.Induction
import Mathlib.Data.Nat.Digits.Defs

/-!
# Numerals

A text is read as a number by the value of its characters. A number that is
printed in a base and read in it comes back; read in a larger base, a number of
one digit comes back and every other is read as a larger one.
-/

namespace Numerals

/-- The number that a text denotes. -/
def read (base : Nat) (value : Char → Nat) (w : List Char) : Nat :=
  Nat.ofDigits base (w.map value).reverse

variable {base : Nat} {value : Char → Nat}

@[simp] theorem read_nil : read base value [] = 0 := rfl

@[simp] theorem read_snoc (w : List Char) (ch : Char) :
    read base value (w ++ [ch]) = value ch + base * read base value w := by
  rw [read, List.map_append, List.map_singleton, List.reverse_append, List.reverse_singleton,
    List.singleton_append, Nat.ofDigits_cons]
  rfl

/-- Zeros in front of a numeral do not count. -/
theorem read_replicate_append {zero : Char} (hzero : value zero = 0) (k : Nat) (w : List Char) :
    read base value (List.replicate k zero ++ w) = read base value w := by
  induction w using List.reverseRecOn with
  | nil =>
      rw [List.append_nil]
      induction k with
      | zero => rfl
      | succ k ih => simp [List.replicate_succ', hzero, ih]
  | append_singleton w ch ih => rw [← List.append_assoc, read_snoc, read_snoc, ih]

theorem read_map (f : Char → Char) (w : List Char) :
    read base value (w.map f) = read base (fun ch => value (f ch)) w := by
  rw [read, List.map_map]
  rfl

/-- The bits of a number are its digits in base two, the lowest first. -/
theorem testBit_ofDigits (bits : List Bool) (k : Nat) :
    (Nat.ofDigits 2 (bits.map Bool.toNat)).testBit k = bits.getD k false := by
  induction bits generalizing k with
  | nil => simp
  | cons bit bits ih =>
      rw [List.map_cons, Nat.ofDigits_cons]
      cases k with
      | zero => cases bit <;> simp [Nat.testBit_zero, Nat.add_mod]
      | succ k =>
          have hdiv : (bit.toNat + 2 * Nat.ofDigits 2 (bits.map Bool.toNat)) / 2 =
              Nat.ofDigits 2 (bits.map Bool.toNat) := by
            have hbit := bit.toNat_lt
            omega
          rw [Nat.testBit_succ, hdiv, ih, List.getD_cons_succ]

section Printed

variable (hbase : 1 < base) (hvalue : ∀ d < base, value d.digitChar = d)
include hbase hvalue

/-- What is printed in a base is read in it. -/
theorem read_toDigits (n : Nat) : read base value (Nat.toDigits base n) = n := by
  induction n using Nat.strongRecOn with
  | ind n ih =>
      by_cases hn : n < base
      · rw [Nat.toDigits_of_lt_base hn, ← List.nil_append [n.digitChar], read_snoc, hvalue n hn,
          read_nil, Nat.mul_zero, Nat.add_zero]
      · have hdiv : n / base < n := Nat.div_lt_self (by omega) hbase
        rw [Nat.toDigits_of_base_le hbase (by omega), read_snoc, ih _ hdiv,
          hvalue _ (Nat.mod_lt n (by omega)), Nat.mod_add_div]

/-- What is printed in a base is no smaller in a larger one. -/
theorem le_read_toDigits {larger : Nat} (hlarger : base ≤ larger) (n : Nat) :
    n ≤ read larger value (Nat.toDigits base n) := by
  induction n using Nat.strongRecOn with
  | ind n ih =>
      by_cases hn : n < base
      · rw [Nat.toDigits_of_lt_base hn, ← List.nil_append [n.digitChar], read_snoc, hvalue n hn]
        omega
      · have hdiv := ih (n / base) (Nat.div_lt_self (by omega) hbase)
        rw [Nat.toDigits_of_base_le hbase (by omega), read_snoc,
          hvalue _ (Nat.mod_lt n (by omega))]
        calc n = n % base + base * (n / base) := (Nat.mod_add_div n base).symm
          _ ≤ n % base + larger * read larger value (Nat.toDigits base (n / base)) :=
            Nat.add_le_add_left (Nat.mul_le_mul hlarger hdiv) _

/-- Two digits or more are read as a larger number in a larger base. -/
theorem lt_read_toDigits {larger n : Nat} (hlarger : base < larger) (hn : base ≤ n) :
    n < read larger value (Nat.toDigits base n) := by
  have hdiv := le_read_toDigits hbase hvalue (Nat.le_of_lt hlarger) (n / base)
  have hpos : 0 < n / base := Nat.div_pos hn (by omega)
  rw [Nat.toDigits_of_base_le hbase hn, read_snoc, hvalue _ (Nat.mod_lt n (by omega))]
  calc n = n % base + base * (n / base) := (Nat.mod_add_div n base).symm
    _ < n % base + larger * (n / base) :=
      Nat.add_lt_add_left (Nat.mul_lt_mul_of_pos_right hlarger hpos) _
    _ ≤ n % base + larger * read larger value (Nat.toDigits base (n / base)) :=
      Nat.add_le_add_left (Nat.mul_le_mul_left larger hdiv) _

/-- Every character that is printed is a digit of the base. -/
theorem value_lt_of_mem_toDigits {n : Nat} {ch : Char} (h : ch ∈ Nat.toDigits base n) :
    value ch < base := by
  induction n using Nat.strongRecOn with
  | ind n ih =>
      by_cases hn : n < base
      · rw [Nat.toDigits_of_lt_base hn, List.mem_singleton] at h
        rw [h, hvalue n hn]
        exact hn
      · have hmod : n % base < base := Nat.mod_lt n (by omega)
        rw [Nat.toDigits_of_base_le hbase (by omega), List.mem_append, List.mem_singleton] at h
        obtain h | rfl := h
        · exact ih _ (Nat.div_lt_self (by omega) hbase) h
        · rw [hvalue _ hmod]
          exact hmod

end Printed

end Numerals
