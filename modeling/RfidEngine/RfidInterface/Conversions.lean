import RfidEngine.Lib.Numerals
import RfidEngine.RfidInterface.TagWrite

/-!
# RfidInterface: numbers printed and read

The commands carry numbers that are printed with `%d`, `%X` or `std::hex`. The
reader's notation is hexadecimal. `strtoul` reads the digits it finds: it takes
a sign, stops at the first character that is no digit, and takes a text without
digits for zero.
-/

namespace RfidEngine.RfidInterface

open Numerals

/-- The conversion `%X`. -/
def upperHex (n : Nat) : Str := (Nat.toDigits 16 n).map Char.toUpper

def ulongMax : Nat := 18446744073709551615

/-- `strtoul`: a number out of range is the bound, and a minus sign wraps the number around. -/
def strtoul (s : Str) (base : Nat) : Nat :=
  let unsigned (s : Str) : Nat :=
    let s := if base = 16 then skipHexPrefix s else s
    (s.takeWhile fun ch => digitValue ch < base).foldl (fun n ch => base * n + digitValue ch) 0
  match ltrim (cStr s) with
  | '-' :: rest =>
      if ulongMax < unsigned rest then ulongMax else (ulongMax + 1 - unsigned rest) % (ulongMax + 1)
  | '+' :: rest => min ulongMax (unsigned rest)
  | s => min ulongMax (unsigned s)

theorem digitValue_digitChar : ∀ d < 16, digitValue d.digitChar = d := by decide

theorem digitValue_toUpper_digitChar : ∀ d < 16, digitValue d.digitChar.toUpper = d := by decide

/-- A number that is printed in hex digits is the number that they denote. -/
theorem hexValue_toDigits (n : Nat) : hexValue (Nat.toDigits 16 n) = n :=
  read_toDigits (by omega) digitValue_digitChar n

theorem hexValue_upperHex (n : Nat) : hexValue (upperHex n) = n :=
  (read_map Char.toUpper _).trans (read_toDigits (by omega) digitValue_toUpper_digitChar n)

theorem digitValue_upperHex {n : Nat} {ch : Char} (h : ch ∈ upperHex n) : digitValue ch < 16 := by
  obtain ⟨d, hd, rfl⟩ := List.mem_map.mp h
  exact @value_lt_of_mem_toDigits 16 (fun ch => digitValue ch.toUpper) (by omega)
    digitValue_toUpper_digitChar _ _ hd

/-- Leading zeros belong to the numeral and do not change its value. -/
theorem leftpad_upperHex (k n : Nat) :
    (∀ ch ∈ (upperHex n).leftpad k '0', digitValue ch < 16) ∧
      hexValue ((upperHex n).leftpad k '0') = n := by
  constructor
  · intro ch hch
    rw [List.leftpad, List.mem_append] at hch
    obtain hzero | hdigit := hch
    · rw [List.eq_of_mem_replicate hzero]
      decide
    · exact digitValue_upperHex hdigit
  · exact (read_replicate_append rfl _ _).trans (hexValue_upperHex n)

/-- A 32-bit number has eight hex digits at most. -/
theorem length_leftpad_upperHex {k n : Nat} (hk : k ≤ 8) (hn : n < 4294967296) :
    ((upperHex n).leftpad k '0').length ≤ 8 := by
  have hlen : (upperHex n).length ≤ 8 := by
    rw [upperHex, List.length_map]
    exact (Nat.length_toDigits_le_iff (by omega) (by omega)).mpr (by omega)
  rw [List.leftpad, List.length_append, List.length_replicate]
  omega

theorem toUnsigned_lt (n : Int) : toUnsigned n < 4294967296 := by
  unfold toUnsigned
  omega

theorem digitValue_toDigits {n : Nat} {ch : Char} (h : ch ∈ Nat.toDigits 10 n) :
    digitValue ch < 10 :=
  value_lt_of_mem_toDigits (by omega) (fun d hd => digitValue_digitChar d (by omega)) h

theorem read_decimal (n : Nat) : read 10 digitValue (Nat.toDigits 10 n) = n :=
  read_toDigits (by omega) (fun d hd => digitValue_digitChar d (by omega)) n

/-- A number is printed as its digits, behind a minus sign where it is negative. -/
theorem decimal_cases (n : Int) :
    (∃ m : Nat, n = m ∧ decimal n = Nat.toDigits 10 m) ∨
      ∃ m : Nat, 0 < m ∧ n = -(m : Int) ∧ decimal n = '-' :: Nat.toDigits 10 m := by
  cases n with
  | ofNat m => exact .inl ⟨m, rfl, decimal_natCast m⟩
  | negSucc m =>
      refine .inr ⟨m + 1, Nat.succ_pos m, rfl, ?_⟩
      have htext : decimal (Int.negSucc m) = ("-" ++ (m + 1).repr).toList := rfl
      rw [htext, String.toList_append, Nat.toList_repr]
      rfl

/-- Reading digit by digit gives the number that the digits denote. -/
theorem foldl_eq_read (base : Nat) (w : Str) :
    w.foldl (fun n ch => base * n + digitValue ch) 0 = read base digitValue w := by
  induction w using List.reverseRecOn with
  | nil => rfl
  | append_singleton w ch ih =>
      rw [List.foldl_append, ih, read_snoc]
      exact Nat.add_comm _ _

theorem strtoul_of_digits {base : Nat} (hbase : base ≤ 36) {w : Str}
    (hw : ∀ ch ∈ w, digitValue ch < base) :
    strtoul w base = min ulongMax (read base digitValue w) := by
  obtain ⟨htext, hsign, hskip, hdigits⟩ := bare_of_digits hbase hw
  unfold strtoul
  rw [htext]
  simp only
  split
  · exact absurd rfl (hsign '-' _ rfl)
  · exact absurd rfl (hsign '+' _ rfl)
  · rw [hskip, hdigits, foldl_eq_read]

/-- A number behind a minus sign is read as its complement. -/
theorem strtoul_minus {base : Nat} (hbase : base ≤ 36) {w : Str}
    (hw : ∀ ch ∈ w, digitValue ch < base) (hpos : 0 < read base digitValue w)
    (hle : read base digitValue w ≤ ulongMax) :
    strtoul ('-' :: w) base = ulongMax + 1 - read base digitValue w := by
  obtain ⟨-, -, hskip, hdigits⟩ := bare_of_digits hbase hw
  have hzero : '\x00' ∉ '-' :: w := by
    rw [List.mem_cons, not_or]
    exact ⟨by decide, fun h => ne_of_digitValue hbase (hw _ h) rfl rfl⟩
  have htrim : ltrim (cStr ('-' :: w)) = '-' :: w := by
    rw [cStr_eq_self hzero]
    rfl
  unfold strtoul
  rw [htrim]
  simp only
  rw [hskip, hdigits, foldl_eq_read, if_neg (Nat.not_lt.mpr hle)]
  exact Nat.mod_eq_of_lt (by omega)

end RfidEngine.RfidInterface
