import Mathlib

/-!
# The Gregorian calendar

Days are counted from 1970-01-01, in both directions. A date is a day of a
month of a year, with months and days counted from 0; the days and the dates
are in one-to-one correspondence.
-/

namespace Calendar

/-- The stretch that a place is in, and how far into it. -/
def locate : List Nat → Nat → Nat × Nat
  | [], k => (0, k)
  | len :: lens, k =>
      if k < len then (0, k) else ((locate lens (k - len)).1 + 1, (locate lens (k - len)).2)

/-- The place of a position in a stretch. -/
def offset (lens : List Nat) (i j : Nat) : Nat := (lens.take i).sum + j

@[simp] theorem offset_zero (lens : List Nat) (j : Nat) : offset lens 0 j = j := by
  simp [offset]

@[simp] theorem offset_cons_succ (len : Nat) (lens : List Nat) (i j : Nat) :
    offset (len :: lens) (i + 1) j = len + offset lens i j := by
  simp [offset, Nat.add_assoc]

theorem offset_lt_sum {lens : List Nat} {i j : Nat} (h : j < lens.getD i 0) :
    offset lens i j < lens.sum := by
  induction lens generalizing i with
  | nil => simp at h
  | cons len lens ih =>
      rw [List.sum_cons]
      cases i with
      | zero =>
          rw [List.getD_cons_zero] at h
          rw [offset_zero]
          omega
      | succ i =>
          rw [List.getD_cons_succ] at h
          rw [offset_cons_succ]
          exact Nat.add_lt_add_left (ih h) len

theorem locate_offset {lens : List Nat} {i j : Nat} (h : j < lens.getD i 0) :
    locate lens (offset lens i j) = (i, j) := by
  induction lens generalizing i with
  | nil => simp at h
  | cons len lens ih =>
      cases i with
      | zero =>
          rw [List.getD_cons_zero] at h
          rw [offset_zero, locate, if_pos h]
      | succ i =>
          rw [List.getD_cons_succ] at h
          rw [offset_cons_succ, locate, if_neg (by omega), Nat.add_sub_cancel_left, ih h]

/-- A place within the stretches is found in one of them. -/
theorem locate_spec {lens : List Nat} {k : Nat} (h : k < lens.sum) :
    (locate lens k).2 < lens.getD (locate lens k).1 0 ∧
      offset lens (locate lens k).1 (locate lens k).2 = k := by
  induction lens generalizing k with
  | nil => simp at h
  | cons len lens ih =>
      rw [List.sum_cons] at h
      by_cases hk : k < len
      · rw [locate, if_pos hk]
        exact ⟨hk, offset_zero _ _⟩
      · obtain ⟨hlt, hoffset⟩ := ih (k := k - len) (by omega)
        rw [locate, if_neg hk]
        refine ⟨hlt, ?_⟩
        rw [offset_cons_succ, hoffset]
        omega

def IsLeap (y : Int) : Prop := y % 4 = 0 ∧ (y % 100 = 0 → y % 400 = 0)

instance (y : Int) : Decidable (IsLeap y) := inferInstanceAs (Decidable (_ ∧ _))

/-- The first day of a year. -/
def yearStart (y : Int) : Int :=
  365 * (y - 1970) + ((y - 1) / 4 - (y - 1) / 100 + (y - 1) / 400 - 477)

theorem yearStart_succ (y : Int) :
    yearStart (y + 1) = yearStart y + if IsLeap y then 366 else 365 := by
  by_cases h : IsLeap y
  · rw [if_pos h]
    unfold IsLeap at h
    unfold yearStart
    omega
  · rw [if_neg h]
    unfold IsLeap at h
    unfold yearStart
    omega

theorem yearStart_strictMono : StrictMono yearStart := by
  refine strictMono_int_of_lt_succ fun y => ?_
  rw [yearStart_succ]
  split <;> omega

/-- The year of a day: the mean length of a year leads to it or next to it. -/
def yearOf (n : Int) : Int :=
  let y := 1970 + n * 400 / 146097
  if n < yearStart y then y - 1 else if yearStart (y + 1) ≤ n then y + 1 else y

theorem yearOf_spec (n : Int) : yearStart (yearOf n) ≤ n ∧ n < yearStart (yearOf n + 1) := by
  unfold yearOf
  simp only
  split
  · rename_i h
    rw [Int.sub_add_cancel]
    refine ⟨?_, h⟩
    unfold yearStart at *
    omega
  · rename_i h
    split
    · rename_i h'
      refine ⟨h', ?_⟩
      unfold yearStart at *
      omega
    · rename_i h'
      exact ⟨Int.not_lt.mp h, Int.not_le.mp h'⟩

/-- A year has begun by a day exactly if it is not later than the year of the day. -/
theorem le_yearOf_iff (y n : Int) : y ≤ yearOf n ↔ yearStart y ≤ n := by
  obtain ⟨hle, hlt⟩ := yearOf_spec n
  constructor
  · intro h
    exact (yearStart_strictMono.monotone h).trans hle
  · intro h
    exact Int.lt_add_one_iff.mp (yearStart_strictMono.lt_iff_lt.mp (h.trans_lt hlt))

theorem yearOf_eq_iff (y n : Int) :
    yearOf n = y ↔ yearStart y ≤ n ∧ n < yearStart (y + 1) := by
  rw [← le_yearOf_iff, ← Int.not_le, ← le_yearOf_iff]
  omega

def monthLengths (y : Int) : List Nat :=
  [31, if IsLeap y then 29 else 28, 31, 30, 31, 30, 31, 31, 30, 31, 30, 31]

theorem sum_monthLengths (y : Int) :
    (monthLengths y).sum = if IsLeap y then 366 else 365 := by
  unfold monthLengths
  split <;> rfl

@[ext] structure Date where
  year : Int
  month : Nat
  day : Nat
  day_lt : day < (monthLengths year).getD month 0

namespace Date

theorem month_lt (d : Date) : d.month < 12 := by
  by_contra h
  have hday := d.day_lt
  rw [List.getD_eq_default _ _ (by simpa [monthLengths] using h)] at hday
  exact Nat.not_lt_zero _ hday

theorem day_lt_31 (d : Date) : d.day < 31 := by
  have hlen : ∀ len ∈ monthLengths d.year, len ≤ 31 := by
    unfold monthLengths
    split <;> decide
  have hday := d.day_lt
  by_cases hmonth : d.month < (monthLengths d.year).length
  · rw [List.getD_eq_getElem _ _ hmonth] at hday
    exact hday.trans_le (hlen _ (List.getElem_mem hmonth))
  · rw [List.getD_eq_default _ _ (Nat.not_lt.mp hmonth)] at hday
    exact absurd hday (Nat.not_lt_zero _)

/-- The day of a date. -/
def dayNumber (d : Date) : Int :=
  yearStart d.year + offset (monthLengths d.year) d.month d.day

theorem yearOf_dayNumber (d : Date) : yearOf d.dayNumber = d.year := by
  rw [yearOf_eq_iff, yearStart_succ]
  have hlt := offset_lt_sum d.day_lt
  rw [sum_monthLengths] at hlt
  unfold dayNumber
  constructor
  · omega
  · split at hlt
    · rename_i hleap
      rw [if_pos hleap]
      omega
    · rename_i hleap
      rw [if_neg hleap]
      omega

end Date

/-- How many days of its year are over. -/
def dayOfYear (n : Int) : Nat := (n - yearStart (yearOf n)).toNat

theorem yearStart_add_dayOfYear (n : Int) : yearStart (yearOf n) + dayOfYear n = n := by
  have hle := (yearOf_spec n).1
  unfold dayOfYear
  omega

theorem dayOfYear_lt (n : Int) : dayOfYear n < (monthLengths (yearOf n)).sum := by
  obtain ⟨hle, hlt⟩ := yearOf_spec n
  rw [yearStart_succ] at hlt
  rw [sum_monthLengths]
  unfold dayOfYear
  split at hlt
  · rename_i hleap
    rw [if_pos hleap]
    omega
  · rename_i hleap
    rw [if_neg hleap]
    omega

/-- The date of a day. -/
def dateOf (n : Int) : Date where
  year := yearOf n
  month := (locate (monthLengths (yearOf n)) (dayOfYear n)).1
  day := (locate (monthLengths (yearOf n)) (dayOfYear n)).2
  day_lt := (locate_spec (dayOfYear_lt n)).1

theorem dayNumber_dateOf (n : Int) : (dateOf n).dayNumber = n := by
  have hoffset := (locate_spec (dayOfYear_lt n)).2
  rw [Date.dayNumber]
  simp only [dateOf, hoffset]
  exact yearStart_add_dayOfYear n

theorem dateOf_dayNumber (d : Date) : dateOf d.dayNumber = d := by
  have hyear := d.yearOf_dayNumber
  have hplace : dayOfYear d.dayNumber = offset (monthLengths d.year) d.month d.day := by
    rw [dayOfYear, hyear, Date.dayNumber, add_sub_cancel_left, Int.toNat_natCast]
  have hlocate : locate (monthLengths (yearOf d.dayNumber)) (dayOfYear d.dayNumber) =
      (d.month, d.day) := by
    rw [hplace, hyear]
    exact locate_offset d.day_lt
  ext
  · exact hyear
  · exact congrArg Prod.fst hlocate
  · exact congrArg Prod.snd hlocate

end Calendar
