import Mathlib.Data.List.Basic
import Mathlib.Data.List.Infix

/-!
# Backtracking regular expressions over an arbitrary alphabet

`attempts` lists, in the order of a greedy backtracking matcher, every way an
expression can match at the head of an input. `fullMatch` takes the first
attempt that uses the whole input and `search` takes the first attempt at the
leftmost position that has one. `Derives` is the declarative meaning, and
`mem_attempts_iff` says that the matcher enumerates exactly its derivations.

## Implementation notes

Repetition is over single symbols. The flag carried along says whether the
matcher still stands at the start of the target, which only `lineStart` reads.
-/

namespace BacktrackRegex

variable {α : Type*}

/-- Captured groups, the latest first. -/
abbrev Captures (α : Type*) := List (Nat × List α)

/-- The text of a group; a group that took no part has the empty text. -/
def Captures.str (caps : Captures α) (i : Nat) : List α :=
  (caps.lookup i).getD []

/-- Expressions: one symbol, greedy repetition of one symbol, sequence, greedy
option, captured group and the two line anchors. -/
inductive Regex (α : Type*) where
  | empty
  | char (p : α → Bool)
  | many (p : α → Bool)
  | seq (r s : Regex α)
  | opt (r : Regex α)
  | group (i : Nat) (r : Regex α)
  | lineStart
  | lineEnd

namespace Regex

/-- One or more symbols of a class. -/
def plus (p : α → Bool) : Regex α := seq (char p) (many p)

/-- Exactly `n` symbols of a class. -/
def rep (p : α → Bool) : Nat → Regex α
  | 0 => empty
  | n + 1 => seq (char p) (rep p n)

/-- A fixed text. -/
def lit [BEq α] : List α → Regex α
  | [] => empty
  | a :: text => seq (char (· == a)) (lit text)

/-- The sequence of a list of expressions. -/
def seqs : List (Regex α) → Regex α
  | [] => empty
  | r :: rest => seq r (seqs rest)

end Regex

/-- One way to match at the head of an input. -/
structure Attempt (α : Type*) where
  text : List α
  rest : List α
  caps : Captures α

/-- The splits of an input after a run of symbols of a class, longest run first. -/
def manySplits (p : α → Bool) : List α → List (List α × List α)
  | [] => [([], [])]
  | a :: s =>
      if p a then (manySplits p s).map (fun m => (a :: m.1, m.2)) ++ [([], a :: s)]
      else [([], a :: s)]

/-- All matches at the head of an input, in the order of a backtracking matcher. -/
def attempts : Regex α → Bool → List α → List (Attempt α)
  | .empty, _, s => [⟨[], s, []⟩]
  | .char _, _, [] => []
  | .char p, _, a :: s => if p a then [⟨[a], s, []⟩] else []
  | .many p, _, s => (manySplits p s).map fun m => ⟨m.1, m.2, []⟩
  | .seq r₁ r₂, b, s =>
      (attempts r₁ b s).flatMap fun m =>
        (attempts r₂ (b && m.text.isEmpty) m.rest).map fun m' =>
          ⟨m.text ++ m'.text, m'.rest, m'.caps ++ m.caps⟩
  | .opt r, b, s => attempts r b s ++ [⟨[], s, []⟩]
  | .group i r, b, s =>
      (attempts r b s).map fun m => ⟨m.text, m.rest, (i, m.text) :: m.caps⟩
  | .lineStart, b, s => if b then [⟨[], s, []⟩] else []
  | .lineEnd, _, s => if s.isEmpty then [⟨[], s, []⟩] else []

/-- `Derives r b w t c`: standing at the target's start iff `b`, the expression
matches the text `w` in front of `t` and captures `c`. -/
def Derives : Regex α → Bool → List α → List α → Captures α → Prop
  | .empty, _, w, _, c => w = [] ∧ c = []
  | .char p, _, w, _, c => (∃ a, p a = true ∧ w = [a]) ∧ c = []
  | .many p, _, w, _, c => (∀ a ∈ w, p a = true) ∧ c = []
  | .seq r₁ r₂, b, w, t, c =>
      ∃ w₁ w₂ c₁ c₂, w = w₁ ++ w₂ ∧ c = c₂ ++ c₁ ∧
        Derives r₁ b w₁ (w₂ ++ t) c₁ ∧ Derives r₂ (b && w₁.isEmpty) w₂ t c₂
  | .opt r, b, w, t, c => Derives r b w t c ∨ (w = [] ∧ c = [])
  | .group i r, b, w, t, c => ∃ c', Derives r b w t c' ∧ c = (i, w) :: c'
  | .lineStart, b, w, _, c => b = true ∧ w = [] ∧ c = []
  | .lineEnd, _, w, t, c => t = [] ∧ w = [] ∧ c = []

theorem mem_manySplits_iff (p : α → Bool) (s : List α) (m : List α × List α) :
    m ∈ manySplits p s ↔ s = m.1 ++ m.2 ∧ ∀ a ∈ m.1, p a = true := by
  induction s generalizing m with
  | nil =>
      obtain ⟨u, v⟩ := m
      simp only [manySplits, List.mem_singleton, Prod.mk.injEq, List.nil_eq_append_iff]
      constructor
      · rintro ⟨rfl, rfl⟩
        simp
      · rintro ⟨⟨rfl, rfl⟩, -⟩
        simp
  | cons a s ih =>
      obtain ⟨u, v⟩ := m
      cases u with
      | nil =>
          have heq : v = a :: s ↔ a :: s = v := eq_comm
          by_cases hp : p a = true <;> simp [manySplits, hp, heq]
      | cons b u =>
          by_cases hp : p a = true
          · simp only [manySplits, hp, if_true, List.mem_append, List.mem_map, Prod.mk.injEq,
              List.cons.injEq, List.mem_cons, List.not_mem_nil, reduceCtorEq, false_and,
              or_false, List.cons_append, forall_eq_or_imp]
            constructor
            · rintro ⟨⟨u', v'⟩, hm, ⟨rfl, rfl⟩, rfl⟩
              obtain ⟨hs, hall⟩ := (ih (u', v')).mp hm
              exact ⟨⟨rfl, hs⟩, hp, hall⟩
            · rintro ⟨⟨rfl, hs⟩, -, hall⟩
              exact ⟨(u, v), (ih (u, v)).mpr ⟨hs, hall⟩, ⟨rfl, rfl⟩, rfl⟩
          · simp only [manySplits, hp, Bool.false_eq_true, if_false, List.mem_cons,
              List.not_mem_nil, Prod.mk.injEq, reduceCtorEq, false_and, or_false,
              List.cons_append, List.cons.injEq, forall_eq_or_imp, false_iff]
            rintro ⟨⟨rfl, -⟩, hb, -⟩
            exact hp hb

section Enumerates

attribute [local simp] attempts Derives

/-- At the head of every input the matcher finds exactly the derivations of the expression. -/
def Enumerates (r : Regex α) : Prop :=
  ∀ (b : Bool) (s : List α) (m : Attempt α),
    m ∈ attempts r b s ↔ s = m.text ++ m.rest ∧ Derives r b m.text m.rest m.caps

theorem enumerates_empty : Enumerates (.empty : Regex α) := by
  intro b s m
  obtain ⟨w, t, c⟩ := m
  simp only [attempts, Derives, List.mem_singleton, Attempt.mk.injEq]
  constructor
  · rintro ⟨rfl, rfl, rfl⟩
    simp
  · rintro ⟨rfl, rfl, rfl⟩
    simp

theorem enumerates_char (p : α → Bool) : Enumerates (.char p) := by
  intro b s m
  obtain ⟨w, t, c⟩ := m
  cases s with
  | nil =>
      simp only [attempts, Derives, List.not_mem_nil, false_iff]
      rintro ⟨hs, ⟨a, -, rfl⟩, -⟩
      simp at hs
  | cons a s =>
      by_cases hp : p a = true
      · simp only [attempts, hp, if_true, List.mem_singleton, Attempt.mk.injEq, Derives]
        constructor
        · rintro ⟨rfl, rfl, rfl⟩
          exact ⟨rfl, ⟨a, hp, rfl⟩, rfl⟩
        · rintro ⟨hs, ⟨a', -, rfl⟩, rfl⟩
          simp only [List.singleton_append, List.cons.injEq] at hs
          simp [hs.1, hs.2]
      · simp only [attempts, hp, Bool.false_eq_true, if_false, List.not_mem_nil, false_iff,
          Derives]
        rintro ⟨hs, ⟨a', ha', rfl⟩, -⟩
        simp only [List.singleton_append, List.cons.injEq] at hs
        exact hp (hs.1 ▸ ha')

theorem enumerates_many (p : α → Bool) : Enumerates (.many p) := by
  intro b s m
  obtain ⟨w, t, c⟩ := m
  simp only [attempts, Derives, List.mem_map, Attempt.mk.injEq]
  constructor
  · rintro ⟨⟨u, v⟩, hm, rfl, rfl, rfl⟩
    obtain ⟨hs, hall⟩ := (mem_manySplits_iff p s (u, v)).mp hm
    exact ⟨hs, hall, rfl⟩
  · rintro ⟨hs, hall, rfl⟩
    exact ⟨(w, t), (mem_manySplits_iff p s (w, t)).mpr ⟨hs, hall⟩, rfl, rfl, rfl⟩

theorem enumerates_seq {r₁ r₂ : Regex α} (h₁ : Enumerates r₁) (h₂ : Enumerates r₂) :
    Enumerates (.seq r₁ r₂) := by
  intro b s m
  obtain ⟨w, t, c⟩ := m
  simp only [attempts, Derives, List.mem_flatMap, List.mem_map, Attempt.mk.injEq]
  constructor
  · rintro ⟨m₁, hm₁, m₂, hm₂, rfl, rfl, rfl⟩
    obtain ⟨hs₁, hd₁⟩ := (h₁ b s m₁).mp hm₁
    obtain ⟨hs₂, hd₂⟩ := (h₂ _ m₁.rest m₂).mp hm₂
    refine ⟨by rw [hs₁, hs₂, List.append_assoc], m₁.text, m₂.text, m₁.caps, m₂.caps,
      rfl, rfl, ?_, hd₂⟩
    exact hs₂ ▸ hd₁
  · rintro ⟨hs, w₁, w₂, c₁, c₂, rfl, rfl, hd₁, hd₂⟩
    refine ⟨⟨w₁, w₂ ++ t, c₁⟩, (h₁ b s _).mpr ⟨by rw [hs, List.append_assoc], hd₁⟩,
      ⟨w₂, t, c₂⟩, (h₂ _ _ _).mpr ⟨rfl, hd₂⟩, rfl, rfl, rfl⟩

theorem enumerates_opt {r : Regex α} (h : Enumerates r) : Enumerates (.opt r) := by
  intro b s m
  obtain ⟨w, t, c⟩ := m
  simp only [attempts, Derives, List.mem_append, List.mem_singleton, Attempt.mk.injEq, h b s _]
  constructor
  · rintro (⟨hs, hd⟩ | ⟨rfl, rfl, rfl⟩)
    · exact ⟨hs, Or.inl hd⟩
    · simp
  · rintro ⟨hs, hd | ⟨rfl, rfl⟩⟩
    · exact Or.inl ⟨hs, hd⟩
    · exact Or.inr ⟨rfl, by simpa using hs.symm, rfl⟩

theorem enumerates_group (i : Nat) {r : Regex α} (h : Enumerates r) : Enumerates (.group i r) := by
  intro b s m
  obtain ⟨w, t, c⟩ := m
  simp only [attempts, Derives, List.mem_map, Attempt.mk.injEq]
  constructor
  · rintro ⟨m', hm', rfl, rfl, rfl⟩
    obtain ⟨hs, hd⟩ := (h b s m').mp hm'
    exact ⟨hs, m'.caps, hd, rfl⟩
  · rintro ⟨hs, c', hd, rfl⟩
    exact ⟨⟨w, t, c'⟩, (h b s _).mpr ⟨hs, hd⟩, rfl, rfl, rfl⟩

theorem enumerates_lineStart : Enumerates (.lineStart : Regex α) := by
  intro b s m
  obtain ⟨w, t, c⟩ := m
  cases b with
  | false => simp [attempts, Derives]
  | true =>
      simp only [attempts, if_true, Derives, List.mem_singleton, Attempt.mk.injEq, true_and]
      constructor
      · rintro ⟨rfl, rfl, rfl⟩
        simp
      · rintro ⟨rfl, rfl, rfl⟩
        simp

theorem enumerates_lineEnd : Enumerates (.lineEnd : Regex α) := by
  intro b s m
  obtain ⟨w, t, c⟩ := m
  cases s with
  | nil =>
      simp only [attempts, List.isEmpty_nil, if_true, List.mem_singleton, Attempt.mk.injEq,
        Derives, List.nil_eq_append_iff]
      constructor
      · rintro ⟨rfl, rfl, rfl⟩
        simp
      · rintro ⟨-, rfl, rfl, rfl⟩
        simp
  | cons a s =>
      simp only [attempts, List.isEmpty_cons, Bool.false_eq_true, if_false, List.not_mem_nil,
        Derives, false_iff]
      rintro ⟨hs, rfl, rfl, -⟩
      simp at hs

/-- The matcher enumerates the derivations of every expression. -/
theorem mem_attempts_iff (r : Regex α) : Enumerates r := by
  induction r with
  | empty => exact enumerates_empty
  | char p => exact enumerates_char p
  | many p => exact enumerates_many p
  | seq r₁ r₂ ih₁ ih₂ => exact enumerates_seq ih₁ ih₂
  | opt r ih => exact enumerates_opt ih
  | group i r ih => exact enumerates_group i ih
  | lineStart => exact enumerates_lineStart
  | lineEnd => exact enumerates_lineEnd

end Enumerates

@[simp] theorem derives_plus_iff (p : α → Bool) (b : Bool) (w t : List α) (c : Captures α) :
    Derives (.plus p) b w t c ↔ w ≠ [] ∧ (∀ a ∈ w, p a = true) ∧ c = [] := by
  simp only [Regex.plus, Derives]
  constructor
  · rintro ⟨w₁, w₂, c₁, c₂, rfl, rfl, ⟨⟨a, ha, rfl⟩, rfl⟩, hall, rfl⟩
    exact ⟨by simp, by simpa [ha] using hall, rfl⟩
  · rintro ⟨hne, hall, rfl⟩
    cases w with
    | nil => exact absurd rfl hne
    | cons a w =>
        exact ⟨[a], w, [], [], rfl, rfl, ⟨⟨a, hall a (by simp), rfl⟩, rfl⟩,
          fun x hx => hall x (List.mem_cons_of_mem a hx), rfl⟩

@[simp] theorem derives_rep_iff (p : α → Bool) (n : Nat) (b : Bool) (w t : List α)
    (c : Captures α) :
    Derives (.rep p n) b w t c ↔ w.length = n ∧ (∀ a ∈ w, p a = true) ∧ c = [] := by
  induction n generalizing b w c with
  | zero =>
      simp only [Regex.rep, Derives, List.length_eq_zero_iff]
      constructor
      · rintro ⟨rfl, rfl⟩
        simp
      · rintro ⟨rfl, -, rfl⟩
        simp
  | succ n ih =>
      simp only [Regex.rep, Derives, ih]
      constructor
      · rintro ⟨w₁, w₂, c₁, c₂, rfl, rfl, ⟨⟨a, ha, rfl⟩, rfl⟩, hlen, hall, rfl⟩
        exact ⟨by simp [hlen], by simpa [ha] using hall, rfl⟩
      · rintro ⟨hlen, hall, rfl⟩
        cases w with
        | nil => simp at hlen
        | cons a w =>
            exact ⟨[a], w, [], [], rfl, rfl, ⟨⟨a, hall a (by simp), rfl⟩, rfl⟩,
              by simpa using hlen, fun x hx => hall x (List.mem_cons_of_mem a hx), rfl⟩

@[simp] theorem derives_lit_iff [BEq α] [LawfulBEq α] (text : List α) (b : Bool)
    (w t : List α) (c : Captures α) :
    Derives (.lit text) b w t c ↔ w = text ∧ c = [] := by
  induction text generalizing b w c with
  | nil => rfl
  | cons a text ih =>
      simp only [Regex.lit, Derives, ih, beq_iff_eq]
      constructor
      · rintro ⟨w₁, w₂, c₁, c₂, rfl, rfl, ⟨⟨a', rfl, rfl⟩, rfl⟩, rfl, rfl⟩
        exact ⟨rfl, rfl⟩
      · rintro ⟨rfl, rfl⟩
        exact ⟨[a], text, [], [], rfl, rfl, ⟨⟨a, rfl, rfl⟩, rfl⟩, rfl, rfl⟩

theorem derives_opt_lit_iff [BEq α] [LawfulBEq α] (text : List α) (b : Bool) (w t : List α)
    (c : Captures α) : Derives (.opt (.lit text)) b w t c ↔ (w = text ∨ w = []) ∧ c = [] := by
  simp only [Derives, derives_lit_iff]
  exact or_and_right.symm

/-- A sequence whose first part captures nothing splits the text in two. -/
theorem derives_seq_of_plain {r₁ : Regex α} {P : List α → Prop}
    (h : ∀ b w t c, Derives r₁ b w t c ↔ P w ∧ c = []) (r₂ : Regex α) (b : Bool)
    (w t : List α) (c : Captures α) :
    Derives (.seq r₁ r₂) b w t c ↔
      ∃ u v, w = u ++ v ∧ P u ∧ Derives r₂ (b && u.isEmpty) v t c := by
  simp only [Derives, h]
  constructor
  · rintro ⟨u, v, c₁, c₂, hw, rfl, ⟨hu, rfl⟩, hv⟩
    exact ⟨u, v, hw, hu, by simpa using hv⟩
  · rintro ⟨u, v, hw, hu, hv⟩
    exact ⟨u, v, [], c, hw, by simp, ⟨hu, rfl⟩, hv⟩

theorem derives_seq_lit_iff [BEq α] [LawfulBEq α] (text : List α) (r : Regex α) (b : Bool)
    (w t : List α) (c : Captures α) :
    Derives (.seq (.lit text) r) b w t c ↔
      ∃ v, w = text ++ v ∧ Derives r (b && text.isEmpty) v t c := by
  rw [derives_seq_of_plain (derives_lit_iff text)]
  constructor
  · rintro ⟨u, v, hw, rfl, hv⟩
    exact ⟨v, hw, hv⟩
  · rintro ⟨v, hw, hv⟩
    exact ⟨text, v, hw, rfl, hv⟩

theorem derives_seq_many_iff (p : α → Bool) (r : Regex α) (b : Bool) (w t : List α)
    (c : Captures α) :
    Derives (.seq (.many p) r) b w t c ↔
      ∃ u v, w = u ++ v ∧ (∀ a ∈ u, p a = true) ∧ Derives r (b && u.isEmpty) v t c :=
  derives_seq_of_plain (fun _ _ _ _ => Iff.rfl) r b w t c

theorem derives_seq_plus_iff (p : α → Bool) (r : Regex α) (b : Bool) (w t : List α)
    (c : Captures α) :
    Derives (.seq (.plus p) r) b w t c ↔
      ∃ u v, w = u ++ v ∧ (u ≠ [] ∧ ∀ a ∈ u, p a = true) ∧
        Derives r (b && u.isEmpty) v t c :=
  derives_seq_of_plain (fun b w t c => by rw [derives_plus_iff, and_assoc]) r b w t c

theorem derives_seq_rep_iff (p : α → Bool) (n : Nat) (r : Regex α) (b : Bool) (w t : List α)
    (c : Captures α) :
    Derives (.seq (.rep p n) r) b w t c ↔
      ∃ u v, w = u ++ v ∧ (u.length = n ∧ ∀ a ∈ u, p a = true) ∧
        Derives r (b && u.isEmpty) v t c :=
  derives_seq_of_plain (fun b w t c => by rw [derives_rep_iff, and_assoc]) r b w t c

theorem derives_empty_iff (b : Bool) (w t : List α) (c : Captures α) :
    Derives .empty b w t c ↔ w = [] ∧ c = [] := Iff.rfl

theorem derives_group_iff (i : Nat) (r : Regex α) (b : Bool) (w t : List α) (c : Captures α) :
    Derives (.group i r) b w t c ↔ ∃ c', Derives r b w t c' ∧ c = (i, w) :: c' := Iff.rfl

/-- A captured group at the head of a sequence. -/
theorem derives_seq_group_iff {r₁ : Regex α} {P : List α → Prop}
    (h : ∀ b w t c, Derives r₁ b w t c ↔ P w ∧ c = []) (i : Nat) (r₂ : Regex α) (b : Bool)
    (w t : List α) (c : Captures α) :
    Derives (.seq (.group i r₁) r₂) b w t c ↔
      ∃ u v c', w = u ++ v ∧ P u ∧ Derives r₂ (b && u.isEmpty) v t c' ∧ c = c' ++ [(i, u)] := by
  simp only [Derives, h]
  constructor
  · intro hd
    obtain ⟨u, v, c₁, c₂, hw, rfl, ⟨c', ⟨hu, rfl⟩, rfl⟩, hv⟩ := hd
    exact ⟨u, v, c₂, hw, hu, hv, rfl⟩
  · intro hd
    obtain ⟨u, v, c', hw, hu, hv, rfl⟩ := hd
    exact ⟨u, v, [(i, u)], c', hw, rfl, ⟨[], ⟨hu, rfl⟩, rfl⟩, hv⟩

/-- The captures of the first attempt that uses the whole target. -/
def fullMatch (r : Regex α) (s : List α) : Option (Captures α) :=
  ((attempts r true s).find? (fun m => m.rest.isEmpty)).map (·.caps)

theorem fullMatch_sound {r : Regex α} {s : List α} {c : Captures α}
    (h : fullMatch r s = some c) : Derives r true s [] c := by
  obtain ⟨m, hfind, rfl⟩ := Option.map_eq_some_iff.mp h
  have hrest : m.rest = [] := by simpa using List.find?_some hfind
  obtain ⟨hs, hd⟩ := (mem_attempts_iff r true s m).mp (List.mem_of_find?_eq_some hfind)
  rw [hrest] at hs hd
  rw [hs, List.append_nil]
  exact hd

theorem fullMatch_isSome_iff (r : Regex α) (s : List α) :
    (fullMatch r s).isSome ↔ ∃ c, Derives r true s [] c := by
  constructor
  · intro h
    obtain ⟨c, hc⟩ := Option.isSome_iff_exists.mp h
    exact ⟨c, fullMatch_sound hc⟩
  · rintro ⟨c, hd⟩
    have hmem : (⟨s, [], c⟩ : Attempt α) ∈ attempts r true s :=
      (mem_attempts_iff r true s _).mpr ⟨by simp, hd⟩
    rw [fullMatch, Option.isSome_map, List.find?_isSome]
    exact ⟨_, hmem, rfl⟩

/-- A target with one derivation only is matched with that derivation's captures. -/
theorem fullMatch_eq_of_unique {r : Regex α} {s : List α} {c : Captures α}
    (hd : Derives r true s [] c) (huniq : ∀ c', Derives r true s [] c' → c' = c) :
    fullMatch r s = some c := by
  obtain ⟨c', hc'⟩ := Option.isSome_iff_exists.mp ((fullMatch_isSome_iff r s).mpr ⟨c, hd⟩)
  rw [hc', huniq c' (fullMatch_sound hc')]

/-- An anchor at the start of the target changes nothing. -/
theorem fullMatch_lineStart (r : Regex α) (s : List α) :
    fullMatch (.seq .lineStart r) s = fullMatch r s := by
  simp [fullMatch, attempts]

/-- The first attempt takes the longest run of every repetition. Where it uses the whole target it
is the match. -/
theorem fullMatch_of_first {r : Regex α} {s w : List α} {c : Captures α}
    (h : (attempts r true s).head? = some ⟨w, [], c⟩) : fullMatch r s = some c := by
  rw [List.head?_eq_some_iff] at h
  obtain ⟨rest, hrest⟩ := h
  simp [fullMatch, hrest]

theorem first_seq {r₁ r₂ : Regex α} {b : Bool} {s : List α} {m m' : Attempt α}
    (h₁ : (attempts r₁ b s).head? = some m)
    (h₂ : (attempts r₂ (b && m.text.isEmpty) m.rest).head? = some m') :
    (attempts (.seq r₁ r₂) b s).head? =
      some ⟨m.text ++ m'.text, m'.rest, m'.caps ++ m.caps⟩ := by
  obtain ⟨rest₁, hrest₁⟩ := List.head?_eq_some_iff.mp h₁
  obtain ⟨rest₂, hrest₂⟩ := List.head?_eq_some_iff.mp h₂
  simp [attempts, hrest₁, hrest₂]

theorem first_group {i : Nat} {r : Regex α} {b : Bool} {s : List α} {m : Attempt α}
    (h : (attempts r b s).head? = some m) :
    (attempts (.group i r) b s).head? = some ⟨m.text, m.rest, (i, m.text) :: m.caps⟩ := by
  simp [attempts, h]

theorem first_opt {r : Regex α} {b : Bool} {s : List α} {m : Attempt α}
    (h : (attempts r b s).head? = some m) : (attempts (.opt r) b s).head? = some m := by
  simp [attempts, List.head?_append, h]

/-- A repetition takes the longest run first. -/
theorem first_many {p : α → Bool} {b : Bool} {u t : List α} (hu : ∀ a ∈ u, p a = true)
    (ht : ∀ a, t.head? = some a → p a = false) :
    (attempts (.many p) b (u ++ t)).head? = some ⟨u, t, []⟩ := by
  have hsplit : (manySplits p (u ++ t)).head? = some (u, t) := by
    induction u with
    | nil =>
        cases t with
        | nil => rfl
        | cons a t => simp [manySplits, ht a rfl]
    | cons a u ih =>
        have hrest := ih fun x hx => hu x (List.mem_cons_of_mem a hx)
        simp [manySplits, hu a List.mem_cons_self, List.head?_append, hrest]
  simp [attempts, hsplit]

/-- An option that cannot begin in front of the input is passed over. -/
theorem first_opt_skip {r : Regex α} {b : Bool} {s : List α} (h : attempts r b s = []) :
    (attempts (.opt r) b s).head? = some ⟨[], s, []⟩ := by
  simp [attempts, h]

theorem attempts_lit_eq_nil [BEq α] [LawfulBEq α] {a : α} {text : List α} {b : Bool}
    {s : List α} (h : s.head? ≠ some a) : attempts (.lit (a :: text)) b s = [] := by
  cases s with
  | nil => simp [Regex.lit, attempts]
  | cons c s =>
      have hne : c ≠ a := fun heq => h (congrArg some heq)
      simp [Regex.lit, attempts, hne]

/-- One or more symbols: the longest run is taken first. -/
theorem first_plus {p : α → Bool} {b : Bool} {u t : List α} (hne : u ≠ [])
    (hu : ∀ a ∈ u, p a = true) (ht : ∀ a, t.head? = some a → p a = false) :
    (attempts (.plus p) b (u ++ t)).head? = some ⟨u, t, []⟩ := by
  cases u with
  | nil => exact absurd rfl hne
  | cons a u =>
      have hone : (attempts (.char p) b (a :: (u ++ t))).head? = some ⟨[a], u ++ t, []⟩ := by
        simp [attempts, hu a List.mem_cons_self]
      have hmany := first_many (b := b && false)
        (fun x hx => hu x (List.mem_cons_of_mem a hx)) ht
      exact first_seq hone hmany

/-- In front of anything the expression first takes the text, with these captures. -/
def TakesFirstAs (r : Regex α) (w : List α) (c : Captures α) : Prop :=
  ∀ b t, (attempts r b (w ++ t)).head? = some ⟨w, t, c⟩

theorem TakesFirstAs.fullMatch_eq {r : Regex α} {w : List α} {c : Captures α}
    (h : TakesFirstAs r w c) : fullMatch r w = some c := by
  have hfirst := h true []
  rw [List.append_nil] at hfirst
  exact fullMatch_of_first hfirst

theorem TakesFirstAs.seq {r₁ r₂ : Regex α} {u v : List α} {c d : Captures α}
    (h₁ : TakesFirstAs r₁ u c) (h₂ : TakesFirstAs r₂ v d) :
    TakesFirstAs (.seq r₁ r₂) (u ++ v) (d ++ c) := by
  intro b t
  rw [List.append_assoc]
  exact first_seq (h₁ b (v ++ t)) (h₂ _ t)

theorem TakesFirstAs.group {r : Regex α} {w : List α} {c : Captures α}
    (h : TakesFirstAs r w c) (i : Nat) : TakesFirstAs (.group i r) w ((i, w) :: c) :=
  fun b t => first_group (h b t)

/-- In front of anything the expression first takes the text, and captures nothing. -/
def TakesFirst (r : Regex α) (w : List α) : Prop :=
  ∀ b t, (attempts r b (w ++ t)).head? = some ⟨w, t, []⟩

theorem takesFirst_seq {r₁ r₂ : Regex α} {u v : List α} (h₁ : TakesFirst r₁ u)
    (h₂ : TakesFirst r₂ v) : TakesFirst (.seq r₁ r₂) (u ++ v) :=
  TakesFirstAs.seq h₁ h₂

theorem takesFirst_lit [BEq α] [LawfulBEq α] (text : List α) : TakesFirst (.lit text) text := by
  induction text with
  | nil => exact fun _ _ => rfl
  | cons a text ih =>
      have hone : TakesFirst (.char (· == a)) [a] := by
        intro b t
        simp [attempts]
      exact takesFirst_seq hone ih

theorem takesFirst_rep {p : α → Bool} {w : List α} (hw : ∀ a ∈ w, p a = true) :
    TakesFirst (.rep p w.length) w := by
  induction w with
  | nil => exact fun _ _ => rfl
  | cons a w ih =>
      have hone : TakesFirst (.char p) [a] := by
        intro b t
        simp [attempts, hw a List.mem_cons_self]
      exact takesFirst_seq hone (ih fun x hx => hw x (List.mem_cons_of_mem a hx))

/-- A sequence of expressions takes the concatenation of their texts and captures what they do. -/
theorem takesFirstAs_seqs (parts : List (Regex α × List α × Captures α))
    (h : ∀ part ∈ parts, TakesFirstAs part.1 part.2.1 part.2.2) :
    TakesFirstAs (.seqs (parts.map Prod.fst)) (parts.map fun part => part.2.1).flatten
      (parts.map fun part => part.2.2).reverse.flatten := by
  induction parts with
  | nil => exact fun _ _ => rfl
  | cons part parts ih =>
      have htail := ih fun p hp => h p (List.mem_cons_of_mem part hp)
      have hall := (h part List.mem_cons_self).seq htail
      simpa [Regex.seqs] using hall

/-- A found match with the text on both sides of it. -/
structure Found (α : Type*) where
  before : List α
  text : List α
  after : List α
  caps : Captures α

/-- The same match seen from an earlier start. -/
def Found.shift (u : List α) (m : Found α) : Found α :=
  { m with before := u ++ m.before }

/-- The first attempt at the leftmost position that has one. -/
def searchFrom (r : Regex α) (b : Bool) : List α → Option (Found α)
  | [] => (attempts r b []).head?.map fun m => ⟨[], m.text, m.rest, m.caps⟩
  | a :: s =>
      match (attempts r b (a :: s)).head? with
      | some m => some ⟨[], m.text, m.rest, m.caps⟩
      | none => (searchFrom r false s).map (Found.shift [a])

def search (r : Regex α) (s : List α) : Option (Found α) := searchFrom r true s

/-- No match begins at the head of the input, wherever the input stands. -/
def Dead (r : Regex α) (s : List α) : Prop :=
  ∀ b w t c, s = w ++ t → ¬ Derives r b w t c

theorem Dead.attempts_eq_nil {r : Regex α} {s : List α} (h : Dead r s) (b : Bool) :
    attempts r b s = [] := by
  apply List.eq_nil_iff_forall_not_mem.mpr
  intro m hm
  obtain ⟨hs, hd⟩ := (mem_attempts_iff r b s m).mp hm
  exact h b m.text m.rest m.caps hs hd

/-- Every found match is a derivation between the two sides it reports. -/
theorem searchFrom_sound {r : Regex α} {b : Bool} {s : List α} {m : Found α}
    (h : searchFrom r b s = some m) :
    s = m.before ++ m.text ++ m.after ∧ ∃ b', Derives r b' m.text m.after m.caps := by
  induction s generalizing b m with
  | nil =>
      obtain ⟨m', hhead, rfl⟩ := Option.map_eq_some_iff.mp h
      obtain ⟨hs, hd⟩ := (mem_attempts_iff r b [] m').mp (List.mem_of_mem_head? hhead)
      exact ⟨by simpa using hs, b, hd⟩
  | cons a s ih =>
      simp only [searchFrom] at h
      cases hhead : (attempts r b (a :: s)).head? with
      | some m' =>
          rw [hhead] at h
          obtain rfl := Option.some.inj h
          obtain ⟨hs, hd⟩ := (mem_attempts_iff r b (a :: s) m').mp (List.mem_of_mem_head? hhead)
          exact ⟨by simpa using hs, b, hd⟩
      | none =>
          rw [hhead] at h
          obtain ⟨m', hm', rfl⟩ := Option.map_eq_some_iff.mp h
          obtain ⟨hs, hd⟩ := ih hm'
          exact ⟨by simp [Found.shift, hs], hd⟩

/-- A derivation anywhere in the input is not missed. -/
theorem searchFrom_ne_none {r : Regex α} {u w t : List α}
    (h : ∀ b, ∃ c, Derives r b w t c) (b : Bool) : searchFrom r b (u ++ (w ++ t)) ≠ none := by
  induction u generalizing b with
  | nil =>
      obtain ⟨c, hc⟩ := h b
      have hmem : (⟨w, t, c⟩ : Attempt α) ∈ attempts r b (w ++ t) :=
        (mem_attempts_iff r b _ _).mpr ⟨rfl, hc⟩
      obtain ⟨m, ms, hms⟩ := List.exists_cons_of_ne_nil (List.ne_nil_of_mem hmem)
      rw [List.nil_append]
      cases hwt : w ++ t with
      | nil => simp [searchFrom, ← hwt, hms]
      | cons a s => simp [searchFrom, ← hwt, hms]
  | cons a u ih =>
      rw [List.cons_append, searchFrom]
      cases (attempts r b (a :: (u ++ (w ++ t)))).head? with
      | none => simpa using ih false
      | some m => simp

/-- The search skips a front in which no match begins. -/
theorem searchFrom_append_of_dead {r : Regex α} {u t : List α}
    (h : ∀ v, v <:+ u → v ≠ [] → Dead r (v ++ t)) (b : Bool) :
    ∃ b', searchFrom r b (u ++ t) = (searchFrom r b' t).map (Found.shift u) := by
  induction u generalizing b with
  | nil =>
      refine ⟨b, ?_⟩
      cases hs : searchFrom r b t <;> simp [hs, Found.shift]
  | cons a u ih =>
      obtain ⟨b', hb'⟩ := ih (fun v hv => h v (hv.trans (List.suffix_cons a u))) false
      refine ⟨b', ?_⟩
      have hdead := (h (a :: u) List.suffix_rfl (by simp)).attempts_eq_nil b
      rw [List.cons_append] at hdead ⊢
      simp only [searchFrom, hdead, List.head?_nil, hb', Option.map_map]
      rfl

/-- An input in which no match begins anywhere is searched in vain. -/
theorem searchFrom_eq_none_of_dead {r : Regex α} {s : List α}
    (h : ∀ v, v <:+ s → Dead r v) (b : Bool) : searchFrom r b s = none := by
  induction s generalizing b with
  | nil => simp [searchFrom, (h [] List.suffix_rfl).attempts_eq_nil]
  | cons a s ih =>
      simp only [searchFrom, (h (a :: s) List.suffix_rfl).attempts_eq_nil, List.head?_nil,
        ih (fun v hv => h v (hv.trans (List.suffix_cons a s))), Option.map_none]

/-- A property of inputs holds nowhere in an input, or at a first place of it. -/
theorem exists_first_place (P : List α → Prop) (s : List α) :
    (∀ v, v <:+ s → ¬ P v) ∨ ∃ lead rest, s = lead ++ rest ∧ P rest ∧
      ∀ v, v <:+ lead → v ≠ [] → ¬ P (v ++ rest) := by
  by_cases hhere : P s
  · right
    refine ⟨[], s, rfl, hhere, fun v hv hne => absurd (List.suffix_nil.mp hv) hne⟩
  · induction s with
    | nil =>
        left
        intro v hv
        rw [List.suffix_nil.mp hv]
        exact hhere
    | cons a s ih =>
        by_cases hnext : P s
        · right
          refine ⟨[a], s, rfl, hnext, fun v hv hne => ?_⟩
          obtain rfl | hnil := List.suffix_cons_iff.mp hv
          · exact hhere
          · exact absurd (List.suffix_nil.mp hnil) hne
        · obtain hnone | ⟨lead, rest, rfl, hrest, hfirst⟩ := ih hnext
          · left
            intro v hv
            obtain rfl | htail := List.suffix_cons_iff.mp hv
            · exact hhere
            · exact hnone v htail
          · right
            refine ⟨a :: lead, rest, rfl, hrest, fun v hv hne => ?_⟩
            obtain rfl | htail := List.suffix_cons_iff.mp hv
            · exact hhere
            · exact hfirst v htail hne

/-- A match at the head is found in the way that is tried first. -/
theorem searchFrom_of_first {r : Regex α} {b : Bool} {s : List α} {m : Attempt α}
    (h : (attempts r b s).head? = some m) :
    searchFrom r b s = some ⟨[], m.text, m.rest, m.caps⟩ := by
  cases s with
  | nil => simp [searchFrom, h]
  | cons a s => simp [searchFrom, h]

/-- Where a match begins at the head and all of them have one text, it is found there. -/
theorem searchFrom_of_head {r : Regex α} {w t : List α} {c : Captures α} {b : Bool}
    (hd : Derives r b w t c)
    (huniq : ∀ w' t' c', w ++ t = w' ++ t' → Derives r b w' t' c' → w' = w) :
    ∃ c', searchFrom r b (w ++ t) = some ⟨[], w, t, c'⟩ := by
  have hmem : (⟨w, t, c⟩ : Attempt α) ∈ attempts r b (w ++ t) :=
    (mem_attempts_iff r b _ _).mpr ⟨rfl, hd⟩
  obtain ⟨m, ms, hms⟩ := List.exists_cons_of_ne_nil (List.ne_nil_of_mem hmem)
  have hm : m ∈ attempts r b (w ++ t) := by simp [hms]
  obtain ⟨hs, hdm⟩ := (mem_attempts_iff r b _ m).mp hm
  have htext : m.text = w := huniq m.text m.rest m.caps hs hdm
  have hrest : m.rest = t := by
    rw [htext] at hs
    exact (List.append_cancel_left hs).symm
  refine ⟨m.caps, ?_⟩
  cases hwt : w ++ t with
  | nil => simp [searchFrom, ← hwt, hms, htext, hrest]
  | cons a s => simp [searchFrom, ← hwt, hms, htext, hrest]

end BacktrackRegex
