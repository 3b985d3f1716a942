import Mathlib.Data.List.Basic

/-!
# Queues drained by tag

Items of several kinds wait in one queue. Draining a tag takes the oldest
items of that tag, up to a cap, and leaves all other items where they are.
-/

namespace TaggedQueue

variable {β τ : Type*} [DecidableEq τ] (tag : β → τ)

/-- The items of a tag, in order. -/
def ofTag (k : τ) (items : List β) : List β := items.filter (fun b => tag b = k)

/-- What is left after the oldest `n` items of a tag were taken. -/
def drain (k : τ) : Nat → List β → List β
  | 0, items => items
  | _ + 1, [] => []
  | n + 1, b :: items => if tag b = k then drain k n items else b :: drain k (n + 1) items

@[simp] theorem ofTag_append (k : τ) (items more : List β) :
    ofTag tag k (items ++ more) = ofTag tag k items ++ ofTag tag k more := by
  simp [ofTag]

@[simp] theorem drain_nil (k : τ) (n : Nat) : drain tag k n [] = [] := by
  cases n <;> rfl

/-- Draining takes the oldest items of its tag. -/
theorem ofTag_drain_self (k : τ) (n : Nat) (items : List β) :
    ofTag tag k (drain tag k n items) = (ofTag tag k items).drop n := by
  induction items generalizing n with
  | nil => simp [ofTag]
  | cons b items ih =>
      cases n with
      | zero => simp [drain]
      | succ n =>
          by_cases hb : tag b = k
          · simpa [drain, ofTag, hb] using ih n
          · simpa [drain, ofTag, hb] using ih (n + 1)

/-- Draining one tag keeps the items of every other tag. -/
theorem ofTag_drain_of_ne {k k' : τ} (hne : k' ≠ k) (n : Nat) (items : List β) :
    ofTag tag k' (drain tag k n items) = ofTag tag k' items := by
  induction items generalizing n with
  | nil => simp
  | cons b items ih =>
      cases n with
      | zero => rfl
      | succ n =>
          by_cases hb : tag b = k
          · have hb' : tag b ≠ k' := fun h => hne (h.symm.trans hb)
            have hcons : ofTag tag k' (b :: items) = ofTag tag k' items := by
              simp [ofTag, hb']
            rw [hcons, drain, if_pos hb, ih n]
          · rw [drain, if_neg hb]
            have hih := ih (n + 1)
            by_cases hb' : tag b = k' <;> simpa [ofTag, hb'] using hih

theorem drain_sublist (k : τ) (n : Nat) (items : List β) :
    (drain tag k n items).Sublist items := by
  induction items generalizing n with
  | nil => simp
  | cons b items ih =>
      cases n with
      | zero => exact List.Sublist.refl _
      | succ n =>
          by_cases hb : tag b = k
          · simpa [drain, hb] using (ih n).cons b
          · simpa [drain, hb] using (ih (n + 1)).cons_cons b

/-- A queue without the tag is left as it is. -/
theorem drain_eq_self {k : τ} {items : List β} (h : ∀ b ∈ items, tag b ≠ k) (n : Nat) :
    drain tag k n items = items := by
  induction items with
  | nil => simp
  | cons b items ih =>
      cases n with
      | zero => rfl
      | succ n => simp [drain, h b (by simp), ih fun b' hb' => h b' (List.mem_cons_of_mem b hb')]

/-- The first item of the tag goes first. -/
theorem drain_succ_of_first {k : τ} {front back : List β} {b : β}
    (hfront : ∀ b ∈ front, tag b ≠ k) (hb : tag b = k) (n : Nat) :
    drain tag k (n + 1) (front ++ b :: back) = drain tag k n (front ++ back) := by
  induction front generalizing n with
  | nil => simp [drain, hb]
  | cons c front ih =>
      have hc : tag c ≠ k := hfront c (by simp)
      have hrest : ∀ b ∈ front, tag b ≠ k := fun b' hb' => hfront b' (List.mem_cons_of_mem c hb')
      cases n with
      | zero =>
          have h0 := ih hrest 0
          simp only [drain] at h0
          simp [drain, hc, h0]
      | succ n => simp [drain, hc, ih hrest (n + 1)]

theorem ofTag_of_first {k : τ} {front back : List β} {b : β}
    (hfront : ∀ b ∈ front, tag b ≠ k) (hb : tag b = k) :
    ofTag tag k (front ++ b :: back) = b :: ofTag tag k (front ++ back) := by
  have hnil : ofTag tag k front = [] := by
    simpa [ofTag] using hfront
  rw [ofTag_append, ofTag_append, hnil]
  simp [ofTag, hb]

/-- Either no item has the tag or there is a first one. -/
theorem exists_first (k : τ) (items : List β) :
    (∀ b ∈ items, tag b ≠ k) ∨
      ∃ front b back, items = front ++ b :: back ∧ (∀ b ∈ front, tag b ≠ k) ∧ tag b = k := by
  induction items with
  | nil => exact Or.inl (by simp)
  | cons b items ih =>
      by_cases hb : tag b = k
      · exact Or.inr ⟨[], b, items, rfl, by simp, hb⟩
      · rcases ih with hall | ⟨front, c, back, rfl, hfront, hc⟩
        · exact Or.inl (by simpa [hb] using hall)
        · exact Or.inr ⟨b :: front, c, back, rfl, by simpa [hb] using hfront, hc⟩

end TaggedQueue
